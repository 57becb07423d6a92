import Mathlib.Order.Nat
import PeerRoster.Proofs.Precedence
import PeerRoster.Proofs.Rows

/-! Where a row stands in a listing. In a table of distinct names the rows that match are ordered
strictly, so the place of a row is the number of matching rows before it, and a window of the
listing holds the rows whose places lie in it. -/
namespace PeerRoster

/-- In a list that a relation orders strictly, an item has as many items before it as its place. -/
theorem countP_getElem_of_pairwise {α : Type} {R : α → α → Prop} [DecidableRel R] {l : List α}
    (hl : l.Pairwise R) (irrefl : ∀ a, ¬ R a a) (asymm : ∀ {a b}, R a b → ¬ R b a)
    (i : ℕ) (hi : i < l.length) : l.countP (R · l[i]) = i := by
  induction l generalizing i with
  | nil => simp at hi
  | cons a l ih =>
    obtain ⟨ha, hl⟩ := List.pairwise_cons.mp hl
    cases i with
    | zero =>
      have hr : l.countP (R · a) = 0 := by
        rw [List.countP_eq_zero]
        intro b hb
        simpa using asymm (ha b hb)
      simp [hr, irrefl]
    | succ i =>
      have hi : i < l.length := by simpa using hi
      have hb : R a l[i] := ha _ (List.getElem_mem hi)
      simp [hb, ih hl i hi]

/-- Whether a name has the filter, if there is one, as a contiguous part of its bytes. -/
def Matches : Option String → String → Prop
  | none, _ => True
  | some part, name => Utf8.bytes part <:+: Utf8.bytes name

instance : (filter : Option String) → (name : String) → Decidable (Matches filter name)
  | none, _ => inferInstanceAs (Decidable True)
  | some _, _ => inferInstanceAs (Decidable (_ <:+: _))

theorem Window.cut_eq {α : Type} (w : Window) {rows : List α}
    (h : rows.length ≤ 0x7FFFFFFFFFFFFFFF) :
    w.cut rows = (rows.drop w.start.toNat).take w.limit.toNat := by
  unfold cut storageCount
  have hd : rows.drop (min w.start.toNat 0x7FFFFFFFFFFFFFFF) = rows.drop w.start.toNat := by
    by_cases hs : w.start.toNat ≤ 0x7FFFFFFFFFFFFFFF
    · rw [min_eq_left hs]
    · rw [List.drop_eq_nil_of_le (by omega), List.drop_eq_nil_of_le (by omega)]
  rw [hd]
  by_cases hl : w.limit.toNat ≤ 0x7FFFFFFFFFFFFFFF
  · rw [min_eq_left hl]
  · have hr : (rows.drop w.start.toNat).length ≤ 0x7FFFFFFFFFFFFFFF := by simp; omega
    rw [List.take_of_length_le (by omega), List.take_of_length_le (by omega)]

namespace Query

/-- How many rows of a table match. -/
def count (q : Query) (t : Table) : ℕ := t.countP fun d => Matches q.filter d.name

/-- How many matching rows stand strictly before a destination. -/
def place (q : Query) (t : Table) (d : Destination) : ℕ :=
  t.countP fun e => Matches q.filter e.name ∧ Destination.Before q.order q.direction e d

/-- Where the window of a query begins. -/
def offset (q : Query) : ℕ := q.window.elim 0 fun w => w.start.toNat

/-- How many of `total` rows lie in the window of a query. -/
def extent (q : Query) (total : ℕ) : ℕ :=
  q.window.elim total fun w => min w.limit.toNat (total - w.start.toNat)

theorem extent_le (q : Query) (total : ℕ) : q.extent total ≤ total - q.offset := by
  unfold extent offset
  cases q.window with
  | none => exact le_rfl
  | some w => exact min_le_right _ _

/-- The whole listing, before a window is cut out of it. -/
def listing (q : Query) (t : Table) : List Destination :=
  Destination.sort q.order q.direction (q.matching t)

theorem admits_iff (q : Query) (name : String) : q.admits name = true ↔ Matches q.filter name := by
  unfold admits
  cases q.filter with
  | none => simp [Matches]
  | some part => exact occursIn_iff _ _

theorem matching_eq (q : Query) (t : Table) :
    q.matching t = t.filter fun d => Matches q.filter d.name := by
  unfold matching
  apply List.filter_congr
  intro d _
  rw [Bool.eq_iff_iff, admits_iff, decide_eq_true_iff]

theorem listing_perm (q : Query) (t : Table) : (q.listing t).Perm (q.matching t) :=
  List.mergeSort_perm _ _

theorem mem_listing (q : Query) (t : Table) (d : Destination) :
    d ∈ q.listing t ↔ d ∈ t ∧ Matches q.filter d.name := by
  rw [(q.listing_perm t).mem_iff, matching_eq]
  simp

theorem length_listing (q : Query) (t : Table) : (q.listing t).length = q.count t := by
  rw [(q.listing_perm t).length_eq, matching_eq, count, List.countP_eq_length_filter]

theorem count_le (q : Query) (t : Table) : q.count t ≤ t.length := List.countP_le_length

theorem place_eq (q : Query) (t : Table) (d : Destination) :
    q.place t d = (q.listing t).countP (Destination.Before q.order q.direction · d) := by
  rw [(q.listing_perm t).countP_eq, matching_eq, List.countP_filter, place]
  simp only [Bool.decide_and, Bool.and_comm]

theorem listing_names_nodup (q : Query) {t : Table} (ht : t.Distinct) :
    ((q.listing t).map Destination.name).Nodup := by
  rw [((q.listing_perm t).map Destination.name).nodup_iff]
  exact ht.sublist (List.filter_sublist.map Destination.name)

theorem listing_pairwise (q : Query) {t : Table} (ht : t.Distinct) :
    (q.listing t).Pairwise (Destination.Before q.order q.direction) := by
  have hs : (q.listing t).Pairwise fun a b => (Destination.rank q.order q.direction a b).isLE := by
    apply List.pairwise_mergeSort
    · intro a b c hab hbc
      exact Std.TransCmp.isLE_trans hab hbc
    · intro a b
      rw [Bool.or_eq_true]
      exact Destination.rank_total _ _ a b
  have hn := List.pairwise_map.mp (q.listing_names_nodup ht)
  exact (hs.and hn).imp fun h => Destination.before_of_rank_isLE h.1 h.2

/-- The whole listing is the one arrangement of the matching rows in strict order. -/
theorem listing_eq (q : Query) {t rows : Table} (ht : t.Distinct)
    (hp : (t.filter fun d => Matches q.filter d.name).Perm rows)
    (hs : rows.Pairwise (Destination.Before q.order q.direction)) : q.listing t = rows := by
  apply List.Perm.eq_of_pairwise _ (q.listing_pairwise ht) hs
  · rw [← matching_eq] at hp
    exact (q.listing_perm t).trans hp
  · intro a b _ _ hab hba
    exact absurd hba (Destination.before_asymm hab)

theorem listing_getElem?_eq_some (q : Query) {t : Table} (ht : t.Distinct) (i : ℕ)
    (d : Destination) :
    (q.listing t)[i]? = some d ↔ (d ∈ t ∧ Matches q.filter d.name) ∧ q.place t d = i := by
  have hplace : ∀ j (hj : j < (q.listing t).length), q.place t (q.listing t)[j] = j := by
    intro j hj
    rw [place_eq]
    exact countP_getElem_of_pairwise (q.listing_pairwise ht) (Destination.before_irrefl _ _)
      Destination.before_asymm j hj
  rw [← mem_listing, List.getElem?_eq_some_iff]
  constructor
  · rintro ⟨hi, rfl⟩
    exact ⟨List.getElem_mem hi, hplace i hi⟩
  · rintro ⟨hd, rfl⟩
    obtain ⟨j, hj, rfl⟩ := List.getElem_of_mem hd
    rw [hplace j hj]
    exact ⟨hj, rfl⟩

/-- What a listing finds is the part of the whole listing that begins at the offset of its window
and is as long as the rows there and the limit allow. -/
theorem select_rows (q : Query) {t : Table} (hl : t.length ≤ 0x7FFFFFFFFFFFFFFF) :
    (q.select t).rows = ((q.listing t).drop q.offset).take (q.extent (q.count t)) := by
  have hc := q.length_listing t
  have hm := q.count_le t
  have hselect : (q.select t).rows = q.window.elim (q.listing t) fun w => w.cut (q.listing t) := by
    unfold select listing
    cases q.window <;> rfl
  rw [hselect]
  unfold offset extent
  cases q.window with
  | none => exact (List.take_of_length_le hc.le).symm
  | some w =>
    have hw : w.cut (q.listing t) = ((q.listing t).drop w.start.toNat).take w.limit.toNat :=
      w.cut_eq (by omega)
    simp only [Option.elim_some, hw]
    rw [List.take_eq_take_iff, List.length_drop, hc]
    omega

theorem select_total (q : Query) (t : Table) :
    (q.select t).total = Words.saturate (q.count t) := by
  rw [← q.length_listing t, (q.listing_perm t).length_eq, select]

end Query

namespace Storage

/-- The rank law: a listing counts the rows that match, its page is as long as its window and the
count allow, and the row at index `i` of the page is the matching row, as it is stored, that has
exactly `start + i` matching rows before it. -/
theorem list_rank (t : Table) (q : Query) (ht : t.Distinct) (hl : t.length ≤ 0x7FFFFFFFFFFFFFFF) :
    ∃ found, (Storage.present t).list q = .ok found ∧
      found.total.toNat = q.count t ∧
      found.rows.length = q.extent (q.count t) ∧
      ∀ (i : ℕ) (d : Destination), found.rows[i]? = some d ↔
        i < q.extent (q.count t) ∧ (d ∈ t ∧ Matches q.filter d.name) ∧
          q.place t d = q.offset + i := by
  have hrows := q.select_rows hl
  refine ⟨q.select t, rfl, ?_, ?_, ?_⟩
  · have hm := q.count_le t
    rw [q.select_total, Words.toNat_saturate]
    omega
  · rw [hrows, List.length_take, List.length_drop, q.length_listing]
    exact min_eq_left (q.extent_le _)
  · intro i d
    rw [hrows, List.getElem?_take]
    by_cases hi : i < q.extent (q.count t)
    · rw [if_pos hi, List.getElem?_drop, q.listing_getElem?_eq_some ht]
      simp [hi]
    · simp [hi]

/-- Backward by time of failure: the two that failed at the same negative time are told apart by
name, and the one that never failed comes last. -/
theorem list_rank_failures :
    let t : Table := [⟨"b.org", ⟨none, 5, 0⟩, some 3⟩, ⟨"a.org", ⟨some (-2), 0, 7⟩, none⟩,
      ⟨"B.net", ⟨some 4, 1, 7⟩, none⟩, ⟨"c.org", ⟨some (-2), 1, 7⟩, none⟩]
    let q : Query := ⟨some ".org", .failureTs, .backward, some ⟨1, 0xFFFFFFFFFFFFFFFF⟩⟩
    t.Distinct ∧ t.length ≤ 0x7FFFFFFFFFFFFFFF ∧ ∃ found, (Storage.present t).list q = .ok found ∧
      found.total.toNat = 3 ∧ found.rows.length = 2 ∧
      found.rows[0]? = some ⟨"a.org", ⟨some (-2), 0, 7⟩, none⟩ ∧
      found.rows[1]? = some ⟨"b.org", ⟨none, 5, 0⟩, some 3⟩ := by
  intro t q
  have ht : t.Distinct := by decide
  have hl : t.length ≤ 0x7FFFFFFFFFFFFFFF := by decide
  obtain ⟨found, hfound, htotal, hlength, hrow⟩ := list_rank t q ht hl
  refine ⟨ht, hl, found, hfound, ?_, ?_, ?_, ?_⟩
  · rw [htotal]
    decide +kernel
  · rw [hlength]
    decide +kernel
  · rw [hrow 0]
    decide +kernel
  · rw [hrow 1]
    decide +kernel

end Storage
end PeerRoster
