import PeerRoster.Proofs.Listing
import PeerRoster.Proofs.Utf8

/-! One order of names: the bytes of two texts, the first byte in which they differ, and the code
points of their characters all say the same. Hence the listing by name is the one by code points. -/
namespace PeerRoster

namespace Utf8

/-- The lowest `k` groups of six bits of a number, as the bytes behind a first one. -/
def trail : ℕ → ℕ → List UInt8
  | 0, _ => []
  | k + 1, v => trail k (v / 64) ++ [UInt8.ofNat (v % 64 + 128)]

/-- What a number is above its lowest `k` groups of six bits. -/
def upper : ℕ → ℕ → ℕ
  | 0, v => v
  | k + 1, v => upper k (v / 64)

/-- How many bytes a code point has behind the first. -/
def trailing (v : ℕ) : ℕ :=
  if v ≤ 0x7F then 0 else if v ≤ 0x7FF then 1 else if v ≤ 0xFFFF then 2 else 3

/-- The first byte of a code point: its highest bits, and a mark for how many bytes follow. -/
def lead (v : ℕ) : ℕ :=
  if v ≤ 0x7F then v else if v ≤ 0x7FF then v / 64 + 0xC0
  else if v ≤ 0xFFFF then v / 4096 + 0xE0 else v / 262144 + 0xF0

theorem lead_lt {v : ℕ} (h : v < 0x110000) : lead v < 256 := by
  unfold lead
  split_ifs <;> omega

theorem utf8EncodeChar_eq_cons (c : Char) :
    String.utf8EncodeChar c = UInt8.ofNat (lead c.toNat) :: trail (trailing c.toNat) c.toNat := by
  have hc : c.toNat < 0xD800 ∨ 0xDFFF < c.toNat ∧ c.toNat < 0x110000 := c.valid
  unfold String.utf8EncodeChar lead trailing
  simp only [Char.toNat_val]
  split_ifs <;> simp only [trail, Nat.div_div_eq_div_mul, List.nil_append, List.cons_append]
  · rw [Nat.mod_eq_of_lt (b := 32) (by omega)]
  · rw [Nat.mod_eq_of_lt (b := 16) (by omega)]
  · rw [Nat.mod_eq_of_lt (b := 8) (by omega)]

/-- The first byte grows with the code point, until only the groups behind it differ. -/
theorem lead_lt_or {v w : ℕ} (h : v < w) : lead v < lead w ∨
    lead v = lead w ∧ trailing v = trailing w ∧ upper (trailing v) v = upper (trailing v) w := by
  unfold lead trailing
  split_ifs <;> simp only [upper, Nat.div_div_eq_div_mul, true_and] <;> omega

theorem cons_ofNat_lt {m n : ℕ} (h : m < n) (hn : n < 256) (r s : List UInt8) :
    UInt8.ofNat m :: r < UInt8.ofNat n :: s := by
  apply List.cons_lt_cons_iff.mpr
  left
  rwa [UInt8.lt_iff_toNat_lt, toNat_ofNat (by omega), toNat_ofNat hn]

theorem trail_append_lt {k v w : ℕ} (hu : upper k v = upper k w) (h : v < w) (r s : List UInt8) :
    trail k v ++ r < trail k w ++ s := by
  induction k generalizing v w r s with
  | zero => exact absurd hu (by simp only [upper]; omega)
  | succ k ih =>
    simp only [trail, List.append_assoc, List.cons_append, List.nil_append]
    rcases Nat.lt_or_eq_of_le (Nat.div_le_div_right (c := 64) h.le) with hlt | heq
    · exact ih hu hlt _ _
    · rw [heq]
      apply List.append_left_lt
      exact cons_ofNat_lt (by omega) (by omega) r s

theorem utf8EncodeChar_append_lt {c d : Char} (h : c.toNat < d.toNat) (u v : List UInt8) :
    String.utf8EncodeChar c ++ u < String.utf8EncodeChar d ++ v := by
  have hd : d.toNat < 0x110000 := by
    have : d.toNat < 0xD800 ∨ 0xDFFF < d.toNat ∧ d.toNat < 0x110000 := d.valid
    omega
  rw [utf8EncodeChar_eq_cons, utf8EncodeChar_eq_cons, List.cons_append, List.cons_append]
  rcases lead_lt_or h with hlt | ⟨hlead, htrailing, hupper⟩
  · exact cons_ofNat_lt hlt (lead_lt hd) _ _
  · rw [hlead, ← htrailing]
    exact List.cons_lt_cons_iff.mpr (.inr ⟨rfl, trail_append_lt hupper h u v⟩)

theorem compare_append (p u v : List UInt8) : compare (p ++ u) (p ++ v) = compare u v := by
  induction p with
  | nil => rfl
  | cons b p ih => simp [List.compare_cons_cons, ih]

theorem compare_utf8EncodeChar (c d : Char) (u v : List UInt8) :
    compare (String.utf8EncodeChar c ++ u) (String.utf8EncodeChar d ++ v) =
      (compare c.toNat d.toNat).then (compare u v) := by
  rcases Nat.lt_trichotomy c.toNat d.toNat with h | h | h
  · rw [(compare_bytes_lt _ _).mpr (utf8EncodeChar_append_lt h u v), Nat.compare_eq_lt.mpr h]
    rfl
  · rw [Char.toNat_inj.mp h, compare_append, Nat.compare_eq_eq.mpr rfl]
    rfl
  · have hlt := (compare_bytes_lt _ _).mpr (utf8EncodeChar_append_lt h v u)
    have hswap : compare (String.utf8EncodeChar c ++ u) (String.utf8EncodeChar d ++ v) =
        (compare (String.utf8EncodeChar d ++ v) (String.utf8EncodeChar c ++ u)).swap :=
      Std.OrientedCmp.eq_swap
    rw [hswap, hlt, Nat.compare_eq_gt.mpr h]
    rfl

theorem compare_encode (cs ds : List Char) :
    compare (encode cs) (encode ds) = compare (cs.map Char.toNat) (ds.map Char.toNat) := by
  induction cs generalizing ds with
  | nil =>
    cases ds with
    | nil => rfl
    | cons d ds => rw [encode_cons, utf8EncodeChar_eq_cons]; rfl
  | cons c cs ih =>
    cases ds with
    | nil => rw [encode_cons, utf8EncodeChar_eq_cons]; rfl
    | cons d ds =>
      rw [encode_cons, encode_cons, compare_utf8EncodeChar, ih, List.map_cons, List.map_cons,
        List.compare_cons_cons]

theorem compareBytes_cons (x y : UInt8) (a b : List UInt8) :
    compareBytes (x :: a) (y :: b) = (compare x y).then (compareBytes a b) := by
  have hlength : compare (a.length + 1) (b.length + 1) = compare a.length b.length := by
    simp [compare, compareOfLessAndEq]
  rw [compareBytes, List.zip_cons_cons, List.find?_cons]
  by_cases hxy : x = y
  · simp [hxy, compareBytes, hlength]
  · have hne : compare x y ≠ .eq := mt Std.compare_eq_iff_eq.mp hxy
    simp only [bne_iff_ne.mpr hxy]
    cases hc : compare x y with
    | eq => exact absurd hc hne
    | lt => rfl
    | gt => rfl

theorem compareBytes_eq_compare (a b : List UInt8) : compareBytes a b = compare a b := by
  induction a generalizing b with
  | nil => cases b <;> rfl
  | cons x a ih =>
    cases b with
    | nil => rfl
    | cons y b => rw [compareBytes_cons, ih, List.compare_cons_cons]

end Utf8

/-- The code points of a text. -/
def scalars (s : String) : List ℕ := s.toList.map Char.toNat

theorem collate_eq_compareNames (s t : String) : collate s t = compareNames s t :=
  (Utf8.compareBytes_eq_compare _ _).symm

theorem collate_eq_compare_scalars (s t : String) : collate s t = compare (scalars s) (scalars t) :=
  Utf8.compare_encode s.toList t.toList

namespace Destination

theorem rank_of_level {k : SortKey} {a b : Destination} (h : k.compare a b = .eq) (d : Direction) :
    rank k d a b = d.turn (collate a.name b.name) := by
  rw [rank, h]
  rfl

theorem rank_name_forward (a b : Destination) :
    rank .name .forward a b = collate a.name b.name :=
  rank_of_level rfl .forward

end Destination

namespace Storage

/-- Names have one order: their bytes as they are listed, their values and their code points agree,
also where names break a tie. The listing by name is strict in it and is the listing by code
points. -/
theorem list_by_name (filter : Option String) (t : Table) (ht : t.Distinct) :
    (∀ s u : String, collate s u = compareNames s u ∧
      collate s u = compare (scalars s) (scalars u) ∧ (collate s u = .eq ↔ s = u)) ∧
    (∀ (k : SortKey) (d : Direction) (a b : Destination), k.compare a b = .eq →
      Destination.rank k d a b = d.turn (compareNames a.name b.name)) ∧
    ∃ found, (Storage.present t).list ⟨filter, .name, .forward, none⟩ = .ok found ∧
      found.rows.Pairwise (fun a b => compareNames a.name b.name = .lt) ∧
      found.rows = (t.filter fun d => Matches filter d.name).mergeSort
        fun a b => (compare (scalars a.name) (scalars b.name)).isLE := by
  refine ⟨fun s u => ⟨collate_eq_compareNames s u, collate_eq_compare_scalars s u, collate_eq s u⟩,
    fun k d a b h => ?_, Query.select ⟨filter, .name, .forward, none⟩ t, rfl, ?_, ?_⟩
  · rw [Destination.rank_of_level h, collate_eq_compareNames]
  · have hp := Query.listing_pairwise ⟨filter, .name, .forward, none⟩ ht
    apply hp.imp
    intro a b hab
    rw [← collate_eq_compareNames, ← Destination.rank_name_forward, Destination.rank_lt]
    exact hab
  · have hrows : (Query.select ⟨filter, .name, .forward, none⟩ t).rows =
        Destination.sort .name .forward (Query.matching ⟨filter, .name, .forward, none⟩ t) := rfl
    rw [hrows, Query.matching_eq, Destination.sort]
    simp only [Destination.rank_name_forward, collate_eq_compare_scalars]

/-- A character of four bytes comes behind one of three, though its first half in sixteen bits is
lower, and a name comes before its continuation. -/
theorem list_by_name_wide :
    let row : String → Destination := fun name => ⟨name, .unknown, none⟩
    let t : Table := [row "😀", row "ﬀ", row "z\x00", row "z"]
    t.Distinct ∧ compareNames "ﬀ" "😀" = .lt ∧
    ∃ found, (Storage.present t).list ⟨none, .name, .forward, none⟩ = .ok found ∧
      found.rows.Pairwise (fun a b => compareNames a.name b.name = .lt) ∧
      found.rows = [row "z", row "z\x00", row "ﬀ", row "😀"] := by
  intro row t
  have ht : t.Distinct := by decide
  obtain ⟨hnames, -, found, hfound, hpairwise, hrows⟩ := list_by_name none t ht
  refine ⟨ht, ?_, found, hfound, hpairwise, ?_⟩
  · rw [← (hnames "ﬀ" "😀").1, (hnames "ﬀ" "😀").2.1]
    decide +kernel
  · have hperm : found.rows.Perm [row "z", row "z\x00", row "ﬀ", row "😀"] := by
      rw [hrows]
      exact (List.mergeSort_perm _ _).trans (by decide)
    refine hperm.eq_of_pairwise (fun a b _ _ hab hba => ?_) hpairwise (by decide +kernel)
    rw [← collate_eq_compareNames] at hab hba
    exact absurd hba (Std.OrientedCmp.not_lt_of_lt hab)

end Storage
end PeerRoster
