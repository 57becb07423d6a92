import PeerRoster.Proofs.Form
import PeerRoster.Proofs.Listing
import PeerRoster.Service

/-! The page that the service answers over a table: the rows at an offset of the whole listing, and
a token for the offset behind them if the listing goes on. -/
namespace PeerRoster

namespace Window

theorem cut_eq_of_le {α : Type} (w : Window) (rows : List α)
    (hs : w.start.toNat ≤ 0x7FFFFFFFFFFFFFFF) (hl : w.limit.toNat ≤ 0x7FFFFFFFFFFFFFFF) :
    w.cut rows = (rows.drop w.start.toNat).take w.limit.toNat := by
  rw [cut, storageCount, storageCount, min_eq_left hs, min_eq_left hl]

end Window

theorem Form.matches_filterOf (filter : Option String) (name : String) :
    Matches (filterOf filter) name ↔ Matches filter name := by
  cases filter with
  | none => rfl
  | some part =>
    by_cases h : part = ""
    · subst h
      exact iff_of_true trivial (List.nil_infix)
    · rw [filterOf, if_neg h]

namespace Query

/-- The page of at most `l` rows at offset `o` of a listing. -/
def pageAt (q : Query) (t : Table) (o l : ℕ) : Page :=
  ⟨((q.listing t).drop o).take l, Words.saturate (q.count t),
    if o + l < q.count t then some (Page.token (Words.saturate (o + l))) else none⟩

theorem ofFound_select (q : Query) (t : Table) (w : Window)
    (hs : w.start.toNat ≤ 0x7FFFFFFFFFFFFFFF) (hl : w.limit.toNat ≤ 0x7FFFFFFFFFFFFFFF) :
    Page.ofFound w (({ q with window := some w } : Query).select t) =
      q.pageAt t w.start.toNat w.limit.toNat := by
  have hrows : ({ q with window := some w } : Query).select t =
      ⟨Words.saturate (q.count t), ((q.listing t).drop w.start.toNat).take w.limit.toNat⟩ := by
    rw [← w.cut_eq_of_le (q.listing t) hs hl, ← q.select_total t]
    rfl
  have hlt : Words.addSat w.start w.limit < Words.saturate (q.count t) ↔
      w.start.toNat + w.limit.toNat < q.count t := by
    rw [Words.addSat_lt_iff, Words.toNat_saturate]
    omega
  rw [hrows, Page.ofFound, pageAt, Page.next?]
  by_cases h : w.start.toNat + w.limit.toNat < q.count t
  · have hr : (((q.listing t).drop w.start.toNat).take w.limit.toNat).length = w.limit.toNat := by
      rw [List.length_take, List.length_drop, q.length_listing]
      omega
    rw [if_pos (hlt.mpr h), if_pos h, hr]
    rfl
  · rw [if_neg (mt hlt.mp h), if_neg h]
    rfl

theorem pageAt_of_no_token {q : Query} {t : Table} {o l : ℕ}
    (h : (q.pageAt t o l).nextToken = none) :
    (q.pageAt t o l).destinations = (q.listing t).drop o := by
  have hend : ¬ o + l < q.count t := by
    intro hlt
    simp [pageAt, hlt] at h
  apply List.take_of_length_le
  rw [List.length_drop, q.length_listing]
  omega

/-- Behind a page with a token the listing goes on where the token says. -/
theorem pageAt_of_token {q : Query} {t : Table} {o l : ℕ} {token : String} {p : Parameter}
    {default : Int64} {n : UInt64} (h : (q.pageAt t o l).nextToken = some token)
    (hn : Form.Reads p default (some token) n) :
    n.toNat = o + l ∧
      (q.pageAt t o l).destinations ++ (q.listing t).drop n.toNat = (q.listing t).drop o := by
  by_cases hlt : o + l < q.count t
  · obtain rfl : Page.token (Words.saturate (o + l)) = token := by
      simpa [pageAt, hlt] using h
    obtain ⟨hle, rfl⟩ := (Form.reads_token_iff _ _ _ _).mp hn
    have hv : (Words.saturate (o + l)).toNat = o + l := by
      rw [Words.toNat_saturate] at hle ⊢
      omega
    refine ⟨hv, ?_⟩
    rw [hv, ← List.drop_drop]
    exact List.take_append_drop l _
  · simp [pageAt, hlt] at h

end Query

/-- The answer of the service over a storage. -/
def Storage.page (s : Storage) (roles : List String) (form : Form) (cap : Option UInt64) :
    Except ServiceError Page :=
  Service.list (m := Id) s.list roles form cap

/-- The most rows that a request is given: its own limit, or the bound if that is lower. -/
def Service.size (limit : UInt64) (cap : Option UInt64) : ℕ :=
  cap.elim limit.toNat fun c => min limit.toNat c.toNat

namespace Service

theorem size_le (limit : UInt64) (cap : Option UInt64) : size limit cap ≤ limit.toNat := by
  cases cap with
  | none => exact le_rfl
  | some c => exact min_le_left _ _

theorem bounded_eq (cap : Option UInt64) (w : Window) :
    (bounded cap w).start = w.start ∧ (bounded cap w).limit.toNat = size w.limit cap := by
  cases cap with
  | none => exact ⟨rfl, rfl⟩
  | some c =>
    refine ⟨rfl, ?_⟩
    change (if w.limit ≤ c then w.limit else c).toNat = min w.limit.toNat c.toNat
    by_cases h : w.limit ≤ c
    · rw [if_pos h, min_eq_left (UInt64.le_iff_toNat_le.mp h)]
    · rw [if_neg h, min_eq_right (by rw [UInt64.le_iff_toNat_le] at h; omega)]

theorem ensureRole_eq_ok_iff (role : String) (roles : List String) :
    ensureRole role roles = .ok () ↔ role ∈ roles := by
  simp [ensureRole, hasRole]

theorem prepare_eq_ok_iff (roles : List String) (form : Form) (cap : Option UInt64)
    (r : Window × Query) :
    prepare roles form cap = .ok r ↔ adminRole ∈ roles ∧ ∃ q, form.toQuery = .ok q ∧
      r = (bounded cap (q.window.getD wholeWindow),
        { q with window := some (bounded cap (q.window.getD wholeWindow)) }) := by
  simp only [prepare, bind_eq_ok, mapError_eq_ok]
  constructor
  · rintro ⟨⟨⟩, hr, q, hq, he⟩
    exact ⟨(ensureRole_eq_ok_iff _ _).mp hr, q, hq, (Except.ok.inj he).symm⟩
  · rintro ⟨hr, q, hq, rfl⟩
    exact ⟨(), (ensureRole_eq_ok_iff _ _).mpr hr, q, hq, rfl⟩

theorem prepare_of_no_role {roles : List String} (h : adminRole ∉ roles) (form : Form)
    (cap : Option UInt64) : prepare roles form cap = .error .forbidden := by
  have hr : ensureRole adminRole roles = .error .forbidden := by simp [ensureRole, hasRole, h]
  rw [prepare, hr]
  rfl

end Service

namespace Storage

theorem page_present (t : Table) (roles : List String) (form : Form) (cap : Option UInt64) :
    (Storage.present t).page roles form cap =
      (Service.prepare roles form cap).map fun r => Page.ofFound r.1 (r.2.select t) := by
  unfold page Service.list
  cases Service.prepare roles form cap <;> rfl

/-- The service answers an administrator whose form it can read, and then with the page that the
form's offset and the bounded limit ask for. -/
theorem page_eq_ok_iff (t : Table) (roles : List String) (form : Form) (cap : Option UInt64)
    (p : Page) :
    (Storage.present t).page roles form cap = .ok p ↔ Service.adminRole ∈ roles ∧
      ∃ start limit k d, Form.Reads .start Form.defaultStart form.start start ∧
        Form.Reads .limit Form.defaultLimit form.limit limit ∧
        Form.orderOf form.order = .ok k ∧ Form.directionOf form.direction = .ok d ∧
        p = Query.pageAt ⟨Form.filterOf form.destination, k, d, none⟩ t start.toNat
          (Service.size limit cap) := by
  have hpage : ∀ start limit k d, Form.Reads .start Form.defaultStart form.start start →
      Form.Reads .limit Form.defaultLimit form.limit limit →
      Page.ofFound (Service.bounded cap ⟨start, limit⟩)
          (Query.select ⟨Form.filterOf form.destination, k, d,
            some (Service.bounded cap ⟨start, limit⟩)⟩ t) =
        Query.pageAt ⟨Form.filterOf form.destination, k, d, none⟩ t start.toNat
          (Service.size limit cap) := by
    intro start limit k d hs hl
    obtain ⟨hbs, hbl⟩ := Service.bounded_eq cap ⟨start, limit⟩
    have hle := (Service.size_le limit cap).trans hl.le
    have h := Query.ofFound_select ⟨Form.filterOf form.destination, k, d, none⟩ t
      (Service.bounded cap ⟨start, limit⟩) (by rw [hbs]; exact hs.le) (by rw [hbl]; exact hle)
    rw [h, hbs, hbl]
  rw [page_present]
  constructor
  · intro h
    obtain ⟨r, hr, rfl⟩ := map_eq_ok.mp h
    obtain ⟨hadmin, q, hq, rfl⟩ := (Service.prepare_eq_ok_iff _ _ _ _).mp hr
    obtain ⟨start, limit, k, d, hs, hl, hk, hd, rfl⟩ := (Form.toQuery_eq_ok_iff _ _).mp hq
    exact ⟨hadmin, start, limit, k, d, hs, hl, hk, hd, hpage start limit k d hs hl⟩
  · rintro ⟨hadmin, start, limit, k, d, hs, hl, hk, hd, rfl⟩
    have hq := (Form.toQuery_eq_ok_iff form _).mpr ⟨start, limit, k, d, hs, hl, hk, hd, rfl⟩
    have hr := (Service.prepare_eq_ok_iff roles form cap _).mpr ⟨hadmin, _, hq, rfl⟩
    rw [hr]
    exact congrArg Except.ok (hpage start limit k d hs hl)

end Storage
end PeerRoster
