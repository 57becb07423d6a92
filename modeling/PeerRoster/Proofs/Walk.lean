import PeerRoster.Proofs.Page

/-! A walk through a listing that nobody changes: each request repeats the first one with the token
of the page before it. The walk ends, and its pages together are the whole listing. -/
namespace PeerRoster
namespace Service

/-- The answers to a form and to the forms that its tokens lead to, up to the first answer that
holds no token. -/
inductive Walk (ask : Form → Except ServiceError Page) :
    Form → List (Except ServiceError Page) → Prop
  | failed {form : Form} {e : ServiceError} (h : ask form = .error e) : Walk ask form [.error e]
  | last {form : Form} {page : Page} (h : ask form = .ok page) (hn : page.nextToken = none) :
      Walk ask form [.ok page]
  | next {form : Form} {page : Page} {token : String} {answers : List (Except ServiceError Page)}
      (h : ask form = .ok page) (ht : page.nextToken = some token)
      (rest : Walk ask { form with start := some token } answers) :
      Walk ask form (.ok page :: answers)

variable {ask : Form → Except ServiceError Page}

theorem Walk.unique {form : Form} {as bs : List (Except ServiceError Page)}
    (ha : Walk ask form as) (hb : Walk ask form bs) : as = bs := by
  induction ha generalizing bs with
  | failed h =>
    cases hb with
    | failed h' => rw [h] at h'; rw [Except.error.inj h']
    | last h' _ => rw [h] at h'; contradiction
    | next h' _ _ => rw [h] at h'; contradiction
  | last h hn =>
    cases hb with
    | failed h' => rw [h] at h'; contradiction
    | last h' _ => rw [h] at h'; rw [Except.ok.inj h']
    | next h' ht _ => rw [h] at h'; cases h'; rw [hn] at ht; contradiction
  | next h ht _ ih =>
    cases hb with
    | failed h' => rw [h] at h'; contradiction
    | last h' hn => rw [h] at h'; cases h'; rw [hn] at ht; contradiction
    | next h' ht' rest =>
      rw [h] at h'; cases h'
      rw [ht] at ht'; cases ht'
      rw [ih rest]

/-- How many pages of `l` rows a walk over `n` rows takes; an empty listing still takes one. -/
def pageCount (n l : ℕ) : ℕ := max 1 ((n + l - 1) / l)

theorem pageCount_of_le {n l : ℕ} (hl : 1 ≤ l) (h : n ≤ l) : pageCount n l = 1 := by
  have hq : (n + l - 1) / l ≤ 1 := by
    rw [Nat.div_le_iff_le_mul_add_pred (by omega)]
    omega
  exact max_eq_left hq

theorem pageCount_of_lt {n l : ℕ} (hl : 1 ≤ l) (h : l < n) :
    pageCount n l = pageCount (n - l) l + 1 := by
  have hq : (n + l - 1) / l = (n - l + l - 1) / l + 1 := by
    rw [← Nat.add_div_right _ (by omega)]
    congr 1
    omega
  have hp : 1 ≤ (n - l + l - 1) / l := (Nat.one_le_div_iff (by omega)).mpr (by omega)
  unfold pageCount
  omega

/-- From any offset a walk with pages of `l` rows lists what is there from the offset on. -/
theorem exists_walk {q : Query} {t : Table} {l : ℕ} (hl : 1 ≤ l)
    (hc : q.count t ≤ 0x7FFFFFFFFFFFFFFF) {form : Form} {o : UInt64}
    (hask : ∀ text n, Form.Reads .start Form.defaultStart text n →
      ask { form with start := text } = .ok (q.pageAt t n.toNat l))
    (ho : Form.Reads .start Form.defaultStart form.start o) :
    ∃ pages : List Page, Walk ask form (pages.map .ok) ∧
      pages.length = pageCount (q.count t - o.toNat) l ∧
      (∀ p ∈ pages, p.total = Words.saturate (q.count t)) ∧
      pages.flatMap Page.destinations = (q.listing t).drop o.toNat := by
  induction hn : q.count t - o.toNat using Nat.strong_induction_on generalizing form o with
  | _ n ih =>
    have hpage : ask form = .ok (q.pageAt t o.toNat l) := hask form.start o ho
    by_cases h : o.toNat + l < q.count t
    · have htoken : (q.pageAt t o.toNat l).nextToken =
          some (Page.token (Words.saturate (o.toNat + l))) := if_pos h
      have hread := Form.reads_token .start Form.defaultStart
        (n := Words.saturate (o.toNat + l)) (by rw [Words.toNat_saturate]; omega)
      obtain ⟨hv, hsplit⟩ := Query.pageAt_of_token htoken hread
      obtain ⟨pages, hw, hlen, htot, hrows⟩ := @ih (n - l) (by omega)
        { form with start := some (Page.token (Words.saturate (o.toNat + l))) } _ hask hread
        (by omega)
      refine ⟨q.pageAt t o.toNat l :: pages, .next hpage htoken hw, ?_, ?_, ?_⟩
      · rw [List.length_cons, hlen, ← pageCount_of_lt hl (show l < n by omega)]
      · simpa using ⟨rfl, htot⟩
      · rw [List.flatMap_cons, hrows, hsplit]
    · have htoken : (q.pageAt t o.toNat l).nextToken = none := if_neg h
      refine ⟨[q.pageAt t o.toNat l], .last hpage htoken, ?_, ?_, ?_⟩
      · rw [pageCount_of_le hl (by omega)]
        rfl
      · simp [Query.pageAt]
      · rw [List.flatMap_singleton, Query.pageAt_of_no_token htoken]

theorem size_pos {limit : UInt64} {cap : Option UInt64} (hl : 1 ≤ limit)
    (hc : ∀ c ∈ cap, 1 ≤ c) : 1 ≤ size limit cap := by
  have hn : 1 ≤ limit.toNat := UInt64.le_iff_toNat_le.mp hl
  cases cap with
  | none => exact hn
  | some c =>
    have hm : 1 ≤ c.toNat := UInt64.le_iff_toNat_le.mp (hc c rfl)
    exact le_min hn hm

end Service

namespace Storage

/-- An administrator who begins without an offset and follows the tokens is answered every time,
always with the total of the whole listing, needs as many requests as that has pages, and sees all
of it, which is every matching row once. -/
theorem walk_complete {t : Table} {roles : List String} {form : Form} {cap : Option UInt64}
    {limit : UInt64} {k : SortKey} {d : Direction}
    (ht : t.Distinct) (hn : t.length ≤ 0x7FFFFFFFFFFFFFFF) (hadmin : Service.adminRole ∈ roles)
    (hstart : form.start = none)
    (hlimit : Form.Reads .limit Form.defaultLimit form.limit limit) (hl : 1 ≤ limit)
    (hcap : ∀ c ∈ cap, 1 ≤ c) (horder : Form.orderOf form.order = .ok k)
    (hdirection : Form.directionOf form.direction = .ok d) :
    ∃ (listing : Found) (pages : List Page),
      (Storage.present t).list ⟨Form.filterOf form.destination, k, d, none⟩ = .ok listing ∧
      (∀ answers, Service.Walk ((Storage.present t).page roles · cap) form answers ↔
        answers = pages.map .ok) ∧
      pages.length =
        max 1 ((listing.rows.length + Service.size limit cap - 1) / Service.size limit cap) ∧
      (∀ p ∈ pages, p.total.toNat = listing.rows.length) ∧
      pages.flatMap Page.destinations = listing.rows ∧
      (∀ r, r ∈ listing.rows ↔ r ∈ t ∧ Matches form.destination r.name) ∧
      (listing.rows.map Destination.name).Nodup := by
  let q : Query := ⟨Form.filterOf form.destination, k, d, none⟩
  let ask : Form → Except ServiceError Page := ((Storage.present t).page roles · cap)
  have hask : ∀ text n, Form.Reads .start Form.defaultStart text n →
      ask { form with start := text } = .ok (q.pageAt t n.toNat (Service.size limit cap)) :=
    fun text n hr => (page_eq_ok_iff _ _ _ _ _).mpr
      ⟨hadmin, n, limit, k, d, hr, hlimit, horder, hdirection, rfl⟩
  have hread : Form.Reads .start Form.defaultStart form.start 0 :=
    hstart ▸ Form.reads_default_start
  obtain ⟨pages, hw, hlen, htot, hrows⟩ := Service.exists_walk (Service.size_pos hl hcap)
    ((q.count_le t).trans hn) hask hread
  have hlisting : (q.select t).rows = q.listing t := rfl
  refine ⟨q.select t, pages, rfl, ?_, ?_, ?_, hrows, ?_, q.listing_names_nodup ht⟩
  · intro answers
    constructor
    · intro ha
      exact ha.unique hw
    · rintro rfl
      exact hw
  · rw [hlisting, q.length_listing]
    exact hlen
  · intro p hp
    have hc := (q.count_le t).trans hn
    rw [htot p hp, hlisting, q.length_listing, Words.toNat_saturate]
    omega
  · intro r
    rw [hlisting, q.mem_listing, Form.matches_filterOf]

/-- Three rows in pages of two: the bound is below the limit, and the last page is not full. -/
theorem walk_complete_bounded :
    let t : Table := [⟨"b.org", ⟨none, 5, -1⟩, some 3⟩, ⟨"a.org", ⟨some 2, 0, 7⟩, none⟩,
      ⟨"d.net", ⟨some 4, 1, 7⟩, none⟩, ⟨"c.org", ⟨none, 1, 7⟩, none⟩]
    let form : Form := ⟨none, some "+3", some "org", some "retry_interval", some "b"⟩
    ∃ pages : List Page, Service.Walk ((Storage.present t).page ["user", "admin"] · (some 2)) form
        (pages.map .ok) ∧
      pages.length = 2 ∧ (∀ p ∈ pages, p.total.toNat = 3) ∧
      (pages.flatMap Page.destinations).map Destination.name = ["c.org", "a.org", "b.org"] := by
  intro t form
  have hlimit : Form.Reads .limit Form.defaultLimit form.limit 3 :=
    ⟨3, by decide +kernel, by decide +kernel⟩
  have hcap : ∀ c ∈ (some 2 : Option UInt64), 1 ≤ c := by
    intro c hc
    obtain rfl := Option.some.inj hc
    decide
  obtain ⟨listing, pages, hlisting, hwalk, hlength, htotal, hrows, -⟩ :=
    @walk_complete t ["user", "admin"] form (some 2) 3 .interval .backward (by decide) (by decide)
      (by decide) rfl hlimit (by decide) hcap (by decide +kernel) (by decide +kernel)
  have hall : listing.rows = [⟨"c.org", ⟨none, 1, 7⟩, none⟩, ⟨"a.org", ⟨some 2, 0, 7⟩, none⟩,
      ⟨"b.org", ⟨none, 5, -1⟩, some 3⟩] := by
    rw [← Except.ok.inj hlisting]
    exact Query.listing_eq _ (by decide) (by decide +kernel) (by decide +kernel)
  rw [hall] at hlength htotal hrows
  exact ⟨pages, (hwalk _).mpr rfl, hlength, htotal, by rw [hrows]; rfl⟩

end Storage
end PeerRoster
