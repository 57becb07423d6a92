import Mathlib.Data.List.Sort
import PeerRoster.Proofs.Page
import PeerRoster.Proofs.Write

/-! A walk through the listing by name while others write. Rows are neither deleted nor renamed, so
the place of a name only grows, and what is listed from an offset on is never moved before it. -/
namespace PeerRoster

namespace Query

/-- The names of the whole listing, in its order. -/
def listedNames (q : Query) (t : Table) : List String := (q.listing t).map Destination.name

theorem mem_listedNames (q : Query) (t : Table) (n : String) :
    n ∈ q.listedNames t ↔ n ∈ t.names ∧ Matches q.filter n := by
  simp only [listedNames, Table.names, List.mem_map, mem_listing]
  constructor
  · rintro ⟨d, ⟨hd, hm⟩, rfl⟩
    exact ⟨⟨d, hd, rfl⟩, hm⟩
  · rintro ⟨⟨d, hd, rfl⟩, hm⟩
    exact ⟨d, ⟨hd, hm⟩, rfl⟩

theorem listedNames_nodup (q : Query) {t : Table} (ht : t.Distinct) : (q.listedNames t).Nodup :=
  q.listing_names_nodup ht

/-- The order of names alone that a listing by name follows. -/
def NameBefore (d : Direction) (m n : String) : Prop := d.turn (collate m n) = .lt

instance (d : Direction) : Std.Antisymm (NameBefore d) where
  antisymm m n hm hn := by
    have hs : collate n m = (collate m n).swap := Std.OrientedCmp.eq_swap
    unfold NameBefore at hm hn
    rw [hs] at hn
    cases d <;> cases hc : collate m n <;> simp [Direction.turn, hc] at hm hn

theorem listedNames_pairwise {q : Query} (hq : q.order = .name) {t : Table} (ht : t.Distinct) :
    (q.listedNames t).Pairwise (NameBefore q.direction) := by
  rw [listedNames, List.pairwise_map]
  apply (q.listing_pairwise ht).imp
  intro a b h
  rw [← Destination.rank_lt, hq] at h
  exact h

theorem listedNames_sublist {q : Query} (hq : q.order = .name) {t t' : Table} (ht : t.Distinct)
    (ht' : t'.Distinct) (h : t.names ⊆ t'.names) :
    (q.listedNames t).Sublist (q.listedNames t') := by
  have hsub : q.listedNames t ⊆ q.listedNames t' := by
    intro n hn
    rw [mem_listedNames] at hn ⊢
    exact ⟨h hn.1, hn.2⟩
  exact List.sublist_of_subperm_of_pairwise (List.subperm_of_subset (q.listedNames_nodup ht) hsub)
    (listedNames_pairwise hq ht) (listedNames_pairwise hq ht')

theorem listedNames_eq {q : Query} (hq : q.order = .name) {t t' : Table} (ht : t.Distinct)
    (ht' : t'.Distinct) (h : t.names ⊆ t'.names)
    (hnew : ∀ n ∈ t'.names, Matches q.filter n → n ∈ t.names) :
    q.listedNames t = q.listedNames t' := by
  have hsub : q.listedNames t' ⊆ q.listedNames t := by
    intro n hn
    rw [mem_listedNames] at hn ⊢
    exact ⟨hnew n hn.1 hn.2, hn.2⟩
  have hle := (List.subperm_of_subset (q.listedNames_nodup ht') hsub).length_le
  exact (listedNames_sublist hq ht ht' h).eq_of_length_le hle

end Query

/-- The names of a page. -/
def Page.names (p : Page) : List String := p.destinations.map Destination.name

theorem Query.names_of_no_token {q : Query} {t : Table} {o l : ℕ}
    (h : (q.pageAt t o l).nextToken = none) :
    (q.pageAt t o l).names = (q.listedNames t).drop o := by
  rw [Page.names, pageAt_of_no_token h, List.map_drop, listedNames]

theorem Query.names_of_token {q : Query} {t : Table} {o l : ℕ} {token : String} {p : Parameter}
    {default : Int64} {n : UInt64} (h : (q.pageAt t o l).nextToken = some token)
    (hn : Form.Reads p default (some token) n) :
    (q.pageAt t o l).names ++ (q.listedNames t).drop n.toNat = (q.listedNames t).drop o := by
  rw [Page.names, listedNames, ← List.map_drop, ← List.map_append, (pageAt_of_token h hn).2,
    List.map_drop]

/-- Whether a step makes a row for a name that matches a filter and had none. -/
def Step.Creates (app : App) (filter : Option String) (s : Storage) (step : Step) : Prop :=
  ∃ n d, Matches filter n ∧ s.get n = .ok none ∧ (Session.step app s step).2.get n = .ok (some d)

theorem Step.creates_filterOf {app : App} {filter : Option String} {s : Storage} {step : Step} :
    step.Creates app (Form.filterOf filter) s ↔ step.Creates app filter s := by
  simp only [Creates, Form.matches_filterOf]

theorem Step.creates_iff (app : App) (filter : Option String) (t : Table) {step : Step}
    (h : step.isWrite) : step.Creates app filter (.present t) ↔
      ∃ d ∈ step.row?, Matches filter d.name ∧ t.get? d.name = none := by
  unfold Creates
  rw [Session.step_storage app t h]
  constructor
  · rintro ⟨n, d, hm, hbefore, hafter⟩
    have hn : t.get? n = none := Except.ok.inj hbefore
    have hd : (step.onTable t).get? n = some d := Except.ok.inj hafter
    rw [get?_onTable, hn] at hd
    obtain ⟨hrow, hname⟩ := Option.filter_eq_some_iff.mp hd
    obtain rfl : d.name = n := by simpa using hname
    exact ⟨d, hrow, hm, hn⟩
  · rintro ⟨d, hrow, hm, hn⟩
    have hafter : (step.onTable t).get? d.name = some d := by
      rw [get?_onTable, hn]
      exact Option.filter_eq_some_iff.mpr ⟨hrow, by simp⟩
    exact ⟨d.name, d, hm, congrArg Except.ok hn, congrArg Except.ok hafter⟩

namespace Query

variable {app : App} {q : Query} {t : Table} {step : Step}

theorem listedNames_sublist_step (hq : q.order = .name) (ht : t.Distinct) (step : Step) :
    (q.listedNames t).Sublist (q.listedNames (step.onTable t)) :=
  listedNames_sublist hq ht (step.distinct_onTable ht) (step.names_prefix t).subset

theorem listedNames_step (hq : q.order = .name) (ht : t.Distinct) (hw : step.isWrite)
    (hc : ¬ step.Creates app q.filter (.present t)) :
    q.listedNames (step.onTable t) = q.listedNames t := by
  have hnew : ∀ n ∈ (step.onTable t).names, Matches q.filter n → n ∈ t.names := by
    intro n hn hm
    by_contra ho
    obtain ⟨d, hd⟩ := Option.isSome_iff_exists.mp ((Table.get?_isSome_iff _ _).mpr hn)
    refine hc ⟨n, d, hm, congrArg Except.ok ((t.get?_eq_none_iff n).mpr ho), ?_⟩
    rw [Session.step_storage app t hw]
    exact congrArg Except.ok hd
  exact (listedNames_eq hq ht (step.distinct_onTable ht) (step.names_prefix t).subset hnew).symm

end Query

/-- A walk whose requests repeat a form with the token of the page before, while their limits and
bounds vary and others write in between. It ends at a page without a token; each write is kept with
the storage that it meets. -/
inductive Interleaving (app : App) (roles : List String) (form : Form) :
    Storage → Option String → List (Storage × Step) → List Page → Prop
  | last {s : Storage} {start limit : Option String} {cap : Option UInt64} {page : Page}
      (h : s.page roles { form with start := start, limit := limit } cap = .ok page)
      (hn : page.nextToken = none) : Interleaving app roles form s start [] [page]
  | ask {s : Storage} {start limit : Option String} {cap : Option UInt64} {page : Page}
      {token : String} {writes : List (Storage × Step)} {pages : List Page}
      (h : s.page roles { form with start := start, limit := limit } cap = .ok page)
      (ht : page.nextToken = some token)
      (rest : Interleaving app roles form s (some token) writes pages) :
      Interleaving app roles form s start writes (page :: pages)
  | write {s : Storage} {start : Option String} {step : Step} {writes : List (Storage × Step)}
      {pages : List Page} (h : step.isWrite)
      (rest : Interleaving app roles form (Session.step app s step).2 start writes pages) :
      Interleaving app roles form s start ((s, step) :: writes) pages

namespace Interleaving

variable {app : App} {roles : List String} {form : Form} {d : Direction}

/-- The query whose listing such a walk goes through. -/
def query (form : Form) (d : Direction) : Query := ⟨Form.filterOf form.destination, .name, d, none⟩

theorem page_eq {t : Table} {start limit : Option String} {cap : Option UInt64} {page : Page}
    {o : UInt64} (horder : Form.orderOf form.order = .ok .name)
    (hdirection : Form.directionOf form.direction = .ok d)
    (hstart : Form.Reads .start Form.defaultStart start o)
    (h : (Storage.present t).page roles { form with start := start, limit := limit } cap = .ok page) :
    ∃ l, page = (query form d).pageAt t o.toNat l := by
  obtain ⟨-, o', n, k, d', ho', -, hk, hd', rfl⟩ := (Storage.page_eq_ok_iff _ _ _ _ _).mp h
  obtain rfl := hstart.unique ho'
  obtain rfl := Except.ok.inj (horder.symm.trans hk)
  obtain rfl := Except.ok.inj (hdirection.symm.trans hd')
  exact ⟨_, rfl⟩

theorem exists_reads {s : Storage} {start : Option String} {writes : List (Storage × Step)}
    {pages : List Page} (h : Interleaving app roles form s start writes pages) {t : Table}
    (hs : s = .present t) : ∃ o, Form.Reads .start Form.defaultStart start o := by
  induction h generalizing t with
  | last h _ =>
    subst hs
    obtain ⟨-, o, _, _, _, ho, -⟩ := (Storage.page_eq_ok_iff _ _ _ _ _).mp h
    exact ⟨o, ho⟩
  | ask h _ _ _ =>
    subst hs
    obtain ⟨-, o, _, _, _, ho, -⟩ := (Storage.page_eq_ok_iff _ _ _ _ _).mp h
    exact ⟨o, ho⟩
  | write hw _ ih =>
    subst hs
    exact ih (Session.step_storage app t hw)

/-- From any offset, the pages hold every name that is listed from there on, and nothing else if no
matching row is created. -/
theorem pages_names {s : Storage} {start : Option String} {writes : List (Storage × Step)}
    {pages : List Page} (h : Interleaving app roles form s start writes pages)
    (horder : Form.orderOf form.order = .ok .name)
    (hdirection : Form.directionOf form.direction = .ok d) {t : Table} (hs : s = .present t)
    (ht : t.Distinct) {o : UInt64} (ho : Form.Reads .start Form.defaultStart start o) :
    (∀ n ∈ ((query form d).listedNames t).drop o.toNat, n ∈ pages.flatMap Page.names) ∧
    ((∀ w ∈ writes, ¬ w.2.Creates app form.destination w.1) →
      pages.flatMap Page.names = ((query form d).listedNames t).drop o.toNat) := by
  induction h generalizing t o with
  | @last s start limit cap page h hn =>
    subst hs
    obtain ⟨l, rfl⟩ := page_eq horder hdirection ho h
    rw [List.flatMap_singleton, Query.names_of_no_token hn]
    exact ⟨fun _ hn => hn, fun _ => rfl⟩
  | @ask s start limit cap page token writes pages h htoken rest ih =>
    subst hs
    obtain ⟨l, rfl⟩ := page_eq horder hdirection ho h
    obtain ⟨o', ho'⟩ := rest.exists_reads rfl
    obtain ⟨hall, hexact⟩ := ih rfl ht ho'
    rw [← Query.names_of_token htoken ho', List.flatMap_cons]
    constructor
    · intro n hn
      rcases List.mem_append.mp hn with hn | hn
      · exact List.mem_append_left _ hn
      · exact List.mem_append_right _ (hall n hn)
    · intro hc
      rw [hexact hc]
  | @write s start step writes pages hw rest ih =>
    subst hs
    obtain ⟨hall, hexact⟩ :=
      ih (Session.step_storage app t hw) (step.distinct_onTable ht) ho
    constructor
    · intro n hn
      have hsub := Query.listedNames_sublist_step (q := query form d) rfl ht step
      exact hall n ((hsub.drop _).subset hn)
    · intro hc
      have hstep : ¬ step.Creates app (query form d).filter (.present t) := by
        rw [query, Step.creates_filterOf]
        exact hc _ (List.mem_cons_self ..)
      rw [← Query.listedNames_step rfl ht hw hstep]
      exact hexact fun w hw => hc w (List.mem_cons_of_mem _ hw)

end Interleaving

namespace Storage

/-- No row is lost: whatever is written between the requests of a walk by name, in either direction
and with limits and bounds that vary, every matching name that was there when the walk began is on
one of its pages; and on exactly one, once, if no matching row was created meanwhile. -/
theorem walk_covers {app : App} {roles : List String} {form : Form} {d : Direction} {t : Table}
    {start : Option String} {writes : List (Storage × Step)} {pages : List Page}
    (ht : t.Distinct) (horder : Form.orderOf form.order = .ok .name)
    (hdirection : Form.directionOf form.direction = .ok d)
    (hstart : Form.Reads .start Form.defaultStart start 0)
    (hwalk : Interleaving app roles form (.present t) start writes pages) :
    (∀ n ∈ t.names, Matches form.destination n → ∃ p ∈ pages, n ∈ p.names) ∧
    ((∀ w ∈ writes, ¬ w.2.Creates app form.destination w.1) →
      ∀ n ∈ t.names, Matches form.destination n → (pages.flatMap Page.names).count n = 1) := by
  obtain ⟨hall, hexact⟩ := hwalk.pages_names horder hdirection rfl ht hstart
  have hlisted : ∀ n ∈ t.names, Matches form.destination n →
      n ∈ (Interleaving.query form d).listedNames t := fun n hn hm =>
    (Query.mem_listedNames _ _ _).mpr ⟨hn, (Form.matches_filterOf _ _).mpr hm⟩
  constructor
  · intro n hn hm
    exact List.mem_flatMap.mp (hall n (hlisted n hn hm))
  · intro hw n hn hm
    rw [hexact hw]
    exact List.count_eq_one_of_mem (Query.listedNames_nodup _ ht) (hlisted n hn hm)

/-- Between two pages the next row gets other timings and a row appears that does not match, first
of all by name. -/
theorem walk_covers_appearing :
    let app : App := ⟨none, true, 0⟩
    let t : Table := [⟨"c.org", ⟨none, 5, 0⟩, some 3⟩, ⟨"b.org", ⟨some 2, 0, 7⟩, none⟩]
    let form : Form := ⟨none, none, some "org", none, none⟩
    let retry : Step := .setRetry "c.org" ⟨some 1, 1, 9⟩
    let insert : Step := .insert ⟨some "a.net", .default, .value 4, none, none⟩
    let later : Storage := (Session.step app (.present t) retry).2
    let first : Page := ⟨[⟨"b.org", ⟨some 2, 0, 7⟩, none⟩], 2, some "1"⟩
    let second : Page := ⟨[⟨"c.org", ⟨some 1, 1, 9⟩, some 3⟩], 2, none⟩
    Interleaving app ["admin"] form (.present t) none [(.present t, retry), (later, insert)]
        [first, second] ∧
      ∀ n ∈ t.names, Matches form.destination n →
        ([first, second].flatMap Page.names).count n = 1 := by
  intro app t form retry insert later first second
  let q : Query := ⟨some "org", .name, .forward, none⟩
  have hlater : later = .present (retry.onTable t) := Session.step_storage app t rfl
  have hend : (Session.step app later insert).2 = .present (insert.onTable (retry.onTable t)) := by
    rw [hlater]
    exact Session.step_storage app _ rfl
  have hfirst : (Storage.present t).page ["admin"] { form with limit := some "1" } none =
      .ok first := by
    have hlisting : q.listing t =
        [⟨"b.org", ⟨some 2, 0, 7⟩, none⟩, ⟨"c.org", ⟨none, 5, 0⟩, some 3⟩] :=
      q.listing_eq (by decide) (by decide +kernel) (by decide +kernel)
    have hpage : first = q.pageAt t 0 1 := by
      rw [Query.pageAt, hlisting]
      decide +kernel
    exact (page_eq_ok_iff _ _ _ _ _).mpr ⟨by decide, 0, 1, .name, .forward,
      Form.reads_default_start, ⟨1, by decide +kernel, by decide +kernel⟩, rfl, rfl, hpage⟩
  have hsecond : (Session.step app later insert).2.page ["admin"]
      { form with start := some "1", limit := some "9" } (some 4) = .ok second := by
    have hlisting : q.listing (insert.onTable (retry.onTable t)) =
        [⟨"b.org", ⟨some 2, 0, 7⟩, none⟩, ⟨"c.org", ⟨some 1, 1, 9⟩, some 3⟩] :=
      q.listing_eq (by decide +kernel) (by decide +kernel) (by decide +kernel)
    have hpage : second = q.pageAt (insert.onTable (retry.onTable t)) 1 4 := by
      rw [Query.pageAt, hlisting]
      decide +kernel
    rw [hend]
    exact (page_eq_ok_iff _ _ _ _ _).mpr ⟨by decide, 1, 9, .name, .forward,
      ⟨1, by decide +kernel, by decide +kernel⟩, ⟨9, by decide +kernel, by decide +kernel⟩, rfl, rfl,
      hpage⟩
  have hwalk : Interleaving app ["admin"] form (.present t) none
      [(.present t, retry), (later, insert)] [first, second] :=
    .ask hfirst rfl (.write rfl (.write rfl (.last hsecond rfl)))
  refine ⟨hwalk, (walk_covers (by decide) rfl (show _ = Except.ok Direction.forward from rfl)
    Form.reads_default_start hwalk).2 ?_⟩
  intro w hw
  rcases List.mem_cons.mp hw with rfl | hw
  · rw [Step.creates_iff app _ t rfl]
    decide +kernel
  · obtain rfl := List.mem_singleton.mp hw
    rw [hlater, Step.creates_iff app _ _ rfl]
    decide +kernel

end Storage
end PeerRoster
