import Mathlib.Data.List.Nodup
import PeerRoster.Store.Table

/-! The rows of a table by their names: what is found under a name after a row is replaced or added,
and after a writer has done its part. -/
namespace PeerRoster
namespace Table

/-- No two rows have the same name. -/
def Distinct (t : Table) : Prop := t.names.Nodup

instance (t : Table) : Decidable t.Distinct := inferInstanceAs (Decidable (List.Nodup _))

theorem name_of_get? {t : Table} {n : String} {d : Destination} (h : t.get? n = some d) :
    d.name = n := by
  simpa using List.find?_some h

theorem mem_of_get? {t : Table} {n : String} {d : Destination} (h : t.get? n = some d) : d ∈ t :=
  List.mem_of_find?_eq_some h

theorem get?_eq_none_iff (t : Table) (n : String) : t.get? n = none ↔ n ∉ t.names := by
  simp [get?, names]

theorem get?_isSome_iff (t : Table) (n : String) : (t.get? n).isSome ↔ n ∈ t.names := by
  rw [← not_iff_not, ← get?_eq_none_iff]
  simp

theorem get?_eq_some_iff {t : Table} (ht : t.Distinct) (n : String) (d : Destination) :
    t.get? n = some d ↔ d ∈ t ∧ d.name = n := by
  constructor
  · intro h
    exact ⟨mem_of_get? h, name_of_get? h⟩
  · rintro ⟨hd, rfl⟩
    obtain ⟨e, he⟩ := Option.isSome_iff_exists.mp
      ((t.get?_isSome_iff d.name).mpr (List.mem_map_of_mem hd))
    rw [he, List.inj_on_of_nodup_map ht (mem_of_get? he) hd (name_of_get? he)]

/-- Tables of distinct names under which the same rows are found hold the same rows. -/
theorem perm_of_get? {t u : Table} (ht : t.Distinct) (hu : u.Distinct)
    (h : ∀ n, t.get? n = u.get? n) : t.Perm u := by
  rw [List.perm_ext_iff_of_nodup (List.Nodup.of_map _ ht) (List.Nodup.of_map _ hu)]
  intro d
  have hd : t.get? d.name = some d ↔ u.get? d.name = some d := by rw [h]
  rw [get?_eq_some_iff ht, get?_eq_some_iff hu] at hd
  simpa using hd

theorem names_replace (t : Table) (d : Destination) : (t.replace d).names = t.names := by
  unfold names replace
  rw [List.map_map]
  apply List.map_congr_left
  intro e _
  by_cases h : e.name = d.name <;> simp [h]

theorem get?_cons (e : Destination) (t : Table) (n : String) :
    get? (e :: t) n = if e.name = n then some e else get? t n := by
  by_cases h : e.name = n <;> simp [get?, h]

theorem filter_name {t : Table} (ht : t.Distinct) (n : String) :
    t.filter (·.name = n) = (t.get? n).toList := by
  induction t with
  | nil => rfl
  | cons e t ih =>
    obtain ⟨he, ht⟩ := List.nodup_cons.mp ht
    rw [get?_cons, List.filter_cons, ih ht]
    by_cases hn : e.name = n
    · subst hn
      simp [(get?_eq_none_iff t e.name).mpr he]
    · simp [hn]

theorem get?_replace (t : Table) (d : Destination) (n : String) :
    (t.replace d).get? n = if n = d.name then (t.get? n).map fun _ => d else t.get? n := by
  induction t with
  | nil => simp [replace, get?]
  | cons e t ih =>
    change get? ((if e.name = d.name then d else e) :: replace t d) n = _
    rw [get?_cons, get?_cons, ih]
    by_cases hn : n = d.name
    · subst hn
      by_cases he : e.name = d.name <;> simp [he]
    · have hd : ¬ d.name = n := fun h => hn h.symm
      by_cases he : e.name = d.name
      · simp [he, hn, hd]
      · simp [he, hn]

theorem get?_append (t : Table) (d : Destination) (n : String) :
    (t ++ [d]).get? n = (t.get? n).or (if n = d.name then some d else none) := by
  unfold get?
  rw [List.find?_append]
  by_cases h : n = d.name
  · simp [h]
  · have hd : ¬ d.name = n := fun hd => h hd.symm
    simp [h, hd]

theorem names_append (t : Table) (d : Destination) : names (t ++ [d]) = t.names ++ [d.name] := by
  simp [names]

theorem distinct_of_names {t u : Table} (ht : t.Distinct)
    (h : u.names = t.names ∨ ∃ n, n ∉ t.names ∧ u.names = t.names ++ [n]) : u.Distinct := by
  unfold Distinct at ht ⊢
  rcases h with h | ⟨n, hn, h⟩
  · rwa [h]
  · rw [h, ← List.concat_eq_append]
    exact ht.concat hn

/-- Whether timings are stored, by the row that is found under their name. -/
def accepts (r : RetryTimings) : Option Destination → Bool
  | none => true
  | some d => supersedes r.interval d.retry.interval

/-- The row of a name after timings were offered for it. -/
def retried (name : String) (r : RetryTimings) : Option Destination → Destination
  | none => ⟨name, r, none⟩
  | some d => if supersedes r.interval d.retry.interval then { d with retry := r } else d

/-- The row of a name after a stream position was stored for it. -/
def streamed (name : String) (ordering : Int64) : Option Destination → Destination
  | none => ⟨name, .unknown, some ordering⟩
  | some d => { d with streamOrdering := some ordering }

theorem setRetry_fst (t : Table) (name : String) (r : RetryTimings) :
    (t.setRetry name r).1 = accepts r (t.get? name) := by
  unfold setRetry accepts
  cases t.get? name with
  | none => rfl
  | some d => by_cases h : supersedes r.interval d.retry.interval <;> simp [h]

theorem get?_setRetry (t : Table) (name : String) (r : RetryTimings) (n : String) :
    (t.setRetry name r).2.get? n =
      if n = name then some (retried name r (t.get? name)) else t.get? n := by
  unfold setRetry retried
  cases h : t.get? name with
  | none => by_cases hn : n = name <;> simp [get?_append, hn, h]
  | some d =>
    have hd := name_of_get? h
    by_cases hs : supersedes r.interval d.retry.interval <;> by_cases hn : n = name <;>
      simp [get?_replace, hs, hn, hd, h]

theorem get?_setStream (t : Table) (name : String) (ordering : Int64) (n : String) :
    (t.setStream name ordering).get? n =
      if n = name then some (streamed name ordering (t.get? name)) else t.get? n := by
  unfold setStream streamed
  cases h : t.get? name with
  | none => by_cases hn : n = name <;> simp [get?_append, hn, h]
  | some d =>
    have hd := name_of_get? h
    by_cases hn : n = name <;> simp [get?_replace, hn, hd, h]

end Table

theorem NewRow.toOption_complete (row : NewRow) : row.complete.toOption = do
    let name ← row.name
    let lastTs ← row.lastTs.stored
    let interval ← row.interval.stored
    return ⟨name, ⟨row.failureTs, lastTs, interval⟩, row.streamOrdering⟩ := by
  unfold complete
  cases row.name <;> cases row.lastTs.stored <;> cases row.interval.stored <;> rfl

namespace Table

theorem insert_of_error {row : NewRow} {e : EngineError} (h : row.complete = .error e) (t : Table) :
    t.insert row = .error e := by
  rw [insert, h]
  rfl

theorem insert_of_ok {row : NewRow} {d : Destination} (h : row.complete = .ok d) (t : Table) :
    t.insert row =
      if d.name ∈ t.names then
        .error (.violation .unique "UNIQUE constraint failed: destinations.destination")
      else .ok (t ++ [d]) := by
  rw [insert, h]
  rfl

end Table

/-- What a writer does to the row of a name. -/
inductive Operation
  | setRetry (timings : RetryTimings)
  | setStream (ordering : Int64)

namespace Operation

def onTable (name : String) (t : Table) : Operation → Table
  | .setRetry r => (t.setRetry name r).2
  | .setStream ordering => t.setStream name ordering

/-- The row that an operation leaves under its name, by the row that is found there. -/
def row (name : String) (found : Option Destination) : Operation → Destination
  | .setRetry r => Table.retried name r found
  | .setStream ordering => Table.streamed name ordering found

@[simp] theorem name_row_none (name : String) (a : Operation) : (a.row name none).name = name := by
  cases a <;> rfl

theorem get?_onTable (name : String) (t : Table) (a : Operation) (n : String) :
    (a.onTable name t).get? n = if n = name then some (a.row name (t.get? name)) else t.get? n := by
  cases a with
  | setRetry r => exact t.get?_setRetry name r n
  | setStream ordering => exact t.get?_setStream name ordering n

theorem names_onTable (name : String) (t : Table) (a : Operation) :
    (a.onTable name t).names = if name ∈ t.names then t.names else t.names ++ [name] := by
  cases h : t.get? name with
  | none =>
    rw [if_neg ((t.get?_eq_none_iff name).mp h)]
    cases a <;> simp [onTable, Table.setRetry, Table.setStream, h, Table.names_append]
  | some d =>
    rw [if_pos ((t.get?_isSome_iff name).mp (by simp [h]))]
    cases a with
    | setRetry r =>
      rw [onTable, Table.setRetry, h]
      by_cases hs : Table.supersedes r.interval d.retry.interval <;> simp [hs, Table.names_replace]
    | setStream ordering => simp [onTable, Table.setStream, h, Table.names_replace]

theorem names_onTable_cases (name : String) (t : Table) (a : Operation) :
    (a.onTable name t).names = t.names ∨
      ∃ n, n ∉ t.names ∧ (a.onTable name t).names = t.names ++ [n] := by
  rw [a.names_onTable]
  by_cases hn : name ∈ t.names
  · exact .inl (if_pos hn)
  · exact .inr ⟨name, hn, if_neg hn⟩

theorem distinct_onTable (name : String) {t : Table} (ht : t.Distinct) (a : Operation) :
    (a.onTable name t).Distinct :=
  Table.distinct_of_names ht (a.names_onTable_cases name t)

end Operation
end PeerRoster
