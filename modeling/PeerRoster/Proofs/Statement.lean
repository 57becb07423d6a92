import PeerRoster.Proofs.Rows
import PeerRoster.Store.Statement

/-! Each operation of the storage is what its statements come to, and no statement of a writer fails
where there is a table. -/
namespace PeerRoster

open Database

namespace Table

section

variable {t : Table} (ht : t.Distinct) {d : Destination} (hd : d ∈ t)

include ht hd

theorem countP_name : t.countP (·.name = d.name) = 1 := by
  rw [← List.count_eq_one_of_mem ht (List.mem_map_of_mem hd), List.count, names, List.countP_map]
  rfl

theorem map_change {change : Destination → Destination} (hc : ∀ e, (change e).name = e.name) :
    (t.map fun e => if e.name = d.name then change e else e) = t.replace (change d) := by
  rw [replace, hc]
  apply List.map_congr_left
  intro e he
  by_cases hn : e.name = d.name
  · rw [List.inj_on_of_nodup_map ht he hd hn]
  · rw [if_neg hn, if_neg hn]

end

end Table

namespace Statement

theorem insert_of_notMem {t : Table} {row : NewRow} {d : Destination} (hrow : row.complete = .ok d)
    (h : d.name ∉ t.names) :
    insert row (holding (some t)) = .ok ((), holding (some (t ++ [d]))) := by
  simp [insert, Table.insert_of_ok hrow, h, Except.map]

theorem insert_of_mem {t : Table} {row : NewRow} {d : Destination} (hrow : row.complete = .ok d)
    (h : d.name ∈ t.names) : insert row (holding (some t)) =
      .error (.violation .unique "UNIQUE constraint failed: destinations.destination") := by
  simp [insert, Table.insert_of_ok hrow, h, Except.map]

section

variable {t : Table} (ht : t.Distinct)

include ht

theorem update_of_mem {d : Destination} (hd : d ∈ t) (change : Destination → Destination)
    (hc : ∀ e, (change e).name = e.name) :
    update d.name change (holding (some t)) =
      .ok (1, holding (some (t.replace (change d)))) := by
  simp [update, Except.map, Table.countP_name ht hd, Table.map_change ht hd hc]

/-- The lookup and the write behind it store the timings as one operation would, and never fail. -/
theorem setRetry_eq (name : String) (r : RetryTimings) :
    setRetry name r (holding (some t)) =
      .ok ((t.setRetry name r).1, holding (some (t.setRetry name r).2)) := by
  have hfind : find name (holding (some t)) = .ok (t.get? name, holding (some t)) := rfl
  cases h : t.get? name with
  | none =>
    have hinsert := insert_of_notMem (NewRow.complete_ofTimings name r)
      ((t.get?_eq_none_iff name).mp h)
    simp [setRetry, hfind, h, hinsert, Table.setRetry, bind, Except.bind, pure, Except.pure]
  | some d =>
    obtain rfl := Table.name_of_get? h
    by_cases hs : Table.supersedes r.interval d.retry.interval
    · have hupdate := update_of_mem ht (Table.mem_of_get? h) ({ · with retry := r }) fun _ => rfl
      simp [setRetry, hfind, h, hs, hupdate, Table.setRetry, bind, Except.bind, pure, Except.pure]
    · simp [setRetry, hfind, h, hs, Table.setRetry, bind, Except.bind, pure, Except.pure]

/-- The insertion that turns into an update stores the position, and never fails. -/
theorem setStream_eq (name : String) (ordering : Int64) :
    setStream name ordering (holding (some t)) =
      .ok ((), holding (some (t.setStream name ordering))) := by
  cases h : t.get? name with
  | none =>
    have hinsert := insert_of_notMem (NewRow.complete_ofOrdering name ordering)
      ((t.get?_eq_none_iff name).mp h)
    simp [setStream, upsert, hinsert, Table.setStream, h]
  | some d =>
    obtain rfl := Table.name_of_get? h
    have hd := Table.mem_of_get? h
    have hname : d.name ∈ t.names := List.mem_map_of_mem hd
    have hinsert := insert_of_mem (NewRow.complete_ofOrdering d.name ordering) hname
    have hupdate := update_of_mem ht hd ({ · with streamOrdering := some ordering }) fun _ => rfl
    simp [setStream, upsert, hinsert, hupdate, Table.setStream, h, Except.map]

end

end Statement

namespace Database

/-- A transaction that does with a table what an operation does, and fails where there is none, is
reported as that operation. -/
theorem reported_transact {α : Type} {x : Statement α} {f : Table → Except EngineError (α × Table)}
    {table : Option Table}
    (hsome : ∀ t, table = some t →
      x (holding (some t)) = (f t).map fun r => (r.1, holding (some r.2)))
    (hnone : x (holding none) = .error (.failure "no such table: destinations")) :
    reported ((holding table).transact x) = (holding table).storage.write f := by
  cases table with
  | none =>
    rw [transact, hnone]
    rfl
  | some t =>
    rw [transact, hsome t rfl, storage_some, Storage.write]
    simp only [Storage.table]
    cases f t <;> rfl

theorem transact_of_error {α : Type} {x : Statement α} {d : Database} {e : EngineError}
    (h : (d.transact x).1 = .error e) : d.transact x = (.error e, d) := by
  unfold transact at h ⊢
  cases hx : x d with
  | ok r =>
    rw [hx] at h
    contradiction
  | error e' =>
    rw [hx] at h
    obtain rfl := Except.error.inj h
    rfl

theorem transact_discard {α : Type} {x : Statement α} {d d' : Database} {e : EngineError}
    (h : d.transact x = (.error e, d')) : d.transact x.discard = (.error e, d') := by
  unfold transact Statement.discard at *
  cases hx : x d with
  | ok r =>
    rw [hx] at h
    cases h
  | error e' =>
    rw [hx] at h
    cases h
    rfl

variable (table : Option Table)

theorem reported_insert (row : NewRow) :
    reported ((holding table).transact (Statement.insert row)) =
      (holding table).storage.insert row :=
  reported_transact (fun _ _ => rfl) rfl

theorem reported_setRetry (ht : ∀ t, table = some t → t.Distinct) (name : String)
    (r : RetryTimings) :
    reported ((holding table).transact (Statement.setRetry name r)) =
      (holding table).storage.setRetry name r :=
  reported_transact (fun t h => Statement.setRetry_eq (ht t h) name r) rfl

theorem reported_setStream (ht : ∀ t, table = some t → t.Distinct) (name : String)
    (ordering : Int64) :
    reported ((holding table).transact (Statement.setStream name ordering)) =
      (holding table).storage.setStream name ordering :=
  reported_transact (fun t h => Statement.setStream_eq (ht t h) name ordering) rfl

/-- A migration is reported as one operation, although no transaction holds it together. -/
theorem reported_creation :
    reported ((holding table).batch creation) = (holding table).storage.create := by
  cases table <;> rfl

theorem reported_removal :
    reported ((holding table).batch removal) = (holding table).storage.drop := by
  cases table <;> rfl

end Database
end PeerRoster
