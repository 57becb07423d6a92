import PeerRoster.Proofs.Inert

/-! Writers and readers fail for want of storage only. Where there is a table each of them succeeds,
whatever rows it holds and however they got there: no constraint of the table stands in the way of
what a writer inserts, and what it updates is there. -/
namespace PeerRoster

namespace Table

open Database

/-- What the statements of the writers of a name come to in a table. The lookup finds the row of the
name if there is one; if there is none, the row that is inserted breaks no constraint, else the
update finds its one row; and together they are the operations on the storage. -/
structure Serves (t : Table) (name : String) (r : RetryTimings) (ordering : Int64) : Prop where
  finds : ∃ found, Statement.find name (holding (some t)) = .ok (found, holding (some t)) ∧
    ∀ d, found = some d ↔ d ∈ t ∧ d.name = name
  inserts : name ∉ t.names → Statement.insert (.ofTimings name r) (holding (some t)) =
    .ok ((), holding (some (t ++ [⟨name, r, none⟩])))
  updates : ∀ d ∈ t, d.name = name →
    Statement.update name ({ · with retry := r }) (holding (some t)) =
      .ok (1, holding (some (t.replace { d with retry := r })))
  timings : reported ((holding (some t)).transact (Statement.setRetry name r)) =
    (Storage.present t).setRetry name r
  ordering : reported ((holding (some t)).transact (Statement.setStream name ordering)) =
    (Storage.present t).setStream name ordering

theorem serves {t : Table} (ht : t.Distinct) (name : String) (r : RetryTimings)
    (ordering : Int64) : t.Serves name r ordering where
  finds := ⟨t.get? name, rfl, get?_eq_some_iff ht name⟩
  inserts := Statement.insert_of_notMem (NewRow.complete_ofTimings name r)
  updates d hd hname := by
    subst hname
    exact Statement.update_of_mem ht hd _ fun _ => rfl
  timings := reported_setRetry (some t) (fun _ h => Option.some.inj h ▸ ht) name r
  ordering := reported_setStream (some t) (fun _ h => Option.some.inj h ▸ ht) name ordering

end Table

/-- Whether a step asks a writer or a reader in a way that it accepts: for a name without blanks, or
in words that make a query. -/
def Step.IsProper : Step → Prop
  | .setRetry name _ | .reset name _ | .setStream name _ | .get name => IsServerName name
  | .list filter order direction window => ∃ q, Session.query filter order direction window = .ok q
  | _ => False

namespace Session

theorem named_of_isServerName {name : String} (h : IsServerName name) (s : Storage)
    (go : ServerName → Except StepError Answer × Storage) :
    ∃ n : ServerName, n.text = name ∧ named name s go = go n := by
  obtain ⟨n, htext, hn⟩ := h.exists_ofString
  exact ⟨n, htext, by rw [named, hn]⟩

theorem exists_answer_setRetry (t : Table) {name : String} (h : IsServerName name)
    (r : RetryTimings) : ∃ a, (setRetry (.present t) name r).1 = .ok a := by
  obtain ⟨n, -, hn⟩ := named_of_isServerName h (.present t) _
  exact ⟨_, by rw [setRetry, hn]; rfl⟩

theorem exists_answer (app : App) (t : Table) {step : Step} (h : step.IsProper) :
    ∃ a, (Session.step app (.present t) step).1 = .ok a := by
  cases step with
  | setRetry name r => exact exists_answer_setRetry t h r
  | reset name now => exact exists_answer_setRetry t h (.reset now)
  | setStream name ordering =>
    obtain ⟨n, -, hn⟩ := named_of_isServerName h (.present t) _
    exact ⟨_, by rw [Session.step, hn]; rfl⟩
  | get name =>
    obtain ⟨n, -, hn⟩ := named_of_isServerName h (.present t) _
    exact ⟨_, by rw [Session.step, hn]; rfl⟩
  | list filter order direction window =>
    obtain ⟨q, hq⟩ := h
    exact ⟨.found (q.select t), by rw [Session.step, list, hq]; rfl⟩
  | _ => exact h.elim

section

variable {s : Storage} {e : StoreError} (hs : s.table = .error e)

include hs

theorem write_of_no_table {α : Type} (f : Table → Except EngineError (α × Table)) :
    s.write f = (.error e, s) := by
  rw [Storage.write, hs]

theorem setRetry_of_no_table {name : String} (h : IsServerName name) (r : RetryTimings) :
    (setRetry s name r).1 = .error (.store e) := by
  obtain ⟨n, -, hn⟩ := named_of_isServerName h s _
  rw [setRetry, hn, Storage.setRetry, write_of_no_table hs]
  rfl

theorem error_of_no_table (app : App) {step : Step} (h : step.IsProper) :
    (Session.step app s step).1 = .error (.store e) := by
  cases step with
  | setRetry name r => exact setRetry_of_no_table hs h r
  | reset name now => exact setRetry_of_no_table hs h (.reset now)
  | setStream name ordering =>
    obtain ⟨n, -, hn⟩ := named_of_isServerName h s _
    rw [Session.step, hn, Storage.setStream, write_of_no_table hs]
    rfl
  | get name =>
    obtain ⟨n, -, hn⟩ := named_of_isServerName h s _
    rw [Session.step, hn, Storage.get, hs]
    rfl
  | list filter order direction window =>
    obtain ⟨q, hq⟩ := h
    have hlist : s.list q = .error e := by
      rw [Storage.list, hs]
      rfl
    rw [Session.step, list, hq]
    show ((s.list q).mapError StepError.store >>= fun found => .ok (Answer.found found)) = _
    rw [hlist]
    rfl
  | _ => exact h.elim

end

theorem run_unreachable (app : App) (steps : List Step) :
    (Session.run app .unreachable steps).2 = .unreachable := by
  induction steps with
  | nil => rfl
  | cons step rest ih =>
    have hs : (Session.step app .unreachable step).2 = .unreachable := by
      rcases step_cases app .unreachable step with hs | ⟨t, ht, -⟩ | ⟨t, -, ht, -⟩ | ⟨-, ht, -⟩
      · exact hs
      · cases ht
      · cases ht
      · cases ht
    rw [Session.run, hs]
    exact ih

theorem distinct_of_run (app : App) {steps : List Step} {t : Table}
    (h : (Session.run app .empty steps).2 = .present t) : t.Distinct := by
  have hempty : Storage.empty.Sound := .inr ⟨[], rfl, by decide⟩
  rcases sound_run app hempty steps with hd | ⟨u, hu, hdistinct⟩
  · rw [h] at hd
    cases hd
  · obtain rfl := Storage.present.inj (h.symm.trans hu)
    exact hdistinct

/-- Writers and readers fail for want of storage only. In every session that begins with an empty
table they succeed while there is a table and fail with an error of the database while there is
none; where the storage is out of reach they fail for the connection. While there is a table, the
statements of a writer break no constraint and miss no row. -/
theorem step_available (app : App) (steps : List Step) :
    (∀ step : Step, step.IsProper →
      (∀ t, (Session.run app .empty steps).2 = .present t →
        ∃ a, (Session.step app (.present t) step).1 = .ok a) ∧
      ((Session.run app .empty steps).2 = .dropped →
        ∃ detail, (Session.step app .dropped step).1 = .error (.store (.database detail))) ∧
      ∃ detail, (Session.step app (Session.run app .unreachable steps).2 step).1 =
        .error (.store (.connection detail))) ∧
    ∀ t, (Session.run app .empty steps).2 = .present t →
      ∀ (n : ServerName) (r : RetryTimings) (ordering : Int64), t.Serves n.text r ordering := by
  refine ⟨fun step h => ⟨fun t _ => exists_answer app t h, fun _ => ?_, ?_⟩,
    fun t ht n r ordering => ?_⟩
  · exact ⟨_, error_of_no_table (e := Storage.noTable) rfl app h⟩
  · rw [run_unreachable]
    exact ⟨_, error_of_no_table (e := Storage.noConnection) rfl app h⟩
  · exact Table.serves (distinct_of_run app ht) n.text r ordering

/-- In a table that was dropped and created anew, where a plain statement stored the name first and
with a negative interval. -/
theorem step_available_recreated :
    let app : App := ⟨none, true, 0⟩
    let steps : List Step := [.insert ⟨some "b c", .default, .value 4, none, none⟩, .drop, .create,
      .insert ⟨some "a.org", .value 5, .value (-8), none, none⟩]
    let row : Destination := ⟨"a.org", ⟨none, 5, -8⟩, none⟩
    let r : RetryTimings := ⟨some 1, 2, -3⟩
    (∃ a, (Session.step app (.present [row]) (.setRetry "a.org" r)).1 = .ok a) ∧
    (∃ detail, (Session.step app .dropped (.list none (some "failure_ts") (some "b") none)).1 =
      .error (.store (.database detail))) ∧
    (∃ detail, (Session.step app (Session.run app .unreachable steps).2 (.get "a.org")).1 =
      .error (.store (.connection detail))) ∧
    Statement.update "a.org" ({ · with retry := r }) (Database.holding (some [row])) =
      .ok (1, Database.holding (some [{ row with retry := r }])) := by
  intro app steps row r
  have hname : IsServerName "a.org" :=
    ServerName.isServerName ⟨"a.org", by decide, by decide +kernel⟩
  have hpresent : (Session.run app .empty steps).2 = .present [row] := rfl
  have hdropped : (Session.run app .empty (steps ++ [.drop])).2 = .dropped := rfl
  obtain ⟨hsteps, hserves⟩ := step_available app steps
  refine ⟨(hsteps (.setRetry "a.org" r) hname).1 [row] hpresent, ?_,
    (hsteps (.get "a.org") hname).2.2, ?_⟩
  · exact ((step_available app (steps ++ [.drop])).1
      (.list none (some "failure_ts") (some "b") none) ⟨_, rfl⟩).2.1 hdropped
  · obtain ⟨n, hn, -⟩ := hname.exists_ofString
    have h := (hserves [row] hpresent n r 0).updates row List.mem_cons_self hn.symm
    rw [hn] at h
    exact h

end Session
end PeerRoster
