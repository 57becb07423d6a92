import PeerRoster.Proofs.Rows
import PeerRoster.Session

/-! What the writing steps of a session do to a table. A step reaches the table as at most one
write; a write creates the row of its name, or changes the row that is there, and no other. -/
namespace PeerRoster

/-- A write of one row: what a writer does under a name that it accepts, or a row as a plain
statement gives it. -/
inductive Write
  | operation (name : ServerName) (a : Operation)
  | insert (row : NewRow)

namespace Write

def run (t : Table) : Write → Table
  | .operation n a => a.onTable n.text t
  | .insert row => match t.insert row with
    | .ok t' => t'
    | .error _ => t

/-- The row that a write creates if no row has its name; there is none for an incomplete row. -/
def row? : Write → Option Destination
  | .operation n a => some (a.row n.text none)
  | .insert row => row.complete.toOption

/-- What a write makes of a row that is there. -/
def change (d : Destination) : Write → Destination
  | .operation n a => if n.text = d.name then a.row n.text (some d) else d
  | .insert _ => d

theorem run_insert_of_error {row : NewRow} {e : EngineError} (h : row.complete = .error e)
    (t : Table) : run t (.insert row) = t := by
  rw [run, Table.insert_of_error h]

theorem run_insert_of_ok {row : NewRow} {d : Destination} (h : row.complete = .ok d) (t : Table) :
    run t (.insert row) = if d.name ∈ t.names then t else t ++ [d] := by
  rw [run, Table.insert_of_ok h]
  by_cases hd : d.name ∈ t.names <;> simp [hd]

theorem get?_run (w : Write) (t : Table) (n : String) :
    (w.run t).get? n = match t.get? n with
      | none => w.row?.filter (·.name = n)
      | some d => some (w.change d) := by
  cases w with
  | operation m a =>
    rw [run, Operation.get?_onTable]
    by_cases hn : n = m.text
    · subst hn
      rw [if_pos rfl]
      cases h : t.get? m.text with
      | none => simp [row?, Option.filter]
      | some d => simp [change, Table.name_of_get? h]
    · rw [if_neg hn]
      cases h : t.get? n with
      | none => simp [row?, Option.filter, Ne.symm hn]
      | some d => simp [change, Table.name_of_get? h, Ne.symm hn]
  | insert row =>
    cases hc : row.complete with
    | error e =>
      rw [run_insert_of_error hc]
      cases t.get? n <;> simp [row?, change, hc, Except.toOption]
    | ok d =>
      have hrow : row? (.insert row) = some d := by simp [row?, hc, Except.toOption]
      rw [run_insert_of_ok hc, hrow]
      by_cases hd : d.name ∈ t.names
      · rw [if_pos hd]
        cases h : t.get? n with
        | none =>
          have hne : d.name ≠ n := fun he => (t.get?_eq_none_iff n).mp h (he ▸ hd)
          simp [Option.filter, hne]
        | some e => rfl
      · rw [if_neg hd, Table.get?_append]
        cases h : t.get? n with
        | none => simp [Option.filter, eq_comm]
        | some e => rfl

theorem names_run (w : Write) (t : Table) :
    (w.run t).names = t.names ∨ ∃ n, n ∉ t.names ∧ (w.run t).names = t.names ++ [n] := by
  cases w with
  | operation n a => exact a.names_onTable_cases n.text t
  | insert row =>
    cases hc : row.complete with
    | error e => exact .inl (by rw [run_insert_of_error hc])
    | ok d =>
      rw [run_insert_of_ok hc]
      by_cases hd : d.name ∈ t.names
      · exact .inl (by rw [if_pos hd])
      · exact .inr ⟨d.name, hd, by rw [if_neg hd, Table.names_append]⟩

end Write

namespace Step

/-- Whether a step writes rows. -/
def isWrite : Step → Bool
  | .setRetry _ _ | .reset _ _ | .setStream _ _ | .insert _ => true
  | _ => false

/-- The write by which a step reaches the table; a name that writers refuse gets no further. -/
def write? : Step → Option Write
  | .setRetry name r => (ServerName.ofString name).toOption.map (.operation · (.setRetry r))
  | .reset name now =>
    (ServerName.ofString name).toOption.map (.operation · (.setRetry (.reset now)))
  | .setStream name ordering =>
    (ServerName.ofString name).toOption.map (.operation · (.setStream ordering))
  | .insert row => some (.insert row)
  | _ => none

/-- The row that a step creates if there is none of its name. -/
def row? (step : Step) : Option Destination := step.write?.bind Write.row?

/-- The table that a step leaves of a table. -/
def onTable (step : Step) (t : Table) : Table := step.write?.elim t (·.run t)

theorem get?_onTable (step : Step) (t : Table) (name : String) :
    (step.onTable t).get? name = match t.get? name with
      | none => step.row?.filter (·.name = name)
      | some d => some (step.write?.elim d (·.change d)) := by
  unfold onTable row?
  cases step.write? with
  | none =>
    change t.get? name = _
    cases t.get? name with
    | none => rfl
    | some d => rfl
  | some w => exact w.get?_run t name

theorem names_onTable (step : Step) (t : Table) :
    (step.onTable t).names = t.names ∨
      ∃ n, n ∉ t.names ∧ (step.onTable t).names = t.names ++ [n] := by
  unfold onTable
  cases step.write? with
  | none => exact .inl rfl
  | some w => exact w.names_run t

theorem names_prefix (step : Step) (t : Table) : t.names <+: (step.onTable t).names := by
  rcases step.names_onTable t with h | ⟨n, -, h⟩
  · exact h ▸ List.prefix_rfl
  · exact h ▸ List.prefix_append _ _

theorem distinct_onTable (step : Step) {t : Table} (ht : t.Distinct) :
    (step.onTable t).Distinct :=
  Table.distinct_of_names ht (step.names_onTable t)

/-- The table that steps leave of a table, one after the other. -/
def tableAfter (steps : List Step) (t : Table) : Table :=
  steps.foldl (fun t step => step.onTable t) t

theorem distinct_tableAfter (steps : List Step) {t : Table} (ht : t.Distinct) :
    (tableAfter steps t).Distinct := by
  induction steps generalizing t with
  | nil => exact ht
  | cons step rest ih => exact ih (step.distinct_onTable ht)

end Step

theorem Storage.write_present {α : Type} (t : Table) (f : Table → Except EngineError (α × Table)) :
    (Storage.present t).write f = match f t with
      | .error e => (.error (.ofEngine e), .present t)
      | .ok (a, t) => (.ok a, .present t) := rfl

namespace Session

theorem withRow_storage {α : Type} (name : String) (answer : α → Option Destination → Answer)
    (written : Except StoreError α × Storage) : (withRow name answer written).2 = written.2 := by
  rcases written with ⟨_ | _, s⟩ <;> rfl

theorem acknowledge_storage (answer : Answer) (done : Except StoreError Unit × Storage) :
    (acknowledge answer done).2 = done.2 := by
  rcases done with ⟨_ | _, s⟩ <;> rfl

/-- A step for a name that writers accept makes its write; for another name it makes none. -/
theorem named_storage {t : Table} {go : ServerName → Except StepError Answer × Storage}
    {write : ServerName → Write} (h : ∀ n, (go n).2 = .present ((write n).run t)) (name : String) :
    (named name (.present t) go).2 =
      .present (((ServerName.ofString name).toOption.map write).elim t (·.run t)) := by
  unfold named
  cases ServerName.ofString name with
  | error e => rfl
  | ok n => exact h n

theorem setRetry_storage (t : Table) (name : String) (r : RetryTimings) :
    (setRetry (.present t) name r).2 =
      .present (((ServerName.ofString name).toOption.map
        (Write.operation · (.setRetry r))).elim t (·.run t)) :=
  named_storage (fun _ => withRow_storage _ _ _) name

theorem step_storage (app : App) (t : Table) {step : Step} (h : step.isWrite) :
    (Session.step app (.present t) step).2 = .present (step.onTable t) := by
  cases step with
  | setRetry name r => exact setRetry_storage t name r
  | reset name now => exact setRetry_storage t name (.reset now)
  | setStream name ordering => exact named_storage (fun _ => withRow_storage _ _ _) name
  | insert row =>
    change (acknowledge .inserted ((Storage.present t).insert row)).2 =
      .present (Write.run t (.insert row))
    rw [acknowledge_storage, Storage.insert, Storage.write_present, Write.run]
    cases t.insert row <;> rfl
  | _ => simp [Step.isWrite] at h

theorem run_storage (app : App) (t : Table) {steps : List Step} (h : ∀ step ∈ steps, step.isWrite) :
    (Session.run app (.present t) steps).2 = .present (Step.tableAfter steps t) := by
  induction steps generalizing t with
  | nil => rfl
  | cons step rest ih =>
    have hs := step_storage app t (h step (by simp))
    rw [Session.run]
    simp only [hs]
    exact ih _ fun step' h' => h step' (by simp [h'])

end Session
end PeerRoster
