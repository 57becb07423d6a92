import PeerRoster.Proofs.Outcome
import PeerRoster.Proofs.Write

/-! The names in the storage over a whole session, whatever its steps are and whether or not they
succeed. Each is stored once and stays until the table is dropped; one that no plain statement
stored is a name that writers accept. -/
namespace PeerRoster

namespace Storage

/-- The names of the rows; where there is no table there are none. -/
def names : Storage → List String
  | .present t => t.names
  | _ => []

/-- There is a table whose rows have different names, or the table was dropped. -/
def Sound (s : Storage) : Prop := s = .dropped ∨ ∃ t, s = .present t ∧ t.Distinct

end Storage

theorem NewRow.name_of_complete {row : NewRow} {d : Destination} (h : row.complete = .ok d) :
    row.name = some d.name := by
  obtain ⟨name, hname, h⟩ := bind_eq_ok.mp h
  obtain ⟨lastTs, -, h⟩ := bind_eq_ok.mp h
  obtain ⟨interval, -, h⟩ := bind_eq_ok.mp h
  obtain rfl := Except.ok.inj h
  cases hr : row.name with
  | none => simp [hr, notNull] at hname
  | some n =>
    rw [hr, notNull] at hname
    exact congrArg some (Except.ok.inj hname)

namespace Session

theorem named_unchanged {s : Storage} {go : ServerName → Except StepError Answer × Storage}
    (h : ∀ n, (go n).2 = s) (name : String) : (named name s go).2 = s := by
  unfold named
  cases ServerName.ofString name with
  | error e => rfl
  | ok n => exact h n

theorem get_storage (app : App) (s : Storage) (name : String) :
    (Session.step app s (.get name)).2 = s := by
  apply named_unchanged
  intro n
  rfl

theorem step_of_no_table (app : App) {s : Storage} {e : StoreError} (hs : s.table = .error e)
    {step : Step} (hstep : step ≠ .create) : (Session.step app s step).2 = s := by
  have hwrite : ∀ {α : Type} (f : Table → Except EngineError (α × Table)), (s.write f).2 = s := by
    intro α f
    rw [Storage.write, hs]
  cases step with
  | setRetry name r =>
    exact named_unchanged (fun _ => (withRow_storage _ _ _).trans (hwrite _)) name
  | reset name now => exact named_unchanged (fun _ => (withRow_storage _ _ _).trans (hwrite _)) name
  | setStream name ordering =>
    exact named_unchanged (fun _ => (withRow_storage _ _ _).trans (hwrite _)) name
  | get name => exact get_storage app s name
  | insert row => exact (acknowledge_storage _ _).trans (hwrite _)
  | drop =>
    cases s with
    | present t => simp [Storage.table] at hs
    | dropped => rfl
    | unreachable => rfl
  | create => exact absurd rfl hstep
  | list _ _ _ _ => rfl
  | service _ _ _ => rfl
  | http _ => rfl

/-- A step leaves the storage as it is, makes its write, drops the table that is there, or creates
one where there is none. -/
theorem step_cases (app : App) (s : Storage) (step : Step) :
    (Session.step app s step).2 = s ∨
    (∃ t, s = .present t ∧ step.isWrite ∧
      (Session.step app s step).2 = .present (step.onTable t)) ∨
    (∃ t, step = .drop ∧ s = .present t ∧ Session.step app s step = (.ok .done, .dropped)) ∨
    (step = .create ∧ s = .dropped ∧ Session.step app s step = (.ok .done, .empty)) := by
  cases s with
  | present t =>
    by_cases hw : step.isWrite
    · exact .inr (.inl ⟨t, rfl, hw, step_storage app t hw⟩)
    · cases step with
      | get name => exact .inl (get_storage app _ name)
      | drop => exact .inr (.inr (.inl ⟨t, rfl, rfl, rfl⟩))
      | create => exact .inl rfl
      | list _ _ _ _ => exact .inl rfl
      | service _ _ _ => exact .inl rfl
      | http _ => exact .inl rfl
      | _ => simp [Step.isWrite] at hw
  | dropped =>
    by_cases hc : step = .create
    · subst hc
      exact .inr (.inr (.inr ⟨rfl, rfl, rfl⟩))
    · exact .inl (step_of_no_table app (e := Storage.noTable) rfl hc)
  | unreachable =>
    by_cases hc : step = .create
    · subst hc
      exact .inl rfl
    · exact .inl (step_of_no_table app (e := Storage.noConnection) rfl hc)

theorem sound_step (app : App) {s : Storage} (h : s.Sound) (step : Step) :
    (Session.step app s step).2.Sound := by
  rcases step_cases app s step with hs | ⟨t, rfl, -, hs⟩ | ⟨t, -, -, hs⟩ | ⟨-, -, hs⟩
  · rwa [hs]
  · rcases h with h | ⟨t', ht, hd⟩
    · contradiction
    · obtain rfl := Storage.present.inj ht
      exact .inr ⟨_, hs, step.distinct_onTable hd⟩
  · rw [hs]
    exact .inl rfl
  · rw [hs]
    exact .inr ⟨[], rfl, by decide⟩

theorem names_step (app : App) (s : Storage) {step : Step}
    (h : step = .drop → ∃ e, (Session.step app s step).1 = .error e) :
    s.names ⊆ (Session.step app s step).2.names := by
  rcases step_cases app s step with hs | ⟨t, rfl, -, hs⟩ | ⟨t, hd, -, hs⟩ | ⟨-, rfl, -⟩
  · rw [hs]
    exact List.Subset.refl _
  · rw [hs]
    exact (step.names_prefix t).subset
  · obtain ⟨e, he⟩ := h hd
    rw [hs] at he
    contradiction
  · exact List.nil_subset _

theorem insert_of_write? {step : Step} {row : NewRow} (h : step.write? = some (.insert row)) :
    step = .insert row := by
  cases step with
  | insert r => exact congrArg Step.insert (Write.insert.inj (Option.some.inj h))
  | _ => simp [Step.write?] at h

theorem name_of_row {step : Step} {d : Destination} (h : step.row? = some d) :
    IsServerName d.name ∨ ∃ row, step = .insert row ∧ row.complete = .ok d := by
  obtain ⟨w, hw, hd⟩ := Option.bind_eq_some_iff.mp h
  cases w with
  | operation n a =>
    obtain rfl := Option.some.inj hd
    rw [a.name_row_none]
    exact .inl n.isServerName
  | insert row =>
    refine .inr ⟨row, insert_of_write? hw, ?_⟩
    cases hc : row.complete with
    | error e => simp [Write.row?, hc, Except.toOption] at hd
    | ok e => simpa [Write.row?, hc, Except.toOption] using hd

theorem insert_answer (app : App) {t : Table} {row : NewRow} {d : Destination}
    (hc : row.complete = .ok d) (hn : d.name ∉ t.names) :
    (Session.step app (.present t) (.insert row)).1 = .ok .inserted := by
  have hi : t.insert row = .ok (t ++ [d]) := by
    rw [Table.insert_of_ok hc, if_neg hn]
  rw [Session.step, Storage.insert, Storage.write_present, hi]
  rfl

/-- A name that is new after a step is one that writers accept, unless a plain statement stored it.
-/
theorem name_of_step (app : App) (s : Storage) (step : Step) {name : String}
    (h : name ∈ (Session.step app s step).2.names) :
    name ∈ s.names ∨ IsServerName name ∨ ∃ row, step = .insert row ∧ row.name = some name ∧
      (Session.step app s step).1 = .ok .inserted := by
  rcases step_cases app s step with hs | ⟨t, rfl, -, hs⟩ | ⟨t, -, -, hs⟩ | ⟨-, -, hs⟩
  · exact .inl (hs ▸ h)
  · rw [hs] at h
    cases hbefore : t.get? name with
    | some d =>
      left
      exact (t.get?_isSome_iff name).mp (by rw [hbefore]; rfl)
    | none =>
      right
      obtain ⟨d, hd⟩ := Option.isSome_iff_exists.mp ((Table.get?_isSome_iff _ _).mpr h)
      rw [Step.get?_onTable, hbefore] at hd
      obtain ⟨hrow, hname⟩ := Option.filter_eq_some_iff.mp hd
      obtain rfl : d.name = name := by simpa using hname
      rcases name_of_row hrow with hv | ⟨row, rfl, hc⟩
      · exact .inl hv
      · have hname := (t.get?_eq_none_iff _).mp hbefore
        exact .inr ⟨row, rfl, NewRow.name_of_complete hc, insert_answer app hc hname⟩
  · rw [hs] at h
    contradiction
  · rw [hs] at h
    contradiction

/-- The steps of a run with their answers. -/
def transcript (app : App) (s : Storage) (steps : List Step) :
    List (Step × Except StepError Answer) :=
  steps.zip (Session.run app s steps).1

theorem transcript_cons (app : App) (s : Storage) (step : Step) (rest : List Step) :
    transcript app s (step :: rest) =
      (step, (Session.step app s step).1) :: transcript app (Session.step app s step).2 rest := rfl

theorem run_append (app : App) (s : Storage) (steps later : List Step) :
    (Session.run app s (steps ++ later)).2 =
      (Session.run app (Session.run app s steps).2 later).2 := by
  induction steps generalizing s with
  | nil => rfl
  | cons step rest ih => exact ih _

theorem sound_run (app : App) {s : Storage} (h : s.Sound) (steps : List Step) :
    (Session.run app s steps).2.Sound := by
  induction steps generalizing s with
  | nil => exact h
  | cons step rest ih => exact ih (sound_step app h step)

theorem names_run (app : App) (s : Storage) {steps : List Step}
    (h : ∀ p ∈ transcript app s steps, p.1 = .drop → ∃ e, p.2 = .error e) :
    s.names ⊆ (Session.run app s steps).2.names := by
  induction steps generalizing s with
  | nil => exact List.Subset.refl _
  | cons step rest ih =>
    rw [transcript_cons, List.forall_mem_cons] at h
    exact List.Subset.trans (names_step app s h.1) (ih _ h.2)

theorem name_of_run (app : App) (s : Storage) {steps : List Step} {name : String}
    (h : name ∈ (Session.run app s steps).2.names) :
    name ∈ s.names ∨ IsServerName name ∨
      ∃ row, row.name = some name ∧ (.insert row, .ok .inserted) ∈ transcript app s steps := by
  induction steps generalizing s with
  | nil => exact .inl h
  | cons step rest ih =>
    rw [transcript_cons]
    rcases ih _ h with hs | hv | ⟨row, hname, hrow⟩
    · rcases name_of_step app s step hs with hs | hv | ⟨row, rfl, hname, ha⟩
      · exact .inl hs
      · exact .inr (.inl hv)
      · refine .inr (.inr ⟨row, hname, ?_⟩)
        rw [ha]
        exact List.mem_cons_self
    · exact .inr (.inl hv)
    · exact .inr (.inr ⟨row, hname, List.mem_cons_of_mem _ hrow⟩)

/-- The lifetime of a name, in every session that begins with an empty table. No two rows ever have
the same name. A name that is stored stays until the table is dropped, and a table that is created
anew holds none. A name is one that writers accept, unless a plain statement stored it. -/
theorem names_lifetime (app : App) (steps : List Step) :
    ((Session.run app .empty steps).2 = .dropped ∨
      ∃ t, (Session.run app .empty steps).2 = .present t ∧ t.Distinct) ∧
    (∀ later, (∀ p ∈ transcript app (Session.run app .empty steps).2 later,
        p.1 = .drop → ∃ e, p.2 = .error e) →
      (Session.run app .empty steps).2.names ⊆
        (Session.run app .empty (steps ++ later)).2.names) ∧
    (∀ answer, (Session.step app (Session.run app .empty steps).2 .create).1 = .ok answer →
      (Session.run app .empty (steps ++ [.create])).2 = .present []) ∧
    ∀ name ∈ (Session.run app .empty steps).2.names,
      (∀ row, row.name = some name → (.insert row, .ok .inserted) ∉ transcript app .empty steps) →
      name ≠ "" ∧ ∀ c ∈ name.toList, isBlank c = false := by
  have hempty : Storage.empty.Sound := .inr ⟨[], rfl, by decide⟩
  refine ⟨sound_run app hempty steps, fun later h => ?_, fun answer h => ?_, fun name hn hr => ?_⟩
  · rw [run_append]
    exact names_run app _ h
  · rw [run_append]
    change (Session.step app _ .create).2 = _
    cases hs : (Session.run app .empty steps).2 with
    | present t =>
      rw [hs] at h
      contradiction
    | dropped => rfl
    | unreachable =>
      rw [hs] at h
      contradiction
  · rcases name_of_run app .empty hn with h | h | ⟨row, hname, hrow⟩
    · contradiction
    · exact h
    · exact absurd hrow (hr row hname)

/-- A name with a blank gets in by a plain statement only, and once; a second creation fails and
loses nothing, one behind a drop leaves an empty table. -/
theorem names_lifetime_blank :
    let app : App := ⟨none, true, 0⟩
    let steps : List Step := [.setStream "a.org" 9, .setRetry "b c" ⟨none, 1, 2⟩,
      .insert ⟨some "b c", .default, .value 4, none, none⟩,
      .insert ⟨some "b c", .default, .default, none, none⟩]
    let later : List Step := [.create, .setRetry "d.org" ⟨none, 1, 2⟩, .get "a.org"]
    (Session.run app .empty steps).2.names = ["a.org", "b c"] ∧
    (Session.run app .empty steps).2.names ⊆ (Session.run app .empty (steps ++ later)).2.names ∧
    (Session.run app .empty (steps ++ [.drop] ++ [.create])).2 = .present [] ∧
    ∀ c ∈ "a.org".toList, isBlank c = false := by
  intro app steps later
  have hnames : (Session.run app .empty steps).2.names = ["a.org", "b c"] := by decide +kernel
  refine ⟨hnames, (names_lifetime app steps).2.1 later ?_, ?_, ?_⟩
  · intro p hp hd
    have hm : p.1 ∈ later := (List.of_mem_zip hp).1
    rw [hd] at hm
    simp [later] at hm
  · exact (names_lifetime app (steps ++ [.drop])).2.2.1 .done rfl
  · refine ((names_lifetime app steps).2.2.2 "a.org" (by rw [hnames]; decide) ?_).2
    intro row hname hrow
    have hm : .insert row ∈ steps := (List.of_mem_zip hrow).1
    simp only [steps, List.mem_cons, reduceCtorEq, Step.insert.injEq, List.not_mem_nil, false_or,
      or_false] at hm
    rcases hm with rfl | rfl
    · simp at hname
    · simp at hname

end Session
end PeerRoster
