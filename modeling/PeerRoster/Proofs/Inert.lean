import PeerRoster.Proofs.Lifetime
import PeerRoster.Proofs.Statement

/-! Steps that change nothing: those that only ask, and those that an error answers. Without such a
step a session gives all its other answers, and leaves the same storage. -/
namespace PeerRoster

theorem Storage.write_cases {α : Type} (s : Storage) (f : Table → Except EngineError (α × Table)) :
    (∃ e, s.write f = (.error e, s)) ∨ ∃ a t, s.write f = (.ok a, .present t) := by
  unfold Storage.write
  cases s.table with
  | error e => exact .inl ⟨e, rfl⟩
  | ok t =>
    cases hf : f t with
    | error e => exact .inl ⟨.ofEngine e, by simp [hf]⟩
    | ok r => exact .inr ⟨r.1, r.2, by simp [hf]⟩

/-- Whether a step only asks. -/
def Step.isRead : Step → Bool
  | .get _ | .list .. | .service .. | .http _ => true
  | _ => false

namespace Session

variable {s : Storage} {e : StepError}

theorem storage_of_failed_write {α : Type} {f : Table → Except EngineError (α × Table)}
    (go : Except StoreError α × Storage → Except StepError Answer × Storage)
    (herror : ∀ e', (go (.error e', s)).2 = s) (hok : ∀ a t, (go (.ok a, .present t)).1 ≠ .error e)
    (h : (go (s.write f)).1 = .error e) : (go (s.write f)).2 = s := by
  rcases s.write_cases f with ⟨e', hw⟩ | ⟨a, t, hw⟩
  · rw [hw]
    exact herror e'
  · rw [hw] at h
    exact absurd h (hok a t)

theorem withRow_of_error {α : Type} {f : Table → Except EngineError (α × Table)} {name : String}
    {answer : α → Option Destination → Answer}
    (h : (withRow name answer (s.write f)).1 = .error e) :
    (withRow name answer (s.write f)).2 = s :=
  storage_of_failed_write (withRow name answer) (fun _ => rfl) (fun _ _ => nofun) h

theorem acknowledge_of_error {f : Table → Except EngineError (Unit × Table)} {answer : Answer}
    (h : (acknowledge answer (s.write f)).1 = .error e) :
    (acknowledge answer (s.write f)).2 = s :=
  storage_of_failed_write (acknowledge answer) (fun _ => rfl) (fun _ _ => nofun) h

theorem named_of_error {go : ServerName → Except StepError Answer × Storage} {name : String}
    (hgo : ∀ n, (go n).1 = .error e → (go n).2 = s) (h : (named name s go).1 = .error e) :
    (named name s go).2 = s := by
  unfold named at h ⊢
  cases hn : ServerName.ofString name with
  | error e' => rfl
  | ok n =>
    rw [hn] at h
    exact hgo n h

theorem storage_of_error (app : App) {step : Step}
    (h : (Session.step app s step).1 = .error e) : (Session.step app s step).2 = s := by
  cases step with
  | setRetry name r => exact named_of_error (fun _ => withRow_of_error) h
  | reset name now => exact named_of_error (fun _ => withRow_of_error) h
  | setStream name ordering => exact named_of_error (fun _ => withRow_of_error) h
  | get name => exact get_storage app s name
  | insert row => exact acknowledge_of_error h
  | drop =>
    cases s with
    | present t => cases h
    | dropped => rfl
    | unreachable => rfl
  | create =>
    cases s with
    | present t => rfl
    | dropped => cases h
    | unreachable => rfl
  | list _ _ _ _ => rfl
  | service _ _ _ => rfl
  | http _ => rfl

theorem storage_of_read (app : App) (s : Storage) {step : Step} (h : step.isRead) :
    (Session.step app s step).2 = s := by
  cases step with
  | get name => exact get_storage app s name
  | list _ _ _ _ => rfl
  | service _ _ _ => rfl
  | http _ => rfl
  | _ => simp [Step.isRead] at h

theorem length_answers (app : App) (s : Storage) (steps : List Step) :
    (Session.run app s steps).1.length = steps.length := by
  induction steps generalizing s with
  | nil => rfl
  | cons step rest ih => simp [Session.run, ih]

theorem answers_append (app : App) (s : Storage) (steps later : List Step) :
    (Session.run app s (steps ++ later)).1 =
      (Session.run app s steps).1 ++ (Session.run app (Session.run app s steps).2 later).1 := by
  induction steps generalizing s with
  | nil => rfl
  | cons step rest ih => simp [Session.run, ih]

/-- A step that leaves the storage as it is may be left out of a run: the other answers stay. -/
theorem answers_without (app : App) {before : List Step} {step : Step}
    (h : (Session.step app (Session.run app s before).2 step).2 = (Session.run app s before).2)
    (later : List Step) :
    (Session.run app s (before ++ step :: later)).1.eraseIdx before.length =
      (Session.run app s (before ++ later)).1 := by
  have hlength := length_answers app s before
  rw [answers_append, answers_append, Session.run, h,
    List.eraseIdx_append_of_length_le (Nat.le_of_eq hlength), hlength, Nat.sub_self]
  rfl

theorem storage_without (app : App) {before : List Step} {step : Step}
    (h : (Session.step app (Session.run app s before).2 step).2 = (Session.run app s before).2)
    (later : List Step) :
    (Session.run app s (before ++ step :: later)).2 = (Session.run app s (before ++ later)).2 := by
  rw [run_append, run_append, Session.run, h]

/-- The migration that a step performs, statement by statement. -/
def script? : Step → Option (List (Statement Unit))
  | .create => some Database.creation
  | .drop => some Database.removal
  | _ => none

/-- A migration answers and leaves what its statements come to. -/
theorem step_script (app : App) {step : Step} {script : List (Statement Unit)}
    (h : script? step = some script) (table : Option Table) :
    Session.step app (Database.holding table).storage step =
      acknowledge .done (Database.reported ((Database.holding table).batch script)) := by
  cases step with
  | create =>
    obtain rfl := Option.some.inj h
    rw [Database.reported_creation]
    rfl
  | drop =>
    obtain rfl := Option.some.inj h
    rw [Database.reported_removal]
    rfl
  | _ => cases h

/-- Where a migration fails, no statement of it has done anything. -/
theorem batch_of_script (app : App) {step : Step} {script : List (Statement Unit)}
    (hscript : script? step = some script) {table : Option Table}
    (h : (Session.step app (Database.holding table).storage step).1 = .error e) :
    ((Database.holding table).batch script).2 = Database.holding table := by
  cases step with
  | create =>
    obtain rfl := Option.some.inj hscript
    cases table with
    | none => cases h
    | some t => rfl
  | drop =>
    obtain rfl := Option.some.inj hscript
    cases table with
    | none => rfl
    | some t => cases h
  | _ => cases hscript

/-- The transaction that a write consists of. -/
def transaction : Write → Statement Unit
  | .operation n (.setRetry r) => (Statement.setRetry n.text r).discard
  | .operation n (.setStream ordering) => Statement.setStream n.text ordering
  | .insert row => Statement.insert row

/-- The transaction by which a step writes; a name that writers refuse gets no further. -/
def transaction? (step : Step) : Option (Statement Unit) := step.write?.map transaction

/-- Where an error answers a write that consists of a transaction, the transaction has failed with
that error and left the database. -/
theorem transact_of_failed_write {α : Type} {x : Statement α}
    {f : Table → Except EngineError (α × Table)} {table : Option Table}
    (hx : Database.reported ((Database.holding table).transact x) =
      (Database.holding table).storage.write f)
    (go : Except StoreError α × Storage → Except StepError Answer × Storage)
    (herror : ∀ e' s, (go (.error e', s)).1 = .error (.store e'))
    (hok : ∀ a t, (go (.ok a, .present t)).1 ≠ .error e)
    (h : (go ((Database.holding table).storage.write f)).1 = .error e) :
    ∃ e', (Database.holding table).transact x = (.error e', Database.holding table) ∧
      (go ((Database.holding table).storage.write f)).1 = .error (.store (.ofEngine e')) := by
  rcases (Database.holding table).storage.write_cases f with ⟨e', hw⟩ | ⟨a, t, hw⟩
  · rw [hw] at hx ⊢
    rw [herror]
    have hanswer := congrArg Prod.fst hx
    cases hfst : ((Database.holding table).transact x).1 with
    | ok a =>
      rw [Database.reported, hfst] at hanswer
      contradiction
    | error e'' =>
      rw [Database.reported, hfst] at hanswer
      obtain rfl := Except.error.inj hanswer
      exact ⟨e'', Database.transact_of_error hfst, rfl⟩
  · rw [hw] at h
    exact absurd h (hok a t)

theorem transact_of_named {table : Option Table} {name : String} {x : Statement Unit}
    {write : ServerName → Write} {go : ServerName → Except StepError Answer × Storage}
    (hgo : ∀ n, (go n).1 = .error e → ∃ e', (Database.holding table).transact
        (transaction (write n)) = (.error e', Database.holding table) ∧
      (go n).1 = .error (.store (.ofEngine e')))
    (hx : ((ServerName.ofString name).toOption.map write).map transaction = some x)
    (h : (named name (Database.holding table).storage go).1 = .error e) :
    ∃ e', (Database.holding table).transact x = (.error e', Database.holding table) ∧
      (named name (Database.holding table).storage go).1 = .error (.store (.ofEngine e')) := by
  unfold named at h ⊢
  cases hn : ServerName.ofString name with
  | error e' => simp [hn, Except.toOption] at hx
  | ok n =>
    rw [hn] at h hx
    obtain rfl := Option.some.inj hx
    exact hgo n h

theorem transact_of_step (app : App) {step : Step} {table : Option Table}
    (ht : ∀ t, table = some t → t.Distinct) {x : Statement Unit} (hx : transaction? step = some x)
    (h : (Session.step app (Database.holding table).storage step).1 = .error e) :
    ∃ e', (Database.holding table).transact x = (.error e', Database.holding table) ∧
      (Session.step app (Database.holding table).storage step).1 =
        .error (.store (.ofEngine e')) := by
  have hretry : ∀ r (n : ServerName),
      (withRow n.text .retry ((Database.holding table).storage.setRetry n.text r)).1 = .error e →
      ∃ e', (Database.holding table).transact (Statement.setRetry n.text r).discard =
          (.error e', Database.holding table) ∧
        (withRow n.text .retry ((Database.holding table).storage.setRetry n.text r)).1 =
          .error (.store (.ofEngine e')) := by
    intro r n hn
    obtain ⟨e', he, hanswer⟩ := transact_of_failed_write
      (Database.reported_setRetry table ht n.text r) (withRow n.text .retry) (fun _ _ => rfl)
      (fun _ _ => nofun) hn
    exact ⟨e', Database.transact_discard he, hanswer⟩
  cases step with
  | setRetry name r => exact transact_of_named (hretry r) hx h
  | reset name now => exact transact_of_named (hretry (.reset now)) hx h
  | setStream name ordering =>
    refine transact_of_named (fun n hn => ?_) hx h
    exact transact_of_failed_write (Database.reported_setStream table ht n.text ordering)
      (withRow n.text fun _ => .stream) (fun _ _ => rfl) (fun _ _ => nofun) hn
  | insert row =>
    obtain rfl := Option.some.inj hx
    exact transact_of_failed_write (Database.reported_insert table row) (acknowledge .inserted)
      (fun _ _ => rfl) (fun _ _ => nofun) h
  | _ => cases hx

/-- Steps that change nothing. If a step only asks or an error answers it, the storage is as it was
before; in every session all other answers are those of the session without it, and so is what it
leaves. A migration is two statements that no transaction holds together; one that fails has not
done the first of them either. A write is one transaction; where it fails, it has failed with the
error that is reported. -/
theorem step_inert (app : App) (s : Storage) (before : List Step) {step : Step}
    (h : step.isRead ∨ ∃ e, (Session.step app (Session.run app s before).2 step).1 = .error e) :
    (Session.step app (Session.run app s before).2 step).2 = (Session.run app s before).2 ∧
    (∀ later, (Session.run app s (before ++ step :: later)).1.eraseIdx before.length =
        (Session.run app s (before ++ later)).1 ∧
      (Session.run app s (before ++ step :: later)).2 = (Session.run app s (before ++ later)).2) ∧
    (∀ table script, (Database.holding table).storage = (Session.run app s before).2 →
      script? step = some script →
      Session.step app (Session.run app s before).2 step =
        acknowledge .done (Database.reported ((Database.holding table).batch script)) ∧
      ((Database.holding table).batch script).2 = Database.holding table) ∧
    ∀ table x, (∀ t, table = some t → t.Distinct) →
      (Database.holding table).storage = (Session.run app s before).2 → transaction? step = some x →
      ∃ e, (Database.holding table).transact x = (.error e, Database.holding table) ∧
        (Session.step app (Session.run app s before).2 step).1 = .error (.store (.ofEngine e)) := by
  have hs : (Session.step app (Session.run app s before).2 step).2 =
      (Session.run app s before).2 := by
    rcases h with hread | ⟨e, he⟩
    · exact storage_of_read app _ hread
    · exact storage_of_error app he
  refine ⟨hs, fun later => ⟨answers_without app hs later, storage_without app hs later⟩,
    fun table script htable hscript => ?_, fun table x ht htable hx => ?_⟩
  · rw [← htable] at h ⊢
    refine ⟨step_script app hscript table, ?_⟩
    rcases h with hread | ⟨e, he⟩
    · cases step <;> simp [Step.isRead, script?] at hread hscript
    · exact batch_of_script app hscript he
  · rw [← htable] at h ⊢
    rcases h with hread | ⟨e, he⟩
    · cases step <;> simp [Step.isRead, transaction?, Step.write?] at hread hx
    · exact transact_of_step app ht hx he

/-- A row whose name is taken, a second drop and a question: without them the session goes on as it
does with them. -/
theorem step_inert_failures :
    let app : App := ⟨none, true, 0⟩
    let before : List Step := [.setRetry "a.org" ⟨some 1, 2, -3⟩]
    let row : NewRow := ⟨some "a.org", .default, .value 4, none, some 5⟩
    let later : List Step := [.setRetry "a.org" ⟨none, 6, -7⟩, .get "a.org", .drop]
    (Session.run app .empty (before ++ .insert row :: later)).1.eraseIdx before.length =
      (Session.run app .empty (before ++ later)).1 ∧
    (Session.run app .empty (before ++ .get "a b" :: later)).1.eraseIdx before.length =
      (Session.run app .empty (before ++ later)).1 ∧
    (Session.step app .dropped .drop).2 = .dropped ∧
    ((Database.holding none).batch Database.removal).2 = Database.holding none ∧
    ∃ e, (Database.holding (some [⟨"a.org", ⟨some 1, 2, -3⟩, none⟩])).transact
        (Statement.insert row) =
      (.error e, Database.holding (some [⟨"a.org", ⟨some 1, 2, -3⟩, none⟩])) := by
  intro app before row later
  have hinsert : ∃ e, (Session.step app (Session.run app .empty before).2 (.insert row)).1 =
      .error e := ⟨_, rfl⟩
  have hdrop : ∃ e, (Session.step app (Session.run app .dropped []).2 .drop).1 = .error e :=
    ⟨_, rfl⟩
  refine ⟨((step_inert app .empty before (.inr hinsert)).2.1 later).1,
    ((step_inert app .empty before (.inl rfl)).2.1 later).1,
    (step_inert app .dropped [] (.inr hdrop)).1,
    ((step_inert app .dropped [] (.inr hdrop)).2.2.1 none Database.removal rfl rfl).2, ?_⟩
  have hdistinct : ∀ t, some [⟨"a.org", ⟨some 1, 2, -3⟩, none⟩] = some t → Table.Distinct t := by
    rintro t ⟨⟩
    decide
  obtain ⟨e, he, -⟩ := (step_inert app .empty before (.inr hinsert)).2.2.2
    (some [⟨"a.org", ⟨some 1, 2, -3⟩, none⟩]) (Statement.insert row) hdistinct rfl rfl
  exact ⟨e, he⟩

end Session
end PeerRoster
