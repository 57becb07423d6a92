import PeerRoster.Proofs.Write

/-! The timings of a row as its history gives them. A history begins anew when the row is created
and whenever its interval is set to zero; from there on the interval only grows. -/
namespace PeerRoster

/-- Among some timings, the first of those with the longest interval. -/
def RetryTimings.FirstLongest (rs : List RetryTimings) (r : RetryTimings) : Prop :=
  ∃ before after, rs = before ++ r :: after ∧ (∀ u ∈ before, u.interval < r.interval) ∧
    ∀ u ∈ after, u.interval ≤ r.interval

theorem RetryTimings.FirstLongest.concat {rs : List RetryTimings} {r : RetryTimings}
    (h : FirstLongest rs r) (u : RetryTimings) :
    FirstLongest (rs ++ [u]) (if r.interval < u.interval then u else r) := by
  obtain ⟨before, after, rfl, hbefore, hafter⟩ := h
  by_cases hu : r.interval < u.interval
  · rw [if_pos hu]
    refine ⟨before ++ r :: after, [], rfl, ?_, by simp⟩
    intro v hv
    rcases List.mem_append.mp hv with hv | hv
    · exact Int64.lt_trans (hbefore v hv) hu
    · rcases List.mem_cons.mp hv with rfl | hv
      · exact hu
      · exact Int64.lt_of_le_of_lt (hafter v hv) hu
  · rw [if_neg hu]
    refine ⟨before, after ++ [u], by simp, hbefore, ?_⟩
    intro v hv
    rcases List.mem_append.mp hv with hv | hv
    · exact hafter v hv
    · rw [List.mem_singleton.mp hv]
      exact Int64.not_lt.mp hu

/-- What bears on the timings of a row: that it is created with some, and that a writer offers some
when it is there. -/
inductive Event
  | created (timings : RetryTimings)
  | offered (timings : RetryTimings)
  deriving DecidableEq

namespace Event

def timings : Event → RetryTimings
  | .created r => r
  | .offered r => r

/-- Whether an event leaves nothing of what was before it. -/
def IsBase : Event → Prop
  | .created _ => True
  | .offered r => r.interval = 0

/-- The timings that some events give: of the last base and what was offered after it, the first
with the longest interval. -/
def Give (events : List Event) (r : RetryTimings) : Prop :=
  ∃ earlier base later, events = earlier ++ base :: later ∧ base.IsBase ∧
    (∀ e ∈ later, ¬ e.IsBase) ∧ RetryTimings.FirstLongest ((base :: later).map timings) r

theorem give_base (events : List Event) {e : Event} (h : e.IsBase) :
    Give (events ++ [e]) e.timings :=
  ⟨events, e, [], rfl, h, by simp, [], [], rfl, by simp, by simp⟩

/-- An offer to a row takes the place of its timings exactly if it supersedes them. -/
theorem Give.offered {events : List Event} {r : RetryTimings} (h : Give events r)
    (u : RetryTimings) :
    Give (events ++ [.offered u]) (if Table.supersedes u.interval r.interval then u else r) := by
  by_cases hu : u.interval = 0
  · rw [if_pos (by simp [Table.supersedes, hu])]
    exact give_base events (e := .offered u) hu
  · have hs : (Table.supersedes u.interval r.interval = true) = (r.interval < u.interval) := by
      simp [Table.supersedes, hu]
    obtain ⟨earlier, base, later, rfl, hbase, hlater, hr⟩ := h
    refine ⟨earlier, base, later ++ [.offered u], by simp, hbase, ?_, ?_⟩
    · intro e he
      rcases List.mem_append.mp he with he | he
      · exact hlater e he
      · rw [List.mem_singleton.mp he]
        exact hu
    · simpa [hs, timings] using hr.concat u

theorem Give.ne_nil {events : List Event} {r : RetryTimings} (h : Give events r) : events ≠ [] := by
  rintro rfl
  obtain ⟨earlier, base, later, he, -⟩ := h
  simp at he

/-- Whether some events tell what is found under a name: without events there is no row, and else
the row has the timings that they give. -/
def Tell (events : List Event) : Option Destination → Prop
  | none => events = []
  | some d => Give events d.retry

theorem Tell.eq_nil_iff {events : List Event} {found : Option Destination} (h : Tell events found) :
    events = [] ↔ found = none := by
  cases found with
  | none => exact iff_of_true h rfl
  | some d => exact iff_of_false (Give.ne_nil h) nofun

end Event

namespace Write

/-- The timings that a write offers for a name. -/
def offer? (name : String) : Write → Option RetryTimings
  | .operation n (.setRetry r) => if n.text = name then some r else none
  | _ => none

/-- A row that is there has after a write the timings that the events give, the write's own
included. -/
theorem give_offer (w : Write) {name : String} {d : Destination} {events : List Event}
    (h : Event.Give events d.retry) (hname : d.name = name) :
    Event.Give (events ++ (w.offer? name).toList.map .offered) (w.change d).retry := by
  subst hname
  cases w with
  | operation n a =>
    by_cases hn : n.text = d.name
    · cases a with
      | setRetry r =>
        have hr := h.offered r
        by_cases hs : Table.supersedes r.interval d.retry.interval <;>
          simpa [offer?, change, Operation.row, Table.retried, hn, hs] using hr
      | setStream ordering => simpa [offer?, change, Operation.row, Table.streamed, hn] using h
    · cases a <;> simpa [offer?, change, hn] using h
  | insert row => simpa [offer?, change] using h

end Write

namespace Step

/-- The timings that a step offers for a name. -/
def offer? (name : String) : Step → Option RetryTimings
  | .setRetry n r => if n = name ∧ IsServerName n then some r else none
  | .reset n now => if n = name ∧ IsServerName n then some ⟨none, now, 0⟩ else none
  | _ => none

/-- The timings of a row that a step creates under a name. A plain statement stores zero for what it
leaves out, and nothing at all where it says null. -/
def creation? (name : String) : Step → Option RetryTimings
  | .setStream n _ => if n = name ∧ IsServerName n then some ⟨none, 0, 0⟩ else none
  | .insert row =>
    if row.name = some name then do
      let lastTs ← row.lastTs.stored
      let interval ← row.interval.stored
      return ⟨row.failureTs, lastTs, interval⟩
    else none
  | step => step.offer? name

/-- The events of a name with what one more step adds to them. The first is that the row is created;
behind it only offers count. -/
def tell (name : String) (events : List Event) (step : Step) : List Event :=
  if events.isEmpty then (step.creation? name).toList.map .created
  else events ++ (step.offer? name).toList.map .offered

theorem offer?_eq (step : Step) (name : String) :
    step.offer? name = step.write?.bind (Write.offer? name) := by
  have hnamed : ∀ s r, (if s = name ∧ IsServerName s then some r else none) =
      ((ServerName.ofString s).toOption.map (Write.operation · (.setRetry r))).bind
        (Write.offer? name) := by
    intro s r
    rcases ServerName.ofString_cases s with ⟨n, rfl⟩ | ⟨hs, e, he⟩
    · simp [n.isServerName, Except.toOption, Write.offer?]
    · simp [hs, he, Except.toOption]
  cases step with
  | setRetry s r => exact hnamed s r
  | reset s now => exact hnamed s ⟨none, now, 0⟩
  | setStream s ordering =>
    change none = ((ServerName.ofString s).toOption.map _).bind _
    cases (ServerName.ofString s).toOption <;> rfl
  | _ => rfl

theorem creation?_eq (step : Step) (name : String) :
    step.creation? name = (step.row?.filter (·.name = name)).map (·.retry) := by
  have hnamed : ∀ s a, (if s = name ∧ IsServerName s then
      some (Operation.row name none a).retry else none) =
      ((((ServerName.ofString s).toOption.map (Write.operation · a)).bind Write.row?).filter
        (·.name = name)).map (·.retry) := by
    intro s a
    rcases ServerName.ofString_cases s with ⟨n, rfl⟩ | ⟨hs, e, he⟩
    · by_cases h : n.text = name
      · subst h
        simp [n.isServerName, Except.toOption, Write.row?, Option.filter]
      · simp [h, Except.toOption, Write.row?, Option.filter]
    · simp [hs, he, Except.toOption]
  cases step with
  | setRetry s r => exact hnamed s (.setRetry r)
  | reset s now => exact hnamed s (.setRetry (.reset now))
  | setStream s ordering => exact hnamed s (.setStream ordering)
  | insert row =>
    rw [row?, write?, Option.bind_some, Write.row?, NewRow.toOption_complete, creation?]
    cases row.name with
    | none => simp
    | some n =>
      by_cases h : n = name
      · cases row.lastTs.stored <;> cases row.interval.stored <;> simp [h, Option.filter]
      · cases row.lastTs.stored <;> cases row.interval.stored <;> simp [h, Option.filter]
  | _ => rfl

/-- Events that tell what is found before a step tell with those of the step what is found after
it. -/
theorem tell_onTable (step : Step) (t : Table) (name : String) {events : List Event}
    (h : Event.Tell events (t.get? name)) :
    Event.Tell (tell name events step) ((step.onTable t).get? name) := by
  rw [get?_onTable]
  cases hbefore : t.get? name with
  | none =>
    rw [hbefore] at h
    obtain rfl : events = [] := h
    rw [tell, List.isEmpty_nil, if_pos rfl, creation?_eq]
    cases step.row?.filter (·.name = name) with
    | none => rfl
    | some d => exact Event.give_base [] (e := .created d.retry) trivial
  | some b =>
    rw [hbefore] at h
    have hname := Table.name_of_get? hbefore
    have hb : Event.Give events b.retry := h
    have hempty : events.isEmpty = false := List.isEmpty_eq_false_iff.mpr hb.ne_nil
    rw [tell, hempty, if_neg Bool.false_ne_true, offer?_eq]
    cases step.write? with
    | none => simpa [Event.Tell] using hb
    | some w => exact w.give_offer hb hname

theorem tell_tableAfter (steps : List Step) (t : Table) (name : String) {events : List Event}
    (h : Event.Tell events (t.get? name)) :
    Event.Tell (steps.foldl (tell name) events) ((tableAfter steps t).get? name) := by
  induction steps generalizing t events with
  | nil => exact h
  | cons step rest ih => exact ih (step.onTable t) (step.tell_onTable t name h)

end Step

namespace Session

/-- The events of a name in a run: its row in the table at the beginning, and then what each step
adds. -/
def history (name : String) (t : Table) (steps : List Step) : List Event :=
  steps.foldl (Step.tell name) ((t.filter (·.name = name)).map (.created ·.retry))

theorem tell_history (t : Table) (ht : t.Distinct) (steps : List Step) (name : String) :
    Event.Tell (history name t steps) ((Step.tableAfter steps t).get? name) := by
  apply Step.tell_tableAfter
  rw [Table.filter_name ht]
  cases t.get? name with
  | none => rfl
  | some d => exact Event.give_base [] (e := .created d.retry) trivial

theorem run_answer (app : App) (s : Storage) {steps : List Step} {i : ℕ} {step : Step}
    (h : steps[i]? = some step) :
    (Session.run app s steps).1[i]? =
      some (Session.step app (Session.run app s (steps.take i)).2 step).1 := by
  induction steps generalizing s i with
  | nil => simp at h
  | cons first rest ih =>
    cases i with
    | zero =>
      obtain rfl : first = step := by simpa using h
      rfl
    | succ i =>
      rw [List.getElem?_cons_succ] at h
      rw [List.take_succ_cons, Session.run, Session.run, List.getElem?_cons_succ]
      exact ih _ h

/-- A writer that offers timings learns whether they were stored. -/
theorem step_offer (app : App) (t : Table) {step : Step} {name : String} {r : RetryTimings}
    (h : step.offer? name = some r) :
    (Session.step app (.present t) step).1 =
      .ok (.retry (t.setRetry name r).1 ((t.setRetry name r).2.get? name)) := by
  have hset : ∀ s r', (if s = name ∧ IsServerName s then some r' else none) = some r →
      (Session.setRetry (.present t) s r').1 =
        .ok (.retry (t.setRetry name r).1 ((t.setRetry name r).2.get? name)) := by
    intro s r' hoffer
    obtain ⟨⟨rfl, hs⟩, hr⟩ := Option.ite_none_right_eq_some.mp hoffer
    obtain rfl := Option.some.inj hr
    obtain ⟨n, rfl, hn⟩ := hs.exists_ofString
    rw [Session.setRetry, named, hn]
    rfl
  cases step with
  | setRetry s r' => exact hset s r' h
  | reset s now => exact hset s ⟨none, now, 0⟩ h
  | _ => contradiction

theorem setRetry_written {t : Table} (ht : t.Distinct) (name : String) (r : RetryTimings) :
    (t.setRetry name r).1 = true ↔ name ∉ t.names ∨ r.interval = 0 ∨
      ∃ d ∈ t, d.name = name ∧ d.retry.interval < r.interval := by
  rw [Table.setRetry_fst, ← t.get?_eq_none_iff]
  cases hd : t.get? name with
  | none => simp [Table.accepts]
  | some d =>
    have hstored : (∃ e ∈ t, e.name = name ∧ e.retry.interval < r.interval) ↔
        d.retry.interval < r.interval := by
      simp only [← and_assoc, ← Table.get?_eq_some_iff ht, hd]
      simp
    rw [hstored]
    simp [Table.accepts, Table.supersedes]

/-- The law of histories. After any run of writing steps a name has a row exactly if its history is
not empty, and the row has the timings that its history gives, as one whole. An offer is stored
exactly if there was no row, its interval is zero or its interval is longer than the one that was
there. -/
theorem history_law (app : App) {t : Table} (ht : t.Distinct) {steps : List Step}
    (hw : ∀ step ∈ steps, step.isWrite) :
    ∃ u, (Session.run app (.present t) steps).2 = .present u ∧ u.Distinct ∧
      (∀ name, name ∈ u.names ↔ history name t steps ≠ []) ∧
      (∀ d ∈ u, Event.Give (history d.name t steps) d.retry) ∧
      ∀ i step name r, steps[i]? = some step → step.offer? name = some r →
        ∃ before written row, (Session.run app (.present t) (steps.take i)).2 = .present before ∧
          (Session.run app (.present t) steps).1[i]? = some (.ok (.retry written row)) ∧
          (written = true ↔ name ∉ before.names ∨ r.interval = 0 ∨
            ∃ d ∈ before, d.name = name ∧ d.retry.interval < r.interval) := by
  have hu := Step.distinct_tableAfter steps ht
  refine ⟨_, run_storage app t hw, hu, fun name => ?_, fun d hd => ?_,
    fun i step name r hi hoffer => ?_⟩
  · rw [← not_iff_not, not_not, ← Table.get?_eq_none_iff]
    exact (tell_history t ht steps name).eq_nil_iff.symm
  · have htell := tell_history t ht steps d.name
    rwa [(Table.get?_eq_some_iff hu d.name d).mpr ⟨hd, rfl⟩] at htell
  · have htake : ∀ step ∈ steps.take i, step.isWrite := fun s hs => hw s (List.mem_of_mem_take hs)
    have hbefore := run_storage app t htake
    have hanswer := run_answer app (.present t) hi
    rw [hbefore, step_offer app _ hoffer] at hanswer
    exact ⟨_, _, _, hbefore, hanswer,
      setRetry_written (Step.distinct_tableAfter (steps.take i) ht) name r⟩

/-- After a reset in between, the first of two offers of the same interval stays; the row came from
a stream position, and a later insertion of its name fails. An offer of a negative interval leaves a
row of which only a position is known. -/
theorem history_law_tie :
    let t : Table := [⟨"a.org", ⟨some 1, 2, -5⟩, none⟩]
    let steps : List Step := [.setStream "c.org" 1, .setRetry "c.org" ⟨none, 1, -3⟩,
      .setStream "b.org" 9, .setRetry "b.org" ⟨some 2, 3, 7⟩, .reset "b.org" 10,
      .setRetry "a.org" ⟨none, 4, 9⟩, .insert ⟨some "b.org", .value 5, .value 8, none, none⟩,
      .setRetry "b.org" ⟨some 6, 7, 4⟩, .setRetry "b.org" ⟨some 8, 9, 4⟩]
    t.Distinct ∧ (∀ step ∈ steps, step.isWrite) ∧
    (Session.run ⟨none, true, 0⟩ (.present t) steps).2 = .present [⟨"a.org", ⟨none, 4, 9⟩, none⟩,
      ⟨"c.org", ⟨none, 0, 0⟩, some 1⟩, ⟨"b.org", ⟨some 6, 7, 4⟩, some 9⟩] ∧
    history "b.org" t steps = [.created ⟨none, 0, 0⟩, .offered ⟨some 2, 3, 7⟩,
      .offered ⟨none, 10, 0⟩, .offered ⟨some 6, 7, 4⟩, .offered ⟨some 8, 9, 4⟩] ∧
    Event.Give (history "b.org" t steps) ⟨some 6, 7, 4⟩ ∧
    Event.Give (history "c.org" t steps) ⟨none, 0, 0⟩ ∧
    ∃ row, (Session.run ⟨none, true, 0⟩ (.present t) steps).1[8]? =
      some (.ok (.retry false row)) := by
  intro t steps
  have ht : t.Distinct := by decide
  have hw : ∀ step ∈ steps, step.isWrite := by decide
  obtain ⟨u, hu, -, -, hgive, hanswer⟩ := history_law ⟨none, true, 0⟩ ht hw
  have hrows : Step.tableAfter steps t = [⟨"a.org", ⟨none, 4, 9⟩, none⟩,
      ⟨"c.org", ⟨none, 0, 0⟩, some 1⟩, ⟨"b.org", ⟨some 6, 7, 4⟩, some 9⟩] := by
    decide +kernel
  have hrun := run_storage ⟨none, true, 0⟩ t hw
  rw [hrows] at hrun
  obtain rfl := Storage.present.inj (hu.symm.trans hrun)
  refine ⟨ht, hw, hu, by decide +kernel, hgive ⟨"b.org", ⟨some 6, 7, 4⟩, some 9⟩ (by simp),
    hgive ⟨"c.org", ⟨none, 0, 0⟩, some 1⟩ (by simp), ?_⟩
  obtain ⟨before, written, row, hbefore, ha, hwritten⟩ :=
    hanswer 8 _ "b.org" ⟨some 8, 9, 4⟩ rfl (by decide +kernel)
  have hfalse : written = false := by
    rw [← Bool.not_eq_true, hwritten]
    have htake : ∀ step ∈ steps.take 8, step.isWrite := by decide
    have hrun := run_storage ⟨none, true, 0⟩ t htake
    obtain rfl := Storage.present.inj (hbefore.symm.trans hrun)
    decide +kernel
  exact ⟨row, by rw [ha, hfalse]⟩

end Session
end PeerRoster
