/-! When a computation that may fail succeeds. -/
namespace PeerRoster

theorem mapM_map_eq_some {α β : Type} {f : β → Option α} {g : α → β} {l : List α}
    (h : ∀ a ∈ l, f (g a) = some a) : (l.map g).mapM f = some l := by
  induction l with
  | nil => rfl
  | cons a l ih =>
    obtain ⟨ha, hl⟩ := List.forall_mem_cons.mp h
    simp [List.mapM_cons, ha, ih hl]

theorem eq_map_of_mapM_eq_some {α β : Type} {f : β → Option α} {g : α → β}
    (h : ∀ b a, f b = some a → b = g a) {l : List β} {m : List α} (hm : l.mapM f = some m) :
    l = m.map g := by
  induction l generalizing m with
  | nil =>
    rw [List.mapM_nil] at hm
    obtain rfl := Option.some.inj hm
    rfl
  | cons b l ih =>
    simp only [List.mapM_cons, Option.bind_eq_bind, Option.bind_eq_some_iff] at hm
    obtain ⟨a, ha, n, hn, hm⟩ := hm
    obtain rfl := Option.some.inj hm
    rw [List.map_cons, ← h b a ha, ← ih hn]

theorem exists_of_mem_mapM {α β : Type} {f : β → Option α} {l : List β} {m : List α}
    (hm : l.mapM f = some m) {a : α} (ha : a ∈ m) : ∃ b ∈ l, f b = some a := by
  induction l generalizing m with
  | nil =>
    rw [List.mapM_nil] at hm
    obtain rfl := Option.some.inj hm
    cases ha
  | cons b l ih =>
    simp only [List.mapM_cons, Option.bind_eq_bind, Option.bind_eq_some_iff] at hm
    obtain ⟨a', hb, n, hn, hm⟩ := hm
    obtain rfl := Option.some.inj hm
    rcases List.mem_cons.mp ha with rfl | ha
    · exact ⟨b, List.mem_cons_self, hb⟩
    · obtain ⟨b', hmem, hb'⟩ := ih hn ha
      exact ⟨b', List.mem_cons_of_mem b hmem, hb'⟩

theorem guard_bind_eq_some {α : Type} {p : Prop} [Decidable p] {f : Unit → Option α} {a : α} :
    (guard p >>= f) = some a ↔ p ∧ f () = some a := by
  by_cases h : p
  · have hg : (guard p : Option Unit) = some () := if_pos h
    rw [hg]
    exact (and_iff_right h).symm
  · have hg : (guard p : Option Unit) = none := if_neg h
    rw [hg]
    constructor
    · intro hf
      cases hf
    · intro hf
      exact absurd hf.1 h

theorem bind_eq_ok {ε α β : Type} {x : Except ε α} {f : α → Except ε β} {b : β} :
    (x >>= f) = .ok b ↔ ∃ a, x = .ok a ∧ f a = .ok b := by
  cases x <;> simp [bind, Except.bind]

theorem bind_eq_error {ε α β : Type} {x : Except ε α} {f : α → Except ε β} {e : ε} :
    (x >>= f) = .error e ↔ x = .error e ∨ ∃ a, x = .ok a ∧ f a = .error e := by
  cases x <;> simp [bind, Except.bind]

theorem map_eq_ok {ε α β : Type} {x : Except ε α} {f : α → β} {b : β} :
    x.map f = .ok b ↔ ∃ a, x = .ok a ∧ f a = b := by
  cases x <;> simp [Except.map]

theorem mapError_eq_ok {ε ε' α : Type} {x : Except ε α} {f : ε → ε'} {a : α} :
    x.mapError f = .ok a ↔ x = .ok a := by
  cases x with
  | error e => exact ⟨nofun, nofun⟩
  | ok b =>
    constructor
    · intro h
      exact congrArg Except.ok (Except.ok.inj h)
    · intro h
      exact congrArg Except.ok (Except.ok.inj h)

end PeerRoster
