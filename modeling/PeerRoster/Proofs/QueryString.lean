import Mathlib.Logic.Function.Basic
import PeerRoster.Listing.Form
import PeerRoster.Proofs.Outcome

/-! When pairs of names and values are a listing form: no parameter of the form is given twice, and
then the form holds for each parameter just what is given for it. -/
namespace PeerRoster

namespace Parameter

theorem ofLabel?_eq_some_iff (s : String) (p : Parameter) : ofLabel? s = some p ↔ s = p.label := by
  constructor
  · intro h
    have hl := List.find?_some h
    exact (beq_iff_eq.mp hl).symm
  · rintro rfl
    exact ofLabel?_label p

theorem label_injective : Function.Injective label := by
  intro p q h
  rw [← Option.some_inj, ← ofLabel?_label p, ← ofLabel?_label q, h]

end Parameter

namespace QueryString

/-- The values that are given for a parameter, in order. -/
def values (p : Parameter) (ps : List (String × String)) : List String :=
  (ps.filter (·.1 = p.label)).map (·.2)

@[simp] theorem values_nil (p : Parameter) : values p [] = [] := rfl

theorem values_cons_of_eq (p : Parameter) (v : String) (ps : List (String × String)) :
    values p ((p.label, v) :: ps) = v :: values p ps := by
  simp [values]

theorem values_cons_of_ne {p : Parameter} {n : String} (h : n ≠ p.label) (v : String)
    (ps : List (String × String)) : values p ((n, v) :: ps) = values p ps := by
  simp [values, h]

/-- What a parameter holds in a form, together with what pairs give for it. -/
def held (f : Form) (ps : List (String × String)) (p : Parameter) : List String :=
  (f.get p).toList ++ values p ps

theorem held_nil (f : Form) (p : Parameter) : held f [] p = (f.get p).toList := by
  simp [held]

theorem held_of_add {f g : Form} {x : String × String} (h : add f x = .ok g)
    (ps : List (String × String)) (p : Parameter) : held g ps p = held f (x :: ps) p := by
  obtain ⟨n, v⟩ := x
  unfold add at h
  split at h
  next hn =>
    have hp : n ≠ p.label := by
      rintro rfl
      simp at hn
    obtain rfl := Except.ok.inj h
    rw [held, held, values_cons_of_ne hp]
  next q hq =>
    obtain rfl : n = q.label := (Parameter.ofLabel?_eq_some_iff n q).mp hq
    split at h
    · contradiction
    next hf =>
      obtain rfl := Except.ok.inj h
      by_cases hp : p = q
      · subst hp
        have hf : f.get p = none := by simpa using hf
        simp [held, values_cons_of_eq, hf]
      · have hl : q.label ≠ p.label := fun hl => hp (Parameter.label_injective hl).symm
        simp [held, values_cons_of_ne hl, hp]

theorem held_of_add_error {f : Form} {x : String × String} {q : Parameter}
    (h : add f x = .error (.duplicate q)) (ps : List (String × String)) :
    2 ≤ (held f (x :: ps) q).length := by
  obtain ⟨n, v⟩ := x
  unfold add at h
  split at h
  · contradiction
  next p hp =>
    obtain rfl : n = p.label := (Parameter.ofLabel?_eq_some_iff n p).mp hp
    split at h
    next hf =>
      obtain rfl : p = q := QueryStringError.duplicate.inj (Except.error.inj h)
      obtain ⟨w, hw⟩ := Option.isSome_iff_exists.mp hf
      simp [held, values_cons_of_eq, hw]
    · contradiction

theorem held_of_foldlM {ps : List (String × String)} {f g : Form}
    (h : ps.foldlM add f = .ok g) (p : Parameter) : held f ps p = (g.get p).toList := by
  induction ps generalizing f with
  | nil =>
    obtain rfl := Except.ok.inj h
    exact held_nil f p
  | cons x ps ih =>
    obtain ⟨f', hf, h⟩ := bind_eq_ok.mp h
    rw [← held_of_add hf, ih h]

theorem held_of_foldlM_error {ps : List (String × String)} {f : Form} {q : Parameter}
    (h : ps.foldlM add f = .error (.duplicate q)) : 2 ≤ (held f ps q).length := by
  induction ps generalizing f with
  | nil => contradiction
  | cons x ps ih =>
    rw [List.foldlM_cons] at h
    cases hf : add f x with
    | error e =>
      rw [hf] at h
      exact held_of_add_error (hf.trans h) ps
    | ok f' =>
      rw [hf] at h
      rw [← held_of_add hf]
      exact ih h

theorem held_blank (ps : List (String × String)) (p : Parameter) :
    held .blank ps p = values p ps := by
  cases p <;> rfl

theorem values_of_ofPairs_error {ps : List (String × String)} {q : Parameter}
    (h : ofPairs ps = .error (.duplicate q)) : 2 ≤ (values q ps).length := by
  rw [← held_blank]
  exact held_of_foldlM_error h

theorem values_of_ofPairs {ps : List (String × String)} {f : Form} (h : ofPairs ps = .ok f)
    (p : Parameter) : values p ps = (f.get p).toList := by
  rw [← held_blank, held_of_foldlM h]

theorem exists_ofPairs_iff (ps : List (String × String)) :
    (∃ f, ofPairs ps = .ok f) ↔ ∀ p, (values p ps).length ≤ 1 := by
  constructor
  · rintro ⟨f, h⟩ p
    rw [values_of_ofPairs h p]
    exact Option.length_toList_le
  · intro h
    cases hps : ofPairs ps with
    | error e =>
      obtain ⟨q⟩ := e
      have hq := values_of_ofPairs_error hps
      have := h q
      omega
    | ok f => exact ⟨f, rfl⟩

end QueryString
end PeerRoster
