import PeerRoster.Proofs.FormGrammar
import PeerRoster.Proofs.QueryString

/-! Which parameter the refusal of a form names. It is the first that is not written as it may be,
but for one case: the limit is read before the sign of the offset is looked at. -/
namespace PeerRoster

namespace FormError

/-- The parameter that a message names: the word behind the first two, without its quotes. -/
def subject (e : FormError) : String :=
  let named := (e.message.toList.drop "Query parameter ".length).dropWhile (· == '"')
  String.ofList (named.takeWhile fun c => c != '"' && c != ' ')

theorem subject_notPositive (p : Parameter) : (notPositive p).subject = p.label := by
  cases p <;> decide +kernel

theorem subject_notAmong (p : Parameter) (choices : List String) :
    (notAmong p choices).subject = p.label := by
  have hlength : "Query parameter ".length = 16 := rfl
  cases p <;> simp [subject, notAmong, message, Parameter.label, hlength]

end FormError

namespace Form

/-- The parameters that may be written wrongly, in the order in which they are asked for. -/
def checked : List Parameter := [.start, .limit, .order, .direction]

/-- Whether a parameter is the first that is not written as it may be. -/
def FirstFault (f : Form) (p : Parameter) : Prop :=
  ¬ f.Keeps p ∧ ∀ q ∈ checked.takeWhile (· ≠ p), f.Keeps q

/-- The integers that a text spells, if they fit a signed word. -/
def IsWord (s : String) (z : Int) : Prop :=
  Numeral.Signed s.toList z ∧ -0x8000000000000000 ≤ z ∧ z ≤ 0x7FFFFFFFFFFFFFFF

/-- The forms in which the limit comes before the offset: the offset is a negative integer, and the
limit is no integer. -/
structure Overtaken (f : Form) : Prop where
  start : ∃ s z, f.start = some s ∧ IsWord s z ∧ z < 0
  limit : ∃ s, f.limit = some s ∧ ∀ z, ¬ IsWord s z

theorem word?_toInt_iff (s : String) (z : Int) :
    (∃ a, word? s = some a ∧ a.toInt = z) ↔ IsWord s z := by
  simp only [word?_eq_some_iff, Numeral.signed?_eq_some_iff, IsWord]
  constructor
  · rintro ⟨a, ha, rfl⟩
    exact ⟨ha, a.le_toInt, Int.le_of_lt_add_one a.toInt_lt⟩
  · rintro ⟨hs, hlo, hhi⟩
    have hz : (Int64.ofInt z).toInt = z := Int64.toInt_ofInt_of_le hlo (by omega)
    exact ⟨Int64.ofInt z, by rwa [hz], hz⟩

theorem integer_some_eq_ok_iff (p : Parameter) (default : Int64) (s : String) (a : Int64) :
    integer p default (some s) = .ok a ↔ word? s = some a := by
  rw [integer]
  cases word? s <;> simp

theorem exists_integer_eq_error_iff (p : Parameter) (default : Int64) (text : Option String) :
    (∃ e, integer p default text = .error e) ↔ ∃ s, text = some s ∧ ∀ z, ¬ IsWord s z := by
  cases text with
  | none => simp [integer]
  | some s =>
    have hword : (∀ z, ¬ IsWord s z) ↔ word? s = none := by
      simp only [← word?_toInt_iff]
      cases word? s <;> simp
    simp only [Option.some.injEq, exists_eq_left', hword, integer]
    cases word? s <;> simp

theorem overtaken_iff (f : Form) : f.Overtaken ↔
    (∃ a, integer .start defaultStart f.start = .ok a ∧ a.toInt < 0) ∧
      ∃ e, integer .limit defaultLimit f.limit = .error e := by
  have hstart : (∃ a, integer .start defaultStart f.start = .ok a ∧ a.toInt < 0) ↔
      ∃ s z, f.start = some s ∧ IsWord s z ∧ z < 0 := by
    cases f.start with
    | none => simp [integer, defaultStart]
    | some s =>
      simp only [integer_some_eq_ok_iff, ← word?_toInt_iff, Option.some.injEq,
        exists_and_left, exists_eq_left']
      cases word? s <;> simp
  rw [exists_integer_eq_error_iff, hstart]
  exact ⟨fun h => ⟨h.start, h.limit⟩, fun h => ⟨h.1, h.2⟩⟩

theorem firstFault_start {f : Form} (h : ¬ f.Keeps .start) : f.FirstFault .start :=
  ⟨h, by simp [checked]⟩

theorem firstFault_limit {f : Form} (hs : f.Keeps .start) (h : ¬ f.Keeps .limit) :
    f.FirstFault .limit :=
  ⟨h, by simp [checked, hs]⟩

theorem firstFault_order {f : Form} (hs : f.Keeps .start) (hl : f.Keeps .limit)
    (h : ¬ f.Keeps .order) : f.FirstFault .order :=
  ⟨h, by simp [checked, hs, hl]⟩

theorem firstFault_direction {f : Form} (hs : f.Keeps .start) (hl : f.Keeps .limit)
    (ho : f.Keeps .order) (h : ¬ f.Keeps .direction) : f.FirstFault .direction :=
  ⟨h, by simp [checked, hs, hl, ho]⟩

theorem FirstFault.unique {f : Form} {p q : Parameter} (hp : f.FirstFault p)
    (hq : f.FirstFault q) : p = q := by
  obtain ⟨hp, hbefore⟩ := hp
  obtain ⟨hq, hbefore'⟩ := hq
  cases p <;> cases q <;> simp_all [checked, Keeps]

theorem Overtaken.firstFault {f : Form} (h : f.Overtaken) : f.FirstFault .start := by
  obtain ⟨⟨a, ha, hneg⟩, -⟩ := (overtaken_iff f).mp h
  refine firstFault_start (not_keeps_start ?_)
  rintro n ⟨b, hb, hn⟩
  obtain rfl := Except.ok.inj (ha.symm.trans hb)
  have := (unsigned_eq_ok_iff _ _ _).mp hn
  omega

theorem Overtaken.toQuery_eq {f : Form} (h : f.Overtaken) :
    f.toQuery = .error (.notPositive .limit) := by
  obtain ⟨⟨a, ha, -⟩, e, he⟩ := (overtaken_iff f).mp h
  obtain ⟨rfl, -⟩ := integer_eq_error he
  rw [toQuery, ha, he]
  rfl

theorem exists_firstFault {f : Form} (hf : ¬ f.Overtaken) {e : FormError}
    (h : f.toQuery = .error e) : ∃ p, e.subject = p.label ∧ f.FirstFault p := by
  rcases toQuery_error_cases h with
    ⟨rfl, hs⟩ | ⟨rfl, hl, hstart⟩ | ⟨hs, hl, ⟨rfl, ho⟩ | ⟨ho, rfl, hd⟩⟩
  · exact ⟨.start, FormError.subject_notPositive _, firstFault_start hs⟩
  · rcases hstart with hs | ⟨a, ha, hneg, hb⟩
    · exact ⟨.limit, FormError.subject_notPositive _, firstFault_limit hs hl⟩
    · exact absurd ((overtaken_iff f).mpr ⟨⟨a, ha, hneg⟩, _, hb⟩) hf
  · exact ⟨.order, FormError.subject_notAmong _ _, firstFault_order hs hl ho⟩
  · exact ⟨.direction, FormError.subject_notAmong _ _, firstFault_direction hs hl ho hd⟩

/-- The message of a refusal names the first parameter at fault, unless the offset is a negative
integer and the limit is none. Then the offset is at fault, and the limit is named. -/
theorem toQuery_first_fault {f : Form} {e : FormError} (h : f.toQuery = .error e) :
    ∃ p, e.subject = p.label ∧ (f.Overtaken → p = .limit ∧ f.FirstFault .start) ∧
      (¬ f.Overtaken → f.FirstFault p) := by
  by_cases hf : f.Overtaken
  · obtain rfl := Except.error.inj (h.symm.trans hf.toQuery_eq)
    exact ⟨.limit, FormError.subject_notPositive _, fun _ => ⟨rfl, hf.firstFault⟩,
      fun hnot => absurd hf hnot⟩
  · obtain ⟨p, hp, hfirst⟩ := exists_firstFault hf h
    exact ⟨p, hp, fun hyes => absurd hyes hf, fun _ => hfirst⟩

/-- Four parameters at fault, each in its own way: an offset that does not fit, a negative limit,
and two unknown choices. -/
theorem toQuery_first_fault_overflow :
    let f : Form := ⟨some "9223372036854775808", some "-1", none, some "bar", some "F"⟩
    let e : FormError := .notPositive .start
    f.toQuery = .error e ∧ ∃ p, e.subject = p.label ∧
      (f.Overtaken → p = .limit ∧ f.FirstFault .start) ∧ (¬ f.Overtaken → f.FirstFault p) :=
  ⟨rfl, toQuery_first_fault rfl⟩

/-- The offset `-5` is at fault and comes first, but the message names the limit. -/
theorem toQuery_limit_before_offset :
    let f : Form := ⟨some "-5", some "x", none, none, none⟩
    ∃ e, f.toQuery = .error e ∧
      e.message = "Query parameter limit must be a string representing a positive integer." ∧
      f.FirstFault .start ∧ ¬ ∃ p, e.subject = p.label ∧ f.FirstFault p := by
  intro f
  have hstart : ¬ f.Keeps .start := not_keeps_start (unsigned_eq_error (a := -5) rfl rfl).2
  refine ⟨.notPositive .limit, rfl, rfl, firstFault_start hstart, ?_⟩
  rintro ⟨p, hp, hfirst⟩
  obtain rfl := hfirst.unique (firstFault_start hstart)
  rw [FormError.subject_notPositive] at hp
  exact nomatch Parameter.label_injective hp

end Form
end PeerRoster
