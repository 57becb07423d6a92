import Mathlib.Data.Nat.Notation
import PeerRoster.Proofs.Form

/-! How the parameters of a listing may be written, what a form asks for that is written so, and
what is wrong with any other form. -/
namespace PeerRoster

namespace Numeral

/-- One or more ASCII digits and nothing else. Zeros may stand in front. -/
def IsDecimal (text : List Char) (n : ℕ) : Prop :=
  text ≠ [] ∧ (∀ c ∈ text, '0' ≤ c ∧ c ≤ '9') ∧ n = value 10 (text.map fun c => c.toNat - 48)

/-- Digits with at most one sign in front. -/
inductive Signed : List Char → Int → Prop
  | plain {text : List Char} {n : ℕ} : IsDecimal text n → Signed text n
  | plus {text : List Char} {n : ℕ} : IsDecimal text n → Signed ('+' :: text) n
  | minus {text : List Char} {n : ℕ} : IsDecimal text n → Signed ('-' :: text) (-n)

theorem mapM_digit?_eq_some_iff (text : List Char) (ds : List ℕ) :
    text.mapM digit? = some ds ↔
      (∀ c ∈ text, '0' ≤ c ∧ c ≤ '9') ∧ ds = text.map fun c => c.toNat - 48 := by
  induction text generalizing ds with
  | nil => simp [eq_comm]
  | cons c text ih =>
    simp only [List.mapM_cons, Option.bind_eq_bind, Option.bind_eq_some_iff, ih, digit?]
    rw [List.forall_mem_cons, List.map_cons]
    constructor
    · rintro ⟨d, hd, _, ⟨htext, rfl⟩, hds⟩
      split at hd
      case isTrue hc =>
        obtain rfl := Option.some.inj hd
        exact ⟨⟨hc, htext⟩, (Option.some.inj hds).symm⟩
      case isFalse => contradiction
    · rintro ⟨⟨hc, htext⟩, rfl⟩
      exact ⟨_, if_pos hc, _, ⟨htext, rfl⟩, rfl⟩

theorem natural?_eq_some_iff (text : List Char) (n : ℕ) :
    natural? text = some n ↔ IsDecimal text n := by
  rw [natural?, IsDecimal]
  cases text with
  | nil => simp
  | cons c text =>
    rw [if_neg (by simp), Option.map_eq_some_iff]
    simp only [mapM_digit?_eq_some_iff]
    constructor
    · rintro ⟨ds, ⟨hall, rfl⟩, rfl⟩
      exact ⟨List.cons_ne_nil c text, hall, rfl⟩
    · rintro ⟨-, hall, rfl⟩
      exact ⟨_, ⟨hall, rfl⟩, rfl⟩

/-- A sign is no digit, so a text with a sign in front is read in one way only. -/
theorem signed?_eq_some_iff (text : List Char) (z : Int) :
    signed? text = some z ↔ Signed text z := by
  constructor
  · intro h
    unfold signed? at h
    split at h <;> obtain ⟨n, hn, rfl⟩ := Option.map_eq_some_iff.mp h <;>
      rw [natural?_eq_some_iff] at hn
    · exact .plus hn
    · exact .minus hn
    · exact .plain hn
  · rintro (@⟨text, n, h⟩ | @⟨text, n, h⟩ | @⟨text, n, h⟩)
    · exact signed?_of_natural? ((natural?_eq_some_iff text n).mpr h)
    · exact Option.map_eq_some_iff.mpr ⟨n, (natural?_eq_some_iff text n).mpr h, rfl⟩
    · exact Option.map_eq_some_iff.mpr ⟨n, (natural?_eq_some_iff text n).mpr h, rfl⟩

end Numeral

namespace Form

/-- A count in a form: the default, or an integer that is not negative and fits a signed word. -/
def Counts (default : ℕ) : Option String → UInt64 → Prop
  | none, n => n.toNat = default
  | some s, n => Numeral.Signed s.toList n.toNat ∧ n.toNat ≤ 0x7FFFFFFFFFFFFFFF

/-- A choice in a form: the default, or one of some names, letter by letter. -/
def Chooses {α : Type} (names : List (String × α)) (default : α) : Option String → α → Prop
  | none, a => a = default
  | some s, a => (s, a) ∈ names

def orderNames : List (String × SortKey) :=
  [("destination", .name), ("retry_last_ts", .lastTs), ("retry_interval", .interval),
    ("failure_ts", .failureTs), ("last_successful_stream_ordering", .streamOrdering)]

def directionNames : List (String × Direction) := [("f", .forward), ("b", .backward)]

/-- Whether a parameter is written as it may be. A filter may be anything. -/
def Keeps (f : Form) : Parameter → Prop
  | .start => ∃ n, Counts 0 f.start n
  | .limit => ∃ n, Counts 100 f.limit n
  | .destination => True
  | .order => ∃ k, Chooses orderNames .name f.order k
  | .direction => ∃ d, Chooses directionNames .forward f.direction d

theorem reads_iff_counts (p : Parameter) {default : Int64} {m : ℕ} (hd : default.toInt = m)
    (text : Option String) (n : UInt64) : Reads p default text n ↔ Counts m text n := by
  cases text with
  | none =>
    constructor
    · rintro ⟨a, ha, hn⟩
      obtain rfl := Except.ok.inj ha
      rw [unsigned_eq_ok_iff, hd] at hn
      exact (Int.ofNat.inj hn).symm
    · intro hn
      refine ⟨default, rfl, ?_⟩
      rw [unsigned_eq_ok_iff, hd, show n.toNat = m from hn]
  | some s => rw [reads_some_iff, Numeral.signed?_eq_some_iff, Counts]

theorem reads_start_iff (text : Option String) (n : UInt64) :
    Reads .start defaultStart text n ↔ Counts 0 text n :=
  reads_iff_counts .start rfl text n

theorem reads_limit_iff (text : Option String) (n : UInt64) :
    Reads .limit defaultLimit text n ↔ Counts 100 text n :=
  reads_iff_counts .limit rfl text n

section

variable {α : Type}

theorem find?_label_eq_some_iff (label : α → String) {all : List α} (hn : (all.map label).Nodup)
    (s : String) (a : α) :
    all.find? (label · == s) = some a ↔ (s, a) ∈ all.map fun a => (label a, a) := by
  induction all with
  | nil => simp
  | cons b all ih =>
    rw [List.map_cons, List.nodup_cons] at hn
    rw [List.find?_cons, List.map_cons, List.mem_cons]
    by_cases hs : label b = s
    · subst hs
      have hnot : (label b, a) ∉ all.map fun a => (label a, a) := by
        intro hm
        obtain ⟨c, hc, he⟩ := List.mem_map.mp hm
        exact hn.1 (List.mem_map.mpr ⟨c, hc, (Prod.ext_iff.mp he).1⟩)
      rw [or_iff_left hnot]
      simp [Prod.ext_iff, eq_comm]
    · have hne : (s, a) ≠ (label b, b) := fun he => hs (Prod.ext_iff.mp he).1.symm
      rw [or_iff_right hne, ← ih hn.2, beq_false_of_ne hs]

variable [Inhabited α] {names : List (String × α)} {parse : String → Except ValueError α}
  {allowed : List String}

theorem choice_eq_ok_iff (hparse : ∀ s a, parse s = .ok a ↔ (s, a) ∈ names) (p : Parameter)
    (text : Option String) (a : α) :
    choice parse allowed p text = .ok a ↔ Chooses names default text a := by
  cases text with
  | none => exact ⟨fun h => (Except.ok.inj h).symm, fun h => congrArg Except.ok h.symm⟩
  | some s => rw [choice, Chooses, ← hparse, mapError_eq_ok]

theorem choice_eq_error (hparse : ∀ s a, parse s = .ok a ↔ (s, a) ∈ names) {p : Parameter}
    {text : Option String} {e : FormError} (h : choice parse allowed p text = .error e) :
    e = .notAmong p allowed ∧ ¬ ∃ a, Chooses names default text a := by
  constructor
  · cases text with
    | none => contradiction
    | some s =>
      rw [choice] at h
      cases hs : parse s with
      | ok a =>
        rw [hs] at h
        contradiction
      | error e' =>
        rw [hs] at h
        exact (Except.error.inj h).symm
  · rintro ⟨a, ha⟩
    exact nomatch h.symm.trans ((choice_eq_ok_iff hparse p text a).mpr ha)

end

theorem sortKey_ofString_eq_ok_iff (s : String) (k : SortKey) :
    SortKey.ofString s = .ok k ↔ (s, k) ∈ orderNames := by
  have hfind : SortKey.ofLabel? s = some k ↔ (s, k) ∈ orderNames :=
    find?_label_eq_some_iff SortKey.label (by decide) s k
  rw [← hfind, SortKey.ofString]
  cases SortKey.ofLabel? s <;> simp

theorem direction_ofString_eq_ok_iff (s : String) (d : Direction) :
    Direction.ofString s = .ok d ↔ (s, d) ∈ directionNames := by
  have hfind : Direction.ofLabel? s = some d ↔ (s, d) ∈ directionNames :=
    find?_label_eq_some_iff Direction.label (by decide) s d
  rw [← hfind, Direction.ofString]
  cases Direction.ofLabel? s <;> simp

theorem orderOf_eq_ok_iff (text : Option String) (k : SortKey) :
    orderOf text = .ok k ↔ Chooses orderNames .name text k :=
  choice_eq_ok_iff sortKey_ofString_eq_ok_iff .order text k

theorem directionOf_eq_ok_iff (text : Option String) (d : Direction) :
    directionOf text = .ok d ↔ Chooses directionNames .forward text d :=
  choice_eq_ok_iff direction_ofString_eq_ok_iff .direction text d

theorem integer_eq_error {p : Parameter} {default : Int64} {text : Option String} {e : FormError}
    (h : integer p default text = .error e) :
    e = .notPositive p ∧ ∀ n, ¬ Reads p default text n := by
  refine ⟨?_, fun n ⟨a, ha, _⟩ => nomatch h.symm.trans ha⟩
  cases text with
  | none => contradiction
  | some s =>
    rw [integer] at h
    split at h
    case h_1 => contradiction
    case h_2 => exact (Except.error.inj h).symm

theorem unsigned_eq_error {p : Parameter} {default : Int64} {text : Option String} {a : Int64}
    (ha : integer p default text = .ok a) {e : FormError} (h : unsigned p a = .error e) :
    e = .notPositive p ∧ ∀ n, ¬ Reads p default text n := by
  constructor
  · rw [unsigned] at h
    split at h
    case isTrue => exact (Except.error.inj h).symm
    case isFalse => contradiction
  · rintro n ⟨b, hb, hn⟩
    obtain rfl := Except.ok.inj (ha.symm.trans hb)
    rw [h] at hn
    contradiction

theorem keeps_start_iff (f : Form) :
    f.Keeps .start ↔ ∃ n, Reads .start defaultStart f.start n :=
  exists_congr fun n => (reads_start_iff f.start n).symm

theorem keeps_limit_iff (f : Form) :
    f.Keeps .limit ↔ ∃ n, Reads .limit defaultLimit f.limit n :=
  exists_congr fun n => (reads_limit_iff f.limit n).symm

theorem not_keeps_start {f : Form} (h : ∀ n, ¬ Reads .start defaultStart f.start n) :
    ¬ f.Keeps .start :=
  mt (keeps_start_iff f).mp (not_exists.mpr h)

theorem not_keeps_limit {f : Form} (h : ∀ n, ¬ Reads .limit defaultLimit f.limit n) :
    ¬ f.Keeps .limit :=
  mt (keeps_limit_iff f).mp (not_exists.mpr h)

theorem exists_unsigned_of_nonneg (p : Parameter) {a : Int64} (h : 0 ≤ a.toInt) :
    ∃ n, unsigned p a = .ok n := by
  have ha : ¬ a < 0 := fun hlt => by
    have := Int64.lt_iff_toInt_lt.mp hlt
    simp at this
    omega
  exact ⟨_, if_neg ha⟩

/-- What an error says about each parameter. Both numbers are read as integers before the sign of
either is looked at, so an error about the limit does not say that the offset is no fault. -/
theorem toQuery_error_cases {f : Form} {e : FormError} (h : f.toQuery = .error e) :
    (e = .notPositive .start ∧ ¬ f.Keeps .start) ∨
    (e = .notPositive .limit ∧ ¬ f.Keeps .limit ∧ (f.Keeps .start ∨
      ∃ a, integer .start defaultStart f.start = .ok a ∧ a.toInt < 0 ∧
        integer .limit defaultLimit f.limit = .error e)) ∨
    (f.Keeps .start ∧ f.Keeps .limit ∧
      (e = .notAmong .order (orderNames.map Prod.fst) ∧ ¬ f.Keeps .order ∨
        f.Keeps .order ∧ e = .notAmong .direction (directionNames.map Prod.fst) ∧
          ¬ f.Keeps .direction)) := by
  simp only [toQuery, bind_eq_error] at h
  rcases h with ha | ⟨a, ha, hb | ⟨b, hb, hs | ⟨start, hs, hl | ⟨limit, hl, hchoice⟩⟩⟩⟩
  · exact .inl ((integer_eq_error ha).imp_right not_keeps_start)
  · obtain ⟨he, hnot⟩ := integer_eq_error hb
    refine .inr (.inl ⟨he, not_keeps_limit hnot, ?_⟩)
    by_cases hneg : a.toInt < 0
    · exact .inr ⟨a, ha, hneg, hb⟩
    · obtain ⟨start, hs⟩ := exists_unsigned_of_nonneg .start (Int.not_lt.mp hneg)
      exact .inl ((keeps_start_iff f).mpr ⟨start, a, ha, hs⟩)
  · exact .inl ((unsigned_eq_error ha hs).imp_right not_keeps_start)
  · obtain ⟨he, hnot⟩ := unsigned_eq_error hb hl
    exact .inr (.inl ⟨he, not_keeps_limit hnot, .inl ((keeps_start_iff f).mpr ⟨start, a, ha, hs⟩)⟩)
  · refine .inr (.inr ⟨(keeps_start_iff f).mpr ⟨start, a, ha, hs⟩,
      (keeps_limit_iff f).mpr ⟨limit, b, hb, hl⟩, ?_⟩)
    rcases hchoice with hk | ⟨k, hk, hd | ⟨d, -, hq⟩⟩
    · exact .inl (choice_eq_error sortKey_ofString_eq_ok_iff hk)
    · exact .inr ⟨⟨k, (orderOf_eq_ok_iff f.order k).mp hk⟩,
        choice_eq_error direction_ofString_eq_ok_iff hd⟩
    · contradiction

theorem toQuery_eq_error {f : Form} {e : FormError} (h : f.toQuery = .error e) :
    (∃ p, (p = .start ∨ p = .limit) ∧ ¬ f.Keeps p ∧ e = .notPositive p) ∨
      f.Keeps .start ∧ f.Keeps .limit ∧
        ∃ p names, (p = .order ∨ p = .direction) ∧ ¬ f.Keeps p ∧ e = .notAmong p names := by
  rcases toQuery_error_cases h with
    ⟨he, hs⟩ | ⟨he, hl, -⟩ | ⟨hs, hl, ⟨he, ho⟩ | ⟨-, he, hd⟩⟩
  · exact .inl ⟨.start, .inl rfl, hs, he⟩
  · exact .inl ⟨.limit, .inr rfl, hl, he⟩
  · exact .inr ⟨hs, hl, .order, _, .inl rfl, ho, he⟩
  · exact .inr ⟨hs, hl, .direction, _, .inr rfl, hd, he⟩

theorem filterOf_eq_filter (text : Option String) : filterOf text = text.filter (· ≠ "") := by
  cases text with
  | none => rfl
  | some s => by_cases hs : s = "" <;> simp [filterOf, Option.filter, hs]

theorem toQuery_eq_ok_iff_written (f : Form) (q : Query) :
    f.toQuery = .ok q ↔ ∃ start limit k d, Counts 0 f.start start ∧ Counts 100 f.limit limit ∧
      Chooses orderNames .name f.order k ∧ Chooses directionNames .forward f.direction d ∧
      q = ⟨f.destination.filter (· ≠ ""), k, d, some ⟨start, limit⟩⟩ := by
  simp only [toQuery_eq_ok_iff, reads_start_iff, reads_limit_iff, orderOf_eq_ok_iff,
    directionOf_eq_ok_iff, filterOf_eq_filter]

theorem exists_toQuery_iff (f : Form) : (∃ q, f.toQuery = .ok q) ↔ ∀ p, f.Keeps p := by
  simp only [toQuery_eq_ok_iff_written]
  constructor
  · rintro ⟨q, start, limit, k, d, hs, hl, hk, hd, -⟩ p
    cases p with
    | start => exact ⟨start, hs⟩
    | limit => exact ⟨limit, hl⟩
    | destination => trivial
    | order => exact ⟨k, hk⟩
    | direction => exact ⟨d, hd⟩
  · intro h
    obtain ⟨start, hs⟩ := h .start
    obtain ⟨limit, hl⟩ := h .limit
    obtain ⟨k, hk⟩ := h .order
    obtain ⟨d, hd⟩ := h .direction
    exact ⟨_, start, limit, k, d, hs, hl, hk, hd, rfl⟩

theorem not_and_of_not_keeps {f : Form} {p a b : Parameter} (hp : p = a ∨ p = b)
    (h : ¬ f.Keeps p) : ¬ (f.Keeps a ∧ f.Keeps b) := by
  rintro ⟨ha, hb⟩
  rcases hp with rfl | rfl
  · exact h ha
  · exact h hb

/-- A form becomes a query exactly if each parameter is written as it may be, and the query holds
the values that are written. A bad number is reported whatever the choices are, a bad choice only
with two good numbers. -/
theorem toQuery_grammar (f : Form) :
    (∀ q, f.toQuery = .ok q ↔ ∃ start limit k d, Counts 0 f.start start ∧ Counts 100 f.limit limit ∧
      Chooses orderNames .name f.order k ∧ Chooses directionNames .forward f.direction d ∧
      q = ⟨f.destination.filter (· ≠ ""), k, d, some ⟨start, limit⟩⟩) ∧
    ((∃ q, f.toQuery = .ok q) ↔ ∀ p, f.Keeps p) ∧
    ((∃ m, f.toQuery = .error (.invalidParameter m)) ↔ ¬ (f.Keeps .start ∧ f.Keeps .limit)) ∧
    ((∃ m, f.toQuery = .error (.unrecognizedValue m)) ↔
      (f.Keeps .start ∧ f.Keeps .limit) ∧ ¬ (f.Keeps .order ∧ f.Keeps .direction)) := by
  refine ⟨toQuery_eq_ok_iff_written f, exists_toQuery_iff f, ?_⟩
  cases hf : f.toQuery with
  | ok q =>
    have h := (exists_toQuery_iff f).mp ⟨q, hf⟩
    exact ⟨iff_of_false nofun (not_not_intro ⟨h .start, h .limit⟩),
      iff_of_false nofun fun hn => hn.2 ⟨h .order, h .direction⟩⟩
  | error e =>
    rcases toQuery_eq_error hf with ⟨p, hp, hnot, rfl⟩ | ⟨hs, hl, p, names, hp, hnot, rfl⟩
    · have hbad := not_and_of_not_keeps hp hnot
      exact ⟨iff_of_true ⟨_, rfl⟩ hbad, iff_of_false nofun fun hn => hbad hn.1⟩
    · have hbad := not_and_of_not_keeps hp hnot
      exact ⟨iff_of_false nofun (not_not_intro ⟨hs, hl⟩), iff_of_true ⟨_, rfl⟩ ⟨⟨hs, hl⟩, hbad⟩⟩

example : toQuery ⟨some "-0", some "+007", some "", some "failure_ts", none⟩ =
    .ok ⟨none, .failureTs, .forward, some ⟨0, 7⟩⟩ := by
  rfl

end Form
end PeerRoster
