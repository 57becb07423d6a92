import Mathlib.Data.List.Basic
import PeerRoster.Proofs.Literal

/-! A token is read as what it stands for, in whatever way it is written. A number is read to its
last digit only if what follows would not go on with it. -/
namespace PeerRoster

namespace Numeral

theorem digits_lt (n : ℕ) : ∀ d ∈ digits 10 n, d < 10 :=
  fun _ h => lt_of_mem_digits (by decide) h

theorem encode_decimalDigits {ds : List ℕ} (h : ∀ d ∈ ds, d < 10) :
    Utf8.encode (ds.map Nat.digitChar) = ds.map digitByte :=
  encode_digits fun d hd => Nat.lt_trans (h d hd) (by decide)

end Numeral

namespace Json

open Numeral (digitByte)

/-- What follows a number does not go on with it. -/
def Ends (rest : List UInt8) : Prop :=
  ∀ b ∈ rest.head?, isDigit b = false ∧ b ≠ 0x2E ∧ b ≠ 0x65 ∧ b ≠ 0x45

theorem isDigit_digitByte : ∀ d < 10, isDigit (digitByte d) = true := by decide

theorem digitValues_digits {ds : List ℕ} (h : ∀ d ∈ ds, d < 10) :
    digitValues (ds.map digitByte) = ds := by
  have hd : ∀ d < 10, (digitByte d).toNat - 0x30 = d := by decide
  rw [digitValues, List.map_map]
  calc ds.map ((fun b => b.toNat - 0x30) ∘ digitByte)
      = ds.map id := List.map_congr_left fun d hm => hd d (h d hm)
    _ = ds := List.map_id ds

theorem takeWhile_digits {ds : List ℕ} (h : ∀ d ∈ ds, d < 10) {rest : List UInt8}
    (hr : ∀ b ∈ rest.head?, isDigit b = false) :
    (ds.map digitByte ++ rest).takeWhile isDigit = ds.map digitByte ∧
      (ds.map digitByte ++ rest).dropWhile isDigit = rest := by
  induction ds with
  | nil =>
    cases rest with
    | nil => exact ⟨rfl, rfl⟩
    | cons b rest => simp [hr b rfl]
  | cons d ds ih =>
    obtain ⟨hd, hds⟩ := List.forall_mem_cons.mp h
    simp [isDigit_digitByte d hd, ih hds]

theorem someDigits?_digits {ds : List ℕ} (hne : ds ≠ []) (h : ∀ d ∈ ds, d < 10) {rest : List UInt8}
    (hr : ∀ b ∈ rest.head?, isDigit b = false) :
    someDigits? (ds.map digitByte ++ rest) = some (ds, rest) := by
  obtain ⟨d, r, rfl⟩ := List.exists_cons_of_ne_nil hne
  obtain ⟨hd, hds⟩ := List.forall_mem_cons.mp h
  obtain ⟨htake, hdrop⟩ := takeWhile_digits hds hr
  rw [List.map_cons, List.cons_append, someDigits?, if_pos (isDigit_digitByte d hd), htake, hdrop,
    ← List.map_cons, digitValues_digits h]

theorem whole?_digits {ds : List ℕ} (h : Number.IsWhole ds) {rest : List UInt8}
    (hr : ∀ b ∈ rest.head?, isDigit b = false) :
    whole? (ds.map digitByte ++ rest) = some (ds, rest) := by
  have hzero : ∀ d < 10, digitByte d = 0x30 → d = 0 := by decide
  obtain ⟨hlt, d, r, rfl, hz⟩ := h
  by_cases hb : digitByte d = 0x30
  · obtain rfl := hzero d (hlt d List.mem_cons_self) hb
    obtain rfl := hz rfl
    rfl
  · rw [← someDigits?_digits (List.cons_ne_nil d r) hlt hr]
    exact if_neg hb

theorem fraction?_none {rest : List UInt8} (h : ∀ b ∈ rest.head?, b ≠ 0x2E) :
    fraction? rest = some ([], rest) := by
  cases rest with
  | nil => rfl
  | cons b r => exact if_neg (h b rfl)

theorem fraction?_of_spells {text : List Char} {ds : List ℕ} (h : Number.SpellsFraction text ds)
    {rest : List UInt8} (hr : ∀ b ∈ rest.head?, isDigit b = false ∧ b ≠ 0x2E) :
    fraction? (Utf8.encode text ++ rest) = some (ds, rest) := by
  cases h with
  | absent => exact fraction?_none fun b hb => (hr b hb).2
  | present hne hlt =>
    rw [Utf8.encode_cons, Numeral.encode_decimalDigits hlt]
    exact someDigits?_digits hne hlt fun b hb => (hr b hb).1

theorem exponent?_none {rest : List UInt8} (h : Ends rest) :
    exponent? rest = some ((false, []), rest) := by
  cases rest with
  | nil => rfl
  | cons b r =>
    obtain ⟨-, -, hlower, hupper⟩ := h b rfl
    exact if_neg (not_or.mpr ⟨hlower, hupper⟩)

theorem sign_digits {text : List Char} {negative : Bool}
    (h : (text, negative) ∈ Number.exponentSigns) {ds : List ℕ} (hne : ds ≠ [])
    (hlt : ∀ d ∈ ds, d < 10) (rest : List UInt8) :
    sign (Utf8.encode text ++ (ds.map digitByte ++ rest)) =
      (negative, ds.map digitByte ++ rest) := by
  have hnone : ∀ d < 10, ¬ (digitByte d = 0x2B ∨ digitByte d = 0x2D) := by decide
  obtain ⟨d, r, rfl⟩ := List.exists_cons_of_ne_nil hne
  simp only [Number.exponentSigns, List.mem_cons, Prod.mk.injEq, List.not_mem_nil, or_false] at h
  rcases h with ⟨rfl, rfl⟩ | ⟨rfl, rfl⟩ | ⟨rfl, rfl⟩
  · exact if_neg (hnone d (hlt d List.mem_cons_self))
  · rfl
  · rfl

theorem exponent?_of_spells {text : List Char} {negative : Bool} {ds : List ℕ}
    (h : Number.SpellsExponent text negative ds) {rest : List UInt8} (hr : Ends rest) :
    exponent? (Utf8.encode text ++ rest) = some ((negative, ds), rest) := by
  cases h with
  | absent => exact exponent?_none hr
  | @present e sign _ _ he hsign hne hlt =>
    have hs := sign_digits hsign hne hlt rest
    have hd := someDigits?_digits hne hlt fun b hb => (hr b hb).1
    have hread : ∀ b, b = 0x65 ∨ b = 0x45 →
        exponent? (b :: (Utf8.encode sign ++ (ds.map digitByte ++ rest))) =
          some ((negative, ds), rest) := by
      intro b hb
      rw [exponent?, if_pos hb, hs, hd]
      rfl
    rw [Utf8.encode_cons, Utf8.encode_append, Numeral.encode_decimalDigits hlt]
    simp only [List.append_assoc]
    rcases List.mem_pair.mp he with rfl | rfl
    · exact hread 0x65 (.inl rfl)
    · exact hread 0x45 (.inr rfl)

theorem head_exponent {text : List Char} {negative : Bool} {ds : List ℕ}
    (h : Number.SpellsExponent text negative ds) {rest : List UInt8} (hr : Ends rest) :
    ∀ b ∈ (Utf8.encode text ++ rest).head?, isDigit b = false ∧ b ≠ 0x2E := by
  cases h with
  | absent =>
    intro b hb
    exact ⟨(hr b hb).1, (hr b hb).2.1⟩
  | present he =>
    rcases List.mem_pair.mp he with rfl | rfl
    all_goals
      rintro b ⟨⟩
      decide

theorem head_fraction {text : List Char} {ds : List ℕ} (h : Number.SpellsFraction text ds)
    {rest : List UInt8} (hr : ∀ b ∈ rest.head?, isDigit b = false ∧ b ≠ 0x2E) :
    ∀ b ∈ (Utf8.encode text ++ rest).head?, isDigit b = false := by
  cases h with
  | absent => exact fun b hb => (hr b hb).1
  | present =>
    rintro b ⟨⟩
    decide

theorem unsigned?_of_spells (x : Number) {f e : List Char} (hw : Number.IsWhole x.whole)
    (hf : Number.SpellsFraction f x.fraction)
    (he : Number.SpellsExponent e x.exponentNegative x.exponent) {rest : List UInt8}
    (hr : Ends rest) :
    unsigned? x.negative (Utf8.encode (x.whole.map Nat.digitChar ++ (f ++ e)) ++ rest) =
      some (.value x.toJson, rest) := by
  have hexponent := head_exponent he hr
  rw [unsigned?, Utf8.encode_append, Utf8.encode_append, Numeral.encode_decimalDigits hw.1,
    List.append_assoc, List.append_assoc, whole?_digits hw (head_fraction hf hexponent)]
  simp [fraction?_of_spells hf hexponent, exponent?_of_spells he hr]

/-- Some bytes are a token if `rest` follows. -/
def Lexes (bs : List UInt8) (t : Token) (rest : List UInt8) : Prop :=
  ∃ b r, bs = b :: r ∧ isSpace b = false ∧ token? b (r ++ rest) = some (t, rest)

theorem Lexes.tokens? {bs : List UInt8} {t : Token} {rest : List UInt8} (h : Lexes bs t rest) :
    tokens? (bs ++ rest) = (tokens? rest).map (t :: ·) := by
  obtain ⟨b, r, rfl, hs, ht⟩ := h
  rw [List.cons_append, Json.tokens?]
  simp only [hs, Bool.false_eq_true, if_false]
  split
  next hn => simp [ht] at hn
  next p hp => rw [ht] at hp; obtain rfl := Option.some.inj hp; rfl

theorem lexes_mark {b : UInt8} {m : Mark} (hs : isSpace b = false) (h : mark? b = some m)
    (rest : List UInt8) : Lexes [b] (.mark m) rest := by
  refine ⟨b, [], rfl, hs, ?_⟩
  rw [token?, h]
  rfl

theorem lexes_number {text : List Char} {x : Number} (h : x.Spells text) {rest : List UInt8}
    (hr : Ends rest) : Lexes (Utf8.encode text) (.value x.toJson) rest := by
  have hdigit : ∀ d < 10, isSpace (digitByte d) = false ∧ mark? (digitByte d) = none ∧
      digitByte d ≠ 0x22 ∧ digitByte d ≠ 0x2D ∧ isDigit (digitByte d) = true := by decide
  obtain ⟨f, e, hw, hf, he, rfl⟩ := h
  have hu := unsigned?_of_spells x hw hf he hr
  cases hx : x.negative with
  | true =>
    rw [hx] at hu
    exact ⟨0x2D, _, rfl, rfl, hu⟩
  | false =>
    obtain ⟨hlt, d, r, hwhole, -⟩ := hw
    obtain ⟨hs, hm, hq, hminus, hd⟩ := hdigit d (hlt d (hwhole ▸ List.mem_cons_self))
    have htext : Utf8.encode (x.whole.map Nat.digitChar ++ (f ++ e)) =
        digitByte d :: (r.map digitByte ++ Utf8.encode (f ++ e)) := by
      rw [Utf8.encode_append, Numeral.encode_decimalDigits hlt, hwhole]
      rfl
    rw [hx, htext] at hu
    refine ⟨digitByte d, _, htext, hs, ?_⟩
    rw [token?, hm]
    simp only [if_neg hq, if_neg hminus, if_pos hd]
    exact hu

namespace Number

theorem isWhole_digits (n : ℕ) : IsWhole (Numeral.digits 10 n) :=
  ⟨Numeral.digits_lt n, Numeral.digits_head n⟩

theorem spells_ofInt (n : Int) : (ofInt n).Spells (Numeral.decimalInt n) := by
  have hwhole := isWhole_digits n.natAbs
  refine ⟨[], [], hwhole, .absent, .absent, ?_⟩
  cases n with
  | ofNat n => simp [ofInt, Numeral.decimalInt, Numeral.decimal]
  | negSucc n => simp [ofInt, Numeral.decimalInt, Numeral.decimal]

theorem toJson_ofInt (n : Int) : (ofInt n).toJson = .int n := by
  cases n with
  | ofNat n =>
    have hn : ofInt (.ofNat n) = ⟨false, Numeral.digits 10 n, [], false, []⟩ := rfl
    rw [hn, toJson, Numeral.value_digits]
    rfl
  | negSucc n =>
    have hn : ofInt (.negSucc n) = ⟨true, Numeral.digits 10 (n + 1), [], false, []⟩ := by
      rw [ofInt, decide_eq_true (Int.negSucc_lt_zero n), Int.natAbs_negSucc]
    rw [hn, toJson, Numeral.value_digits]
    rfl

theorem toJson_of_isReal {x : Number} (h : x.IsReal) : x.toJson = .real x.defect? := by
  have hreal : (x.fraction.isEmpty && x.exponent.isEmpty &&
      !(x.negative && Numeral.value 10 x.whole == 0)) = false := by
    rcases h with h | h | ⟨hn, hv⟩
    · simp [h]
    · simp [h]
    · simp [hn, hv]
  rw [toJson, hreal]
  rfl

end Number

/-- Every spelling of a token is read as the token, a number only if nothing goes on with it. -/
theorem lexes_of_spells {text : List Char} {t : Token} (h : t.Spells text) {rest : List UInt8}
    (hr : t.isMark = false → Ends rest) : Lexes (Utf8.encode text) t rest := by
  cases h with
  | mark m => cases m <;> exact lexes_mark rfl rfl rest
  | null => exact ⟨0x6E, [0x75, 0x6C, 0x6C], rfl, rfl, rfl⟩
  | true => exact ⟨0x74, [0x72, 0x75, 0x65], rfl, rfl, rfl⟩
  | false => exact ⟨0x66, [0x61, 0x6C, 0x73, 0x65], rfl, rfl, rfl⟩
  | int n =>
    rw [← Number.toJson_ofInt]
    exact lexes_number (Number.spells_ofInt n) (hr rfl)
  | real hx hreal =>
    rw [← Number.toJson_of_isReal hreal]
    exact lexes_number hx (hr rfl)
  | @str text l hl =>
    refine ⟨0x22, Utf8.encode (text ++ ['"']), rfl, rfl, ?_⟩
    rw [Utf8.encode_append, List.append_assoc]
    exact string?_of_spells hl rest

end Json
end PeerRoster
