import PeerRoster.Json.Value
import PeerRoster.Text.Encoding

/-! The tokens of a JSON text: marks and scalar values, with blanks between them ignored. A number
with neither a fraction nor an exponent is an integer, unless it is minus zero; any number can be
read as a binary64 number if it is not out of range. -/
namespace PeerRoster

namespace Json

/-- The digits of a literal; there are none of a fraction or an exponent that is not written. -/
structure Number where
  negative : Bool
  whole : List Nat
  fraction : List Nat
  exponentNegative : Bool
  exponent : List Nat

namespace Number

/-- Appends digits to a number while it stays a 64-bit word; the digits left over come second. -/
def extend (n : Nat) : List Nat → Nat × List Nat
  | [] => (n, [])
  | d :: r => if n * 10 + d ≤ 0xFFFFFFFFFFFFFFFF then extend (n * 10 + d) r else (n, d :: r)

/-- The leading digits as a word, and the power of ten that goes with them. Of the digits left over,
those before the point raise the power and those behind it are lost. -/
def significand (x : Number) : Nat × Int :=
  let w := extend 0 x.whole
  let f := extend w.1 x.fraction
  (f.1, w.2.length + f.2.length - x.fraction.length)

def power (x : Number) : Int :=
  let e := Numeral.value 10 x.exponent
  if x.exponentNegative then -Int.ofNat e else Int.ofNat e

/-- A number out of range is noticed behind the literal, or already at the digit that takes the
exponent past 31 bits. -/
def defect? (x : Number) : Option Defect :=
  let (m, s) := x.significand
  if Binary64.overflows m (s + x.power).toNat then
    if Numeral.value 10 x.exponent.dropLast ≤ 0x7FFFFFFF then some .after else some .inside
  else none

def ofInt (n : Int) : Number := ⟨n < 0, Numeral.digits 10 n.natAbs, [], false, []⟩

def toJson (x : Number) : Json :=
  let n := Numeral.value 10 x.whole
  if x.fraction.isEmpty && x.exponent.isEmpty && !(x.negative && n == 0) then
    .int (if x.negative then -Int.ofNat n else Int.ofNat n)
  else .real x.defect?

end Number

inductive Mark
  | openBrace
  | closeBrace
  | openBracket
  | closeBracket
  | colon
  | comma
  deriving DecidableEq

/-- A mark or a whole value. The text itself yields scalar values only. -/
inductive Token
  | mark (m : Mark)
  | value (v : Json)

def mark? (b : UInt8) : Option Mark :=
  if b = 0x7B then some .openBrace
  else if b = 0x7D then some .closeBrace
  else if b = 0x5B then some .openBracket
  else if b = 0x5D then some .closeBracket
  else if b = 0x3A then some .colon
  else if b = 0x2C then some .comma
  else none

def isSpace (b : UInt8) : Bool := b == 0x20 || b == 0x09 || b == 0x0A || b == 0x0D

def isDigit (b : UInt8) : Bool := 0x30 ≤ b && b ≤ 0x39

/-- One constituent of a string literal: a byte, or a 16-bit unit given by its number. -/
inductive Piece
  | byte (b : UInt8)
  | unit (n : Nat)

/-- The character meant by a single letter after a backslash. -/
def shortEscape? (e : UInt8) : Option UInt8 :=
  if e = 0x22 || e = 0x5C || e = 0x2F then some e
  else if e = 0x62 then some 0x08
  else if e = 0x66 then some 0x0C
  else if e = 0x6E then some 0x0A
  else if e = 0x72 then some 0x0D
  else if e = 0x74 then some 0x09
  else none

/-- The unit that four hexadecimal digits give. -/
def unit? (ds : List UInt8) : Option Piece :=
  (ds.mapM fun d => Numeral.hexDigit? (Char.ofNat d.toNat)).map (.unit <| Numeral.value 16 ·)

/-- The constituents of a string literal up to its closing quote, and what follows the quote. -/
def pieces? : List UInt8 → Option (List Piece × List UInt8)
  | [] => none
  | b :: r =>
    if b = 0x22 then some ([], r)
    else if b < 0x20 then none
    else if b = 0x5C then
      match r with
      | [] => none
      | e :: r =>
        if e = 0x75 then
          match r with
          | h₁ :: h₂ :: h₃ :: h₄ :: r =>
            (unit? [h₁, h₂, h₃, h₄]).bind fun p => (pieces? r).map fun q => (p :: q.1, q.2)
          | _ => none
        else (shortEscape? e).bind fun c => (pieces? r).map fun q => (.byte c :: q.1, q.2)
    else (pieces? r).map fun q => (.byte b :: q.1, q.2)

theorem pieces?_length {bs : List UInt8} {p : List Piece × List UInt8} (h : pieces? bs = some p) :
    p.2.length < bs.length := by
  fun_induction pieces? bs generalizing p <;>
    simp_all only [Option.bind_eq_some_iff, Option.map_eq_some_iff, List.length_cons, reduceCtorEq,
      Option.some.injEq]
  all_goals grind

/-- The code point of a high and a low surrogate. -/
def paired (high low : Nat) : Nat := 0x10000 + (high - 0xD800) * 0x400 + (low - 0xDC00)

/-- The bytes that constituents stand for. A high and a low surrogate make one character. A reader
gives up at a low one that stands alone, and at what follows a high one that stands alone. -/
def assemble : List Piece → Except Defect (List UInt8)
  | [] => .ok []
  | .byte b :: r => (assemble r).map (b :: ·)
  | .unit n :: r =>
    if n < 0xD800 ∨ 0xE000 ≤ n then
      (assemble r).map (String.utf8EncodeChar (Char.ofNat n) ++ ·)
    else if 0xDC00 ≤ n then .error .inside
    else match r with
      | [] => .error .after
      | .byte _ :: _ => .error .inside
      | .unit m :: r =>
        if 0xDC00 ≤ m ∧ m < 0xE000 then
          (assemble r).map (String.utf8EncodeChar (Char.ofNat (paired n m)) ++ ·)
        else .error .inside

/-- Bytes that are not UTF-8 are noticed only at the end. -/
def literal (ps : List Piece) : Literal :=
  match assemble ps with
  | .error d => .broken d
  | .ok bs => match Utf8.text? bs with
    | some s => .text s
    | none => .broken .after

def string? (bs : List UInt8) : Option (Token × List UInt8) :=
  (pieces? bs).map fun p => (.value (.str (literal p.1)), p.2)

def digitValues (ds : List UInt8) : List Nat := ds.map fun d => d.toNat - 0x30

/-- The whole part of a number: a single zero, or digits of which the first is not zero. -/
def whole? : List UInt8 → Option (List Nat × List UInt8)
  | [] => none
  | b :: r =>
    if b = 0x30 then some ([0], r)
    else if isDigit b then some (digitValues (b :: r.takeWhile isDigit), r.dropWhile isDigit)
    else none

def someDigits? : List UInt8 → Option (List Nat × List UInt8)
  | [] => none
  | b :: r =>
    if isDigit b then some (digitValues (b :: r.takeWhile isDigit), r.dropWhile isDigit) else none

/-- The digits of a fraction, if there is one. -/
def fraction? : List UInt8 → Option (List Nat × List UInt8)
  | [] => some ([], [])
  | b :: r => if b = 0x2E then someDigits? r else some ([], b :: r)

/-- Whether a minus sign is in front, and what follows the sign if there is one. -/
def sign : List UInt8 → Bool × List UInt8
  | [] => (false, [])
  | b :: r => if b = 0x2B ∨ b = 0x2D then (b = 0x2D, r) else (false, b :: r)

/-- The sign and the digits of an exponent, if there is one. -/
def exponent? : List UInt8 → Option ((Bool × List Nat) × List UInt8)
  | [] => some ((false, []), [])
  | b :: r =>
    if b = 0x65 ∨ b = 0x45 then
      (someDigits? (sign r).2).map fun p => (((sign r).1, p.1), p.2)
    else some ((false, []), b :: r)

def unsigned? (negative : Bool) (bs : List UInt8) : Option (Token × List UInt8) := do
  let (w, r) ← whole? bs
  let (f, r) ← fraction? r
  let (e, r) ← exponent? r
  return (.value (Number.toJson ⟨negative, w, f, e.1, e.2⟩), r)

def words : List (List UInt8 × Json) :=
  [(Utf8.bytes "null", .null), (Utf8.bytes "true", .bool true), (Utf8.bytes "false", .bool false)]

/-- One of the three words, at the front. -/
def word? (bs : List UInt8) : Option (Token × List UInt8) :=
  (words.find? (·.1.isPrefixOf bs)).map fun w => (.value w.2, bs.drop w.1.length)

/-- The token that starts with the byte `b`, which is no blank. -/
def token? (b : UInt8) (r : List UInt8) : Option (Token × List UInt8) :=
  match mark? b with
  | some m => some (.mark m, r)
  | none =>
    if b = 0x22 then string? r
    else if b = 0x2D then unsigned? true r
    else if isDigit b then unsigned? false (b :: r)
    else word? (b :: r)

theorem length_dropWhile_le (f : UInt8 → Bool) (bs : List UInt8) :
    (bs.dropWhile f).length ≤ bs.length :=
  (List.dropWhile_sublist f).length_le

theorem whole?_length {bs : List UInt8} {p : List Nat × List UInt8} (h : whole? bs = some p) :
    p.2.length < bs.length := by
  cases bs with
  | nil => simp [whole?] at h
  | cons b r =>
    have := length_dropWhile_le isDigit r
    simp only [whole?, List.length_cons] at h ⊢
    grind

theorem someDigits?_length {bs : List UInt8} {p : List Nat × List UInt8}
    (h : someDigits? bs = some p) : p.2.length ≤ bs.length := by
  cases bs with
  | nil => simp [someDigits?] at h
  | cons b r =>
    have := length_dropWhile_le isDigit r
    simp only [someDigits?, List.length_cons] at h ⊢
    grind

theorem fraction?_length {bs : List UInt8} {p : List Nat × List UInt8} (h : fraction? bs = some p) :
    p.2.length ≤ bs.length := by
  cases bs with
  | nil => simp [← Option.some.inj h]
  | cons b r =>
    simp only [fraction?] at h
    split at h
    · exact Nat.le_succ_of_le (someDigits?_length h)
    · simp [← Option.some.inj h]

theorem sign_length (bs : List UInt8) : (sign bs).2.length ≤ bs.length := by
  cases bs with
  | nil => simp [sign]
  | cons b r => simp only [sign, List.length_cons]; grind

theorem exponent?_length {bs : List UInt8} {p : (Bool × List Nat) × List UInt8}
    (h : exponent? bs = some p) : p.2.length ≤ bs.length := by
  cases bs with
  | nil => simp [← Option.some.inj h]
  | cons b r =>
    simp only [exponent?] at h
    split at h
    · obtain ⟨q, hq, rfl⟩ := Option.map_eq_some_iff.1 h
      exact Nat.le_succ_of_le (Nat.le_trans (someDigits?_length hq) (sign_length r))
    · simp [← Option.some.inj h]

theorem unsigned?_length {negative : Bool} {bs : List UInt8} {p : Token × List UInt8}
    (h : unsigned? negative bs = some p) : p.2.length < bs.length := by
  simp only [unsigned?, Option.bind_eq_bind, Option.bind_eq_some_iff] at h
  obtain ⟨q, hq, f, hf, e, he, hp⟩ := h
  have h₁ := whole?_length hq
  have h₂ := fraction?_length hf
  have h₃ := exponent?_length he
  obtain rfl := Option.some.inj hp
  exact Nat.lt_of_le_of_lt (Nat.le_trans h₃ h₂) h₁

theorem token?_length {b : UInt8} {r : List UInt8} {p : Token × List UInt8}
    (h : token? b r = some p) : p.2.length ≤ r.length := by
  unfold token? at h
  split at h
  · obtain rfl := Option.some.inj h
    exact Nat.le_refl _
  split at h
  · obtain ⟨q, hq, rfl⟩ := Option.map_eq_some_iff.1 h
    exact Nat.le_of_lt (pieces?_length hq)
  split at h
  · exact Nat.le_of_lt (unsigned?_length h)
  split at h
  · exact Nat.le_of_lt_succ (unsigned?_length h)
  · simp only [word?, Option.map_eq_some_iff] at h
    obtain ⟨w, hw, rfl⟩ := h
    have hm := List.mem_of_find?_eq_some hw
    have : 1 ≤ w.1.length := by
      simp only [words, List.mem_cons, List.not_mem_nil, or_false] at hm
      rcases hm with rfl | rfl | rfl <;> decide
    simp only [List.length_drop, List.length_cons]
    omega

/-- All tokens of a text, if it consists of tokens and blanks. -/
def tokens? : List UInt8 → Option (List Token)
  | [] => some []
  | b :: r =>
    if isSpace b then tokens? r
    else match _h : token? b r with
      | none => none
      | some p => (tokens? p.2).map (p.1 :: ·)
termination_by bs => bs.length
decreasing_by
  · simp
  · exact Nat.lt_succ_of_le (token?_length _h)

end Json

end PeerRoster
