import PeerRoster.Text.Numeral

/-! Texts as byte strings. A byte string is read in UTF-8 as characters and gaps, one gap for every
maximal run of bytes that begins no character, so strict and lenient reading share one decoder;
texts are compared and searched byte by byte. A percent sign with two hexadecimal digits behind it
names a byte. In base64url without padding bytes go by groups of three and four sextets, and reading
is strict: the alphabet only, no group of one, and the bits that no byte uses are zero. -/
namespace PeerRoster

namespace Utf8

def encode (cs : List Char) : List UInt8 := cs.flatMap String.utf8EncodeChar

@[simp] theorem encode_nil : encode [] = [] := rfl

@[simp] theorem encode_cons (c : Char) (cs : List Char) :
    encode (c :: cs) = String.utf8EncodeChar c ++ encode cs := rfl

@[simp] theorem encode_append (cs ds : List Char) : encode (cs ++ ds) = encode cs ++ encode ds := by
  simp [encode]

/-- Reads `n` continuation bytes after the value `v`. The first of them lies between `lo` and `hi`,
the others anywhere in the continuation range; a byte out of range is left unread. -/
def continuation : Nat → Nat → UInt8 → UInt8 → List UInt8 → Option Char × List UInt8
  | 0, v, _, _, r => (some (Char.ofNat v), r)
  | _ + 1, _, _, _, [] => (none, [])
  | n + 1, v, lo, hi, c :: r =>
    if lo ≤ c ∧ c ≤ hi then continuation n (v * 64 + (c.toNat - 0x80)) 0x80 0xBF r
    else (none, c :: r)

theorem continuation_length (n v : Nat) (lo hi : UInt8) (r : List UInt8) :
    (continuation n v lo hi r).2.length ≤ r.length := by
  fun_induction continuation n v lo hi r with
  | case3 n v lo hi c r _ ih => exact Nat.le_succ_of_le ih
  | _ => simp

/-- The character, or the gap, with which the bytes `b :: r` begin, and the bytes after it. The
narrower second bytes exclude overlong forms, surrogates and values above U+10FFFF. -/
def next (b : UInt8) (r : List UInt8) : Option Char × List UInt8 :=
  if b < 0x80 then (some (Char.ofNat b.toNat), r)
  else if b < 0xC2 then (none, r)
  else if b < 0xE0 then continuation 1 (b.toNat - 0xC0) 0x80 0xBF r
  else if b < 0xF0 then
    continuation 2 (b.toNat - 0xE0) (if b = 0xE0 then 0xA0 else 0x80)
      (if b = 0xED then 0x9F else 0xBF) r
  else if b < 0xF5 then
    continuation 3 (b.toNat - 0xF0) (if b = 0xF0 then 0x90 else 0x80)
      (if b = 0xF4 then 0x8F else 0xBF) r
  else (none, r)

theorem next_length (b : UInt8) (r : List UInt8) : (next b r).2.length ≤ r.length := by
  unfold next
  repeat' split
  all_goals simp [continuation_length]

/-- The characters of a byte string in order, `none` for each gap. -/
def symbols : List UInt8 → List (Option Char)
  | [] => []
  | b :: r => (next b r).1 :: symbols (next b r).2
termination_by bs => bs.length
decreasing_by exact Nat.lt_succ_of_le (next_length b r)

/-- Strict reading: there is no gap. -/
def decode? (bs : List UInt8) : Option (List Char) := (symbols bs).mapM id

/-- Lenient reading: a gap becomes U+FFFD. -/
def decodeLenient (bs : List UInt8) : List Char := (symbols bs).map (·.getD '\uFFFD')

def bytes (s : String) : List UInt8 := encode s.toList

def text? (bs : List UInt8) : Option String := (decode? bs).map String.ofList

def lenientText (bs : List UInt8) : String := String.ofList (decodeLenient bs)

/-- Two byte strings from the front: the first byte in which they differ decides, and their lengths
if the one is the beginning of the other. -/
def compareBytes (a b : List UInt8) : Ordering :=
  match (a.zip b).find? fun p => p.1 != p.2 with
  | some p => compare p.1 p.2
  | none => compare a.length b.length

end Utf8

/-- The order of two texts by their bytes; a text comes before its continuations. -/
def collate (s t : String) : Ordering := compare (Utf8.bytes s) (Utf8.bytes t)

/-- Whether `needle` is a contiguous part of a list; the empty list is part of every list. -/
def occursIn (needle : List UInt8) : List UInt8 → Bool
  | [] => needle.isEmpty
  | b :: r => needle.isPrefixOf (b :: r) || occursIn needle r

@[simp] theorem occursIn_iff (needle : List UInt8) (bs : List UInt8) :
    occursIn needle bs = true ↔ needle <:+: bs := by
  induction bs with
  | nil => simp [occursIn]
  | cons b r ih => simp [occursIn, ih, List.infix_cons_iff]

/-- Whether the bytes of `part` occur in those of `s`. -/
def contains (part s : String) : Bool := occursIn (Utf8.bytes part) (Utf8.bytes s)

namespace Percent

def hexDigit? (b : UInt8) : Option Nat := Numeral.hexDigit? (Char.ofNat b.toNat)

/-- The byte that two hexadecimal digits name. -/
def byte? (h l : UInt8) : Option UInt8 :=
  match hexDigit? h, hexDigit? l with
  | some x, some y => some (UInt8.ofNat (x * 16 + y))
  | _, _ => none

/-- Replaces what names a byte by the byte, unless the byte is `reserved`. Whatever is not replaced
stays as it is. -/
def decode (reserved : UInt8 → Bool) : List UInt8 → List UInt8
  | [] => []
  | b :: r =>
    if b = 0x25 then
      match r with
      | h :: l :: r =>
        match byte? h l with
        | some x =>
          if reserved x then b :: h :: l :: decode reserved r else x :: decode reserved r
        | none => b :: decode reserved (h :: l :: r)
      | r => b :: decode reserved r
    else b :: decode reserved r

end Percent

namespace Base64Url

def digit (n : Nat) : Char :=
  if n < 26 then Char.ofNat (n + 65)
  else if n < 52 then Char.ofNat (n + 71)
  else if n < 62 then Char.ofNat (n - 4)
  else if n = 62 then '-'
  else '_'

def sextet? (c : Char) : Option Nat :=
  let n := c.toNat
  if 65 ≤ n ∧ n ≤ 90 then some (n - 65)
  else if 97 ≤ n ∧ n ≤ 122 then some (n - 71)
  else if 48 ≤ n ∧ n ≤ 57 then some (n + 4)
  else if c = '-' then some 62
  else if c = '_' then some 63
  else none

theorem sextet?_digit : ∀ n < 64, sextet? (digit n) = some n := by decide

theorem sextet?_lt {c : Char} {n : Nat} (h : sextet? c = some n) : n < 64 := by
  unfold sextet? at h
  grind

def sextets : List UInt8 → List Nat
  | [] => []
  | [a] => [a.toNat / 4, a.toNat % 4 * 16]
  | [a, b] => [a.toNat / 4, a.toNat % 4 * 16 + b.toNat / 16, b.toNat % 16 * 4]
  | a :: b :: c :: r =>
    a.toNat / 4 :: (a.toNat % 4 * 16 + b.toNat / 16) :: (b.toNat % 16 * 4 + c.toNat / 64) ::
      (c.toNat % 64) :: sextets r

def ofSextets? : List Nat → Option (List UInt8)
  | [] => some []
  | [_] => none
  | [p, q] => if q % 16 = 0 then some [.ofNat (p * 4 + q / 16)] else none
  | [p, q, s] =>
    if s % 4 = 0 then some [.ofNat (p * 4 + q / 16), .ofNat (q % 16 * 16 + s / 4)] else none
  | p :: q :: s :: t :: r => (ofSextets? r).map fun bs =>
    .ofNat (p * 4 + q / 16) :: .ofNat (q % 16 * 16 + s / 4) :: .ofNat (s % 4 * 64 + t) :: bs

def encode (bs : List UInt8) : List Char := (sextets bs).map digit

def decode? (cs : List Char) : Option (List UInt8) := (cs.mapM sextet?).bind ofSextets?

end Base64Url

end PeerRoster
