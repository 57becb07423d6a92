/-! The hash SHA-256 of a list of bytes, and authentication codes from it: HMAC over blocks of 64
bytes. -/
namespace PeerRoster

namespace Sha256

/-- The first 32 bits of the fractional parts of the cube roots of the first 64 primes. -/
def constants : List UInt32 :=
  [0x428A2F98, 0x71374491, 0xB5C0FBCF, 0xE9B5DBA5, 0x3956C25B, 0x59F111F1, 0x923F82A4, 0xAB1C5ED5,
    0xD807AA98, 0x12835B01, 0x243185BE, 0x550C7DC3, 0x72BE5D74, 0x80DEB1FE, 0x9BDC06A7, 0xC19BF174,
    0xE49B69C1, 0xEFBE4786, 0x0FC19DC6, 0x240CA1CC, 0x2DE92C6F, 0x4A7484AA, 0x5CB0A9DC, 0x76F988DA,
    0x983E5152, 0xA831C66D, 0xB00327C8, 0xBF597FC7, 0xC6E00BF3, 0xD5A79147, 0x06CA6351, 0x14292967,
    0x27B70A85, 0x2E1B2138, 0x4D2C6DFC, 0x53380D13, 0x650A7354, 0x766A0ABB, 0x81C2C92E, 0x92722C85,
    0xA2BFE8A1, 0xA81A664B, 0xC24B8B70, 0xC76C51A3, 0xD192E819, 0xD6990624, 0xF40E3585, 0x106AA070,
    0x19A4C116, 0x1E376C08, 0x2748774C, 0x34B0BCB5, 0x391C0CB3, 0x4ED8AA4A, 0x5B9CCA4F, 0x682E6FF3,
    0x748F82EE, 0x78A5636F, 0x84C87814, 0x8CC70208, 0x90BEFFFA, 0xA4506CEB, 0xBEF9A3F7, 0xC67178F2]

/-- The eight words that a block transforms. -/
structure State where
  a : UInt32
  b : UInt32
  c : UInt32
  d : UInt32
  e : UInt32
  f : UInt32
  g : UInt32
  h : UInt32

/-- The first 32 bits of the fractional parts of the square roots of the first eight primes. -/
def initial : State :=
  ⟨0x6A09E667, 0xBB67AE85, 0x3C6EF372, 0xA54FF53A,
    0x510E527F, 0x9B05688C, 0x1F83D9AB, 0x5BE0CD19⟩

def State.words (s : State) : List UInt32 := [s.a, s.b, s.c, s.d, s.e, s.f, s.g, s.h]

def State.add (s t : State) : State :=
  ⟨s.a + t.a, s.b + t.b, s.c + t.c, s.d + t.d, s.e + t.e, s.f + t.f, s.g + t.g, s.h + t.h⟩

def rotate (n x : UInt32) : UInt32 := x >>> n ||| x <<< (32 - n)

def choose (x y z : UInt32) : UInt32 := (x &&& y) ^^^ (~~~x &&& z)

def majority (x y z : UInt32) : UInt32 := (x &&& y) ^^^ (x &&& z) ^^^ (y &&& z)

/-- One round, with the sum of the round's constant and its schedule word. -/
def State.round (s : State) (kw : UInt32) : State :=
  let t := s.h + (rotate 6 s.e ^^^ rotate 11 s.e ^^^ rotate 25 s.e) + choose s.e s.f s.g + kw
  let u := (rotate 2 s.a ^^^ rotate 13 s.a ^^^ rotate 22 s.a) + majority s.a s.b s.c
  ⟨t + u, s.a, s.b, s.c, s.d + t, s.e, s.f, s.g⟩

/-- The schedule's next `n` words, where `w` holds the sixteen words from the first of them on. -/
def schedule : Nat → List UInt32 → List UInt32
  | 0, _ => []
  | n + 1, w =>
    let x := w.getD 1 0
    let y := w.getD 14 0
    let new := w.getD 0 0 + (rotate 7 x ^^^ rotate 18 x ^^^ x >>> 3) + w.getD 9 0 +
      (rotate 17 y ^^^ rotate 19 y ^^^ y >>> 10)
    w.getD 0 0 :: schedule n (w.drop 1 ++ [new])

def State.absorb (s : State) (block : List UInt32) : State :=
  s.add ((List.zipWith (· + ·) constants (schedule 64 block)).foldl State.round s)

def word (a b c d : UInt8) : UInt32 :=
  a.toUInt32 <<< 24 ||| b.toUInt32 <<< 16 ||| c.toUInt32 <<< 8 ||| d.toUInt32

def wordsOfBytes : List UInt8 → List UInt32
  | a :: b :: c :: d :: r => word a b c d :: wordsOfBytes r
  | _ => []

def bytesOfWord (w : UInt32) : List UInt8 :=
  [(w >>> 24).toUInt8, (w >>> 16).toUInt8, (w >>> 8).toUInt8, w.toUInt8]

/-- The message closed by a one bit, zeros, and its length in bits as eight bytes. -/
def padded (message : List UInt8) : List UInt8 :=
  let n := message.length
  message ++ 0x80 :: List.replicate ((119 - n % 64) % 64) 0 ++
    bytesOfWord (.ofNat (n * 8 / 0x100000000)) ++ bytesOfWord (.ofNat (n * 8))

/-- The words in blocks of sixteen. -/
def blocks : List UInt32 → List (List UInt32)
  | [] => []
  | w :: r => (w :: r.take 15) :: blocks (r.drop 15)
termination_by ws => ws.length
decreasing_by simp only [List.length_drop, List.length_cons]; omega

end Sha256

def sha256 (message : List UInt8) : List UInt8 :=
  ((Sha256.blocks (Sha256.wordsOfBytes (Sha256.padded message))).foldl Sha256.State.absorb
    Sha256.initial).words.flatMap Sha256.bytesOfWord

namespace Hmac

/-- The key as one block: hashed first when it is longer, then filled up with zeros. -/
def block (key : List UInt8) : List UInt8 :=
  let k := if key.length ≤ 64 then key else sha256 key
  k ++ List.replicate (64 - k.length) 0

end Hmac

def hmac (key message : List UInt8) : List UInt8 :=
  let k := Hmac.block key
  sha256 (k.map (· ^^^ 0x5C) ++ sha256 (k.map (· ^^^ 0x36) ++ message))

end PeerRoster
