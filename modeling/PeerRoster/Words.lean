/-! Machine numbers: integers as words, where conversion refuses what does not fit and addition
stops at the largest word, and natural numbers as binary64 numbers, which keep 53 leading bits. -/
namespace PeerRoster

namespace Words

def int64? (n : Int) : Option Int64 :=
  if -0x8000000000000000 ≤ n ∧ n ≤ 0x7FFFFFFFFFFFFFFF then some (Int64.ofInt n) else none

def uint64? (n : Int) : Option UInt64 :=
  if 0 ≤ n ∧ n ≤ 0xFFFFFFFFFFFFFFFF then some (UInt64.ofNat n.toNat) else none

def uint16? (n : Int) : Option UInt16 :=
  if 0 ≤ n ∧ n ≤ 0xFFFF then some (UInt16.ofNat n.toNat) else none

/-- The word nearest to a natural number. -/
def saturate (n : Nat) : UInt64 := UInt64.ofNat (min n 0xFFFFFFFFFFFFFFFF)

@[simp] theorem toNat_saturate (n : Nat) : (saturate n).toNat = min n 0xFFFFFFFFFFFFFFFF := by
  simp only [saturate, UInt64.toNat_ofNat']
  omega

def addSat (a b : UInt64) : UInt64 := saturate (a.toNat + b.toNat)

@[simp] theorem toNat_addSat (a b : UInt64) :
    (addSat a b).toNat = min (a.toNat + b.toNat) 0xFFFFFFFFFFFFFFFF := toNat_saturate _

/-- No word is larger than a sum that is cut short, so the comparison is that of the exact sum. -/
theorem addSat_lt_iff (a b c : UInt64) : addSat a b < c ↔ a.toNat + b.toNat < c.toNat := by
  have := c.toNat_lt
  rw [UInt64.lt_iff_toNat_lt, toNat_addSat]
  omega

@[simp] theorem int64?_toInt (n : Int64) : int64? n.toInt = some n := by
  have := n.le_toInt
  have := n.toInt_lt
  simp only [int64?, Int64.ofInt_toInt]
  grind

@[simp] theorem uint64?_toNat (n : UInt64) : uint64? n.toNat = some n := by
  have := n.toNat_lt
  simp only [uint64?, Int.toNat_natCast, UInt64.ofNat_toNat]
  grind

@[simp] theorem uint16?_toNat (n : UInt16) : uint16? n.toNat = some n := by
  have := n.toNat_lt
  simp only [uint16?, Int.toNat_natCast, UInt16.ofNat_toNat]
  grind

theorem uint64?_eq_some_iff (z : Int) (n : UInt64) : uint64? z = some n ↔ z = n.toNat := by
  constructor
  · intro h
    rw [uint64?] at h
    split at h
    next hz =>
      obtain rfl := Option.some.inj h
      rw [UInt64.toNat_ofNat', Nat.mod_eq_of_lt (by omega), Int.toNat_of_nonneg hz.1]
    next => cases h
  · rintro rfl
    exact uint64?_toNat n

theorem uint16?_eq_some_iff (z : Int) (n : UInt16) : uint16? z = some n ↔ z = n.toNat := by
  constructor
  · intro h
    rw [uint16?] at h
    split at h
    next hz =>
      obtain rfl := Option.some.inj h
      rw [UInt16.toNat_ofNat', Nat.mod_eq_of_lt (by omega), Int.toNat_of_nonneg hz.1]
    next => cases h
  · rintro rfl
    exact uint16?_toNat n

end Words

namespace Binary64

/-- The distance between neighbouring numbers of 53 bits where `n` lies. -/
def unit (n : Nat) : Nat := 1 <<< (n.log2 - 52)

/-- The nearest number of 53 bits; halfway between two, the one with an even last bit. -/
def round (n : Nat) : Nat :=
  let u := unit n
  let q := n / u
  if u < 2 * (n % u) ∨ u = 2 * (n % u) ∧ q % 2 = 1 then (q + 1) * u else q * u

/-- Halfway between the largest number in range and the power of two above it. -/
def limit : Nat := (1 <<< 1024) - (1 <<< 970)

/-- Whether `m` times the `e`-th power of ten is out of range, if both factors are rounded before
they are multiplied. A power beyond the 308th is out of range itself. -/
def overflows (m e : Nat) : Bool :=
  m != 0 && (308 < e || limit ≤ round m * round (Nat.pow 10 e))

end Binary64

end PeerRoster
