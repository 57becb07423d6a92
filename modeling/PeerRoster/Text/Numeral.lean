/-! Natural numbers as digits, most significant first and without leading zeros, and the spelling of
integers in decimal and of code points in hexadecimal. -/
namespace PeerRoster
namespace Numeral

/-- The digits of `n` in base `b`; a base below two leaves the number whole. -/
def digits (b n : Nat) : List Nat :=
  if n < b ∨ b < 2 then [n] else digits b (n / b) ++ [n % b]
termination_by n
decreasing_by exact Nat.div_lt_self (by omega) (by omega)

/-- The number that digits in base `b` stand for. -/
def value (b : Nat) (ds : List Nat) : Nat := ds.foldl (fun v d => v * b + d) 0

@[simp] theorem value_digits (b n : Nat) : value b (digits b n) = n := by
  fun_induction digits b n with
  | case1 n h => simp [value]
  | case2 n h ih =>
    simp only [value, List.foldl_append, List.foldl_cons, List.foldl_nil] at ih ⊢
    rw [ih, Nat.div_add_mod']

theorem digits_ne_nil (b n : Nat) : digits b n ≠ [] := by
  rw [digits]; split <;> simp

theorem lt_of_mem_digits {b n d : Nat} (hb : 2 ≤ b) (h : d ∈ digits b n) : d < b := by
  fun_induction digits b n with
  | case1 n hn => rw [List.mem_singleton.1 h]; omega
  | case2 n hn ih =>
    rcases List.mem_append.1 h with h | h
    · exact ih h
    · rw [List.mem_singleton.1 h]; exact Nat.mod_lt _ (by omega)

theorem digits_head (n : Nat) : ∃ d ds, digits 10 n = d :: ds ∧ (d = 0 → ds = []) := by
  fun_induction digits 10 n with
  | case1 n h => exact ⟨n, [], rfl, fun _ => rfl⟩
  | case2 n h ih =>
    obtain ⟨d, ds, hd, hz⟩ := ih
    refine ⟨d, ds ++ [n % 10], by rw [hd, List.cons_append], fun h0 => ?_⟩
    have hv := value_digits 10 (n / 10)
    rw [hd, h0, hz h0] at hv
    simp only [value, List.foldl_cons, List.foldl_nil] at hv
    omega

/-- The value of an ASCII decimal digit. -/
def digit? (c : Char) : Option Nat :=
  if '0' ≤ c ∧ c ≤ '9' then some (c.toNat - 48) else none

/-- The value of an ASCII hexadecimal digit of either case. -/
def hexDigit? (c : Char) : Option Nat :=
  if '0' ≤ c ∧ c ≤ '9' then some (c.toNat - 48)
  else if 'a' ≤ c ∧ c ≤ 'f' then some (c.toNat - 87)
  else if 'A' ≤ c ∧ c ≤ 'F' then some (c.toNat - 55)
  else none

theorem hexDigit?_digitChar {d : Nat} (h : d < 16) : hexDigit? (Nat.digitChar d) = some d := by
  have hall : ∀ d < 16, hexDigit? (Nat.digitChar d) = some d := by decide
  exact hall d h

def decimal (n : Nat) : List Char := (digits 10 n).map Nat.digitChar

def hexadecimal (n : Nat) : List Char := (digits 16 n).map Nat.digitChar

def decimalInt : Int → List Char
  | .ofNat n => decimal n
  | .negSucc n => '-' :: decimal (n + 1)

/-- Reads one or more ASCII digits and nothing else. -/
def natural? (cs : List Char) : Option Nat :=
  if cs.isEmpty then none else (cs.mapM digit?).map (value 10)

/-- Reads a natural number with at most one sign in front. -/
def signed? : List Char → Option Int
  | '+' :: r => (natural? r).map Int.ofNat
  | '-' :: r => (natural? r).map fun n => -Int.ofNat n
  | cs => (natural? cs).map Int.ofNat

end Numeral
end PeerRoster
