import Mathlib.Data.Nat.Notation
import Mathlib.Logic.Function.Basic
import PeerRoster.Proofs.Outcome
import PeerRoster.Text.Encoding

/-! Codes that are read back. Where the word of a symbol is the beginning of no other word, a list
of symbols is read symbol by symbol, whatever follows it. UTF-8 reads each character by the one to
four bytes that it is written as, and hence every text. -/
namespace PeerRoster

/-- Words are not empty, and of two texts that begin alike the first symbols are the same. -/
structure PrefixCode {α β : Type} (word : α → List β) : Prop where
  ne_nil : ∀ a, word a ≠ []
  eq_of_append : ∀ {a b : α} {u v : List β}, word a ++ u = word b ++ v → a = b

namespace PrefixCode

variable {α β : Type} {word : α → List β}

theorem of_reader {read : List β → Option α} (hnil : read [] = none)
    (hread : ∀ a r, read (word a ++ r) = some a) : PrefixCode word where
  ne_nil a h := by
    have ha := hread a []
    rw [h, List.nil_append, hnil] at ha
    contradiction
  eq_of_append {a b u v} h := by
    have ha := hread a u
    rw [h, hread] at ha
    exact (Option.some.inj ha).symm

theorem flatMap_eq_nil_iff (hw : PrefixCode word) (as : List α) :
    as.flatMap word = [] ↔ as = [] := by
  cases as with
  | nil => simp
  | cons a as => simp [hw.ne_nil]

/-- A written list that begins with the words of some symbols begins with these symbols. -/
theorem exists_append (hw : PrefixCode word) {as bs : List α} {v : List β}
    (h : as.flatMap word ++ v = bs.flatMap word) : ∃ cs, bs = as ++ cs ∧ cs.flatMap word = v := by
  induction as generalizing bs with
  | nil => exact ⟨bs, rfl, h.symm⟩
  | cons a as ih =>
    cases bs with
    | nil => simp [hw.ne_nil] at h
    | cons b bs =>
      rw [List.flatMap_cons, List.flatMap_cons, List.append_assoc] at h
      obtain rfl := hw.eq_of_append h
      obtain ⟨cs, rfl, hcs⟩ := ih (List.append_cancel_left h)
      exact ⟨cs, rfl, hcs⟩

theorem flatMap_injective (hw : PrefixCode word) : Function.Injective (List.flatMap word) := by
  intro as bs h
  have hnil : as.flatMap word ++ [] = bs.flatMap word := (List.append_nil _).trans h
  obtain ⟨cs, rfl, hcs⟩ := hw.exists_append hnil
  rw [(hw.flatMap_eq_nil_iff cs).mp hcs, List.append_nil]

end PrefixCode

namespace Utf8

theorem toNat_ofNat {m : ℕ} (h : m < 256) : (UInt8.ofNat m).toNat = m := by
  rw [UInt8.toNat_ofNat']
  omega

theorem utf8EncodeChar_ascii {c : Char} (h : c.toNat < 0x80) :
    String.utf8EncodeChar c = [UInt8.ofNat c.toNat] := by
  rw [String.utf8EncodeChar, Char.toNat_val]
  exact if_pos (by omega)

theorem high_of_mem_utf8EncodeChar {c : Char} (hc : 0x80 ≤ c.toNat) :
    ∀ b ∈ String.utf8EncodeChar c, 0x80 ≤ b.toNat := by
  unfold String.utf8EncodeChar
  rw [Char.toNat_val]
  simp only [show ¬ c.toNat ≤ 127 by omega, if_false]
  split
  · simp only [List.forall_mem_cons, UInt8.toNat_ofNat']
    exact ⟨by omega, by omega, by simp⟩
  split
  · simp only [List.forall_mem_cons, UInt8.toNat_ofNat']
    exact ⟨by omega, by omega, by omega, by simp⟩
  · simp only [List.forall_mem_cons, UInt8.toNat_ofNat']
    exact ⟨by omega, by omega, by omega, by omega, by simp⟩

theorem toNat_of_mem_utf8EncodeChar {c : Char} {b : UInt8} (h : b ∈ String.utf8EncodeChar c) :
    b.toNat = c.toNat ∨ 0x80 ≤ b.toNat := by
  by_cases hc : c.toNat < 0x80
  · rw [utf8EncodeChar_ascii hc, List.mem_singleton] at h
    rw [h, toNat_ofNat (by omega)]
    exact .inl rfl
  · exact .inr (high_of_mem_utf8EncodeChar (by omega) b h)

theorem ascii_notMem_utf8EncodeChar {c d : Char} (hc : c.toNat < 0x80) (h : c ≠ d) :
    UInt8.ofNat c.toNat ∉ String.utf8EncodeChar d := by
  intro hb
  have hn := toNat_of_mem_utf8EncodeChar hb
  rw [toNat_ofNat (by omega)] at hn
  exact h (Char.toNat_inj.mp (by omega))

theorem ascii_notMem_encode {c : Char} (hc : c.toNat < 0x80) {cs : List Char} (h : c ∉ cs) :
    UInt8.ofNat c.toNat ∉ encode cs := by
  intro hb
  obtain ⟨d, hd, hb⟩ := List.mem_flatMap.mp hb
  have hcd : c ≠ d := fun he => h (he ▸ hd)
  exact ascii_notMem_utf8EncodeChar hc hcd hb

theorem isEmpty_encode (cs : List Char) : (encode cs).isEmpty = cs.isEmpty := by
  cases cs <;> simp [String.utf8EncodeChar_ne_nil]

theorem continuation_ofNat {n v m : ℕ} {lo hi : UInt8} (hlo : lo.toNat ≤ m) (hhi : m ≤ hi.toNat)
    (r : List UInt8) :
    continuation (n + 1) v lo hi (UInt8.ofNat m :: r) =
      continuation n (v * 64 + (m - 0x80)) 0x80 0xBF r := by
  have hm := toNat_ofNat (Nat.lt_of_le_of_lt hhi hi.toNat_lt)
  rw [continuation, if_pos, hm]
  exact ⟨UInt8.le_iff_toNat_le.mpr (by rwa [hm]), UInt8.le_iff_toNat_le.mpr (by rwa [hm])⟩

theorem next_one {m : ℕ} (h : m < 0x80) (r : List UInt8) :
    next (UInt8.ofNat m) r = (some (Char.ofNat m), r) := by
  have hm := toNat_ofNat (m := m) (by omega)
  have hlt : UInt8.ofNat m < 0x80 := UInt8.lt_iff_toNat_lt.mpr (by rwa [hm])
  rw [next, if_pos hlt, hm]

theorem next_two {m : ℕ} (hlo : 0xC2 ≤ m) (hhi : m < 0xE0) (r : List UInt8) :
    next (UInt8.ofNat m) r = continuation 1 (m - 0xC0) 0x80 0xBF r := by
  have hm := toNat_ofNat (m := m) (by omega)
  simp only [next, UInt8.lt_iff_toNat_lt, hm, UInt8.reduceToNat]
  rw [if_neg (by omega), if_neg (by omega), if_pos (by omega)]

theorem next_three {m : ℕ} (hlo : 0xE0 ≤ m) (hhi : m < 0xF0) (r : List UInt8) :
    next (UInt8.ofNat m) r = continuation 2 (m - 0xE0) (if m = 0xE0 then 0xA0 else 0x80)
      (if m = 0xED then 0x9F else 0xBF) r := by
  have hm := toNat_ofNat (m := m) (by omega)
  simp only [next, UInt8.lt_iff_toNat_lt, ← UInt8.toNat_inj, hm, UInt8.reduceToNat]
  rw [if_neg (by omega), if_neg (by omega), if_neg (by omega), if_pos (by omega)]

theorem next_four {m : ℕ} (hlo : 0xF0 ≤ m) (hhi : m < 0xF5) (r : List UInt8) :
    next (UInt8.ofNat m) r = continuation 3 (m - 0xF0) (if m = 0xF0 then 0x90 else 0x80)
      (if m = 0xF4 then 0x8F else 0xBF) r := by
  have hm := toNat_ofNat (m := m) (by omega)
  simp only [next, UInt8.lt_iff_toNat_lt, ← UInt8.toNat_inj, hm, UInt8.reduceToNat]
  rw [if_neg (by omega), if_neg (by omega), if_neg (by omega), if_neg (by omega),
    if_pos (by omega)]

theorem next_of_eleven_bits {v : ℕ} (hlo : 0x80 ≤ v) (hhi : v ≤ 0x7FF) (r : List UInt8) :
    next (UInt8.ofNat (v / 64 % 32 + 192)) (UInt8.ofNat (v % 64 + 128) :: r) =
      (some (Char.ofNat v), r) := by
  have hv : (v / 64 % 32 + 192 - 0xC0) * 64 + (v % 64 + 128 - 0x80) = v := by omega
  rw [next_two (by omega) (by omega),
    continuation_ofNat (by simp) (by simp only [UInt8.reduceToNat]; omega), hv, continuation]

theorem next_of_sixteen_bits {v : ℕ} (hlo : 0x800 ≤ v) (hhi : v ≤ 0xFFFF)
    (hs : v < 0xD800 ∨ 0xDFFF < v) (r : List UInt8) :
    next (UInt8.ofNat (v / 4096 % 16 + 224))
      (UInt8.ofNat (v / 64 % 64 + 128) :: UInt8.ofNat (v % 64 + 128) :: r) =
      (some (Char.ofNat v), r) := by
  have hv : ((v / 4096 % 16 + 224 - 0xE0) * 64 + (v / 64 % 64 + 128 - 0x80)) * 64 +
      (v % 64 + 128 - 0x80) = v := by omega
  rw [next_three (by omega) (by omega), continuation_ofNat, continuation_ofNat, hv, continuation]
  · simp
  · simp only [UInt8.reduceToNat]; omega
  · split <;> simp only [UInt8.reduceToNat] <;> omega
  · split <;> simp only [UInt8.reduceToNat] <;> omega

theorem next_of_many_bits {v : ℕ} (hlo : 0x10000 ≤ v) (hhi : v < 0x110000) (r : List UInt8) :
    next (UInt8.ofNat (v / 262144 % 8 + 240)) (UInt8.ofNat (v / 4096 % 64 + 128) ::
      UInt8.ofNat (v / 64 % 64 + 128) :: UInt8.ofNat (v % 64 + 128) :: r) =
      (some (Char.ofNat v), r) := by
  have hv : (((v / 262144 % 8 + 240 - 0xF0) * 64 + (v / 4096 % 64 + 128 - 0x80)) * 64 +
      (v / 64 % 64 + 128 - 0x80)) * 64 + (v % 64 + 128 - 0x80) = v := by omega
  rw [next_four (by omega) (by omega), continuation_ofNat, continuation_ofNat, continuation_ofNat,
    hv, continuation]
  · simp
  · simp only [UInt8.reduceToNat]; omega
  · simp
  · simp only [UInt8.reduceToNat]; omega
  · split <;> simp only [UInt8.reduceToNat] <;> omega
  · split <;> simp only [UInt8.reduceToNat] <;> omega

theorem symbols_utf8EncodeChar (c : Char) (r : List UInt8) :
    symbols (String.utf8EncodeChar c ++ r) = some c :: symbols r := by
  have hc : c.toNat < 0xD800 ∨ 0xDFFF < c.toNat ∧ c.toNat < 0x110000 := c.valid
  have hread : ∀ {b : UInt8} {bs : List UInt8}, next b bs = (some (Char.ofNat c.toNat), r) →
      symbols (b :: bs) = some c :: symbols r := by
    intro b bs h
    rw [symbols, h, Char.ofNat_toNat]
  unfold String.utf8EncodeChar
  rw [← Char.toNat_val] at *
  dsimp only
  split
  · exact hread (next_one (by omega) r)
  split
  · exact hread (next_of_eleven_bits (by omega) (by omega) r)
  split
  · exact hread (next_of_sixteen_bits (by omega) (by omega) (by omega) r)
  · exact hread (next_of_many_bits (by omega) (by omega) r)

theorem symbols_encode (cs : List Char) : symbols (encode cs) = cs.map some := by
  induction cs with
  | nil => simp [symbols]
  | cons c cs ih => rw [encode_cons, symbols_utf8EncodeChar, ih, List.map_cons]

theorem decode?_encode (cs : List Char) : decode? (encode cs) = some cs := by
  rw [decode?, symbols_encode]
  exact mapM_map_eq_some fun _ _ => rfl

theorem text?_bytes (s : String) : text? (bytes s) = some s := by
  rw [text?, bytes, decode?_encode, Option.map_some, String.ofList_toList]

end Utf8

end PeerRoster
