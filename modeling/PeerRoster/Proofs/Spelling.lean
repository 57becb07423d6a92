import PeerRoster.Listing.Form
import PeerRoster.Proofs.Utf8

/-! How a text may be spelled in a query string, and that it is read back from every spelling: most
characters may stand for themselves, a plus stands for a space, and a percent sign with two digits
for any byte. -/
namespace PeerRoster

namespace Numeral

/-- The hexadecimal digit of a number below 16, in either case. -/
def IsHexDigit (n : ℕ) (c : Char) : Prop := c = Nat.digitChar n ∨ c = (Nat.digitChar n).toUpper

end Numeral

namespace Percent

/-- Letters and digits as they are, every other byte by percent sign. -/
def encode (bs : List UInt8) : List Char := bs.flatMap fun b =>
  if (Char.ofNat b.toNat).isAlphanum then [Char.ofNat b.toNat]
  else ['%', (Nat.digitChar (b.toNat / 16)).toUpper, (Nat.digitChar (b.toNat % 16)).toUpper]

theorem decode_plain (reserved : UInt8 → Bool) {b : UInt8} (h : b ≠ 0x25) (r : List UInt8) :
    decode reserved (b :: r) = b :: decode reserved r := by
  rw [decode.eq_def]
  exact if_neg h

theorem decode_percent {h l x : UInt8} (hx : byte? h l = some x) (r : List UInt8) :
    decode (fun _ => false) (0x25 :: h :: l :: r) = x :: decode (fun _ => false) r := by
  rw [decode.eq_def]
  simp [hx]

theorem decode_append (reserved : UInt8 → Bool) {bs : List UInt8} (h : ∀ b ∈ bs, b ≠ 0x25)
    (r : List UInt8) : decode reserved (bs ++ r) = bs ++ decode reserved r := by
  induction bs with
  | nil => rfl
  | cons b bs ih =>
    obtain ⟨hb, hbs⟩ := List.forall_mem_cons.mp h
    rw [List.cons_append, decode_plain reserved hb, ih hbs, List.cons_append]

end Percent

namespace QueryString

open Numeral (IsHexDigit)

/-- The signs that do not stand for themselves in a name or a value. -/
def signs : List Char := ['%', '+', '&', '=']

/-- Whether every character of a text stands for itself. -/
def Signless (cs : List Char) : Prop := ∀ c ∈ cs, c ∉ signs

instance (cs : List Char) : Decidable (Signless cs) := List.decidableBAll _ cs

/-- What characters of a name or a value stand for, as bytes. -/
inductive Spells : List Char → List UInt8 → Prop
  | nil : Spells [] []
  | plain {c : Char} {cs : List Char} {bs : List UInt8} :
      c ∉ signs → Spells cs bs → Spells (c :: cs) (String.utf8EncodeChar c ++ bs)
  | plus {cs : List Char} {bs : List UInt8} : Spells cs bs → Spells ('+' :: cs) (0x20 :: bs)
  | percent {b : UInt8} {h l : Char} {cs : List Char} {bs : List UInt8} :
      IsHexDigit (b.toNat / 16) h → IsHexDigit (b.toNat % 16) l → Spells cs bs →
      Spells ('%' :: h :: l :: cs) (b :: bs)

theorem signless_toString (n : ℕ) : Signless (toString n).toList := by
  intro c hc hsign
  have hdigits : toString n = String.ofList (Nat.toDigits 10 n) := Nat.repr_eq_ofList_toDigits
  rw [hdigits, String.toList_ofList] at hc
  have hdigit := Nat.isDigit_of_mem_toDigits (by decide) (by decide) hc
  have hall : signs.all fun c => !c.isDigit := by decide
  simpa [hdigit] using List.all_eq_true.mp hall c hsign

theorem exists_digit {n : ℕ} (hn : n < 16) {c : Char} (h : IsHexDigit n c) :
    ∃ x : UInt8, String.utf8EncodeChar c = [x] ∧ plusToSpace x = x ∧
      Percent.hexDigit? x = some n ∧ c ∉ signs := by
  have hall : ∀ n < 16, ([Nat.digitChar n, (Nat.digitChar n).toUpper].all fun c =>
      c.toNat < 0x80 ∧ plusToSpace (UInt8.ofNat c.toNat) = UInt8.ofNat c.toNat ∧
        Percent.hexDigit? (UInt8.ofNat c.toNat) = some n ∧ c ∉ signs) := by decide +kernel
  have hc := List.all_eq_true.mp (hall n hn) c (by simpa [IsHexDigit] using h)
  obtain ⟨hlt, hplus, hdigit, hsigns⟩ := of_decide_eq_true hc
  exact ⟨_, Utf8.utf8EncodeChar_ascii hlt, hplus, hdigit, hsigns⟩

theorem ne_of_mem_utf8EncodeChar {c : Char} (hc : c ∉ signs) {b : UInt8}
    (hb : b ∈ String.utf8EncodeChar c) : b ≠ 0x25 ∧ b ≠ 0x2B := by
  have hne : ∀ sign ∈ signs, sign ≠ c := fun sign hsign he => hc (he ▸ hsign)
  constructor
  · rintro rfl
    exact Utf8.ascii_notMem_utf8EncodeChar (c := '%') (by decide) (hne _ (by decide)) hb
  · rintro rfl
    exact Utf8.ascii_notMem_utf8EncodeChar (c := '+') (by decide) (hne _ (by decide)) hb

theorem map_plusToSpace {bs : List UInt8} (h : ∀ b ∈ bs, b ≠ 0x2B) : bs.map plusToSpace = bs := by
  have hid : ∀ b ∈ bs, plusToSpace b = id b := fun b hb => if_neg (h b hb)
  rw [List.map_congr_left hid, List.map_id]

namespace Spells

variable {cs : List Char} {bs : List UInt8}

theorem decode (h : Spells cs bs) :
    Percent.decode (fun _ => false) ((Utf8.encode cs).map plusToSpace) = bs := by
  induction h with
  | nil => rfl
  | plain hc _ ih =>
    rw [Utf8.encode_cons, List.map_append,
      map_plusToSpace fun b hb => (ne_of_mem_utf8EncodeChar hc hb).2,
      Percent.decode_append _ fun b hb => (ne_of_mem_utf8EncodeChar hc hb).1, ih]
  | plus _ ih =>
    rw [Utf8.encode_cons]
    show Percent.decode _ (0x20 :: (Utf8.encode _).map plusToSpace) = _
    rw [Percent.decode_plain _ (by decide), ih]
  | @percent b h l cs bs hh hl _ ih =>
    have hb := b.toNat_lt
    obtain ⟨x, hx, hxplus, hxdigit, -⟩ := exists_digit (by omega) hh
    obtain ⟨y, hy, hyplus, hydigit, -⟩ := exists_digit (by omega) hl
    have hbyte : Percent.byte? x y = some b := by
      rw [Percent.byte?, hxdigit, hydigit]
      simp only [Nat.div_add_mod', UInt8.ofNat_toNat]
    have htext : (Utf8.encode ('%' :: h :: l :: cs)).map plusToSpace =
        0x25 :: x :: y :: (Utf8.encode cs).map plusToSpace := by
      simp only [Utf8.encode_cons, hx, hy, List.map_append, List.map_cons, List.map_nil, hxplus,
        hyplus]
      rfl
    rw [htext, Percent.decode_percent hbyte, ih]

theorem append {ds : List Char} {es : List UInt8} (h : Spells cs bs) (k : Spells ds es) :
    Spells (cs ++ ds) (bs ++ es) := by
  induction h with
  | nil => exact k
  | plain hc _ ih =>
    rw [List.append_assoc]
    exact .plain hc ih
  | plus _ ih => exact .plus ih
  | percent hh hl _ ih => exact .percent hh hl ih

theorem of_signless (h : Signless cs) : Spells cs (Utf8.encode cs) := by
  induction cs with
  | nil => exact .nil
  | cons c cs ih =>
    obtain ⟨hc, hcs⟩ := List.forall_mem_cons.mp h
    exact .plain hc (ih hcs)

theorem component {s : String} (h : Spells cs (Utf8.bytes s)) :
    QueryString.component (Utf8.encode cs) = s := by
  rw [QueryString.component, h.decode, Utf8.lenientText, Utf8.decodeLenient, Utf8.bytes,
    Utf8.symbols_encode]
  simp [Function.comp_def]

theorem separator_notMem (h : Spells cs bs) : '&' ∉ cs ∧ '=' ∉ cs := by
  have hdigit : ∀ {n c}, n < 16 → IsHexDigit n c → c ≠ '&' ∧ c ≠ '=' := by
    intro n c hn hc
    obtain ⟨x, -, -, -, hsigns⟩ := exists_digit hn hc
    exact ⟨fun h => hsigns (by rw [h]; decide), fun h => hsigns (by rw [h]; decide)⟩
  induction h with
  | nil => simp
  | @plain c cs bs hc _ ih =>
    have hne : c ≠ '&' ∧ c ≠ '=' :=
      ⟨fun h => hc (by rw [h]; decide), fun h => hc (by rw [h]; decide)⟩
    simp [hne.1.symm, hne.2.symm, ih]
  | plus _ ih => simp [ih]
  | @percent b h l cs bs hh hl _ ih =>
    have hb := b.toNat_lt
    have h₁ := hdigit (by omega) hh
    have h₂ := hdigit (by omega) hl
    simp [h₁.1.symm, h₁.2.symm, h₂.1.symm, h₂.2.symm, ih]

theorem plain_of_isAlphanum {b : UInt8} (h : (Char.ofNat b.toNat).isAlphanum) :
    Spells [Char.ofNat b.toNat] [b] := by
  have hall : ∀ n < 256, (Char.ofNat n).isAlphanum →
      String.utf8EncodeChar (Char.ofNat n) = [UInt8.ofNat n] ∧ Char.ofNat n ∉ signs := by
    decide +kernel
  obtain ⟨hbyte, hsigns⟩ := hall b.toNat b.toNat_lt h
  have hplain := plain hsigns nil
  rwa [hbyte, UInt8.ofNat_toNat] at hplain

theorem encode (bs : List UInt8) : Spells (Percent.encode bs) bs := by
  induction bs with
  | nil => exact .nil
  | cons b bs ih =>
    rw [Percent.encode, List.flatMap_cons]
    by_cases h : (Char.ofNat b.toNat).isAlphanum
    · rw [if_pos h]
      exact (plain_of_isAlphanum h).append ih
    · rw [if_neg h]
      exact .percent (.inr rfl) (.inr rfl) ih

end Spells
end QueryString
end PeerRoster
