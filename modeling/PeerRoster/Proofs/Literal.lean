import PeerRoster.Proofs.Layout
import PeerRoster.Proofs.Utf8

/-! A string literal is read as what it stands for, in whatever way it is written: its text has
constituents that are put together to the bytes of its characters, or fail where the literal does.
-/
namespace PeerRoster

namespace Numeral

/-- The byte of a decimal or hexadecimal digit. -/
def digitByte (d : ℕ) : UInt8 := UInt8.ofNat (Nat.digitChar d).toNat

theorem encode_digits {ds : List ℕ} (h : ∀ d ∈ ds, d < 16) :
    Utf8.encode (ds.map Nat.digitChar) = ds.map digitByte := by
  have hd : ∀ d < 16, (Nat.digitChar d).toNat < 0x80 := by decide
  induction ds with
  | nil => rfl
  | cons d ds ih =>
    obtain ⟨hlt, hds⟩ := List.forall_mem_cons.mp h
    rw [List.map_cons, Utf8.encode_cons, Utf8.utf8EncodeChar_ascii (hd d hlt), ih hds]
    rfl

end Numeral

namespace Json

/-- A byte that stands for itself in a string literal. -/
def IsPlain (b : UInt8) : Prop := b ≠ 0x22 ∧ ¬ b < 0x20 ∧ b ≠ 0x5C

theorem pieces?_quote (r : List UInt8) : pieces? (0x22 :: r) = some ([], r) := by
  rw [pieces?.eq_def]
  rfl

theorem pieces?_plain {b : UInt8} (h : IsPlain b) (r : List UInt8) :
    pieces? (b :: r) = (pieces? r).map fun q => (.byte b :: q.1, q.2) := by
  obtain ⟨hq, hc, he⟩ := h
  rw [pieces?.eq_def]
  simp only [if_neg hq, if_neg hc, if_neg he]

theorem pieces?_short {e b : UInt8} (he : e ≠ 0x75) (h : shortEscape? e = some b)
    (r : List UInt8) :
    pieces? (0x5C :: e :: r) = (pieces? r).map fun q => (.byte b :: q.1, q.2) := by
  have hb : ¬ (0x5C : UInt8) = 0x22 ∧ ¬ (0x5C : UInt8) < 0x20 := by decide
  rw [pieces?.eq_def]
  simp only [if_neg hb.1, if_neg hb.2, if_neg he, if_true, h, Option.bind_some]

theorem pieces?_unit {h₁ h₂ h₃ h₄ : UInt8} {p : Piece} (h : unit? [h₁, h₂, h₃, h₄] = some p)
    (r : List UInt8) :
    pieces? (0x5C :: 0x75 :: h₁ :: h₂ :: h₃ :: h₄ :: r) =
      (pieces? r).map fun q => (p :: q.1, q.2) := by
  have hb : ¬ (0x5C : UInt8) = 0x22 ∧ ¬ (0x5C : UInt8) < 0x20 := by decide
  rw [pieces?.eq_def]
  simp only [if_neg hb.1, if_neg hb.2, if_true, h, Option.bind_some]

theorem isPlain_of_mem {c : Char} (hc : 0x20 ≤ c.toNat) (hquote : c ≠ '"') (hslash : c ≠ '\\')
    {b : UInt8} (hb : b ∈ String.utf8EncodeChar c) : IsPlain b := by
  have hq : c.toNat ≠ 0x22 := fun h => hquote (Char.toNat_inj.mp h)
  have hs : c.toNat ≠ 0x5C := fun h => hslash (Char.toNat_inj.mp h)
  have hn := Utf8.toNat_of_mem_utf8EncodeChar hb
  simp only [IsPlain, ne_eq, ← UInt8.toNat_inj, UInt8.lt_iff_toNat_lt, UInt8.reduceToNat]
  omega

/-- The constituents that some bytes of a literal are read as, wherever in the literal they are. -/
def Yields (text : List UInt8) (ps : List Piece) : Prop :=
  ∀ r, pieces? (text ++ r) = (pieces? r).map fun q => (ps ++ q.1, q.2)

namespace Yields

theorem nil : Yields [] [] := by
  intro r
  rw [List.nil_append]
  exact Option.map_id'.symm

theorem append {t u : List UInt8} {ps qs : List Piece} (h : Yields t ps) (k : Yields u qs) :
    Yields (t ++ u) (ps ++ qs) := by
  intro r
  rw [List.append_assoc, h, k, Option.map_map]
  simp only [Function.comp_def, List.append_assoc]

theorem bytes {bs : List UInt8} (h : ∀ b ∈ bs, IsPlain b) : Yields bs (bs.map .byte) := by
  induction bs with
  | nil => exact nil
  | cons b bs ih =>
    obtain ⟨hb, hbs⟩ := List.forall_mem_cons.mp h
    have hone : Yields [b] [.byte b] := pieces?_plain hb
    exact hone.append (ih hbs)

end Yields

theorem yields_of_spellsChar {text : List Char} {c : Char} (h : SpellsChar text c) :
    Yields (Utf8.encode text) ((String.utf8EncodeChar c).map .byte) := by
  cases h with
  | plain hc hquote hslash =>
    rw [Utf8.encode_cons, Utf8.encode_nil, List.append_nil]
    exact .bytes fun b hb => isPlain_of_mem hc hquote hslash hb
  | @short e c h =>
    simp only [shortEscapes, List.mem_cons, Prod.mk.injEq, List.not_mem_nil, or_false] at h
    rcases h with ⟨rfl, rfl⟩ | ⟨rfl, rfl⟩ | ⟨rfl, rfl⟩ | ⟨rfl, rfl⟩ | ⟨rfl, rfl⟩ | ⟨rfl, rfl⟩ |
      ⟨rfl, rfl⟩ | ⟨rfl, rfl⟩
    all_goals exact pieces?_short (by decide) rfl

theorem ascii_of_hexDigit? {c : Char} {d : ℕ} (h : Numeral.hexDigit? c = some d) :
    c.toNat < 0x80 := by
  have hle : ∀ {a : Char}, c ≤ a → c.toNat ≤ a.toNat := fun h => h
  unfold Numeral.hexDigit? at h
  split at h
  next hc => exact Nat.lt_of_le_of_lt (hle hc.2) (by decide)
  split at h
  next hc => exact Nat.lt_of_le_of_lt (hle hc.2) (by decide)
  split at h
  next hc => exact Nat.lt_of_le_of_lt (hle hc.2) (by decide)
  next => contradiction

theorem mapM_hexDigit?_encode {hs : List Char} {ds : List ℕ}
    (h : hs.mapM Numeral.hexDigit? = some ds) :
    Utf8.encode hs = hs.map (fun c => UInt8.ofNat c.toNat) ∧
      (hs.map fun c => UInt8.ofNat c.toNat).mapM
        (fun b => Numeral.hexDigit? (Char.ofNat b.toNat)) = some ds := by
  induction hs generalizing ds with
  | nil => exact ⟨rfl, h⟩
  | cons c hs ih =>
    simp only [List.mapM_cons, Option.bind_eq_bind, Option.bind_eq_some_iff] at h
    obtain ⟨d, hd, es, hes, hds⟩ := h
    obtain ⟨hencode, hmap⟩ := ih hes
    have hc := ascii_of_hexDigit? hd
    have hb : Char.ofNat (UInt8.ofNat c.toNat).toNat = c := by
      rw [Utf8.toNat_ofNat (by omega), Char.ofNat_toNat]
    constructor
    · rw [Utf8.encode_cons, Utf8.utf8EncodeChar_ascii hc, hencode]
      rfl
    · rw [List.map_cons, List.mapM_cons, hb, hd, hmap]
      exact hds

theorem yields_of_spellsUnit {text : List Char} {n : ℕ} (h : SpellsUnit text n) :
    Yields (Utf8.encode text) [.unit n] := by
  obtain ⟨h₁, h₂, h₃, h₄, ds, rfl, hds, rfl⟩ := h
  obtain ⟨hencode, hmap⟩ := mapM_hexDigit?_encode hds
  have hunit : unit? ([h₁, h₂, h₃, h₄].map fun c => UInt8.ofNat c.toNat) =
      some (.unit (Numeral.value 16 ds)) := by
    rw [unit?, hmap, Option.map_some]
  rw [Utf8.encode_cons, Utf8.encode_cons, hencode]
  exact pieces?_unit hunit

theorem assemble_bytes (bs : List UInt8) (ps : List Piece) :
    assemble (bs.map .byte ++ ps) = (assemble ps).map (bs ++ ·) := by
  induction bs with
  | nil => cases h : assemble ps <;> simp [h, Except.map]
  | cons b bs ih =>
    rw [List.map_cons, List.cons_append, assemble, ih]
    cases assemble ps <;> rfl

theorem assemble_unit (c : Char) (ps : List Piece) :
    assemble (.unit c.toNat :: ps) = (assemble ps).map (String.utf8EncodeChar c ++ ·) := by
  have hc : c.toNat < 0xD800 ∨ 0xDFFF < c.toNat ∧ c.toNat < 0x110000 := c.valid
  rw [assemble.eq_def]
  simp only [if_pos (show c.toNat < 0xD800 ∨ 0xE000 ≤ c.toNat by omega), Char.ofNat_toNat]

section

variable {m n : ℕ} {ps : List Piece}

theorem assemble_low (h : IsLowSurrogate n) : assemble (.unit n :: ps) = .error .inside := by
  obtain ⟨hlo, hhi⟩ := h
  rw [assemble.eq_def]
  simp only [if_neg (show ¬ (n < 0xD800 ∨ 0xE000 ≤ n) by omega), if_pos hlo]

theorem assemble_high (h : IsHighSurrogate m) :
    assemble (.unit m :: ps) = match ps with
      | [] => .error .after
      | .byte _ :: _ => .error .inside
      | .unit n :: ps =>
        if 0xDC00 ≤ n ∧ n < 0xE000 then
          (assemble ps).map (String.utf8EncodeChar (Char.ofNat (paired m n)) ++ ·)
        else .error .inside := by
  obtain ⟨hlo, hhi⟩ := h
  have hsurrogate : ¬ (m < 0xD800 ∨ 0xE000 ≤ m) := by omega
  have hlow : ¬ 0xDC00 ≤ m := by omega
  rcases ps with _ | ⟨_ | _, _⟩ <;>
    rw [assemble.eq_def] <;> simp only [if_neg hsurrogate, if_neg hlow]

theorem assemble_pair (hm : IsHighSurrogate m) (hn : IsLowSurrogate n) :
    assemble (.unit m :: .unit n :: ps) =
      (assemble ps).map (String.utf8EncodeChar (Char.ofNat (paired m n)) ++ ·) := by
  rw [assemble_high hm]
  exact if_pos hn

end

/-- The bytes of a literal, or where it fails. -/
def Literal.encoded : Literal → Except Defect (List UInt8)
  | .text s => .ok (Utf8.bytes s)
  | .broken d => .error d

theorem Literal.encoded_cons (c : Char) (l : Literal) :
    (l.cons c).encoded = l.encoded.map (String.utf8EncodeChar c ++ ·) := by
  cases l with
  | text s =>
    rw [cons, encoded, Utf8.bytes, String.toList_ofList]
    rfl
  | broken d => rfl

/-- What stands between the quotes is read as constituents that are put together to the literal. -/
theorem exists_yields {text : List Char} {l : Literal} (h : l.Spells text) :
    ∃ ps, Yields (Utf8.encode text) ps ∧ assemble ps = l.encoded := by
  induction h with
  | nil => exact ⟨[], .nil, rfl⟩
  | @char u text c l hu _ ih =>
    obtain ⟨ps, hps, ha⟩ := ih
    rw [Utf8.encode_append, Literal.encoded_cons, ← ha]
    exact ⟨_, (yields_of_spellsChar hu).append hps, assemble_bytes _ ps⟩
  | @unit u text c l hu _ ih =>
    obtain ⟨ps, hps, ha⟩ := ih
    rw [Utf8.encode_append, Literal.encoded_cons, ← ha]
    exact ⟨_, (yields_of_spellsUnit hu).append hps, assemble_unit c ps⟩
  | @pair u v text m n c l hu hm hv hn hc _ ih =>
    obtain ⟨ps, hps, ha⟩ := ih
    have hpaired : paired m n = c.toNat := hc.symm
    have hpair : assemble (.unit m :: .unit n :: ps) = _ := assemble_pair hm hn
    rw [hpaired, Char.ofNat_toNat] at hpair
    rw [Utf8.encode_append, Utf8.encode_append, Literal.encoded_cons, ← ha]
    exact ⟨_, (yields_of_spellsUnit hu).append ((yields_of_spellsUnit hv).append hps), hpair⟩
  | @low u text n l hu hn _ ih =>
    obtain ⟨ps, hps, -⟩ := ih
    rw [Utf8.encode_append]
    exact ⟨_, (yields_of_spellsUnit hu).append hps, assemble_low hn⟩
  | high hu hm => exact ⟨_, yields_of_spellsUnit hu, assemble_high hm⟩
  | @highChar u v text m c l hu hm hv _ ih =>
    obtain ⟨ps, hps, -⟩ := ih
    obtain ⟨b, bs, hb⟩ := List.exists_cons_of_ne_nil (String.utf8EncodeChar_ne_nil (c := c))
    have hv := yields_of_spellsChar hv
    rw [hb] at hv
    rw [Utf8.encode_append, Utf8.encode_append]
    exact ⟨_, (yields_of_spellsUnit hu).append (hv.append hps), assemble_high hm⟩
  | @highUnit u v text m n l hu hm hv hn _ ih =>
    obtain ⟨ps, hps, -⟩ := ih
    rw [Utf8.encode_append, Utf8.encode_append]
    exact ⟨_, (yields_of_spellsUnit hu).append ((yields_of_spellsUnit hv).append hps),
      (assemble_high hm).trans (if_neg hn)⟩

theorem literal_of_assemble {ps : List Piece} {l : Literal} (h : assemble ps = l.encoded) :
    literal ps = l := by
  rw [literal, h]
  cases l with
  | text s => simp [Literal.encoded, Utf8.text?_bytes]
  | broken d => rfl

theorem string?_of_spells {text : List Char} {l : Literal} (h : l.Spells text) (rest : List UInt8) :
    string? (Utf8.encode text ++ 0x22 :: rest) = some (.value (.str l), rest) := by
  obtain ⟨ps, hps, ha⟩ := exists_yields h
  rw [string?, hps, pieces?_quote]
  simp [literal_of_assemble ha]

end Json
end PeerRoster
