import Mathlib.Data.Nat.Notation
import PeerRoster.Proofs.Outcome
import PeerRoster.Proofs.Utf8
import PeerRoster.Text.Quoted

/-! A text in quotes shows which text it is: its escapes can be read back, so no two texts look the
same in quotes, and in quotes there are neither control characters nor blanks other than spaces. -/
namespace PeerRoster

/-- The code points with the Unicode property White_Space. -/
def whiteSpace : List ℕ :=
  [0x09, 0x0A, 0x0B, 0x0C, 0x0D, 0x20, 0x85, 0xA0, 0x1680, 0x2000, 0x2001, 0x2002, 0x2003, 0x2004,
    0x2005, 0x2006, 0x2007, 0x2008, 0x2009, 0x200A, 0x2028, 0x2029, 0x202F, 0x205F, 0x3000]

theorem isBlank_iff (c : Char) : isBlank c = true ↔ c.toNat ∈ whiteSpace := by
  simp only [isBlank, whiteSpace, Bool.or_eq_true, Bool.and_eq_true, decide_eq_true_eq, beq_iff_eq,
    List.mem_cons, List.not_mem_nil, or_false]
  omega

/-- The code points of the Unicode category of controls. -/
def IsControl (c : Char) : Prop := c.toNat ≤ 0x1F ∨ 0x7F ≤ c.toNat ∧ c.toNat ≤ 0x9F

/-- Whether a character may stand in a message on one line. -/
def Shown (c : Char) : Prop := ¬ IsControl c ∧ (c.toNat ∈ whiteSpace → c = ' ')

/-- The printable characters of ASCII. -/
def isPrintable (c : Char) : Bool := 0x20 ≤ c.toNat && c.toNat < 0x7F

theorem shown_of_isPrintable {c : Char} (h : isPrintable c = true) : Shown c := by
  simp only [isPrintable, Bool.and_eq_true, decide_eq_true_eq] at h
  constructor
  · rw [IsControl]
    omega
  · intro hspace
    have hcode : c.toNat = ' '.toNat := by
      simp only [whiteSpace, List.mem_cons, List.not_mem_nil, or_false] at hspace
      simp only [Char.reduceToNat]
      omega
    exact Char.toNat_inj.mp hcode

theorem shown_of_all_isPrintable {cs : List Char} (h : cs.all isPrintable = true) :
    ∀ c ∈ cs, Shown c :=
  fun c hc => shown_of_isPrintable (List.all_eq_true.mp h c hc)

namespace Numeral

theorem mapM_hexDigit?_hexadecimal (n : ℕ) :
    (hexadecimal n).mapM hexDigit? = some (digits 16 n) :=
  mapM_map_eq_some fun _ h => hexDigit?_digitChar (lt_of_mem_digits (by decide) h)

theorem of_mem_hexadecimal {p : Char → Prop} (hp : ∀ d < 16, p (Nat.digitChar d)) {n : ℕ} :
    ∀ c ∈ hexadecimal n, p c :=
  List.forall_mem_map.mpr fun d h => hp d (lt_of_mem_digits (by decide) h)

end Numeral

namespace Quoted

/-- The characters with an escape of one letter, by that letter. -/
def shortEscapes : List (Char × Char) :=
  [('0', '\x00'), ('t', '\t'), ('n', '\n'), ('r', '\r'), ('"', '"'), ('\\', '\\')]

/-- The character with which an escaped text begins. -/
def first? : List Char → Option Char
  | [] => none
  | '\\' :: 'u' :: '{' :: r =>
    ((r.takeWhile (· != '}')).mapM Numeral.hexDigit?).map fun ds =>
      Char.ofNat (Numeral.value 16 ds)
  | '\\' :: e :: _ => shortEscapes.lookup e
  | c :: _ => some c

theorem first?_plain {c : Char} (hc : c ≠ '\\') (r : List Char) : first? (c :: r) = some c := by
  rw [first?.eq_def]
  split <;> simp_all

theorem first?_hexadecimal (c : Char) (r : List Char) :
    first? ('\\' :: 'u' :: '{' :: (Numeral.hexadecimal c.toNat ++ '}' :: r)) = some c := by
  have hbrace : ∀ d ∈ Numeral.hexadecimal c.toNat, (d != '}') = true :=
    Numeral.of_mem_hexadecimal (by decide)
  rw [first?, List.takeWhile_append_of_pos hbrace, List.takeWhile_cons_of_neg (by decide),
    List.append_nil, Numeral.mapM_hexDigit?_hexadecimal, Option.map_some, Numeral.value_digits,
    Char.ofNat_toNat]

theorem first?_escape (c : Char) (r : List Char) : first? (escape c ++ r) = some c := by
  unfold escape
  split
  case h_7 hslash =>
    split
    · simp only [List.cons_append, List.append_assoc, List.nil_append]
      exact first?_hexadecimal c r
    · exact first?_plain hslash r
  all_goals rfl

theorem prefixCode_escape : PrefixCode escape := .of_reader rfl first?_escape

theorem quote_injective : Function.Injective quote := by
  intro cs ds h
  apply prefixCode_escape.flatMap_injective
  exact List.append_cancel_right (List.cons.inj h).2

theorem shown_of_not_isHidden {c : Char} (h : ¬ isHidden c = true) : Shown c := by
  simp only [isHidden, isControl, Bool.or_eq_true, Bool.and_eq_true, not_or, decide_eq_true_eq,
    bne_iff_ne, isBlank_iff, not_and, not_not] at h
  obtain ⟨⟨⟨⟨hlow, hhigh⟩, hblank⟩, -⟩, -⟩ := h
  refine ⟨?_, hblank⟩
  rw [IsControl]
  omega

theorem shown_escape (c : Char) : ∀ d ∈ escape c, Shown d := by
  unfold escape
  split
  case h_7 =>
    split
    case isTrue =>
      have hdigit : ∀ d < 16, isPrintable (Nat.digitChar d) = true := by decide
      have hdigits : ∀ d ∈ Numeral.hexadecimal c.toNat, Shown d :=
        Numeral.of_mem_hexadecimal fun d hd => shown_of_isPrintable (hdigit d hd)
      have hopen : ∀ d ∈ ['\\', 'u', '{'], Shown d := shown_of_all_isPrintable rfl
      have hclose : ∀ d ∈ ['}'], Shown d := shown_of_all_isPrintable rfl
      exact List.forall_mem_append.mpr ⟨hopen, List.forall_mem_append.mpr ⟨hdigits, hclose⟩⟩
    case isFalse h => exact List.forall_mem_singleton.mpr (shown_of_not_isHidden h)
  all_goals exact shown_of_all_isPrintable rfl

theorem shown_quote (cs : List Char) : ∀ c ∈ quote cs, Shown c := by
  have hescaped : ∀ c ∈ cs.flatMap escape, Shown c := by
    intro c hc
    obtain ⟨d, -, hd⟩ := List.mem_flatMap.mp hc
    exact shown_escape d c hd
  have hquote : ∀ c ∈ ['"'], Shown c := shown_of_all_isPrintable rfl
  exact List.forall_mem_cons.mpr
    ⟨hquote '"' (List.mem_singleton_self _), List.forall_mem_append.mpr ⟨hescaped, hquote⟩⟩

end Quoted

theorem quoted_injective : Function.Injective quoted := by
  intro s t h
  exact String.toList_inj.mp (Quoted.quote_injective (String.ofList_injective h))

theorem shown_quoted (s : String) : ∀ c ∈ (quoted s).toList, Shown c := by
  rw [quoted, String.toList_ofList]
  exact Quoted.shown_quote s.toList

end PeerRoster
