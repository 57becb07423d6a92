import Mathlib.Data.Nat.Notation
import PeerRoster.Json.Token
import PeerRoster.Json.Value

/-! How JSON may be written. A text of a value consists of the tokens of the value in order, each in
any of its spellings, with blanks between and around them. The compact text is the one without
blanks. -/
namespace PeerRoster
namespace Json

/-- The letters that stand for a character behind a backslash. -/
def shortEscapes : List (Char × Char) :=
  [('"', '"'), ('\\', '\\'), ('/', '/'), ('b', '\x08'), ('f', '\x0c'), ('n', '\n'), ('r', '\r'),
    ('t', '\t')]

/-- A character in a string literal, as itself or by a letter. -/
inductive SpellsChar : List Char → Char → Prop
  | plain {c : Char} : 0x20 ≤ c.toNat → c ≠ '"' → c ≠ '\\' → SpellsChar [c] c
  | short {e c : Char} : (e, c) ∈ shortEscapes → SpellsChar ['\\', e] c

/-- A 16-bit unit in a string literal, by four hexadecimal digits of either case. -/
def SpellsUnit (text : List Char) (n : ℕ) : Prop :=
  ∃ h₁ h₂ h₃ h₄ ds, text = ['\\', 'u', h₁, h₂, h₃, h₄] ∧
    [h₁, h₂, h₃, h₄].mapM Numeral.hexDigit? = some ds ∧ Numeral.value 16 ds = n

def IsHighSurrogate (n : ℕ) : Prop := 0xD800 ≤ n ∧ n < 0xDC00

def IsLowSurrogate (n : ℕ) : Prop := 0xDC00 ≤ n ∧ n < 0xE000

namespace Literal

/-- One more character in front. -/
def cons (c : Char) : Literal → Literal
  | .text s => .text (String.ofList (c :: s.toList))
  | .broken d => .broken d

/-- What may stand between the quotes of a literal. A unit that is no surrogate is a character, and
so are a high and a low surrogate together; with a surrogate that stands alone there is no text. -/
inductive Spells : List Char → Literal → Prop
  | nil : Spells [] (.text "")
  | char {u text : List Char} {c : Char} {l : Literal} :
      SpellsChar u c → Spells text l → Spells (u ++ text) (l.cons c)
  | unit {u text : List Char} {c : Char} {l : Literal} :
      SpellsUnit u c.toNat → Spells text l → Spells (u ++ text) (l.cons c)
  | pair {u v text : List Char} {m n : ℕ} {c : Char} {l : Literal} :
      SpellsUnit u m → IsHighSurrogate m → SpellsUnit v n → IsLowSurrogate n →
      c.toNat = 0x10000 + (m - 0xD800) * 0x400 + (n - 0xDC00) → Spells text l →
      Spells (u ++ (v ++ text)) (l.cons c)
  | low {u text : List Char} {n : ℕ} {l : Literal} :
      SpellsUnit u n → IsLowSurrogate n → Spells text l → Spells (u ++ text) (.broken .inside)
  | high {u : List Char} {m : ℕ} :
      SpellsUnit u m → IsHighSurrogate m → Spells u (.broken .after)
  | highChar {u v text : List Char} {m : ℕ} {c : Char} {l : Literal} :
      SpellsUnit u m → IsHighSurrogate m → SpellsChar v c → Spells text l →
      Spells (u ++ (v ++ text)) (.broken .inside)
  | highUnit {u v text : List Char} {m n : ℕ} {l : Literal} :
      SpellsUnit u m → IsHighSurrogate m → SpellsUnit v n → ¬ IsLowSurrogate n → Spells text l →
      Spells (u ++ (v ++ text)) (.broken .inside)

end Literal

namespace Number

/-- Some digits, with no zero in front of others. -/
def IsWhole (ds : List ℕ) : Prop :=
  (∀ d ∈ ds, d < 10) ∧ ∃ d r, ds = d :: r ∧ (d = 0 → r = [])

inductive SpellsFraction : List Char → List ℕ → Prop
  | absent : SpellsFraction [] []
  | present {ds : List ℕ} : ds ≠ [] → (∀ d ∈ ds, d < 10) →
      SpellsFraction ('.' :: ds.map Nat.digitChar) ds

/-- The signs of an exponent; without one it is not negative. -/
def exponentSigns : List (List Char × Bool) := [([], false), (['+'], false), (['-'], true)]

inductive SpellsExponent : List Char → Bool → List ℕ → Prop
  | absent : SpellsExponent [] false []
  | present {e : Char} {sign : List Char} {negative : Bool} {ds : List ℕ} :
      e ∈ ['e', 'E'] → (sign, negative) ∈ exponentSigns → ds ≠ [] → (∀ d ∈ ds, d < 10) →
      SpellsExponent (e :: (sign ++ ds.map Nat.digitChar)) negative ds

/-- The literals of a number. -/
def Spells (text : List Char) (x : Number) : Prop :=
  ∃ f e, IsWhole x.whole ∧ SpellsFraction f x.fraction ∧
    SpellsExponent e x.exponentNegative x.exponent ∧
    text = (if x.negative then ['-'] else []) ++ (x.whole.map Nat.digitChar ++ (f ++ e))

/-- Whether a number is written as no integer: with a fraction or an exponent, or as minus zero. -/
def IsReal (x : Number) : Prop :=
  x.fraction ≠ [] ∨ x.exponent ≠ [] ∨ x.negative = true ∧ Numeral.value 10 x.whole = 0

end Number

def Mark.char : Mark → Char
  | .openBrace => '{'
  | .closeBrace => '}'
  | .openBracket => '['
  | .closeBracket => ']'
  | .colon => ':'
  | .comma => ','

def Token.isMark : Token → Bool
  | .mark _ => true
  | .value _ => false

inductive Token.Spells : List Char → Token → Prop
  | mark (m : Mark) : Spells [m.char] (.mark m)
  | null : Spells ['n', 'u', 'l', 'l'] (.value .null)
  | true : Spells ['t', 'r', 'u', 'e'] (.value (.bool true))
  | false : Spells ['f', 'a', 'l', 's', 'e'] (.value (.bool false))
  | int (n : Int) : Spells (Numeral.decimalInt n) (.value (.int n))
  | real {text : List Char} {x : Number} : x.Spells text → x.IsReal →
      Spells text (.value (.real x.defect?))
  | str {text : List Char} {l : Literal} : l.Spells text →
      Spells ('"' :: (text ++ ['"'])) (.value (.str l))

/-- What may stand between tokens. -/
def IsGap (text : List Char) : Prop := ∀ c ∈ text, c ∈ [' ', '\t', '\n', '\r']

instance (text : List Char) : Decidable (IsGap text) :=
  List.decidableBAll _ text

/-- Texts in which some tokens stand in order, with blanks between and around them. -/
inductive Lays : List Char → List Token → Prop
  | nil {gap : List Char} : IsGap gap → Lays gap []
  | cons {gap text rest : List Char} {t : Token} {ts : List Token} :
      IsGap gap → t.Spells text → Lays rest ts → Lays (gap ++ (text ++ rest)) (t :: ts)

mutual

/-- The tokens of a value. -/
def tokens : Json → List Token
  | .arr items => .mark .openBracket :: (itemTokens items ++ [.mark .closeBracket])
  | .obj members => .mark .openBrace :: (memberTokens members ++ [.mark .closeBrace])
  | v => [.value v]

def itemTokens : List Json → List Token
  | [] => []
  | [v] => v.tokens
  | v :: w :: r => v.tokens ++ .mark .comma :: itemTokens (w :: r)

def memberTokens : List (Literal × Json) → List Token
  | [] => []
  | [(k, v)] => .value (.str k) :: .mark .colon :: v.tokens
  | (k, v) :: m :: r =>
    .value (.str k) :: .mark .colon :: (v.tokens ++ .mark .comma :: memberTokens (m :: r))

end

/-- The texts of a value. -/
def Spells (text : List Char) (v : Json) : Prop := Lays text v.tokens

theorem Lays.gap {gap text : List Char} {ts : List Token} (hg : IsGap gap) (h : Lays text ts) :
    Lays (gap ++ text) ts := by
  have happend : ∀ {g : List Char}, IsGap g → IsGap (gap ++ g) := fun hg' =>
    List.forall_mem_append.mpr ⟨hg, hg'⟩
  cases h with
  | nil hg' => exact .nil (happend hg')
  | cons hg' ht hrest =>
    rw [← List.append_assoc]
    exact .cons (happend hg') ht hrest

theorem Lays.append {text text' : List Char} {ts ts' : List Token} (h : Lays text ts)
    (h' : Lays text' ts') : Lays (text ++ text') (ts ++ ts') := by
  induction h with
  | nil hg => exact h'.gap hg
  | cons hg ht _ ih =>
    rw [List.append_assoc, List.append_assoc]
    exact .cons hg ht ih

theorem isGap_nil : IsGap [] := nofun

theorem Lays.token {text rest : List Char} {t : Token} {ts : List Token} (ht : t.Spells text)
    (h : Lays rest ts) : Lays (text ++ rest) (t :: ts) :=
  .cons isGap_nil ht h

theorem Lays.mark (m : Mark) {rest : List Char} {ts : List Token} (h : Lays rest ts) :
    Lays (m.char :: rest) (.mark m :: ts) :=
  .token (.mark m) h

theorem lays_nil : Lays [] [] := .nil isGap_nil

theorem lays_token {text : List Char} {t : Token} (h : t.Spells text) : Lays text [t] := by
  have hl := Lays.token h lays_nil
  rwa [List.append_nil] at hl

theorem spells_int (z : Int) : Spells (Numeral.decimalInt z) (.int z) := lays_token (.int z)

namespace Literal

theorem cons_text (c : Char) (cs : List Char) :
    cons c (.text (String.ofList cs)) = .text (String.ofList (c :: cs)) := by
  rw [cons, String.toList_ofList]

theorem Spells.escape (c : Char) {text : List Char} {l : Literal} (h : l.Spells text) :
    (l.cons c).Spells (Json.escape c ++ text) := by
  unfold Json.escape
  split
  case h_8 hquote hslash _ _ _ _ _ =>
    split
    next hc =>
      refine .unit ⟨'0', '0', Nat.digitChar (c.toNat / 16), Nat.digitChar (c.toNat % 16),
        [0, 0, c.toNat / 16, c.toNat % 16], rfl, ?_, ?_⟩ h
      · have h0 : Numeral.hexDigit? '0' = some 0 := by decide
        have hhigh := Numeral.hexDigit?_digitChar (d := c.toNat / 16) (by omega)
        have hlow := Numeral.hexDigit?_digitChar (d := c.toNat % 16) (by omega)
        simp [h0, hhigh, hlow]
      · simp only [Numeral.value, List.foldl_cons, List.foldl_nil]
        omega
    next hc => exact .char (.plain (by omega) hquote hslash) h
  all_goals exact .char (.short (by decide)) h

theorem spells_escape (cs : List Char) :
    Spells (cs.flatMap Json.escape) (.text (String.ofList cs)) := by
  induction cs with
  | nil => exact .nil
  | cons c cs ih =>
    rw [List.flatMap_cons, ← cons_text]
    exact ih.escape c

end Literal

theorem spells_spell (l : Literal) : Token.Spells (spell l) (.value (.str l)) := by
  cases l with
  | text s =>
    have h := Literal.spells_escape s.toList
    rw [String.ofList_toList] at h
    exact .str h
  | broken d =>
    cases d with
    | after =>
      have hu : SpellsUnit ['\\', 'u', 'd', '8', '0', '0'] 0xD800 :=
        ⟨'d', '8', '0', '0', [13, 8, 0, 0], rfl, by decide, by decide⟩
      exact .str (.high hu ⟨by decide, by decide⟩)
    | inside =>
      have hu : SpellsUnit ['\\', 'u', 'd', 'c', '0', '0'] 0xDC00 :=
        ⟨'d', 'c', '0', '0', [13, 12, 0, 0], rfl, by decide, by decide⟩
      exact .str (.low hu ⟨by decide, by decide⟩ .nil)

theorem spells_spellReal (d : Option Defect) : Token.Spells (spellReal d) (.value (.real d)) := by
  have hwhole : ∀ d < 10, Number.IsWhole [d] := fun d hd =>
    ⟨by simpa using hd, d, [], rfl, fun _ => rfl⟩
  have hpower : ∀ ds : List ℕ, ds ≠ [] → (∀ d ∈ ds, d < 10) →
      Token.Spells ('1' :: 'e' :: ds.map Nat.digitChar)
        (.value (.real (Number.defect? ⟨false, [1], [], false, ds⟩))) := fun ds hne hlt =>
    have hexponent := @Number.SpellsExponent.present 'e' [] false ds List.mem_cons_self
      List.mem_cons_self hne hlt
    .real ⟨[], _, hwhole 1 (by decide), .absent, hexponent, rfl⟩ (.inr (.inl hne))
  cases d with
  | none =>
    have hd : Number.defect? ⟨true, [0], [], false, []⟩ = none := by decide +kernel
    have h : Token.Spells ['-', '0']
        (.value (.real (Number.defect? ⟨true, [0], [], false, []⟩))) :=
      .real ⟨[], [], hwhole 0 (by decide), .absent, .absent, rfl⟩ (.inr (.inr ⟨rfl, rfl⟩))
    rwa [hd] at h
  | some d =>
    cases d with
    | after =>
      have hd : Number.defect? ⟨false, [1], [], false, [3, 0, 9]⟩ = some .after := by
        decide +kernel
      have h := hpower [3, 0, 9] (by decide) (by decide)
      rwa [hd] at h
    | inside =>
      have hd : Number.defect? ⟨false, [1], [], false, [2, 1, 4, 7, 4, 8, 3, 6, 4, 8, 0]⟩ =
          some .inside := by
        decide +kernel
      have h := hpower [2, 1, 4, 7, 4, 8, 3, 6, 4, 8, 0] (by decide) (by decide)
      rwa [hd] at h

-- By induction on the value as it is written, over items and members likewise.
mutual

theorem lays_chars (v : Json) : Lays v.chars v.tokens := by
  cases v with
  | null => exact lays_token .null
  | bool b => cases b with
    | true => exact lays_token .true
    | false => exact lays_token .false
  | int n => exact lays_token (.int n)
  | real d => exact lays_token (spells_spellReal d)
  | str l => exact lays_token (spells_spell l)
  | arr items =>
    exact .mark .openBracket ((lays_itemChars items).append (.mark .closeBracket lays_nil))
  | obj members =>
    exact .mark .openBrace ((lays_memberChars members).append (.mark .closeBrace lays_nil))

theorem lays_itemChars (items : List Json) : Lays (itemChars items) (itemTokens items) := by
  cases items with
  | nil => exact lays_nil
  | cons v r =>
    cases r with
    | nil => exact lays_chars v
    | cons w r => exact (lays_chars v).append (.mark .comma (lays_itemChars (w :: r)))

theorem lays_memberChars (members : List (Literal × Json)) :
    Lays (memberChars members) (memberTokens members) := by
  cases members with
  | nil => exact lays_nil
  | cons m r =>
    obtain ⟨k, v⟩ := m
    cases r with
    | nil => exact .token (spells_spell k) (.mark .colon (lays_chars v))
    | cons m r =>
      exact .token (spells_spell k) (.mark .colon
        ((lays_chars v).append (.mark .comma (lays_memberChars (m :: r)))))

end

theorem spells_chars (v : Json) : v.Spells v.chars := lays_chars v

theorem spells_render (v : Json) : v.Spells v.render.toList := by
  rw [render, String.toList_ofList]
  exact v.spells_chars

end Json
end PeerRoster
