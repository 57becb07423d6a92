import PeerRoster.Json.Value
import PeerRoster.Text.Encoding
import PeerRoster.Text.Quoted

/-! Names of remote servers. Writers accept texts that are not empty and hold no blank, and keep
them as they are written; rows may hold any text for a name. -/
namespace PeerRoster

/-- Why a text is no value of a constrained type. -/
inductive ValueError
  | empty
  | invalid (detail : String)
  deriving DecidableEq

namespace ValueError

def message : ValueError → String
  | .empty => "value cannot be empty"
  | .invalid detail => "invalid value: " ++ detail

end ValueError

/-- A name as a row holds it. Rows are not all written by those who check names, and a listing has
to return them all. -/
abbrev StoredName := String

namespace StoredName

/-- Takes a text that was stored for a name, whatever it is. -/
def ofText (s : String) : StoredName := s

def toJson (n : StoredName) : Json := .str (.text n)

def ofJson? (v : Json) : Option StoredName := v.text?.map ofText

@[simp] theorem ofJson?_toJson (n : StoredName) : ofJson? n.toJson = some n := rfl

end StoredName

/-- The order of names as values. -/
def compareNames (s t : StoredName) : Ordering := Utf8.compareBytes (Utf8.bytes s) (Utf8.bytes t)

/-- Whether writers accept a text as a name. -/
def IsServerName (s : String) : Prop := s ≠ "" ∧ ∀ c ∈ s.toList, isBlank c = false

instance (s : String) : Decidable (IsServerName s) :=
  @instDecidableAnd _ _ _ (List.decidableBAll _ s.toList)

/-- A name that writers accept. -/
structure ServerName where
  text : String
  ne_empty : text ≠ ""
  not_blank : text.toList.any isBlank = false

namespace ServerName

def whitespaceDetail (s : String) : String :=
  "destination " ++ quoted s ++ " contains whitespace"

def ofString (s : String) : Except ValueError ServerName :=
  if h : s = "" then .error .empty
  else if hb : s.toList.any isBlank = false then .ok ⟨s, h, hb⟩
  else .error (.invalid (whitespaceDetail s))

/-- A name is shown as its text. -/
instance : ToString ServerName := ⟨text⟩

instance : Coe ServerName StoredName := ⟨text⟩

def toJson (n : ServerName) : Json := StoredName.toJson n

@[simp] theorem ofString_text (n : ServerName) : ofString n.text = .ok n := by
  rw [ofString, dif_neg n.ne_empty, dif_pos n.not_blank]

theorem ofString_eq_ok_iff (s : String) (n : ServerName) : ofString s = .ok n ↔ n.text = s := by
  constructor
  · intro h
    unfold ofString at h
    split at h
    · contradiction
    split at h
    · exact congrArg ServerName.text (Except.ok.inj h).symm
    · contradiction
  · rintro rfl
    exact ofString_text n

theorem isServerName (n : ServerName) : IsServerName n.text := by
  refine ⟨n.ne_empty, fun c hc => ?_⟩
  have h := List.any_eq_false.mp n.not_blank c hc
  simpa using h

end ServerName

theorem IsServerName.exists_ofString {s : String} (h : IsServerName s) :
    ∃ n : ServerName, n.text = s ∧ ServerName.ofString s = .ok n := by
  have hblank : s.toList.any isBlank = false := by
    rw [List.any_eq_false]
    intro c hc
    simp [h.2 c hc]
  exact ⟨⟨s, h.1, hblank⟩, rfl, ServerName.ofString_text ⟨s, h.1, hblank⟩⟩

theorem ServerName.ofString_cases (s : String) :
    (∃ n : ServerName, n.text = s) ∨ ¬ IsServerName s ∧ ∃ e, ofString s = .error e := by
  cases h : ofString s with
  | ok n => exact .inl ⟨n, (ofString_eq_ok_iff s n).mp h⟩
  | error e =>
    refine .inr ⟨fun hs => ?_, e, rfl⟩
    obtain ⟨n, -, hn⟩ := hs.exists_ofString
    exact nomatch h.symm.trans hn

end PeerRoster
