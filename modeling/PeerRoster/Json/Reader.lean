import PeerRoster.Json.Token

/-! Strict reading of a JSON text. Values and marks are put on a stack; a closing mark gathers what
lies above its opening mark into one value. The text is read when one value is left. A value may
also be read as a whole, whatever it holds: then every literal has to be readable, and lists and
objects may be nested only so deep. -/
namespace PeerRoster

namespace Json

/-- The items of a list from the top of the stack down to its opening bracket. -/
def gatherItems (items : List Json) : List Token → Option (List Json × List Token)
  | .value v :: .mark .comma :: r => gatherItems (v :: items) r
  | .value v :: .mark .openBracket :: r => some (v :: items, r)
  | _ => none

/-- The members of an object from the top of the stack down to its opening brace. -/
def gatherMembers (members : List (Literal × Json)) :
    List Token → Option (List (Literal × Json) × List Token)
  | .value v :: .mark .colon :: .value (.str k) :: .mark .comma :: r =>
    gatherMembers ((k, v) :: members) r
  | .value v :: .mark .colon :: .value (.str k) :: .mark .openBrace :: r =>
    some ((k, v) :: members, r)
  | _ => none

def closeList : List Token → Option (List Token)
  | .mark .openBracket :: r => some (.value (.arr []) :: r)
  | stack => (gatherItems [] stack).map fun p => .value (.arr p.1) :: p.2

def closeObject : List Token → Option (List Token)
  | .mark .openBrace :: r => some (.value (.obj []) :: r)
  | stack => (gatherMembers [] stack).map fun p => .value (.obj p.1) :: p.2

def shift (stack : List Token) : Token → Option (List Token)
  | .mark .closeBracket => closeList stack
  | .mark .closeBrace => closeObject stack
  | t => some (t :: stack)

/-- The one value that a stack holds. -/
def single? : List Token → Option Json
  | [.value v] => some v
  | _ => none

def ofTokens? (ts : List Token) : Option Json := (ts.foldlM shift []).bind single?

/-- Reads a text that is one JSON value with blanks around it. -/
def read? (bs : List UInt8) : Option Json := (tokens? bs).bind ofTokens?

/-- Reads a text as what one JSON value stands for. -/
def parse? {α : Type} (ofJson? : Json → Option α) (text : String) : Option α :=
  (read? (Utf8.bytes text)).bind ofJson?

/-- The defect of a list or an object of which an item has the defect `d`. Reading gives up behind
it only if nothing else was left to read. -/
def Defect.outer (d : Defect) (isLast : Bool) : Defect := if isLast then d else .inside

mutual

/-- The defect of a value in which `levels` further lists or objects may lie inside each other. -/
def defect? (levels : Nat) : Json → Option Defect
  | .null => none
  | .bool _ => none
  | .int n => (Number.ofInt n).defect?
  | .real d => d
  | .str t => t.defect?
  | .arr items => match levels with
    | 0 => some .inside
    | k + 1 => itemsDefect? k items
  | .obj members => match levels with
    | 0 => some .inside
    | k + 1 => membersDefect? k members

def itemsDefect? (levels : Nat) : List Json → Option Defect
  | [] => none
  | v :: r => match v.defect? levels with
    | none => itemsDefect? levels r
    | some d => some (d.outer r.isEmpty)

/-- Behind a name there is always its value to read. -/
def membersDefect? (levels : Nat) : List (Literal × Json) → Option Defect
  | [] => none
  | (k, v) :: r => match k.defect?, v.defect? levels with
    | some _, _ => some .inside
    | none, none => membersDefect? levels r
    | none, some d => some (d.outer r.isEmpty)

end

/-- The defect of a value that is no list and no object. A list or an object is entered, and left
again only if it is empty. -/
def scalarDefect? : Json → Option Defect
  | .arr items => if items.isEmpty then none else some .inside
  | .obj members => if members.isEmpty then none else some .inside
  | v => v.defect? 0

end Json

end PeerRoster
