import PeerRoster.Text.Numeral
import PeerRoster.Words

/-! JSON values as their readers need them, and the compact text in which they are written. Integers
are kept exactly; of any other number, and of a string literal that stands for no text, only the way
in which it fails is kept: it does no harm until somebody asks for the value. In the text members
keep their order, and a character is escaped only where the format demands it, in the short form if
there is one. A record is an object in which every member name is legible and each field occurs at
most once; members of other names are ignored, however often they occur. -/
namespace PeerRoster

/-- Where a reader that asks for a value gives up: with the value behind it, or inside the value. -/
inductive Json.Defect
  | after
  | inside
  deriving DecidableEq

/-- A string literal: its text, or the defect for which it has none. -/
inductive Json.Literal
  | text (s : String)
  | broken (d : Defect)
  deriving DecidableEq

inductive Json
  | null
  | bool (b : Bool)
  | int (n : Int)
  | real (defect : Option Json.Defect)
  | str (t : Json.Literal)
  | arr (items : List Json)
  | obj (members : List (Json.Literal × Json))

namespace Json

namespace Literal

def text? : Literal → Option String
  | .text s => some s
  | .broken _ => none

def defect? : Literal → Option Defect
  | .text _ => none
  | .broken d => some d

end Literal

def text? : Json → Option String
  | .str t => t.text?
  | _ => none

def int? : Json → Option Int
  | .int n => some n
  | _ => none

def list? {α : Type} (read : Json → Option α) : Json → Option (List α)
  | .arr items => items.mapM read
  | _ => none

/-- Reads `null` as nothing. -/
def nullable? {α : Type} (read : Json → Option α) : Json → Option (Option α)
  | .null => some none
  | v => (read v).map some

/-- An object whose member names are all legible. -/
def record (members : List (String × Json)) : Json :=
  .obj (members.map fun m => (.text m.1, m.2))

def escape (c : Char) : List Char :=
  match c with
  | '"' => ['\\', '"']
  | '\\' => ['\\', '\\']
  | '\x08' => ['\\', 'b']
  | '\x0c' => ['\\', 'f']
  | '\n' => ['\\', 'n']
  | '\r' => ['\\', 'r']
  | '\t' => ['\\', 't']
  | c =>
    if c.toNat < 0x20 then
      ['\\', 'u', '0', '0', Nat.digitChar (c.toNat / 16), Nat.digitChar (c.toNat % 16)]
    else [c]

/-- A string literal; one that stands for no text is written as a surrogate with the same defect. -/
def spell : Literal → List Char
  | .text s => '"' :: (s.toList.flatMap escape ++ ['"'])
  | .broken .after => ['"', '\\', 'u', 'd', '8', '0', '0', '"']
  | .broken .inside => ['"', '\\', 'u', 'd', 'c', '0', '0', '"']

/-- A number that is no integer, written as one that has the same defect. -/
def spellReal : Option Defect → List Char
  | none => ['-', '0']
  | some .after => ['1', 'e', '3', '0', '9']
  | some .inside => ['1', 'e', '2', '1', '4', '7', '4', '8', '3', '6', '4', '8', '0']

mutual

def chars : Json → List Char
  | .null => ['n', 'u', 'l', 'l']
  | .bool true => ['t', 'r', 'u', 'e']
  | .bool false => ['f', 'a', 'l', 's', 'e']
  | .int n => Numeral.decimalInt n
  | .real d => spellReal d
  | .str t => spell t
  | .arr items => '[' :: (itemChars items ++ [']'])
  | .obj members => '{' :: (memberChars members ++ ['}'])

def itemChars : List Json → List Char
  | [] => []
  | [v] => v.chars
  | v :: w :: r => v.chars ++ ',' :: itemChars (w :: r)

def memberChars : List (Literal × Json) → List Char
  | [] => []
  | [(k, v)] => spell k ++ ':' :: v.chars
  | (k, v) :: m :: r => spell k ++ ':' :: (v.chars ++ ',' :: memberChars (m :: r))

end

def render (v : Json) : String := String.ofList v.chars

abbrev Members := List (Literal × Json)

def ofInt64 (n : Int64) : Json := .int n.toInt

def ofUInt64 (n : UInt64) : Json := .int n.toNat

def ofNullable {α : Type} (write : α → Json) : Option α → Json
  | none => .null
  | some a => write a

def int64? (v : Json) : Option Int64 := v.int?.bind Words.int64?

def uint64? (v : Json) : Option UInt64 := v.int?.bind Words.uint64?

def uint16? (v : Json) : Option UInt16 := v.int?.bind Words.uint16?

/-- The values under one name, in order. -/
def named (key : String) (members : Members) : List Json :=
  (members.filter (·.1 == .text key)).map (·.2)

def wellNamed (fields : List String) (members : Members) : Bool :=
  members.all (·.1.text?.isSome) && fields.all fun k => (named k members).length ≤ 1

/-- A field that must be there. -/
def required? {α : Type} (read : Json → Option α) (key : String) (members : Members) : Option α :=
  (named key members).head?.bind read

/-- A field that may be absent or null. -/
def optional? {α : Type} (read : Json → Option α) (key : String) (members : Members) :
    Option (Option α) :=
  match (named key members).head? with
  | none => some none
  | some v => nullable? read v

end Json

end PeerRoster
