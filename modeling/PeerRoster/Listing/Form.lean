import PeerRoster.Listing.Query

/-! The parameters of a listing request as they are written, in a form or inside a query string, and
the query they ask for. The two numbers are read before either is checked for its sign; the two
choices come last. A query string holds pairs between ampersands, a plus for a space, bytes by
percent signs; parameters of other names are ignored, one of the form's own may be given once. -/
namespace PeerRoster

inductive Parameter
  | start
  | limit
  | destination
  | order
  | direction
  deriving DecidableEq

namespace Parameter

def all : List Parameter := [.start, .limit, .destination, .order, .direction]

def label : Parameter → String
  | .start => "from"
  | .limit => "limit"
  | .destination => "destination"
  | .order => "order_by"
  | .direction => "dir"

def ofLabel? (s : String) : Option Parameter := all.find? (·.label == s)

@[simp] theorem ofLabel?_label (p : Parameter) : ofLabel? p.label = some p := by
  cases p <;> decide

end Parameter

/-- A parameter that is no number of the right kind, or a value that is not among its choices. -/
inductive FormError
  | invalidParameter (message : String)
  | unrecognizedValue (message : String)
  deriving DecidableEq

namespace FormError

def message : FormError → String
  | .invalidParameter m => m
  | .unrecognizedValue m => m

def notPositive (p : Parameter) : FormError :=
  .invalidParameter
    ("Query parameter " ++ p.label ++ " must be a string representing a positive integer.")

def notAmong (p : Parameter) (choices : List String) : FormError :=
  .unrecognizedValue
    ("Query parameter \"" ++ p.label ++ "\" must be one of [" ++ ", ".intercalate choices ++ "]")

end FormError

structure Form where
  start : Option String
  limit : Option String
  destination : Option String
  order : Option String
  direction : Option String
  deriving DecidableEq

namespace Form

def blank : Form := ⟨none, none, none, none, none⟩

def get (f : Form) : Parameter → Option String
  | .start => f.start
  | .limit => f.limit
  | .destination => f.destination
  | .order => f.order
  | .direction => f.direction

def set (f : Form) (p : Parameter) (value : String) : Form :=
  match p with
  | .start => { f with start := some value }
  | .limit => { f with limit := some value }
  | .destination => { f with destination := some value }
  | .order => { f with order := some value }
  | .direction => { f with direction := some value }

@[simp] theorem get_set (f : Form) (p q : Parameter) (value : String) :
    (f.set p value).get q = if q = p then some value else f.get q := by
  cases p <;> cases q <;> rfl

def defaultStart : Int64 := 0

def defaultLimit : Int64 := 100

/-- The signed word that a text spells. -/
def word? (s : String) : Option Int64 := (Numeral.signed? s.toList).bind Words.int64?

def integer (p : Parameter) (default : Int64) : Option String → Except FormError Int64
  | none => .ok default
  | some s => match word? s with
    | some n => .ok n
    | none => .error (.notPositive p)

def unsigned (p : Parameter) (n : Int64) : Except FormError UInt64 :=
  if n < 0 then .error (.notPositive p) else .ok (UInt64.ofNat n.toInt.toNat)

/-- Reads a choice among the values that a text can name. -/
def choice {α : Type} [Inhabited α] (parse : String → Except ValueError α) (allowed : List String)
    (p : Parameter) : Option String → Except FormError α
  | none => .ok default
  | some s => (parse s).mapError fun _ => .notAmong p allowed

def orderOf : Option String → Except FormError SortKey :=
  choice SortKey.ofString (SortKey.all.map SortKey.label) .order

def directionOf : Option String → Except FormError Direction :=
  choice Direction.ofString (Direction.all.map Direction.label) .direction

/-- An empty filter asks for nothing in particular, so it is dropped. -/
def filterOf : Option String → Option String
  | none => none
  | some s => if s = "" then none else some s

def toQuery (f : Form) : Except FormError Query := do
  let start ← integer .start defaultStart f.start
  let limit ← integer .limit defaultLimit f.limit
  let start ← unsigned .start start
  let limit ← unsigned .limit limit
  let order ← orderOf f.order
  let direction ← directionOf f.direction
  return ⟨filterOf f.destination, order, direction, some ⟨start, limit⟩⟩

end Form

inductive QueryStringError
  | duplicate (p : Parameter)
  deriving DecidableEq

namespace QueryStringError

def message : QueryStringError → String
  | .duplicate p => "Query deserialize error: duplicate field `" ++ p.label ++ "`"

end QueryStringError

namespace QueryString

def plusToSpace (b : UInt8) : UInt8 := if b = 0x2B then 0x20 else b

def component (bs : List UInt8) : String :=
  Utf8.lenientText (Percent.decode (fun _ => false) (bs.map plusToSpace))

/-- The name and the value of one piece; without an equals sign the value is empty. -/
def pair (piece : List UInt8) : String × String :=
  (component (piece.takeWhile (· != 0x3D)), component ((piece.dropWhile (· != 0x3D)).drop 1))

def pairs (bs : List UInt8) : List (String × String) :=
  ((bs.splitOn 0x26).filter (!·.isEmpty)).map pair

def add (f : Form) (p : String × String) : Except QueryStringError Form :=
  match Parameter.ofLabel? p.1 with
  | none => .ok f
  | some q => if (f.get q).isSome then .error (.duplicate q) else .ok (f.set q p.2)

def ofPairs (ps : List (String × String)) : Except QueryStringError Form :=
  ps.foldlM add .blank

end QueryString

def Form.ofQueryString (s : String) : Except QueryStringError Form :=
  QueryString.ofPairs (QueryString.pairs (Utf8.bytes s))

end PeerRoster
