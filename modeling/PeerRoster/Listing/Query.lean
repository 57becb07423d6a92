import PeerRoster.Destination
import PeerRoster.ServerName

/-! What a reader is asked for: which destinations, in what order, and what part of the listing.
They are listed by a sort key, then by name, in one of two directions; a missing value comes before
every number. -/
namespace PeerRoster

inductive SortKey
  | name
  | lastTs
  | interval
  | failureTs
  | streamOrdering
  deriving DecidableEq

namespace SortKey

/-- Without a choice the listing is by name. -/
instance : Inhabited SortKey := ⟨.name⟩

def all : List SortKey := [.name, .lastTs, .interval, .failureTs, .streamOrdering]

def label : SortKey → String
  | .name => "destination"
  | .lastTs => "retry_last_ts"
  | .interval => "retry_interval"
  | .failureTs => "failure_ts"
  | .streamOrdering => "last_successful_stream_ordering"

def ofLabel? (s : String) : Option SortKey := all.find? (·.label == s)

@[simp] theorem ofLabel?_label (k : SortKey) : ofLabel? k.label = some k := by
  cases k <;> decide

def ofString (s : String) : Except ValueError SortKey :=
  match ofLabel? s with
  | some k => .ok k
  | none => .error (.invalid s)

/-- Compares by the key alone; names are left to the tie-break. -/
def compare (k : SortKey) (a b : Destination) : Ordering :=
  match k with
  | .name => .eq
  | .lastTs => Ord.compare a.retry.lastTs b.retry.lastTs
  | .interval => Ord.compare a.retry.interval b.retry.interval
  | .failureTs => Ord.compare a.retry.failureTs b.retry.failureTs
  | .streamOrdering => Ord.compare a.streamOrdering b.streamOrdering

end SortKey

inductive Direction
  | forward
  | backward
  deriving DecidableEq

namespace Direction

/-- Without a choice the listing runs forward. -/
instance : Inhabited Direction := ⟨.forward⟩

def all : List Direction := [.forward, .backward]

def label : Direction → String
  | .forward => "f"
  | .backward => "b"

def ofLabel? (s : String) : Option Direction := all.find? (·.label == s)

@[simp] theorem ofLabel?_label (d : Direction) : ofLabel? d.label = some d := by
  cases d <;> decide

def ofString (s : String) : Except ValueError Direction :=
  match ofLabel? s with
  | some d => .ok d
  | none => .error (.invalid s)

/-- Backward turns every comparison round. -/
def turn : Direction → Ordering → Ordering
  | .forward, o => o
  | .backward, o => o.swap

end Direction

namespace Destination

/-- The place of one destination relative to another in a listing. -/
def rank (k : SortKey) (d : Direction) (a b : Destination) : Ordering :=
  d.turn ((k.compare a b).then (collate a.name b.name))

def sort (k : SortKey) (d : Direction) (rows : List Destination) : List Destination :=
  rows.mergeSort fun a b => (rank k d a b).isLE

end Destination

structure Window where
  start : UInt64
  limit : UInt64
  deriving DecidableEq

structure Query where
  filter : Option String
  order : SortKey
  direction : Direction
  window : Option Window
  deriving DecidableEq

namespace Query

/-- Whether a name contains the filter; no filter lets every name pass. -/
def admits (q : Query) (name : String) : Bool :=
  match q.filter with
  | none => true
  | some part => contains part name

end Query

/-- The answer of a reader: how many destinations match, and those in the window. -/
structure Found where
  total : UInt64
  rows : List Destination
  deriving DecidableEq

namespace Window

/-- The storage counts rows in signed words, so larger bounds mean its largest count. -/
def storageCount (n : UInt64) : Nat := min n.toNat 0x7FFFFFFFFFFFFFFF

def cut {α : Type} (w : Window) (rows : List α) : List α :=
  (rows.drop (storageCount w.start)).take (storageCount w.limit)

end Window

namespace Query

def matching (q : Query) (rows : List Destination) : List Destination :=
  rows.filter fun d => q.admits d.name

/-- The listing of some rows: the count and the order are those of all rows that match. -/
def select (q : Query) (rows : List Destination) : Found :=
  let sorted := Destination.sort q.order q.direction (q.matching rows)
  ⟨Words.saturate (q.matching rows).length, match q.window with
    | none => sorted
    | some w => w.cut sorted⟩

end Query

end PeerRoster
