import PeerRoster.Listing.Query
import PeerRoster.Store.Error

/-! The rows that the roster stores, one for each name, and what the operations do to them; and the
storage as its users find it: with a table, without one, or out of reach. Every operation answers
and leaves a storage; one that fails leaves the storage it found. -/
namespace PeerRoster

abbrev Table := List Destination

/-- A column of a new row that has a default and must not be null. -/
inductive Cell
  | default
  | null
  | value (n : Int64)

namespace Cell

/-- What is stored: zero by default, nothing for an explicit null. -/
def stored : Cell → Option Int64
  | .default => some 0
  | .null => none
  | .value n => some n

end Cell

/-- A row as an insertion gives it; a name that is left out is null. -/
structure NewRow where
  name : Option String
  lastTs : Cell
  interval : Cell
  failureTs : Option Int64
  streamOrdering : Option Int64

namespace NewRow

def notNull {α : Type} (column : String) : Option α → Except EngineError α
  | some a => .ok a
  | none => .error
    (.violation .notNull ("NOT NULL constraint failed: destinations." ++ column))

/-- The row to store, if no column that must have a value is null; else the first such column. -/
def complete (r : NewRow) : Except EngineError Destination := do
  let name ← notNull "destination" r.name
  let lastTs ← notNull "retry_last_ts" r.lastTs.stored
  let interval ← notNull "retry_interval" r.interval.stored
  return ⟨name, ⟨r.failureTs, lastTs, interval⟩, r.streamOrdering⟩

end NewRow

namespace Table

/-- The names of the rows, in the order in which the rows were stored. -/
def names (t : Table) : List String := t.map Destination.name

def get? (t : Table) (name : String) : Option Destination := t.find? (·.name == name)

def replace (t : Table) (d : Destination) : Table :=
  t.map fun e => if e.name = d.name then d else e

/-- Whether timings with the interval `new` may take the place of timings with the interval `old`:
a reset always may, otherwise only a longer interval. -/
def supersedes (new old : Int64) : Bool := new == 0 || old < new

/-- Stores timings under a name, and says whether it did. -/
def setRetry (t : Table) (name : String) (r : RetryTimings) : Bool × Table :=
  match t.get? name with
  | none => (true, t ++ [⟨name, r, none⟩])
  | some d =>
    if supersedes r.interval d.retry.interval then (true, t.replace { d with retry := r })
    else (false, t)

def setStream (t : Table) (name : String) (ordering : Int64) : Table :=
  match t.get? name with
  | none => t ++ [⟨name, .unknown, some ordering⟩]
  | some d => t.replace { d with streamOrdering := some ordering }

def insert (t : Table) (r : NewRow) : Except EngineError Table := do
  let d ← r.complete
  if d.name ∈ t.names then
    throw (.violation .unique "UNIQUE constraint failed: destinations.destination")
  else return t ++ [d]

end Table

inductive Storage
  | present (table : Table)
  | dropped
  | unreachable

namespace Storage

def empty : Storage := .present []

def noTable : StoreError := .ofEngine (.failure "no such table: destinations")

def tableExists : StoreError := .ofEngine (.failure "table destinations already exists")

def noConnection : StoreError := .ofPool ⟨"timed out waiting for connection"⟩

def table : Storage → Except StoreError Table
  | .present t => .ok t
  | .dropped => .error noTable
  | .unreachable => .error noConnection

/-- Performs a statement that may change the table. -/
def write {α : Type} (s : Storage) (f : Table → Except EngineError (α × Table)) :
    Except StoreError α × Storage :=
  match s.table with
  | .error e => (.error e, s)
  | .ok t => match f t with
    | .error e => (.error (.ofEngine e), s)
    | .ok (a, t) => (.ok a, .present t)

def list (s : Storage) (q : Query) : Except StoreError Found := s.table.map q.select

def get (s : Storage) (name : String) : Except StoreError (Option Destination) :=
  s.table.map (·.get? name)

def setRetry (s : Storage) (name : String) (r : RetryTimings) : Except StoreError Bool × Storage :=
  s.write fun t => .ok (t.setRetry name r)

def setStream (s : Storage) (name : String) (ordering : Int64) : Except StoreError Unit × Storage :=
  s.write fun t => .ok ((), t.setStream name ordering)

def insert (s : Storage) (r : NewRow) : Except StoreError Unit × Storage :=
  s.write fun t => (t.insert r).map ((), ·)

def drop : Storage → Except StoreError Unit × Storage
  | .present _ => (.ok (), .dropped)
  | .dropped => (.error noTable, .dropped)
  | .unreachable => (.error noConnection, .unreachable)

def create : Storage → Except StoreError Unit × Storage
  | .present t => (.error tableExists, .present t)
  | .dropped => (.ok (), .empty)
  | .unreachable => (.error noConnection, .unreachable)

end Storage

end PeerRoster
