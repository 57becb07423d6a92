import PeerRoster.Store.Table

/-! The statements that writers and migrations consist of, and how the engine performs them. A
statement is done as a whole or fails and does nothing; a transaction also takes back the statements
before the one that fails, a batch keeps them. -/
namespace PeerRoster

/-- What the engine keeps: the table, if there is one, and whether its index is there. -/
structure Database where
  table : Option Table
  indexed : Bool

/-- A statement answers and leaves a database, or it fails. -/
abbrev Statement (α : Type) := Database → Except EngineError (α × Database)

namespace Database

/-- A database between migrations, where the index comes and goes with the table. -/
def holding (table : Option Table) : Database := ⟨table, table.isSome⟩

def storage (d : Database) : Storage := d.table.elim .dropped .present

@[simp] theorem storage_some (t : Table) : (holding (some t)).storage = .present t := rfl

/-- Performs statements of which all are done or none. -/
def transact {α : Type} (d : Database) (x : Statement α) : Except EngineError α × Database :=
  match x d with
  | .ok (a, d') => (.ok a, d')
  | .error e => (.error e, d)

/-- Performs statements up to the first that fails, and keeps what those before it did. -/
def batch (d : Database) : List (Statement Unit) → Except EngineError Unit × Database
  | [] => (.ok (), d)
  | x :: r => match x d with
    | .ok (_, d') => d'.batch r
    | .error e => (.error e, d)

/-- What users of the storage see of an answer and the database that it leaves. -/
def reported {α : Type} (r : Except EngineError α × Database) : Except StoreError α × Storage :=
  (r.1.mapError .ofEngine, r.2.storage)

end Database

open Database

namespace NewRow

/-- The row that the first timings of a name are inserted as. -/
def ofTimings (name : String) (r : RetryTimings) : NewRow :=
  ⟨some name, .value r.lastTs, .value r.interval, r.failureTs, none⟩

/-- The row that the first stream position of a name is inserted as. -/
def ofOrdering (name : String) (ordering : Int64) : NewRow :=
  ⟨some name, .default, .default, none, some ordering⟩

@[simp] theorem complete_ofTimings (name : String) (r : RetryTimings) :
    (ofTimings name r).complete = .ok ⟨name, r, none⟩ := rfl

@[simp] theorem complete_ofOrdering (name : String) (ordering : Int64) :
    (ofOrdering name ordering).complete = .ok ⟨name, .unknown, some ordering⟩ := rfl

end NewRow

namespace Statement

/-- A statement of which only the effect counts. -/
def discard {α : Type} (x : Statement α) : Statement Unit := fun d => (x d).map fun r => ((), r.2)

/-- A statement about the rows of the table. -/
def onTable {α : Type} (f : Table → Except EngineError (α × Table)) : Statement α := fun d =>
  match d.table with
  | none => .error (.failure "no such table: destinations")
  | some t => (f t).map fun r => (r.1, { d with table := some r.2 })

@[simp] theorem onTable_some {α : Type} (f : Table → Except EngineError (α × Table)) (t : Table) :
    onTable f (holding (some t)) = (f t).map fun r => (r.1, holding (some r.2)) := rfl

/-- The row under a name, if there is one. -/
def find (name : String) : Statement (Option Destination) := onTable fun t => .ok (t.get? name, t)

def insert (row : NewRow) : Statement Unit := onTable fun t => (t.insert row).map ((), ·)

/-- Changes the rows under a name and counts them. -/
def update (name : String) (change : Destination → Destination) : Statement Nat := onTable fun t =>
  .ok (t.countP (·.name = name), t.map fun d => if d.name = name then change d else d)

/-- Inserts a row, or changes those under its name if the name is taken. -/
def upsert (name : String) (row : NewRow) (change : Destination → Destination) : Statement Unit :=
  fun d => match insert row d with
    | .error (.violation .unique _) => (update name change d).map fun r => ((), r.2)
    | r => r

/-- Looks the name up and then inserts or updates, in one transaction. -/
def setRetry (name : String) (r : RetryTimings) : Statement Bool := fun d => do
  let (found, d) ← find name d
  match found with
  | none =>
    let (_, d) ← insert (.ofTimings name r) d
    return (true, d)
  | some row =>
    if Table.supersedes r.interval row.retry.interval then
      let (_, d) ← update name ({ · with retry := r }) d
      return (true, d)
    else return (false, d)

def setStream (name : String) (ordering : Int64) : Statement Unit :=
  upsert name (.ofOrdering name ordering) ({ · with streamOrdering := some ordering })

def createTable : Statement Unit := fun d =>
  match d.table with
  | none => .ok ((), { d with table := some [] })
  | some _ => .error (.failure "table destinations already exists")

def createIndex : Statement Unit := fun d =>
  match d.table with
  | none => .error (.failure "no such table: main.destinations")
  | some _ =>
    if d.indexed then .error (.failure "index destinations_failure_ts already exists")
    else .ok ((), { d with indexed := true })

/-- An index that is not there is no error. -/
def dropIndex : Statement Unit := fun d => .ok ((), { d with indexed := false })

/-- The index goes with its table. -/
def dropTable : Statement Unit := fun d =>
  match d.table with
  | none => .error (.failure "no such table: destinations")
  | some _ => .ok ((), ⟨none, false⟩)

end Statement

/-- The statements of the migration that creates the table. -/
def Database.creation : List (Statement Unit) := [Statement.createTable, Statement.createIndex]

/-- The statements of the migration that drops it. -/
def Database.removal : List (Statement Unit) := [Statement.dropIndex, Statement.dropTable]

end PeerRoster
