import PeerRoster.Text.Encoding

/-! What goes wrong in the storage: the faults of the database engine and of the connections to it,
and the errors that the rest of the library sees of them. -/
namespace PeerRoster

/-- The constraints whose violation is reported by name. -/
inductive Constraint
  | unique
  | foreignKey
  | notNull
  | check
  deriving DecidableEq

namespace Constraint

def label : Constraint → String
  | .unique => "Unique"
  | .foreignKey => "Foreign key"
  | .notNull => "Not null"
  | .check => "Check"

end Constraint

inductive TransactionFault
  | rolledBack
  | alreadyOpen
  | notOpen
  | brokenManager
  deriving DecidableEq

namespace TransactionFault

def describe : TransactionFault → String
  | .rolledBack => "You have asked diesel to rollback the transaction"
  | .alreadyOpen => "Cannot perform this operation while a transaction is open"
  | .notOpen => "Cannot perform this operation outside of a transaction"
  | .brokenManager => "The transaction manager is broken"

end TransactionFault

/-- A fault of the database engine. -/
inductive EngineError
  | violation (constraint : Constraint) (detail : String)
  | failure (detail : String)
  | encoding (detail : String)
  | decoding (detail : String)
  | statement (detail : String)
  | noRow
  | transaction (fault : TransactionFault)
  | nulByte (text : String)
  | rollbackFailed (rollback commit : EngineError)

namespace EngineError

/-- The offset in bytes of the first NUL of a text. -/
def nulOffset (text : String) : Nat := ((Utf8.bytes text).takeWhile (· != 0)).length

def describe : EngineError → String
  | .violation _ detail => detail
  | .failure detail => detail
  | .encoding detail => detail
  | .decoding detail => detail
  | .statement detail => detail
  | .noRow => "Record not found"
  | .transaction fault => fault.describe
  | .nulByte text =>
    "nul byte found in provided data at position: " ++
      String.ofList (Numeral.decimal (nulOffset text))
  | .rollbackFailed rollback commit =>
    "Transaction rollback failed: " ++ rollback.describe ++
      " (rollback attempted because of failure to commit: " ++ commit.describe ++ ")"

end EngineError

/-- A fault of a connection that a pool makes or checks. -/
inductive ManagerError
  | connection (detail : String)
  | query (detail : String)

namespace ManagerError

def describe : ManagerError → String
  | .connection detail => detail
  | .query detail => detail

end ManagerError

/-- Why a pool gave out no connection. -/
structure PoolError where
  detail : String

inductive StoreError
  | notFound
  | database (detail : String)
  | validation (detail : String)
  | connection (detail : String)
  | constraint (detail : String)
  | unexpected (detail : String)
  deriving DecidableEq

namespace StoreError

def message : StoreError → String
  | .notFound => "Entity not found"
  | .database detail => "Database error: " ++ detail
  | .validation detail => "Validation error: " ++ detail
  | .connection detail => "Connection error: " ++ detail
  | .constraint detail => "Constraint violation: " ++ detail
  | .unexpected detail => "Unexpected error: " ++ detail

/-- How a fault of the engine is reported. -/
def ofEngine : EngineError → StoreError
  | .noRow => .notFound
  | .violation c detail => .constraint (c.label ++ " constraint violation: " ++ detail)
  | .failure detail => .database detail
  | .encoding detail => .validation ("Serialization error: " ++ detail)
  | .decoding detail => .validation ("Deserialization error: " ++ detail)
  | .statement detail => .validation ("Query builder error: " ++ detail)
  | .transaction fault => .database ("Transaction error: " ++ fault.describe)
  | e => .unexpected ("Unexpected diesel error: " ++ e.describe)

def ofManager (e : ManagerError) : StoreError := .connection e.describe

def ofPool (e : PoolError) : StoreError := .connection e.detail

end StoreError
end PeerRoster
