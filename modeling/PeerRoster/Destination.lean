import PeerRoster.Json.Reader
import PeerRoster.ServerName

/-! What the roster knows about a remote server: when and how it is to be tried again, and how far
the last successful transmission reached. Times and intervals are in milliseconds. -/
namespace PeerRoster

structure RetryTimings where
  failureTs : Option Int64
  lastTs : Int64
  interval : Int64
  deriving DecidableEq

namespace RetryTimings

/-- The timings of a server that answered at the time `now`. -/
def reset (now : Int64) : RetryTimings := ⟨none, now, 0⟩

/-- The timings of a server that nothing is known about. -/
def unknown : RetryTimings := ⟨none, 0, 0⟩

end RetryTimings

structure Destination where
  name : StoredName
  retry : RetryTimings
  streamOrdering : Option Int64
  deriving DecidableEq

namespace Destination

def fields : List String :=
  ["destination", "retry_last_ts", "retry_interval", "failure_ts",
    "last_successful_stream_ordering"]

/-- The values of a row under the names of its fields. -/
def record (d : Destination) : List (String × Json) :=
  fields.zip [StoredName.toJson d.name, .ofInt64 d.retry.lastTs, .ofInt64 d.retry.interval,
    .ofNullable .ofInt64 d.retry.failureTs, .ofNullable .ofInt64 d.streamOrdering]

def toJson (d : Destination) : Json := .record d.record

def ofMembers? (ms : Json.Members) : Option Destination :=
  if Json.wellNamed fields ms then do
    let name ← Json.required? StoredName.ofJson? "destination" ms
    let lastTs ← Json.required? Json.int64? "retry_last_ts" ms
    let interval ← Json.required? Json.int64? "retry_interval" ms
    let failureTs ← Json.optional? Json.int64? "failure_ts" ms
    let streamOrdering ← Json.optional? Json.int64? "last_successful_stream_ordering" ms
    return ⟨name, ⟨failureTs, lastTs, interval⟩, streamOrdering⟩
  else none

/-- Reads an object with the fields by name, or a list of all fields in order. -/
def ofJson? : Json → Option Destination
  | .obj ms => ofMembers? ms
  | .arr [name, lastTs, interval, failureTs, streamOrdering] => do
    let name ← StoredName.ofJson? name
    let lastTs ← Json.int64? lastTs
    let interval ← Json.int64? interval
    let failureTs ← Json.nullable? Json.int64? failureTs
    let streamOrdering ← Json.nullable? Json.int64? streamOrdering
    return ⟨name, ⟨failureTs, lastTs, interval⟩, streamOrdering⟩
  | _ => none

def ofText? : String → Option Destination := Json.parse? ofJson?

end Destination
end PeerRoster
