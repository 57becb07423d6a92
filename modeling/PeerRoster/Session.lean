import PeerRoster.Server
import PeerRoster.ServerName

/-! Steps against one storage, through every door that the library has: the writers and readers, the
service, the server, and plain statements. A step answers and leaves a storage. -/
namespace PeerRoster

inductive Step
  | setRetry (name : String) (timings : RetryTimings)
  | reset (name : String) (now : Int64)
  | setStream (name : String) (ordering : Int64)
  | get (name : String)
  | insert (row : NewRow)
  | drop
  | create
  | list (filter order direction : Option String) (window : Option Window)
  | service (roles : List String) (form : Form) (cap : Option UInt64)
  | http (request : Request)

inductive Answer
  | retry (written : Bool) (row : Option Destination)
  | stream (row : Option Destination)
  | row (row : Option Destination)
  | inserted
  | done
  | found (found : Found)
  | page (page : Page)
  | response (response : Response)

inductive StepError
  | value (cause : ValueError)
  | store (cause : StoreError)
  | service (cause : ServiceError)
  deriving DecidableEq

namespace Session

/-- Looks a row up after a write that succeeded. -/
def withRow {α : Type} (name : String) (answer : α → Option Destination → Answer)
    (written : Except StoreError α × Storage) : Except StepError Answer × Storage :=
  match written with
  | (.error e, s) => (.error (.store e), s)
  | (.ok a, s) => (((s.get name).map (answer a)).mapError .store, s)

def acknowledge (answer : Answer) :
    Except StoreError Unit × Storage → Except StepError Answer × Storage
  | (.error e, s) => (.error (.store e), s)
  | (.ok _, s) => (.ok answer, s)

/-- Goes on with a name that writers accept. -/
def named (name : String) (s : Storage)
    (go : ServerName → Except StepError Answer × Storage) : Except StepError Answer × Storage :=
  match ServerName.ofString name with
  | .error e => (.error (.value e), s)
  | .ok n => go n

def setRetry (s : Storage) (name : String) (timings : RetryTimings) :
    Except StepError Answer × Storage :=
  named name s fun n => withRow n.text .retry (s.setRetry n.text timings)

/-- The query that a step's words ask for; the order is looked at first. -/
def query (filter order direction : Option String) (window : Option Window) :
    Except ValueError Query := do
  let order ← (order.map SortKey.ofString).getD (.ok default)
  let direction ← (direction.map Direction.ofString).getD (.ok default)
  return ⟨filter, order, direction, window⟩

def list (s : Storage) (filter order direction : Option String) (window : Option Window) :
    Except StepError Answer := do
  let q ← (query filter order direction window).mapError .value
  let found ← (s.list q).mapError .store
  return .found found

def step (app : App) (s : Storage) : Step → Except StepError Answer × Storage
  | .setRetry name timings => setRetry s name timings
  | .reset name now => setRetry s name (.reset now)
  | .setStream name ordering =>
    named name s fun n => withRow n.text (fun _ => .stream) (s.setStream n.text ordering)
  | .get name => named name s fun n => (((s.get n.text).map .row).mapError .store, s)
  | .insert row => acknowledge .inserted (s.insert row)
  | .drop => acknowledge .done s.drop
  | .create => acknowledge .done s.create
  | .list filter order direction window => (list s filter order direction window, s)
  | .service roles form cap =>
    (((Service.list (m := Id) s.list roles form cap).map .page).mapError .service, s)
  | .http request => (.ok (.response (app.respond s request)), s)

/-- The answers of a run of steps, and the storage that it leaves. -/
def run (app : App) (s : Storage) : List Step → List (Except StepError Answer) × Storage
  | [] => ([], s)
  | a :: r =>
    let first := step app s a
    let rest := run app first.2 r
    (first.1 :: rest.1, rest.2)

end Session
end PeerRoster
