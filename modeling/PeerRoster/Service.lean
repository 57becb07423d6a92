import PeerRoster.Listing.Form
import PeerRoster.Store.Error

/-! The listing service for administrators: checks the role, reads the form, bounds the page, asks a
reader once, and answers with a page that names the next one. -/
namespace PeerRoster

structure Page where
  destinations : List Destination
  total : UInt64
  nextToken : Option String
  deriving DecidableEq

namespace Page

/-- The offset of the next page, if the window ends before the total. It counts the rows that were
returned, not those that were asked for. -/
def next? (start limit total : UInt64) (returned : Nat) : Option UInt64 :=
  if Words.addSat start limit < total then some (Words.saturate (start.toNat + returned)) else none

def token (offset : UInt64) : String := String.ofList (Numeral.decimal offset.toNat)

def ofFound (w : Window) (found : Found) : Page :=
  ⟨found.rows, found.total, (next? w.start w.limit found.total found.rows.length).map token⟩

/-- Without a token there is no member for it. -/
def toJson (p : Page) : Json :=
  .obj ([(.text "destinations", .arr (p.destinations.map Destination.toJson)),
    (.text "total", .ofUInt64 p.total)] ++
      p.nextToken.toList.map fun token => (.text "next_token", .str (.text token)))

end Page

inductive ServiceError
  | forbidden
  | form (cause : FormError)
  | store (cause : StoreError)
  deriving DecidableEq

namespace ServiceError

def message : ServiceError → String
  | .forbidden => "You are not a server admin"
  | .form cause => cause.message
  | .store cause => "Repository error: " ++ cause.message

end ServiceError

namespace Service

def adminRole : String := "admin"

def hasRole (role : String) (roles : List String) : Bool := roles.contains role

def ensureRole (role : String) (roles : List String) : Except ServiceError Unit :=
  if hasRole role roles then .ok () else .error .forbidden

/-- A window that is no longer than the bound, if there is one. -/
def bounded (cap : Option UInt64) (w : Window) : Window :=
  match cap with
  | none => w
  | some c => { w with limit := min w.limit c }

/-- The widest window, for a query that names none. -/
def wholeWindow : Window := ⟨0, 0xFFFFFFFFFFFFFFFF⟩

/-- The window that the reader is asked for, and the query with it. -/
def prepare (roles : List String) (form : Form) (cap : Option UInt64) :
    Except ServiceError (Window × Query) := do
  ensureRole adminRole roles
  let q ← form.toQuery.mapError .form
  let w := bounded cap (q.window.getD wholeWindow)
  return (w, { q with window := some w })

def answer (w : Window) : Except StoreError Found → Except ServiceError Page
  | .ok found => .ok (.ofFound w found)
  | .error e => .error (.store e)

/-- Lists destinations from any reader, whatever else asking it involves. -/
def list {m : Type → Type} [Monad m] (read : Query → m (Except StoreError Found))
    (roles : List String) (form : Form) (cap : Option UInt64) : m (Except ServiceError Page) :=
  match prepare roles form cap with
  | .error e => pure (.error e)
  | .ok (w, q) => do return answer w (← read q)

end Service

end PeerRoster
