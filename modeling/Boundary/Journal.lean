/-
  Boundary.Journal — what the library notes while it works (every record it writes to
  `log`).

  Both sides of the boundary note what they do in one journal, in the order in which
  it happens. A note has a level and a text.
-/
import Boundary.Failure
import Boundary.Fault

namespace Boundary

inductive Level where
  | warn
  | debug
  | trace
  deriving DecidableEq, Repr

namespace Level

/-- How much is shown: a level shows itself and what is graver. -/
def rank : Level → Nat
  | warn => 0
  | debug => 1
  | trace => 2

def shows (threshold l : Level) : Bool := decide (l.rank ≤ threshold.rank)

end Level

inductive Note where
  -- objects
  | created (component : String) (h : Handle)
  | destroyed (component : String) (h : Handle)
  | ownedReleaseFailed (component : String) (owned owner : Handle) (why : Fault)
  | rollbackFailed (component : String) (h : Handle) (why : Fault)
  | callFailed (component : String) (why : Fault)
  -- symbols
  | exportedTwice (ns name : String)
  | installed (count : Nat) (ns : String)
  | refused (ns name : String)
  | registered (ns name : String)
  | symbolRegistered (ns name : String)
  | injected (version : Version)
  -- bindings
  | fetched (count : UInt64)
  | grew (required reported : UInt64) (attempt attempts : Nat)
  | messageLost (component : String) (status : Status) (why : Failure)
  | loaded (component ns : String)
  | acquired (ns : String) (h : Handle)
  | released (ns : String) (h : Handle)
  | dropFailed (ns : String) (why : Failure)
  | unknownTag (tag : Tag) (expected : String)
  deriving DecidableEq, Repr

namespace Note

def level : Note → Level
  | ownedReleaseFailed _ _ _ _ | rollbackFailed _ _ _ | exportedTwice _ _ | refused _ _
  | messageLost _ _ _ | dropFailed _ _ => .warn
  | destroyed _ _ | callFailed _ _ | installed _ _ | registered _ _ | symbolRegistered _ _
  | injected _ | grew _ _ _ _ | loaded _ _ | unknownTag _ _ => .debug
  | created _ _ | fetched _ | acquired _ _ | released _ _ => .trace

def text : Note → String
  | created component h => component ++ ": created handle " ++ h.text
  | destroyed component h => component ++ ": destroyed handle " ++ h.text
  | ownedReleaseFailed component owned owner why =>
    component ++ ": releasing handle " ++ owned.text ++ " owned by " ++ owner.text ++ " failed: "
      ++ why.message
  | rollbackFailed component h why =>
    component ++ ": rolling back handle " ++ h.text ++ " failed: " ++ why.message
  | callFailed component why =>
    component ++ ": call failed with " ++ why.code.text ++ ": " ++ why.message
  | exportedTwice ns name => ns ++ "::" ++ name ++ " is exported twice, keeping the first"
  | installed count ns => "installed " ++ toString count ++ " symbols for " ++ ns
  | refused ns name => "refusing to register " ++ ns ++ "::" ++ name ++ ": namespace is reserved"
  | registered ns name => "registered " ++ ns ++ "::" ++ name
  | symbolRegistered ns name => "registered symbol " ++ ns ++ "::" ++ name
  | injected version => "Calculator: injected primes " ++ version.text
  | fetched count => "fetched " ++ toString count.toNat ++ " elements"
  | grew required reported attempt attempts =>
    "required size grew from " ++ toString required.toNat ++ " to " ++ toString reported.toNat
      ++ " elements (attempt " ++ toString attempt ++ "/" ++ toString attempts ++ ")"
  | messageLost component status why =>
    "could not fetch " ++ component ++ " error message for status " ++ status.text ++ ": "
      ++ why.message
  | loaded component ns => "loaded " ++ component ++ " component (namespace " ++ ns ++ ")"
  | acquired ns h => "acquired " ++ ns ++ " handle " ++ h.text
  | released ns h => "released " ++ ns ++ " handle " ++ h.text
  | dropFailed ns why => "failed to release " ++ ns ++ " object: " ++ why.message
  | unknownTag tag expected => "unknown type tag " ++ tag.text ++ " resolved as " ++ expected

end Note

/-- States that keep a journal. -/
class Journal (σ : Type) where
  note : Note → σ → σ

/-- Adds a note to the journal. -/
def note {σ : Type} {m : Type → Type} [MonadState σ m] [Journal σ] (n : Note) : m PUnit :=
  modify (Journal.note n)

end Boundary
