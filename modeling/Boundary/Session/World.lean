/-
  Boundary.Session.World — what a session keeps outside the components (libraries and
  wrappers, owned or `Borrowed`).

  Loaded libraries and wrappers are kept by name. The hook is what callbacks do: its
  plan says at which call it acts on exported functions, aborts or returns a value. The
  script is a stand-in component: it answers lookups itself, and its functions answer
  what they were told to, one reply after the other, the last one for good.
-/
import Boundary.Host.Class
import Boundary.Host.Instance
import Boundary.Primes.Progress

namespace Boundary.Session

open Host (Instance Library)
open Primes (PrimeFactor Progress)

/-! ## Wrappers -/

structure Wrapper where
  /-- The class it was asked for. -/
  label : Host.Class
  object : Instance
  /-- Whether it holds a reference of its own, or the object is lent to it. -/
  owned : Bool
  deriving DecidableEq, Repr

namespace Wrapper

/-- The handle by the name of its class. -/
def bareDebug (label : Host.Class) (h : Handle) : String :=
  label.shortName ++ " \x7b handle: " ++ h.debug ++ " \x7d"

/-- A classified object, by the name of its class. -/
def classifiedDebug (label : Host.Class) (h : Handle) : String :=
  label.shortName ++ "(" ++ bareDebug label h ++ ")"

def debug (w : Wrapper) : String :=
  let inner := bareDebug w.label w.object.handle
  if w.owned then inner else "Borrowed(" ++ inner ++ ")"

end Wrapper

/-! ## Actions -/

/-- A call that a hook or a stand-in makes on an exported function. -/
inductive Action where
  | acquire (c : Component) (h : Handle)
  | release (c : Component) (h : Handle)
  | calculate (h : Handle)
  | clear (h : Handle)
  | setValue (h : Handle) (value : UInt64)
  | noCallback (h : Handle)
  | setVariable (h : Handle) (value : Float)

namespace Action

def name : Action → String
  | acquire _ _ => "acquire"
  | release _ _ => "release"
  | calculate _ => "calculate"
  | clear _ => "clear"
  | setValue _ _ => "set_value"
  | noCallback _ => "no_callback"
  | setVariable _ _ => "set_variable"

def call : Action → Call Unit
  | acquire c h => .acquireInstance c h
  | release c h => .releaseInstance c h
  | calculate h => .calculate h
  | clear h => .clearVariables h
  | setValue h value => .setValue h value
  | noCallback h => .setProgressCallback h none
  | setVariable h value => .setVariable h value

end Action

/-! ## The hook -/

structure HookRule where
  /-- The call it is for, counted from one; every call if it is zero. -/
  onCall : Nat := 0
  action : Option Action := none
  abort : Bool := false
  /-- What the callable returns. -/
  returns : Option Float := none

structure Hook where
  plan : List HookRule := []
  /-- Calls so far. -/
  calls : Nat := 0
  /-- What was reported, newest first. -/
  progress : List Progress := []
  /-- Actions that ran: the call they ran at and the status they answered. Newest first. -/
  ran : List (Nat × Action × Status) := []

namespace Hook

/-- The rules for call `n`, in plan order. -/
def due (k : Hook) (n : Nat) : List HookRule :=
  k.plan.filter fun r => r.onCall == n || r.onCall == 0

end Hook

/-! ## The stand-in component -/

/-- What a stand-in function answers; every function takes the fields it knows. -/
structure Reply where
  status : Status := Status.ok
  /-- The parts of the version; one that is missing is not written. -/
  version : List (Option UInt32) := []
  bytes : List UInt8 := []
  words : List UInt64 := []
  factors : List PrimeFactor := []
  /-- The count reported; the length of the data if it is none. -/
  needed : Option UInt64 := none
  /-- Not written if it is none. -/
  hasError : Option Bool := none
  handle : Handle := Handle.null
  tag : UInt64 := 0
  has : Bool := false
  action : Option Action := none

/-- How the stand-in lookup method answers for a symbol. -/
inductive Spec where
  /-- With this status and no address. -/
  | status (s : Status)
  /-- With success and the null address. -/
  | null
  /-- With a function that gives these replies. -/
  | replies (rs : List Reply)

/-- A row of the script's log. -/
inductive Row where
  | called (key : String) (args : List UInt64)
  | registering (key symbol : String)
  | ran (a : Action) (status : Status)

structure Script where
  /-- What the entry point answers. -/
  entryStatus : Status := Status.ok
  entryNull : Bool := false
  symbols : List (String × Spec) := []
  /-- Calls so far, by function. -/
  served : List (String × Nat) := []
  /-- Newest first. -/
  log : List Row := []

namespace Script

/-- The reply to the next call of a function, and the script with that call counted. -/
def next (k : Script) (key : String) : Reply × Script :=
  let n := (k.served.lookup key).getD 0
  let reply := match k.symbols.lookup key with
    | some (.replies rs) => (rs[n]?.orElse fun _ => rs.getLast?).getD {}
    | _ => {}
  (reply, { k with served := (key, n + 1) :: k.served.filter fun e => e.1 != key })

def addRow (k : Script) (row : Row) : Script := { k with log := row :: k.log }

end Script

/-! ## The world -/

structure World where
  libraries : List (String × Library) := []
  wrappers : List (String × Wrapper) := []
  hook : Hook := {}
  script : Script := {}

end Boundary.Session
