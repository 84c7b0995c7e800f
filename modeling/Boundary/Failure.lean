/-
  Boundary.Failure — why a call of the bindings failed (`Error`: `code`,
  `native_message`, `is_native`, `is_invalid_cast`, `is_no_result`, `is_aborted`).

  A failure corresponds to a status code where one fits, has a text, and carries the
  component's own message when the component raised it.
-/
import Boundary.Handle
import Boundary.Status
import Boundary.Text.Utf8
import Boundary.Version

namespace Boundary

inductive Failure where
  /-- The wrapper is a placeholder, or was released. -/
  | invalidHandle
  /-- The argument cannot be passed across the boundary. -/
  | invalidArgument (what : String)
  /-- A boundary call answered a status other than success. -/
  | native (component : String) (code : Status) (message : Option String)
  /-- The source grew between the size query and the fill on every attempt. -/
  | capacityRace (attempts : Nat)
  | invalidCast (expected : String) (actual : Tag)
  | incompatibleVersion (component : String) (native binding : Version)
  | symbolNotFound (ns name : String)
  | duplicateSymbol (ns name : String)
  | invalidString (fault : Text.Utf8.Fault)
  /-- More memory was asked for than can be addressed. -/
  | capacityOverflow
  deriving DecidableEq, Repr

namespace Failure

/-- The status code the failure corresponds to, if any. -/
def code : Failure → Option Status
  | invalidHandle | invalidArgument _ => some Status.invalidParam
  | native _ code _ => some code
  | capacityRace _ => some Status.bufferTooSmall
  | invalidCast _ _ => some Status.invalidCast
  | incompatibleVersion _ _ _ => some Status.incompatibleVersion
  | symbolNotFound _ _ => some Status.symbolNotFound
  | duplicateSymbol _ _ => some Status.duplicateSymbol
  | invalidString _ | capacityOverflow => none

def message : Failure → String
  | invalidHandle => "invalid handle"
  | invalidArgument what => "invalid argument: " ++ what
  | native component code detail =>
    component ++ " Error " ++ code.text ++ match detail with
      | some m => " (" ++ m ++ ")"
      | none => ""
  | capacityRace attempts =>
    "buffer size changed on every attempt (" ++ toString attempts ++ " attempts)"
  | invalidCast expected actual => "invalid cast: " ++ actual.text ++ " is not a " ++ expected
  | incompatibleVersion component found binding =>
    component ++ " binary version " ++ found.text ++ " is incompatible with bindings "
      ++ binding.text
  | symbolNotFound ns name => "symbol not found: " ++ ns ++ "::" ++ name
  | duplicateSymbol ns name => "duplicate symbol: " ++ ns ++ "::" ++ name
  | invalidString fault => "invalid string: " ++ fault.text
  | capacityOverflow => "capacity overflow"

/-- The message fetched from the component. -/
def nativeMessage : Failure → Option String
  | native _ _ message => message
  | _ => none

def isNative : Failure → Bool
  | native _ _ _ => true
  | _ => false

/-- A type mismatch, on either side of the boundary. -/
def isInvalidCast (f : Failure) : Bool := f.code == some Status.invalidCast

def isNoResult (f : Failure) : Bool := f.code == some Status.noResult

def isAborted (f : Failure) : Bool := f.code == some Status.aborted

/-- The text cannot be passed on because it contains the terminator. -/
def containsNul (quotedText : String) : Failure :=
  invalidArgument (quotedText ++ " contains a null byte")

end Failure

end Boundary
