/-
  Boundary.Fixed — the functions every component exports (`get_version`,
  `get_last_error`, `acquire_instance`, `release_instance`, `class_type_id`).

  Reading the last error is not guarded: a failure there must not overwrite the error
  being read. All others record their failures on their target.
-/
import Boundary.Exchange.Serve
import Boundary.Store

namespace Boundary.Fixed

open Exchange (Cell Place)

variable {σ O : Type} (p : Part σ O)

/-- Fails if the caller passed no place for an output. -/
def require {α : Type} (c : Cell α) : Except Fault Unit :=
  if c.isNone then .error .nullOut else .ok ()

/-- The parts are written in order, up to the first one without a place. -/
def getVersion (v : Version) (major minor micro : Cell UInt32) :
    StateM σ (Status × Cell UInt32 × Cell UInt32 × Cell UInt32) := do
  let (status, _) ← p.guard Handle.null () do
    require major
    require minor
    require micro
  let minor' := if major.isSome then minor.write v.minor else minor
  let micro' := if major.isSome && minor.isSome then micro.write v.micro else micro
  return (status, major.write v.major, minor', micro')

/-- The message, empty if there is none; `hasError` tells the two apart. -/
def getLastError (h : Handle) (capacity : UInt32) (place : Place UInt32 UInt8)
    (hasError : Cell Bool) : StateM σ (Status × Place UInt32 UInt8 × Cell Bool) := do
  match ← (p.lastError h).run with
  | .error why => return (why.code, place, hasError)
  | .ok message =>
    let hasError := hasError.write message.isSome
    match Exchange.serveText (message.getD "") capacity place with
    | .ok place => return (Status.ok, place, hasError)
    | .error why => return (why.code, place, hasError)

def acquireInstance (h : Handle) : StateM σ (Status × Unit) := p.guard h () (p.acquire h)

def releaseInstance [Resource O] (h : Handle) : StateM σ (Status × Unit) :=
  p.guard h () (p.release h)

def classTypeId [Resource O] (h : Handle) (tag : Cell UInt64) : StateM σ (Status × Cell UInt64) :=
  p.guard h tag do
    let o ← p.get h
    require tag
    return some (Resource.tag o).value

end Boundary.Fixed
