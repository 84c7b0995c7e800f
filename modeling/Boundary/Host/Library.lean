/-
  Boundary.Host.Library — a loaded component (`BaseTable`: `load`, `version`,
  `class_type_id`; `load_from_entry_point`; `check_status`, `fetch_last_error`).

  Loading resolves the fixed functions, checks the binary version, and resolves the
  component's own functions, in this order; the first failure ends it. A call that
  answers a status other than success fails with that status whatever happens next:
  the message is fetched from the component, and left out if that cannot be done.
-/
import Boundary.Host.Lookup

namespace Boundary.Host

open Exchange (Host Room Filled Place)

/-- Journals beside other state. -/
instance {σ τ : Type} [Journal σ] : Journal (σ × τ) := ⟨fun n s => (Journal.note n s.1, s.2)⟩

structure Library where
  component : Component
  options : LoadOptions
  /-- The lookup method it was loaded through. -/
  lookup : Address
  /-- The functions resolved so far. -/
  resolved : List (Export × Address)
  deriving DecidableEq, Repr

namespace Library

/-- Where calls of a function go. -/
def address (l : Library) (e : Export) : Address := (l.resolved.lookup e).getD (.native e)

def debug (l : Library) : String :=
  l.component.name ++ "Library \x7b base: BaseTable \x7b component: "
    ++ Text.quoted l.component.name ++ ", namespace: " ++ Text.quoted l.component.ns
    ++ ", options: " ++ l.options.debug ++ ", .. \x7d, .. \x7d"

variable {σ : Type} [Journal σ] (via : Invoker σ) (l : Library)

/-- Calls a function of the component. -/
def call {ρ : Type} (c : Call ρ) : StateM σ (Status × ρ) := via.call (l.address c.target) c

/-! ## The last-error channel -/

/-- One call for the last error. The flag beside the state is the caller's, and stays as it
    was when the callee does not write it. -/
def askLastError (h : Handle) (room : Room UInt32) : Host (σ × Bool) (Filled UInt32 UInt8) :=
  fun (s, flag) =>
    let ((status, place, hasError), s) :=
      l.call via (.getLastError l.component h room.capacity room.narrow (some flag)) s
    (if status = Status.ok then .ok place.filled
      else .error (.native l.component.name status none),
      (s, hasError.getD flag))

/-- The last error recorded for `h`. The null handle asks for the running thread's. -/
def fetchLastError (h : Handle) : Host σ (Option String) := fun s =>
  let (r, (s, flag)) :=
    (Exchange.fetchText l.options.attempts (l.askLastError via h) : Host (σ × Bool) String)
      (s, false)
  (r.map fun message => if flag then some message else none, s)

/-- The message that goes with a status. -/
def messageFor (h : Handle) (status : Status) : StateM σ (Option String) := do
  match ← (l.fetchLastError via h).run with
  | .ok message => return message
  | .error why => do
    note (.messageLost l.component.name status why)
    return none

/-- Fails if `status`, the answer of a call with target `h`, is not success. -/
def checkStatus (h : Handle) (status : Status) : Host σ Unit := do
  if status ≠ Status.ok then
    let message ← l.messageFor via h status
    throw (.native l.component.name status message)

/-- Calls a function that has no target. -/
def ask {ρ : Type} (c : Call ρ) : Host σ ρ := do
  let (status, cells) ← l.call via c
  l.checkStatus via Handle.null status
  return cells

/-- The last error of the running thread's calls without a target. -/
def lastError : Host σ (Option String) := l.fetchLastError via Handle.null

/-! ## The fixed functions -/

def version : Host σ Version := do
  let (major, minor, micro) ← l.ask via (.getVersion l.component (some 0) (some 0) (some 0))
  return ⟨major.getD 0, minor.getD 0, micro.getD 0⟩

/-- The tag of the object behind a handle. -/
def classTypeId (h : Handle) : Host σ Tag := do
  if h.isNull then
    throw .invalidHandle
  let (status, tag) ← l.call via (.classTypeId l.component h (some 0))
  l.checkStatus via h status
  return ⟨tag.getD 0⟩

/-! ## Loading -/

def resolveAll (lookup : Address) : List Export → Host σ (List (Export × Address))
  | [] => pure []
  | e :: rest => do
    let a ← resolveSymbol via lookup e.symbol
    return (e, a) :: (← resolveAll lookup rest)

/-- Fails if the binary does not serve the bindings. -/
def verifyVersion : Host σ Unit := do
  if l.options.verify then
    let native ← l.version via
    if !native.serves l.component.binding then
      throw (.incompatibleVersion l.component.name native l.component.binding)

/-- Loads a component through a lookup method. -/
def load (c : Component) (options : LoadOptions) (lookup : Address) : Host σ Library := do
  let base : Library := ⟨c, options, lookup, ← resolveAll via lookup (Export.fixed c)⟩
  base.verifyVersion via
  note (.loaded c.name c.ns)
  return { base with resolved := base.resolved ++ (← resolveAll via lookup (Export.specific c)) }

/-- Loads a component through an entry point. -/
def loadEntry (c : Component) (options : LoadOptions) (entry : Address) : Host σ Library := do
  load via c options (← openEntry via c entry)

end Library

end Boundary.Host
