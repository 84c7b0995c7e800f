/-
  Boundary.Host.Instance — owned references to objects, and views of lent ones
  (`Instance`: `release`, `detach`, `drop`; `Borrowed`).

  An instance stands for one reference, which is released exactly once: when the
  instance is dropped, or earlier on request. To release it or to give it up takes the
  handle out, which leaves an instance over the null handle, a placeholder: its
  operations fail, and dropping it does nothing. Nothing is dropped by itself here:
  where an instance goes out of use, its drop is called.

  A view is an instance that another object lends. It stands for no reference, so its
  drop detaches the instance before that is dropped in turn.
-/
import Boundary.Host.Library

namespace Boundary.Host

open Exchange (Host)

structure Instance where
  library : Library
  handle : Handle
  deriving DecidableEq, Repr

namespace Instance

def isNull (i : Instance) : Bool := i.handle.isNull

def debug (i : Instance) : String :=
  "Instance \x7b component: " ++ Text.quoted i.library.component.name ++ ", handle: "
    ++ i.handle.debug ++ " \x7d"

/-- What is left when the handle is taken out. -/
def nulled (i : Instance) : Instance := { i with handle := Handle.null }

/-- The handle of an instance that is no placeholder. -/
def checked (i : Instance) : Except Failure Handle :=
  if i.isNull then .error .invalidHandle else .ok i.handle

variable {σ : Type} [Journal σ] (via : Invoker σ) (i : Instance)

def call {ρ : Type} (c : Call ρ) : StateM σ (Status × ρ) := i.library.call via c

/-- Checks the status of a call whose target is the object. -/
def check (status : Status) : Host σ Unit := i.library.checkStatus via i.handle status

/-- Calls a function with the object as its target. -/
def ask {ρ : Type} (c : Call ρ) : Host σ ρ := do
  let (status, cells) ← i.call via c
  i.check via status
  return cells

/-- The last error recorded on the object. -/
def lastError : Host σ (Option String) := do
  let h ← i.checked
  i.library.fetchLastError via h

def classTypeId : Host σ Tag := do
  let h ← i.checked
  i.library.classTypeId via h

/-- One more reference to the object. -/
def acquire : Host σ Instance := do
  let h ← i.checked
  i.ask via (.acquireInstance i.library.component h)
  note (.acquired i.library.component.ns h)
  return i

/-- Gives the reference back. The object may be gone then, so a failure is read from the
    running thread's slot. -/
def release : Host σ Unit := do
  if !i.isNull then
    let (status, _) ← i.call via (.releaseInstance i.library.component i.handle)
    note (.released i.library.component.ns i.handle)
    i.library.checkStatus via Handle.null status

/-- Gives the reference back; a failure is only noted. -/
def drop : StateM σ Unit := do
  match ← (i.release via).run with
  | .ok _ => pure ()
  | .error why => note (.dropFailed i.library.component.ns why)

/-- Gives the reference up without giving it back: what is dropped is a placeholder. -/
def detach : StateM σ Handle := do
  i.nulled.drop via
  return i.handle

end Instance

/-- A wrapper that another object lends. Its instance is not dropped with it. -/
structure Borrowed where
  inner : Instance
  deriving DecidableEq, Repr

namespace Borrowed

variable {σ : Type} [Journal σ] (via : Invoker σ) (b : Borrowed)

/-- A reference of one's own to the object. -/
def acquire : Host σ Instance := b.inner.acquire via

/-- The instance is taken out of the view and detached. -/
def drop : StateM σ Unit := do
  let _ ← b.inner.detach via

end Borrowed

end Boundary.Host
