/-
  Boundary.Host.Resolve — from handles to wrappers (`resolve_instance`, `resolve`,
  `resolve_borrowed`, `cast`, `classify`).

  A handle is admitted as a class if its tag, cached or queried, is that of a known
  concrete class that the class accepts. A tag that no known class reports is admitted
  as whatever was asked for, so that classes added to a component later still serve.
  The null handle gives a placeholder of any class.

  Owned and lent handles go the same way: an instance is built of the handle, and comes
  back with the failure if there is one. An owned one is dropped then, a lent one
  detached.
-/
import Boundary.Host.Class
import Boundary.Host.Instance

namespace Boundary.Host

open Exchange (Host)

variable {σ : Type} [Journal σ] (via : Invoker σ)

/-- An instance as the concrete class that is known for its tag. -/
structure Dispatched where
  known : Class
  inner : Instance
  deriving DecidableEq, Repr

/-- The instance comes back if no class is known for the tag. -/
def dispatch (tag : Tag) (i : Instance) : Except Instance Dispatched :=
  match Class.ofTag? i.library.component tag with
  | some known => .ok ⟨known, i⟩
  | none => .error i

/-- The object comes back if the class does not accept it. -/
def Dispatched.convert (target : Class) (o : Dispatched) : Except Dispatched Instance :=
  if target.accepts.contains o.known then .ok o.inner else .error o

/-- Resolutions fail with the instance that they were given, and its reference. -/
abbrev Resolution (σ : Type) := ExceptT (Failure × Instance) (StateM σ)

/-- Wraps an instance whose tag is known. -/
def wrapTagged (target : Class) (i : Instance) (tag : Tag) : Resolution σ Instance := do
  match dispatch tag i with
  | .ok o =>
    match o.convert target with
    | .ok i => return i
    | .error o => throw (.invalidCast target.name tag, o.inner)
  | .error i => do
    note (.unknownTag tag target.name)
    return i

/-- The tag that came with the handle. One that did not is asked for. -/
def tagOf (i : Instance) : Option Tag → Resolution σ Tag
  | some tag => pure tag
  | none => (i.classTypeId via).adapt (·, i)

def resolveInstance (target : Class) (i : Instance) (cached : Option Tag) :
    Resolution σ Instance := do
  if i.isNull then
    return i
  else
    wrapTagged target i (← tagOf via i cached)

/-- The wrapper that comes of it. An instance that comes back with a failure is for
    `settle` to deal with. -/
def Resolution.settled (x : Resolution σ Instance) (settle : Instance → StateM σ Unit) :
    Host σ Instance := do
  match ← x.run with
  | .ok i => return i
  | .error (why, i) => do
    settle i
    throw why

/-- Adopts the caller's reference to the object, as a wrapper of class `target`. If that
    fails the instance is dropped, which releases the reference. -/
def adopt (target : Class) (i : Instance) (cached : Option Tag) : Host σ Instance :=
  (resolveInstance via target i cached).settled fun i => i.drop via

/-- The object behind a handle that carries a reference for the caller. -/
def resolve (l : Library) (target : Class) (raw : RawHandle) : Host σ Instance :=
  adopt via target ⟨l, raw.handle⟩ raw.cached

/-- The object behind a handle that another object lends, as the instance of a view. If
    that fails the instance is detached, so nothing is released. -/
def resolveBorrowed (l : Library) (target : Class) (raw : RawHandle) : Host σ Instance :=
  (resolveInstance via target ⟨l, raw.handle⟩ raw.cached).settled fun i => do
    let _ ← i.detach via

/-- The same reference as a wrapper of another class; released if the class does not fit. -/
def cast (target : Class) (i : Instance) : Host σ Instance := adopt via target i none

/-- The concrete class of an object, if it is known. A reference whose class cannot be
    queried is released. -/
def classify (i : Instance) : Host σ (Option (Class × Tag)) := do
  match ← (i.classTypeId via).outcome with
  | .ok tag => return (Class.ofTag? i.library.component tag).map fun k => (k, tag)
  | .error why => do
    i.drop via
    throw why

end Boundary.Host
