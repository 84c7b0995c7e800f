/-
  Boundary.Host.Zoo — zoos, animals and iterators for the host (the methods of
  `ZooLibrary`, `Zoo`, `Animal`, `Tiger` and `AnimalIterator`).

  Handles come back fat, so the class of a returned object is known without a query.
  The functions work on any instance of the component: whether the object is of the
  right class is for the component to say.
-/
import Boundary.Host.Resolve

namespace Boundary.Host

open Exchange (Host Place)

variable {σ : Type} [Journal σ] (via : Invoker σ)

/-- A text that the object answers. -/
def Instance.fetchText (i : Instance)
    (c : Handle → UInt32 → Place UInt32 UInt8 → Call (Place UInt32 UInt8)) : Host σ String := do
  let h ← i.checked
  Exchange.fetchText i.library.options.attempts fun room => do
    return (← i.ask via (c h room.capacity room.narrow)).filled

namespace Zoo

/-- A zoo with the default animals. -/
def create (l : Library) : Host σ Instance := do
  let cell ← l.ask via (.createZoo (some FatHandle.null))
  resolve via l .zoo (.fat (cell.getD FatHandle.null))

/-- The zoo holds the only reference to the new animal. -/
def addAnimal (zoo : Instance) (species : Boundary.Zoo.Species) (name : String) :
    Host σ Unit := do
  let h ← zoo.checked
  if name.toList.contains '\x00' then
    throw (.invalidArgument "name contains null byte")
  zoo.ask via (.addAnimal h species.code (.text name))

def animalCount (zoo : Instance) : Host σ UInt32 := do
  let h ← zoo.checked
  return (← zoo.ask via (.animalCount h (some 0))).getD 0

/-- The animal at an index, lent by the zoo. -/
def animalAt (zoo : Instance) (index : UInt32) : Host σ Instance := do
  let h ← zoo.checked
  let cell ← zoo.ask via (.animalAt h index (some FatHandle.null))
  resolveBorrowed via zoo.library .animal (.fat (cell.getD FatHandle.null))

/-- An iterator over the animals that the zoo has now. -/
def iterate (zoo : Instance) : Host σ Instance := do
  let h ← zoo.checked
  let cell ← zoo.ask via (.iterator h (some FatHandle.null))
  resolve via zoo.library .animalIterator (.fat (cell.getD FatHandle.null))

/-- The next animal, or none at the end. -/
def nextAnimal (iterator : Instance) : Host σ (Option Instance) := do
  let h ← iterator.checked
  let (animal, hasAnimal) ←
    iterator.ask via (.nextAnimal h (some FatHandle.null) (some false))
  if hasAnimal = some true then
    return some (← resolve via iterator.library .animal (.fat (animal.getD FatHandle.null)))
  else
    return none

/-- The next animal; the end is a failure. -/
def nextMandatoryAnimal (iterator : Instance) : Host σ Instance := do
  let h ← iterator.checked
  let cell ← iterator.ask via (.nextMandatoryAnimal h (some FatHandle.null))
  resolve via iterator.library .animal (.fat (cell.getD FatHandle.null))

def animalName (animal : Instance) : Host σ String := animal.fetchText via .animalName

def roar (tiger : Instance) : Host σ String := tiger.fetchText via .tigerRoar

end Zoo

end Boundary.Host
