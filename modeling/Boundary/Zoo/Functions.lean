/-
  Boundary.Zoo.Functions — what the zoo component exports (`create_zoo`,
  `zoo_add_animal`, `zoo_animal_count`, `zoo_animal_at`, `zoo_iterator`,
  `animal_name`, `tiger_roar`, and `iterator_next` and `iterator_next_mandatory` over
  `advance`).

  Objects are returned as fat handles. A zoo lends its animals: the caller of
  `animalAt` gets no reference. An iterator hands out one fresh reference per animal,
  and moves on only when it did.
-/
import Boundary.Fixed
import Boundary.Process

namespace Boundary.Zoo

open Exchange (Cell Place)
open Fixed (require)

variable {ω : Type}

/-- The zoo component's store in a process. -/
abbrev part : Part (Process ω) Object := Process.zooPart

/-- The handle with the tag of its object. -/
def fat (h : Handle) : Op (Process ω) FatHandle := do
  let o ← part.get h
  return ⟨h, (Resource.tag o).value⟩

/-- The animals of a zoo. -/
def animalsOf (zoo : Handle) : Op (Process ω) (List Handle) := do
  match ← part.get zoo with
  | .zoo animals => return animals
  | _ => throw .notZoo

def pushAnimal (animal : Handle) : Object → Object
  | .zoo animals => .zoo (animals ++ [animal])
  | o => o

def insertAll : List (Species × String) → Op (Process ω) (List Handle)
  | [] => pure []
  | (species, name) :: rest => do
    let h ← part.insert (.animal species name)
    return h :: (← insertAll rest)

def createZoo (zoo : Cell FatHandle) : Act ω (Status × Cell FatHandle) :=
  part.guard Handle.null zoo do
    require zoo
    let animals ← insertAll defaults
    let h ← part.insert (.zoo animals)
    return some (← fat h)

/-- The zoo holds the only reference to the new animal. -/
def addAnimal (zoo : Handle) (species : UInt32) (name : TextArg) : Act ω (Status × Unit) :=
  part.guard zoo () do
    let _ ← animalsOf zoo
    let some species := Species.ofCode? species | throw (.unknownSpecies species)
    let name ← name.read
    if name.isEmpty then
      throw .emptyName
    let animal ← part.insert (.animal species name)
    part.update zoo (pushAnimal animal)

def animalCount (zoo : Handle) (count : Cell UInt32) : Act ω (Status × Cell UInt32) :=
  part.guard zoo count do
    let animals ← animalsOf zoo
    require count
    if UInt32.size ≤ animals.length then
      throw .tooManyAnimals
    return some (UInt32.ofNat animals.length)

def animalAt (zoo : Handle) (index : UInt32) (animal : Cell FatHandle) :
    Act ω (Status × Cell FatHandle) :=
  part.guard zoo animal do
    require animal
    let animals ← animalsOf zoo
    let some h := animals[index.toNat]? | throw (.noAnimalAt index)
    return some (← fat h)

/-- Takes a reference to each handle, or none at all: what was taken before a failure is
    given back. -/
def acquireAll (taken : List Handle) : List Handle → Op (Process ω) Unit
  | [] => pure ()
  | h :: rest => do
    match ← (part.acquire h).outcome with
    | .ok _ => acquireAll (taken ++ [h]) rest
    | .error why => do
      part.rollBack taken
      throw why

def iterator (zoo : Handle) (iterator : Cell FatHandle) : Act ω (Status × Cell FatHandle) :=
  part.guard zoo iterator do
    require iterator
    let animals ← animalsOf zoo
    acquireAll [] animals
    let h ← part.insert (.iterator animals 0)
    return some (← fat h)

def animalName (animal : Handle) (capacity : UInt32) (place : Place UInt32 UInt8) :
    Act ω (Status × Place UInt32 UInt8) :=
  part.guard animal place do
    match ← part.get animal with
    | .animal _ name => Exchange.serveText name capacity place
    | _ => throw .notAnimal

def roar (name : String) : String := name ++ " roars!"

def tigerRoar (tiger : Handle) (capacity : UInt32) (place : Place UInt32 UInt8) :
    Act ω (Status × Place UInt32 UInt8) :=
  part.guard tiger place do
    match ← part.get tiger with
    | .animal .tiger name => Exchange.serveText (roar name) capacity place
    | .animal _ name => throw (.notTiger name)
    | _ => throw .notAnimal

def stepOn : Object → Object
  | .iterator animals position => .iterator animals (position + 1)
  | o => o

/-- The next animal with a reference for the caller, or none at the end of the list. -/
def advance (iterator : Handle) : Op (Process ω) (Option FatHandle) := do
  match ← part.get iterator with
  | .iterator animals position =>
    match animals[position]? with
    | none => return none
    | some h => do
      let animal ← fat h
      part.acquire h
      part.update iterator stepOn
      return some animal
  | _ => throw .notIterator

/-- The end of the list is no failure: `hasAnimal` tells. -/
def nextAnimal (iterator : Handle) (animal : Cell FatHandle) (hasAnimal : Cell Bool) :
    Act ω (Status × Cell FatHandle × Cell Bool) :=
  part.guard iterator (animal, hasAnimal) do
    require animal
    require hasAnimal
    match ← advance iterator with
    | some next => return (some next, some true)
    | none => return (some FatHandle.null, some false)

def nextMandatoryAnimal (iterator : Handle) (animal : Cell FatHandle) :
    Act ω (Status × Cell FatHandle) :=
  part.guard iterator animal do
    require animal
    match ← advance iterator with
    | some next => return some next
    | none => throw .exhausted

end Boundary.Zoo
