/-
  Boundary.Session.Direct — calls of exported functions without the bindings (through
  the addresses of `all_exports`).

  A direct call may pass null for any output. Every other output starts from a
  sentinel, so what the callee left alone can be told from what it wrote.
-/
import Boundary.Perform

namespace Boundary.Session.Direct

open Exchange (Cell Place)
open Primes (PrimeFactor)

/-! ## Sentinels -/

/-- The byte that fills the caller's memory. -/
def fill : UInt8 := 0x55

def fill32 : UInt32 := 0x55555555

def fill64 : UInt64 := 0x5555555555555555

def fillHandle : Handle := ⟨fill64⟩

def fillFat : FatHandle := ⟨fillHandle, fill64⟩

def fillFloat : Float := Float.ofBits fill64

def fillFactor : PrimeFactor := ⟨fill64, fill32⟩

/-! ## Arguments and outputs -/

/-- The outputs a call can pass null for, by name. -/
inductive Output where
  | out
  | address
  | major
  | minor
  | micro
  | needed
  | buffer
  | hasError
  | hasAnimal
  deriving DecidableEq, Repr

/-- Arguments; every function takes those it knows. -/
structure Args where
  /-- The target. -/
  handle : Handle := Handle.null
  other : Handle := Handle.null
  nulls : List Output := []
  capacity : UInt64 := 0
  /-- The symbol or component that is asked for. -/
  ns : TextArg := .null
  symbol : TextArg := .null
  name : TextArg := .null
  function : Option HostFunction := none
  lookup : Option Address := none
  index : UInt32 := 0
  species : UInt32 := 0
  value : UInt64 := 0
  float : Float := 0
  /-- Whether a callback is set, or removed. -/
  set : Bool := true

/-- The outputs after a call. One that was passed as null still holds its sentinel. -/
inductive Outputs where
  | none
  | address (a : Option Address)
  /-- Nothing if there was no place for an address: a lookup always writes one. -/
  | found (a : Option (Option Address))
  | version (major minor micro : UInt32)
  | text (needed : UInt32) (hasError : Bool) (buffer : List UInt8)
  | word (v : UInt64)
  | number (v : UInt32)
  | float (v : Float)
  | handle (h : Handle)
  | fat (f : FatHandle)
  | next (f : FatHandle) (hasAnimal : Bool)
  | words (needed : UInt64) (buffer : List UInt64)
  | factors (needed : UInt64) (buffer : List PrimeFactor)

namespace Args

variable (a : Args)

/-- The place for an output: null, or one that holds `v`. -/
def cell {α : Type} (o : Output) (v : α) : Cell α := if a.nulls.contains o then none else some v

/-- Room for as many elements as announced, all of them `v`. -/
def place {κ α : Type} (needed : κ) (v : α) : Place κ α :=
  ⟨a.cell .needed needed, a.cell .buffer (.ofList (List.replicate a.capacity.toNat v) v)⟩

/-- The elements of the buffer as the caller sees them. -/
def contents {κ α : Type} (v : α) (p : Place κ α) : List α :=
  match p.buffer with
  | some b => b.toList
  | none => List.replicate a.capacity.toNat v

def text (p : Place UInt32 UInt8) (hasError : Cell Bool) : Outputs :=
  .text (p.needed.getD fill32) (hasError.getD true) (a.contents fill p)

end Args

/-! ## Calls -/

/-- The call of a function with these arguments, and how its outputs are read. -/
structure Prepared where
  {ρ : Type}
  call : Call ρ
  outputs : ρ → Outputs

def Prepared.unit (c : Call Unit) : Prepared := ⟨c, fun _ => .none⟩

def Prepared.word (c : Call (Cell UInt64)) : Prepared := ⟨c, fun v => .word (v.getD fill64)⟩

def Prepared.handle (c : Call (Cell Handle)) : Prepared := ⟨c, fun h => .handle (h.getD fillHandle)⟩

def Prepared.fat (c : Call (Cell FatHandle)) : Prepared := ⟨c, fun f => .fat (f.getD fillFat)⟩

def prepare (a : Args) : Export → Prepared
  | .entryPoint c => ⟨.entryPoint c (a.cell .address none), fun r => .address (r.getD none)⟩
  | .lookupSymbol =>
    ⟨.lookupSymbol a.ns a.symbol (a.cell .address none), fun r => .found r⟩
  | .registerSymbol => .unit (.registerSymbol a.ns a.symbol (a.function.map Address.function))
  | .getVersion c =>
    ⟨.getVersion c (a.cell .major fill32) (a.cell .minor fill32) (a.cell .micro fill32),
     fun (major, minor, micro) =>
      .version (major.getD fill32) (minor.getD fill32) (micro.getD fill32)⟩
  | .getLastError c =>
    ⟨.getLastError c a.handle a.capacity.toUInt32 (a.place fill32 fill) (a.cell .hasError true),
     fun (p, hasError) => a.text p hasError⟩
  | .acquireInstance c => .unit (.acquireInstance c a.handle)
  | .releaseInstance c => .unit (.releaseInstance c a.handle)
  | .classTypeId c => .word (.classTypeId c a.handle (a.cell .out fill64))
  | .createZoo => .fat (.createZoo (a.cell .out fillFat))
  | .addAnimal => .unit (.addAnimal a.handle a.species a.name)
  | .animalCount =>
    ⟨.animalCount a.handle (a.cell .out fill32), fun n => .number (n.getD fill32)⟩
  | .animalAt => .fat (.animalAt a.handle a.index (a.cell .out fillFat))
  | .iterator => .fat (.iterator a.handle (a.cell .out fillFat))
  | .animalName =>
    ⟨.animalName a.handle a.capacity.toUInt32 (a.place fill32 fill), fun p => a.text p none⟩
  | .tigerRoar =>
    ⟨.tigerRoar a.handle a.capacity.toUInt32 (a.place fill32 fill), fun p => a.text p none⟩
  | .nextAnimal =>
    ⟨.nextAnimal a.handle (a.cell .out fillFat) (a.cell .hasAnimal true),
     fun (f, has) => .next (f.getD fillFat) (has.getD true)⟩
  | .nextMandatoryAnimal => .fat (.nextMandatoryAnimal a.handle (a.cell .out fillFat))
  | .createVariable => .handle (.createVariable a.float (a.cell .out fillHandle))
  | .createCalculator => .handle (.createCalculator (a.cell .out fillHandle))
  | .getVariable =>
    ⟨.getVariable a.handle (a.cell .out fillFloat), fun v => .float (v.getD fillFloat)⟩
  | .setVariable => .unit (.setVariable a.handle a.float)
  | .enlistVariable => .unit (.enlistVariable a.handle a.other)
  | .enlistedVariable => .handle (.enlistedVariable a.handle a.index (a.cell .out fillHandle))
  | .clearVariables => .unit (.clearVariables a.handle)
  | .add => .handle (.add a.handle (a.cell .out fillHandle))
  | .multiply => .handle (.multiply a.handle (a.cell .out fillHandle))
  | .apply => .unit (.apply a.handle a.ns a.symbol)
  | .injectComponent => .unit (.injectComponent a.ns a.lookup)
  | .enlistPrimes => .unit (.enlistPrimes a.handle a.other)
  | .createFactorization => .handle (.createFactorization (a.cell .out fillHandle))
  | .createSieve => .handle (.createSieve (a.cell .out fillHandle))
  | .getValue => .word (.getValue a.handle (a.cell .out fill64))
  | .setValue => .unit (.setValue a.handle a.value)
  | .calculate => .unit (.calculate a.handle)
  | .setProgressCallback =>
    .unit (.setProgressCallback a.handle (if a.set then some (.function .hook) else none))
  | .primeFactors =>
    ⟨.primeFactors a.handle a.capacity (a.place fill64 fillFactor),
     fun p => .factors (p.needed.getD fill64) (a.contents fillFactor p)⟩
  | .primes =>
    ⟨.primes a.handle a.capacity (a.place fill64 fill64),
     fun p => .words (p.needed.getD fill64) (a.contents fill64 p)⟩

/-- Calls the function that is registered as `s`, if there is one. -/
def run {ω : Type} (out : Outside ω) (s : Symbol) (a : Args) :
    Act ω (Option (Status × Outputs)) := do
  match (← get).registry.find s, Export.ofSymbol? s with
  | some address, some e => do
    let p := prepare a e
    let (status, cells) ← out.invoker.call address p.call
    return some (status, p.outputs cells)
  | _, _ => return none

end Boundary.Session.Direct
