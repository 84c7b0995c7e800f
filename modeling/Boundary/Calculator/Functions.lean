/-
  Boundary.Calculator.Functions — what the calculator component exports
  (`create_variable`, `variable_get_value`, `variable_set_value`, `create_calculator`,
  `enlist_variable`, `enlisted_variable`, `clear_variables`, `add` and `multiply` over
  `combine`, `apply`, `inject_component`, `enlist_primes` over `read_primes` and
  `injected_error`).

  Variables hold finite numbers only: a value that is not finite is refused wherever it
  comes from. Sieve results are read through the lookup method of an injected primes
  component, which is kept only after its version was checked; a failure there is
  passed on with the status and, if it can be had, the message of that component.
-/
import Boundary.Call
import Boundary.Fixed

namespace Boundary.Calculator

open Exchange (Cell Place Buffer)
open Fixed (require)

variable {ω : Type}

/-- The calculator component's store in a process. -/
abbrev part : Part (Process ω) Object := Process.calculatorPart

def finite (v : Float) : Except Fault Float :=
  if v.isFinite then .ok v else .error (.notFinite (NonFinite.ofFloat v))

/-! ## Variables -/

/-- The value of a variable. -/
def valueOf (v : Handle) : Op (Process ω) Float := do
  match ← part.get v with
  | .var value => return value
  | _ => throw .notVariable

def store (value : Float) : Object → Object
  | .var _ => .var value
  | o => o

def createVariable (initial : Float) (v : Cell Handle) : Act ω (Status × Cell Handle) :=
  part.guard Handle.null v do
    require v
    let initial ← finite initial
    let h ← part.insert (.var initial)
    return some h

def getVariable (v : Handle) (value : Cell Float) : Act ω (Status × Cell Float) :=
  part.guard v value do
    require value
    return some (← valueOf v)

def setVariable (v : Handle) (value : Float) : Act ω (Status × Unit) :=
  part.guard v () do
    let value ← finite value
    let _ ← valueOf v
    part.update v (store value)

/-! ## Calculators -/

/-- The variables enlisted in a calculator. -/
def enlistedIn (calculator : Handle) : Op (Process ω) (List Handle) := do
  match ← part.get calculator with
  | .calculator enlisted => return enlisted
  | _ => throw .notCalculator

def extend (vs : List Handle) : Object → Object
  | .calculator enlisted => .calculator (enlisted ++ vs)
  | o => o

def clear : Object → Object
  | .calculator _ => .calculator []
  | o => o

/-- Puts variables, whose references are the calculator's from now on, at the end of its
    list. If it has none, the references are given back. -/
def enlistAll (calculator : Handle) (vs : List Handle) : Op (Process ω) Unit := do
  match ← (enlistedIn calculator).outcome with
  | .ok _ => part.update calculator (extend vs)
  | .error why => do
    part.rollBack vs
    throw why

def createCalculator (calculator : Cell Handle) : Act ω (Status × Cell Handle) :=
  part.guard Handle.null calculator do
    require calculator
    let h ← part.insert (.calculator [])
    return some h

/-- The calculator takes a reference of its own. -/
def enlistVariable (calculator v : Handle) : Act ω (Status × Unit) :=
  part.guard calculator () do
    let _ ← valueOf v
    part.acquire v
    enlistAll calculator [v]

/-- The caller gets a reference of its own. -/
def enlistedVariable (calculator : Handle) (index : UInt32) (v : Cell Handle) :
    Act ω (Status × Cell Handle) :=
  part.guard calculator v do
    require v
    let enlisted ← enlistedIn calculator
    let some h := enlisted[index.toNat]? | throw (.noVariableAt index)
    part.acquire h
    return some h

/-- Releases in order, up to the first release that fails. -/
def releaseAll : List Handle → Op (Process ω) Unit
  | [] => pure ()
  | h :: rest => do
    part.release h
    releaseAll rest

def clearVariables (calculator : Handle) : Act ω (Status × Unit) :=
  part.guard calculator () do
    let enlisted ← enlistedIn calculator
    part.update calculator clear
    releaseAll enlisted

/-! ## Arithmetic -/

/-- Combines the values of variables, from left to right. -/
def foldValues (op : Float → Float → Float) (acc : Float) : List Handle → Op (Process ω) Float
  | [] => pure acc
  | v :: rest => do foldValues op (op acc (← valueOf v)) rest

/-- A new variable with the combined value of the enlisted ones. -/
def combine (calculator : Handle) (initial : Float) (op : Float → Float → Float)
    (result : Cell Handle) : Act ω (Status × Cell Handle) :=
  part.guard calculator result do
    require result
    let enlisted ← enlistedIn calculator
    let value ← finite (← foldValues op initial enlisted)
    let h ← part.insert (.var value)
    return some h

def add (calculator : Handle) (sum : Cell Handle) : Act ω (Status × Cell Handle) :=
  combine calculator 0 (· + ·) sum

def multiply (calculator : Handle) (product : Cell Handle) : Act ω (Status × Cell Handle) :=
  combine calculator 1 (· * ·) product

/-- Puts the values of variables through a callable, one after the other. -/
def mapValues (f : Float → Act ω Float) : List Handle → Op (Process ω) Unit
  | [] => pure ()
  | v :: rest => do
    let input ← valueOf v
    let output ← finite (← (f input : Act ω Float))
    let _ ← valueOf v
    part.update v (store output)
    mapValues f rest

/-- Only what a host registered can be applied. -/
def apply (out : Outside ω) (calculator : Handle) (ns name : TextArg) : Act ω (Status × Unit) :=
  part.guard calculator () do
    let ns ← ns.read
    let name ← name.read
    let some f := (← getThe (Process ω)).registry.findHost ⟨ns, name⟩
      | throw (.unregistered ns name)
    let enlisted ← enlistedIn calculator
    mapValues (out.apply f) enlisted

/-! ## The primes component -/

def primesNs : String := "primes"

/-- The oldest primes component that can be read. -/
def primesVersion : Version := ⟨1, 2, 0⟩

/-- The address of a primes function. -/
def resolve (via : Invoker (Process ω)) (lookup : Address) (name : String) :
    Op (Process ω) Address := do
  let (status, cell) ←
    (via.call lookup (.lookupSymbol (.text primesNs) (.text name) (some none)) : Act ω _)
  match cell with
  | some (some a) => if status = Status.ok then return a else throw (.unregistered primesNs name)
  | _ => throw (.unregistered primesNs name)

def injectComponent (via : Invoker (Process ω)) (ns : TextArg) (lookup : Option Address) :
    Act ω (Status × Unit) :=
  part.guard Handle.null () do
    let ns ← ns.read
    if ns ≠ primesNs then
      throw (.cannotInject ns)
    let some lookup := lookup | throw .nullLookup
    let f ← resolve via lookup "getversion"
    let (status, major, minor, micro) ←
      (via.call f (.getVersion .primes (some 0) (some 0) (some 0)) : Act ω _)
    if status ≠ Status.ok then
      throw (.versionUnavailable status)
    let found : Version := ⟨major.getD 0, minor.getD 0, micro.getD 0⟩
    if !found.serves primesVersion then
      throw (.incompatible found primesVersion)
    modifyThe (Process ω) fun s => { s with injected := some lookup }
    note (.injected found)

/-- The text that stands for a message that cannot be had. -/
def statusText (status : Status) : String := "Primes Error " ++ status.text

/-- The message that a primes function recorded on `sieve`. -/
def readMessage (via : Invoker (Process ω)) (lookup : Address) (sieve : Handle) :
    Op (Process ω) (Option String) := do
  match ← (resolve via lookup "getlasterror").outcome with
  | .error _ => return none
  | .ok f =>
    let (status, place, hasError) ←
      (via.call f (.getLastError .primes sieve 0 ⟨some 0, none⟩ (some false)) : Act ω _)
    if status ≠ Status.ok || hasError ≠ some true then
      return none
    let needed := place.needed.getD 0
    let (status, place, hasError) ←
      (via.call f (.getLastError .primes sieve needed
        ⟨some needed, some (.fresh needed.toNat 0)⟩ hasError) : Act ω _)
    if status ≠ Status.ok || hasError ≠ some true then
      return none
    return some (Text.Utf8.readLossy ((place.buffer.map Buffer.beforeBlank).getD []))

/-- Fails as the primes component did. -/
def passOn {α : Type} (via : Invoker (Process ω)) (lookup : Address) (sieve : Handle)
    (status : Status) : Op (Process ω) α := do
  let message ← readMessage via lookup sieve
  throw (.foreign status (message.getD (statusText status)))

/-- The result of a sieve of the injected component. -/
def readPrimes (via : Invoker (Process ω)) (lookup : Address) (sieve : Handle) :
    Op (Process ω) (List UInt64) := do
  let f ← resolve via lookup "sievecalculator_getprimes"
  let (status, place) ← (via.call f (.primes sieve 0 ⟨some 0, none⟩) : Act ω _)
  if status ≠ Status.ok then
    passOn via lookup sieve status
  let capacity := place.needed.getD 0
  if !Exchange.addressable UInt64 capacity then
    throw .capacityOverflow
  let (status, place) ←
    (via.call f (.primes sieve capacity
      ⟨some capacity, some (.fresh capacity.toNat 0)⟩) : Act ω _)
  if status ≠ Status.ok then
    passOn via lookup sieve status
  let needed := place.needed.getD 0
  if capacity < needed then
    throw .sourceGrew
  return (place.buffer.map fun b => (b.truncate needed.toNat).toList).getD []

/-- Creates one variable per number, after those in `done`, newest first. -/
def insertAll (done : List Handle) : List UInt64 → Op (Process ω) (List Handle)
  | [] => pure done.reverse
  | p :: rest => do
    let h ← part.insert (.var p.toFloat)
    insertAll (h :: done) rest

/-- Enlists one new variable per prime of a sieve. The calculator holds the only reference to
    each. -/
def enlistPrimes (via : Invoker (Process ω)) (calculator sieve : Handle) :
    Act ω (Status × Unit) :=
  part.guard calculator () do
    let _ ← enlistedIn calculator
    let some lookup := (← getThe (Process ω)).injected | throw .notInjected
    let ps ← readPrimes via lookup sieve
    let vs ← insertAll [] ps
    enlistAll calculator vs

end Boundary.Calculator
