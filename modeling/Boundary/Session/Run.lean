/-
  Boundary.Session.Run — carrying out a session (a program over the bindings, with the
  `drop` of each wrapper it lets go of).

  Checks of names come before anything else a step does. A wrapper that is stored under
  a name in use replaces the old one, which is dropped after that; a step that fails
  stores nothing. When all tasks are done the wrappers are dropped in the order of
  their names.
-/
import Boundary.Host.Calculator
import Boundary.Host.Primes
import Boundary.Host.Zoo
import Boundary.Session.Outside
import Boundary.Session.Step

namespace Boundary.Session

open Exchange (Host)
open Host (Borrowed Instance Library)

/-- Steps change the process and may fail. -/
abbrev Turn := ExceptT Problem (Act World)

/-- A computation of the bindings as part of a step. -/
def bindings {α : Type} (x : Host (Process World) α) : Turn α := fun s =>
  let (r, s) := x s
  (r.mapError .failed, s)

/-- The outcome of a part of a step, as an answer of its own. -/
def Turn.outcome {α : Type} (x : Turn α) : Turn (Except Problem α) := fun s =>
  let (r, s) := x s
  (.ok r, s)

/-! ## Libraries and wrappers by name -/

def libraryNamed (name : String) : Turn Library := do
  match (← get).outer.libraries.lookup name with
  | some l => return l
  | none => throw (.noLibrary name)

/-- A library of the given component. -/
def libraryOf (c : Component) (name : String) : Turn Library := do
  let l ← libraryNamed name
  if l.component = c then return l else throw (.noLibrary name)

def keepLibrary (name : String) (l : Library) : Act World Unit :=
  modify fun s => { s with outer := { s.outer with
    libraries := (name, l) :: s.outer.libraries.filter fun e => e.1 != name } }

def wrapperNamed (name : String) : Turn Wrapper := do
  match (← get).outer.wrappers.lookup name with
  | some w => return w
  | none => throw (.noWrapper name)

/-- The object of a wrapper of the given component, whatever its class. -/
def objectOf (c : Component) (name : String) : Turn Instance := do
  let w ← wrapperNamed name
  if w.object.library.component = c then return w.object else throw (.wrongWrapper name)

/-- A wrapper that holds a reference of its own. -/
def ownedNamed (name : String) : Turn Wrapper := do
  let w ← wrapperNamed name
  if w.owned then return w else throw (.wrongWrapper name)

def handleOf : Target → Turn Handle
  | .handle h => pure h
  | .wrapper name => do return (← wrapperNamed name).object.handle

def setWrapper (name : String) (w : Option Wrapper) : Act World Unit :=
  modify fun s => { s with outer := { s.outer with
    wrappers := (w.toList.map (name, ·)) ++ s.outer.wrappers.filter fun e => e.1 != name } }

/-! ## Wrappers that come and go -/

variable (out : Outside World)

/-- Drops the instance of a wrapper, or the view that the wrapper is. -/
def dropWrapper (w : Wrapper) : Act World Unit := do
  if w.owned then
    w.object.drop out.invoker
  else
    Borrowed.drop out.invoker ⟨w.object⟩

/-- Stores a wrapper; the one it replaces is dropped after that. -/
def keepWrapper (name : String) (w : Wrapper) : Turn Unit := do
  let old := (← get).outer.wrappers.lookup name
  setWrapper name (some w)
  if let some old := old then
    dropWrapper out old

def keepAs (name : String) (label : Host.Class) (i : Instance) (owned : Bool) : Turn Value := do
  keepWrapper out name ⟨label, i, owned⟩
  return .stored label i.handle

/-- Stores what a computation makes. -/
def make (name : String) (label : Host.Class) (x : Host (Process World) Instance) (owned : Bool) :
    Turn Value := do
  keepAs out name label (← bindings x) owned

/-- A computation that answers nothing. -/
def effect (x : Host (Process World) Unit) : Turn Value := do
  bindings x
  return .nothing

/-! ## Walks -/

/-- The names of the next animals, at most `limit`; each animal is dropped again. -/
def collectNames (iterator : Instance) : (limit : Nat) → Host (Process World) (List String)
  | 0 => pure []
  | limit + 1 => do
    match ← Host.Zoo.nextAnimal out.invoker iterator with
    | none => return []
    | some animal => do
      let name ← (Host.Zoo.animalName out.invoker animal).outcome
      animal.drop out.invoker
      let name ← name
      return name :: (← collectNames iterator limit)

/-- The values of the enlisted variables from `index` on, up to the first index that holds
    none; each variable is dropped again. -/
def collectValues (calculator : Instance) (index : Nat) :
    (limit : Nat) → Host (Process World) (List Float)
  | 0 => pure []
  | limit + 1 => do
    match ← (Host.Calculator.enlistedVariable out.invoker calculator (UInt32.ofNat index)).outcome with
    | .error _ => return []
    | .ok v => do
      let value ← (Host.Calculator.value out.invoker v).outcome
      v.drop out.invoker
      let value ← value
      return value :: (← collectValues calculator (index + 1) limit)

/-- Stores a new variable and answers its value; without a value it is dropped. -/
def keepComputed (name : String) (x : Host (Process World) Instance) : Turn Value := do
  let v ← bindings x
  match ← (bindings (Host.Calculator.value out.invoker v)).outcome with
  | .ok value => do
    keepWrapper out name ⟨.calculatorVariable, v, true⟩
    return .computed .calculatorVariable v.handle value
  | .error why => do
    v.drop out.invoker
    throw why

/-- The live objects among the first handles. -/
def liveObjects {ω : Type} (s : Process ω) : List LiveObject :=
  (List.range 256).flatMap fun n =>
    let h : Handle := ⟨UInt64.ofNat (n + 1)⟩
    Component.all.filterMap fun c => (s.count? c h).map fun count => ⟨h, c, count⟩

/-! ## Steps -/

def load (c : Component) (name : String) (options : LoadOptions) (way : Way) : Turn Value := do
  let l ← bindings (match way with
    | .component => Library.loadEntry out.invoker c options (.native (.entryPoint c))
    | .scriptEntry => Library.loadEntry out.invoker c options (.foreign (.standIn (.entryPoint c)))
    | .scriptLookup => Library.load out.invoker c options (.foreign .lookup))
  keepLibrary name l
  return .nothing

def cast (name : String) (target : Host.Class) (keep : String) : Turn Value := do
  let w ← ownedNamed name
  if target.component ≠ w.object.library.component then
    throw (.wrongWrapper name)
  setWrapper name none
  make out keep target (Host.cast out.invoker target w.object) true

def classify (name keep : String) : Turn Value := do
  let w ← ownedNamed name
  setWrapper name none
  match ← bindings (Host.classify out.invoker w.object) with
  | some (label, tag) => do
    keepWrapper out keep { w with label := label }
    return .known label tag w.object.handle
  | none => do
    keepWrapper out keep w
    return .unknown w.object

def relabel (name : String) (label : Host.Class) (keep : String) : Turn Value := do
  let w ← ownedNamed name
  if label.component ≠ w.object.library.component then
    throw (.wrongWrapper name)
  setWrapper name none
  keepAs out keep label w.object true

/-- The wrapper is a placeholder afterwards, even if the release fails. -/
def release (name : String) : Turn Value := do
  let w ← ownedNamed name
  let placeholder := w.object.nulled
  let released ← (bindings (w.object.release out.invoker)).outcome
  setWrapper name (some { w with object := placeholder })
  released
  return .released placeholder.isNull

def summarize (ps : List UInt64) : Value :=
  .summary ps.length (ps.foldl (· + ·) 0) ps.head? ps.getLast?

def readHookLog : Turn Value := do
  let k := (← get).outer.hook
  modifyHook fun k => { k with progress := [], ran := [] }
  return .hookLog k.calls k.progress.reverse k.ran.reverse

def readScriptLog : Turn Value := do
  let k := (← get).outer.script
  modifyScript fun k => { k with log := [] }
  return .scriptLog k.log.reverse

def Step.run : Step → Turn Value
  | .load c keep options way => Session.load out c keep options way
  | .version lib => do
    let l ← libraryNamed lib
    return .version (← bindings (l.version out.invoker))
  | .libraryError lib => do
    let l ← libraryNamed lib
    return .message (← bindings (l.lastError out.invoker))
  | .library lib => do return .library (← libraryNamed lib)
  | .typeOfHandle lib target => do
    let h ← handleOf target
    let l ← libraryNamed lib
    return .tag (← bindings (l.classTypeId out.invoker h))
  | .find lib s => do
    let l ← libraryNamed lib
    return .address (← bindings (Host.find out.invoker l.lookup s))
  | .resolveSymbol lib s => do
    let l ← libraryNamed lib
    return .address (some (← bindings (Host.resolveSymbol out.invoker l.lookup s)))
  | .register lib s f => do
    let l ← libraryNamed lib
    effect (Host.register out.invoker l.lookup s (f.map Address.function))
  | .registry s => do
    let r := (← get).registry
    return .addresses (r.find s) (r.findHost s)
  | .createZoo lib keep => do
    let l ← libraryOf .zoo lib
    make out keep .zoo (Host.Zoo.create out.invoker l) true
  | .addAnimal on species name => do
    let i ← objectOf .zoo on
    effect (Host.Zoo.addAnimal out.invoker i species name)
  | .animalCount on => do
    let i ← objectOf .zoo on
    return .count (← bindings (Host.Zoo.animalCount out.invoker i))
  | .animalAt on index keep => do
    let i ← objectOf .zoo on
    make out keep .animal (Host.Zoo.animalAt out.invoker i index) false
  | .iterate on keep => do
    let i ← objectOf .zoo on
    make out keep .animalIterator (Host.Zoo.iterate out.invoker i) true
  | .nextAnimal on keep => do
    let i ← objectOf .zoo on
    match ← bindings (Host.Zoo.nextAnimal out.invoker i) with
    | some animal => keepAs out keep .animal animal true
    | none => return .exhausted
  | .nextMandatoryAnimal on keep => do
    let i ← objectOf .zoo on
    make out keep .animal (Host.Zoo.nextMandatoryAnimal out.invoker i) true
  | .collect on limit => do
    let i ← objectOf .zoo on
    return .names (← bindings (collectNames out i limit))
  | .animalName on => do
    let i ← objectOf .zoo on
    return .text (← bindings (Host.Zoo.animalName out.invoker i))
  | .roar on => do
    let i ← objectOf .zoo on
    return .text (← bindings (Host.Zoo.roar out.invoker i))
  | .createVariable lib initial keep => do
    let l ← libraryOf .calculator lib
    make out keep .calculatorVariable (Host.Calculator.createVariable out.invoker l initial) true
  | .createCalculator lib keep => do
    let l ← libraryOf .calculator lib
    make out keep .calculator (Host.Calculator.createCalculator out.invoker l) true
  | .getVariable on => do
    let i ← objectOf .calculator on
    return .float (← bindings (Host.Calculator.value out.invoker i))
  | .setVariable on value => do
    let i ← objectOf .calculator on
    effect (Host.Calculator.setValue out.invoker i value)
  | .enlist on name => do
    let v ← objectOf .calculator name
    let i ← objectOf .calculator on
    effect (Host.Calculator.enlistVariable out.invoker i v)
  | .enlisted on index keep => do
    let i ← objectOf .calculator on
    make out keep .calculatorVariable (Host.Calculator.enlistedVariable out.invoker i index) true
  | .clear on => do
    let i ← objectOf .calculator on
    effect (Host.Calculator.clearVariables out.invoker i)
  | .values on limit => do
    let i ← objectOf .calculator on
    return .floats (← bindings (collectValues out i 0 limit))
  | .add on keep => do
    let i ← objectOf .calculator on
    keepComputed out keep (Host.Calculator.add out.invoker i)
  | .multiply on keep => do
    let i ← objectOf .calculator on
    keepComputed out keep (Host.Calculator.multiply out.invoker i)
  | .apply on s => do
    let i ← objectOf .calculator on
    effect (Host.Calculator.apply out.invoker i s)
  | .injectPrimes lib source => do
    let l ← libraryOf .calculator lib
    let p ← libraryOf .primes source
    effect (Host.Calculator.injectPrimes out.invoker l p)
  | .injectComponent lib ns lookup => do
    let l ← libraryOf .calculator lib
    effect (Host.Calculator.injectComponent out.invoker l ns lookup)
  | .enlistPrimes on sieve => do
    let s ← objectOf .primes sieve
    let i ← objectOf .calculator on
    effect (Host.Calculator.enlistPrimes out.invoker i s)
  | .createFactorization lib keep => do
    let l ← libraryOf .primes lib
    make out keep .factorizationCalculator (Host.Primes.createFactorization out.invoker l) true
  | .createSieve lib keep => do
    let l ← libraryOf .primes lib
    make out keep .sieveCalculator (Host.Primes.createSieve out.invoker l) true
  | .getValue on => do
    let i ← objectOf .primes on
    return .word (← bindings (Host.Primes.value out.invoker i))
  | .setValue on value => do
    let i ← objectOf .primes on
    effect (Host.Primes.setValue out.invoker i value)
  | .calculate on => do
    let i ← objectOf .primes on
    effect (Host.Primes.calculate out.invoker i)
  | .setCallback on set => do
    let i ← objectOf .primes on
    effect (Host.Primes.setProgressCallback out.invoker i (if set then some (.function .hook) else none))
  | .primeFactors on => do
    let i ← objectOf .primes on
    return .factors (← bindings (Host.Primes.primeFactors out.invoker i))
  | .primes on => do
    let i ← objectOf .primes on
    return .primes (← bindings (Host.Primes.primes out.invoker i))
  | .primesSummary on => do
    let i ← objectOf .primes on
    return summarize (← bindings (Host.Primes.primes out.invoker i))
  | .acquire on keep => do
    let w ← wrapperNamed on
    make out keep w.label (w.object.acquire out.invoker) true
  | .release on => Session.release out on
  | .drop on => do
    let w ← wrapperNamed on
    setWrapper on none
    dropWrapper out w
    return .nothing
  | .cast on target keep => Session.cast out on target keep
  | .classify on keep => Session.classify out on keep
  | .relabel on label keep => Session.relabel out on label keep
  | .resolve target lib on tag borrow keep => do
    let h ← handleOf on
    let l ← libraryOf target.component lib
    let raw : RawHandle := match tag with
      | some tag => .fat ⟨h, tag⟩
      | none => .bare h
    if borrow then
      make out keep target (Host.resolveBorrowed out.invoker l target raw) false
    else
      make out keep target (Host.resolve out.invoker l target raw) true
  | .classTypeId on => do
    let w ← wrapperNamed on
    return .tag (← bindings (w.object.classTypeId out.invoker))
  | .lastError on => do
    let w ← wrapperNamed on
    return .message (← bindings (w.object.lastError out.invoker))
  | .describe on => do return .wrapper (← wrapperNamed on)
  | .count c target => do
    let h ← handleOf target
    return .references ((← get).count? c h)
  | .live => do return .live (liveObjects (← get))
  | .hook plan => do
    modifyHook fun _ => { plan := plan }
    return .nothing
  | .hookLog => readHookLog
  | .script k => do
    modifyScript fun _ => k
    return .nothing
  | .scriptLog => readScriptLog
  | .direct s target other args => do
    let h ← handleOf target
    let o ← handleOf other
    return .direct (← (Direct.run out s { args with handle := h, other := o } : Act World _))

/-! ## Sessions -/

mutual

def Task.run : Task → Act World Answer
  | .step s => do
    let result ← (s.run out).run
    return .step result (← takeNotes)
  | .thread tasks => do return .thread (← onThread (runAll tasks))

def runAll : List Task → Act World (List Answer)
  | [] => pure []
  | t :: rest => do
    let answer ← t.run
    return answer :: (← runAll rest)

end

def dropEach : List (String × Wrapper) → Act World Unit
  | [] => pure ()
  | (_, w) :: rest => do
    dropWrapper out w
    dropEach rest

/-- Drops all wrappers in the order of their names. -/
def dropAll : Act World Unit := do
  let wrappers := (← get).outer.wrappers.mergeSort fun a b => decide (a.1 ≤ b.1)
  modify fun s => { s with outer := { s.outer with wrappers := [] } }
  dropEach out wrappers

/-- A session whose functions outside the components are `out`. -/
def transcript (tasks : List Task) : Act World Transcript := do
  let answers ← runAll out tasks
  let live := liveObjects (← get)
  dropAll out
  let dropNotes ← takeNotes
  return ⟨answers, live, liveObjects (← get), dropNotes⟩

/-- A session in a fresh process. -/
def run (tasks : List Task) : Transcript := (transcript (outside depth) tasks { outer := {} }).1

end Boundary.Session
