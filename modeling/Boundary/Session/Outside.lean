/-
  Boundary.Session.Outside — the functions of a session that components call (a
  `ProgressCallback`, a `UnaryFn`, an injected `SymbolLookupFn`).

  Callbacks follow the hook, stand-ins the script. Both may act on exported functions,
  which may call back again; `outside n` allows for calls nested `n` deep, and at the
  bottom nothing outside the components acts.
-/
import Boundary.Perform
import Boundary.Session.World

namespace Boundary.Session

open Exchange (Cell Place)
open Primes (Progress)

/-! ## Actions -/

/-- Runs an action, if its function is registered. -/
def act (out : Outside World) (a : Action) : Act World (Option Status) := do
  let address? := (← get).registry.find a.call.target.symbol
  match address? with
  | some address =>
    let (status, _) ← out.invoker.call address a.call
    return some status
  | none => return none

/-! ## The hook -/

def modifyHook (f : Hook → Hook) : Act World Unit :=
  modify fun s => { s with outer := { s.outer with hook := f s.outer.hook } }

/-- Runs the actions of the rules that are due at call `n`. -/
def actAll (out : Outside World) (n : Nat) : List HookRule → Act World Unit
  | [] => pure ()
  | r :: rest => do
    if let some a := r.action then
      if let some status ← act out a then
        modifyHook fun k => { k with ran := (n, a, status) :: k.ran }
    actAll out n rest

/-- One call of the hook; it answers the rules that were due. -/
def callHook (out : Outside World) (report : Option Progress) : Act World (List HookRule) := do
  modifyHook fun k =>
    { k with calls := k.calls + 1, progress := report.toList ++ k.progress }
  let k := (← get).outer.hook
  let due := k.due k.calls
  actAll out k.calls due
  return due

def progress (out : Outside World) (p : Progress) : Act World Bool := do
  let due ← callHook out (some p)
  return due.any (·.abort)

def applyFunction (out : Outside World) (f : HostFunction) (x : Float) : Act World Float := do
  match f with
  | .hook => do
    let due ← callHook out none
    return (due.findSome? (·.returns)).getD (f.value x)
  | _ => return f.value x

/-! ## The script -/

def modifyScript (f : Script → Script) : Act World Unit :=
  modify fun s => { s with outer := { s.outer with script := f s.outer.script } }

/-- The functions that the script can stand in for. -/
def standIns : List Export :=
  Component.all.flatMap Export.fixed
    ++ [.animalName, .tigerRoar, .createZoo, .nextAnimal, .createCalculator, .createSieve,
        .createFactorization, .primes, .primeFactors, .registerSymbol]

/-- Copies what fits and reports the count. -/
def fill {κ α : Type} (place : Place κ α) (data : List α) (capacity : Nat) (needed : κ) :
    Place κ α :=
  ⟨place.needed.write needed, place.buffer.map (·.overwrite (data.take capacity))⟩

def fillBytes (r : Reply) (capacity : UInt32) (place : Place UInt32 UInt8) : Place UInt32 UInt8 :=
  fill place r.bytes capacity.toNat ((r.needed.getD (UInt64.ofNat r.bytes.length)).toUInt32)

/-- Writes the version part with an index, if the reply has it. -/
def Reply.writePart (r : Reply) (index : Nat) (cell : Cell UInt32) : Cell UInt32 :=
  match r.version[index]?.join with
  | some v => cell.write v
  | none => cell

/-- The cells as a reply leaves them. -/
def Reply.write (r : Reply) {ρ : Type} : Call ρ → ρ
  | .getVersion _ major minor micro =>
    (r.writePart 0 major, r.writePart 1 minor, r.writePart 2 micro)
  | .getLastError _ _ capacity place hasError =>
    (fillBytes r capacity place,
     match r.hasError with | some b => hasError.write b | none => hasError)
  | .classTypeId _ _ tag => tag.write r.tag
  | .animalName _ capacity place => fillBytes r capacity place
  | .tigerRoar _ capacity place => fillBytes r capacity place
  | .createZoo zoo => zoo.write ⟨r.handle, r.tag⟩
  | .nextAnimal _ animal hasAnimal => (animal.write ⟨r.handle, r.tag⟩, hasAnimal.write r.has)
  | .createCalculator calculator => calculator.write r.handle
  | .createSieve calculator => calculator.write r.handle
  | .createFactorization calculator => calculator.write r.handle
  | .primes _ capacity place =>
    fill place r.words capacity.toNat (r.needed.getD (UInt64.ofNat r.words.length))
  | .primeFactors _ capacity place =>
    fill place r.factors capacity.toNat (r.needed.getD (UInt64.ofNat r.factors.length))
  | c => c.cells

/-- The log row of a call. -/
def row (key : String) {ρ : Type} : Call ρ → Row
  | .getLastError _ h capacity _ _ => .called key [h.raw, capacity.toUInt64]
  | .acquireInstance _ h => .called key [h.raw]
  | .releaseInstance _ h => .called key [h.raw]
  | .classTypeId _ h _ => .called key [h.raw]
  | .animalName h capacity _ => .called key [h.raw, capacity.toUInt64]
  | .tigerRoar h capacity _ => .called key [h.raw, capacity.toUInt64]
  | .nextAnimal h _ _ => .called key [h.raw]
  | .primes h capacity _ => .called key [h.raw, capacity]
  | .primeFactors h capacity _ => .called key [h.raw, capacity]
  | .registerSymbol ns name _ =>
    .registering key (Symbol.text ⟨ns.text?.getD "", name.text?.getD ""⟩)
  | _ => .called key []

/-- A call of a function that stands in for `e`. -/
def standIn (out : Outside World) (e : Export) {ρ : Type} (c : Call ρ) :
    Act World (Status × ρ) := do
  let key := e.symbol.text
  let (reply, script) := (← get).outer.script.next key
  modifyScript fun _ => script.addRow (row key c)
  if let some a := reply.action then
    if let some status ← act out a then
      modifyScript (·.addRow (.ran a status))
  return (reply.status, reply.write c)

/-- A lookup through the script; what it says nothing about is looked up in the registry. -/
def standInLookup (ns name : TextArg) (address : Cell (Option Address)) :
    Act World (Status × Cell (Option Address)) := do
  let s ← get
  let symbol : Symbol := ⟨ns.text?.getD "", name.text?.getD ""⟩
  match s.outer.script.symbols.lookup symbol.text with
  | some (.status status) => return (status, address)
  | some .null => return (Status.ok, address.write none)
  | some (.replies _) =>
    let found := (standIns.find? fun e => decide (e.symbol = symbol)).map fun e =>
      Address.foreign (.standIn e)
    return (Status.ok, address.write found)
  | none => lookupSymbol ns name address

/-- The script's entry point hands out the script's lookup method. -/
def standInEntry (address : Cell (Option Address)) :
    Act World (Status × Cell (Option Address)) := do
  let script := (← get).outer.script
  return (script.entryStatus,
    if script.entryNull then address else address.write (some (.foreign .lookup)))

def callForeign (out : Outside World) (f : Foreign) {ρ : Type} (c : Call ρ) :
    Act World (Status × ρ) :=
  match f, c with
  | .lookup, .lookupSymbol ns name address => standInLookup ns name address
  | .standIn (.entryPoint _), .entryPoint _ address => standInEntry address
  | .standIn e, c => standIn out e c
  | _, c => pure (Status.notImplemented, c.cells)

/-! ## All functions -/

/-- Reaches nothing. -/
def silent : Outside World where
  call _ c := pure (Status.notImplemented, c.cells)
  apply _ x := pure x
  progress _ _ := pure false

/-- The functions of the session, with calls nested up to the given depth. -/
def outside : Nat → Outside World
  | 0 => silent
  | n + 1 =>
    { call := fun f c => callForeign (outside n) f c
      apply := fun a x =>
        match a with
        | .foreign (.function f) => applyFunction (outside n) f x
        | _ => pure x
      progress := fun _ p => progress (outside n) p }

/-- Deeper nesting than any memory has room for. -/
def depth : Nat := 4294967296

end Boundary.Session
