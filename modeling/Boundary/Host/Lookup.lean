/-
  Boundary.Host.Lookup — finding and registering symbols through a lookup method
  (`SymbolLookup`: `from_entry_point`, `find`, `resolve`, `register`; `c_string`).

  A component hands out its lookup method through its entry point; every other
  function, the one for registering included, is found through it. Symbols are passed
  as texts that end at their first zero byte, so a name that contains one is refused.
-/
import Boundary.Call
import Boundary.Text.Quoted

namespace Boundary.Host

open Exchange (Host)

variable {σ : Type} [Journal σ] (via : Invoker σ)

/-- The text as a parameter of a boundary call. -/
def textArg (s : String) : Except Failure TextArg :=
  if s.toList.contains '\x00' then .error (.containsNul (Text.quoted s)) else .ok (.text s)

/-- The lookup method behind an entry point. -/
def openEntry (c : Component) (entry : Address) : Host σ Address := do
  let (status, cell) ← via.call entry (.entryPoint c (some none))
  let unavailable := fun code =>
    Failure.native registryNs code (some "symbol lookup method unavailable")
  if status ≠ Status.ok then
    throw (unavailable status)
  match cell with
  | some (some lookup) => return lookup
  | _ => throw (unavailable Status.symbolNotFound)

/-- The address of a symbol, if it has one. -/
def find (lookup : Address) (s : Symbol) : Host σ (Option Address) := do
  let ns ← textArg s.ns
  let name ← textArg s.name
  let (status, cell) ← via.call lookup (.lookupSymbol ns name (some none))
  if status = Status.ok then
    return cell.getD none
  else if status = Status.symbolNotFound then
    return none
  else
    throw (.native registryNs status (some ("lookup of " ++ s.text ++ " failed")))

/-- The address of a symbol that must have one. -/
def resolveSymbol (lookup : Address) (s : Symbol) : Host σ Address := do
  match ← find via lookup s with
  | some a => return a
  | none => throw (.symbolNotFound s.ns s.name)

/-- Registers an address. The first registration of a symbol stays. -/
def register (lookup : Address) (s : Symbol) (address : Option Address) : Host σ Unit := do
  let f ← resolveSymbol via lookup Export.registerSymbol.symbol
  let ns ← textArg s.ns
  let name ← textArg s.name
  let (status, _) ← via.call f (.registerSymbol ns name address)
  if status = Status.ok then
    note (.symbolRegistered s.ns s.name)
  else if status = Status.duplicateSymbol then
    throw (.duplicateSymbol s.ns s.name)
  else
    throw (.native registryNs status (some ("registration of " ++ s.text ++ " failed")))

end Boundary.Host
