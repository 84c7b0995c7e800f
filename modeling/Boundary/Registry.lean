/-
  Boundary.Registry — symbols and the addresses behind them (`Registry`: `insert`,
  `get`, `install_abi`; `install`, `find`, `find_host_callable`, `lookup_symbol`,
  `register_symbol`, `read_name`).

  The registry maps each symbol to an address and remembers whether a component
  exports it or a host registered it. The first entry of a symbol stays: a later one
  is refused. Hosts cannot register into the reserved namespaces.
-/
import Boundary.Component
import Boundary.Journal

namespace Boundary

inductive Origin where
  | exported
  | host
  deriving DecidableEq, Repr

structure Registry.Entry where
  address : Address
  origin : Origin
  deriving DecidableEq, Repr

structure Registry where
  /-- Newest first; no symbol occurs twice. -/
  symbols : List (Symbol × Registry.Entry) := []
  /-- Whether the registry's own functions are there. -/
  ready : Bool := false
  installed : List Component := []
  deriving DecidableEq, Repr

/-- A text parameter of a boundary call. Texts end at their first zero byte, so they
    contain none. -/
inductive TextArg where
  | null
  | text (s : String)
  /-- Bytes that are not UTF-8. -/
  | malformed
  deriving DecidableEq, Repr

namespace TextArg

/-- The text in the bytes before the first zero. -/
def ofBytes (bytes : List UInt8) : TextArg :=
  match Text.Utf8.read (bytes.takeWhile (· != 0)) with
  | .ok s => text s
  | .error _ => malformed

def text? : TextArg → Option String
  | text s => some s
  | _ => none

def read : TextArg → Except Fault String
  | null => .error .nullText
  | malformed => .error .textNotUtf8
  | text s => .ok s

end TextArg

namespace Registry

def get? (r : Registry) (s : Symbol) : Option Entry := r.symbols.lookup s

def find (r : Registry) (s : Symbol) : Option Address := (r.get? s).map (·.address)

/-- Only what hosts registered is for components to call. -/
def findHost (r : Registry) (s : Symbol) : Option Address :=
  match r.get? s with
  | some ⟨a, .host⟩ => some a
  | _ => none

def insert (r : Registry) (s : Symbol) (e : Entry) : Status × Registry :=
  if (r.get? s).isSome then (Status.duplicateSymbol, r)
  else (Status.ok, { r with symbols := (s, e) :: r.symbols })

/-! ## Installing components -/

def insertExports : List Export → Registry → Registry × List Note
  | [], r => (r, [])
  | e :: rest, r =>
    let (status, r) := r.insert e.symbol ⟨.native e, .exported⟩
    let (r, notes) := insertExports rest r
    if status = Status.ok then (r, notes)
    else (r, .exportedTwice e.symbol.ns e.symbol.name :: notes)

/-- The registry's own functions, once. -/
def prepare (r : Registry) : Registry :=
  if r.ready then r else (insertExports Export.ofRegistry { r with ready := true }).1

/-- The functions of a component, once. -/
def install (r : Registry) (c : Component) : Registry × List Note :=
  let r := r.prepare
  if r.installed.contains c then (r, [])
  else
    let exports := Export.ofComponent c
    let (r, notes) := insertExports exports { r with installed := c :: r.installed }
    (r, notes ++ [.installed exports.length c.ns])

/-! ## Looking up and registering -/

/-- The address of a symbol, or null. -/
def lookup (r : Registry) (ns name : TextArg) : Status × Option Address :=
  match ns.text?, name.text? with
  | some ns, some name =>
    match r.find ⟨ns, name⟩ with
    | some a => (Status.ok, some a)
    | none => (Status.symbolNotFound, none)
  | _, _ => (Status.invalidParam, none)

/-- Registers an address for a host. -/
def register (r : Registry) (ns name : TextArg) (address : Option Address) :
    Status × Registry × List Note :=
  match ns.text?, name.text?, address with
  | some ns, some name, some a =>
    if ns.isEmpty || name.isEmpty then (Status.invalidParam, r, [])
    else if isReserved ns then (Status.invalidParam, r, [.refused ns name])
    else
      let (status, r) := r.insert ⟨ns, name⟩ ⟨a, .host⟩
      (status, r, if status = Status.ok then [.registered ns name] else [])
  | _, _, _ => (Status.invalidParam, r, [])

end Registry

end Boundary
