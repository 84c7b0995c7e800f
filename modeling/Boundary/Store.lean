/-
  Boundary.Store — a table at work, with what the whole process shares (`ObjectTable`:
  `guard`, `record_error`, `last_error`; `NEXT_HANDLE`, `GLOBAL_ERRORS`).

  All tables of a process draw handles from one counter, so a handle names at most one
  object ever. Failures of calls that had no live object are kept per thread and
  component. `guard` runs one exported operation: it turns the outcome into a status
  and records a failure on the target as the operation left it.
-/
import Boundary.Exchange.Fetch
import Boundary.Table

namespace Boundary

structure Shared where
  /-- How many handles have been issued. -/
  issued : Nat := 0
  /-- The running thread. -/
  thread : Nat := 0
  /-- How many threads have been started. -/
  threads : Nat := 1
  /-- Last errors without an object, by thread and component. -/
  globals : List ((Nat × String) × String) := []
  /-- Newest first. -/
  journal : List Note := []

namespace Shared

/-- The handle to be issued next. They ascend from one on. -/
def nextHandle (s : Shared) : Handle := ⟨UInt64.ofNat (s.issued + 1)⟩

def note (s : Shared) (n : Note) : Shared := { s with journal := n :: s.journal }

/-- Adds notes in the order given. -/
def notes (s : Shared) (ns : List Note) : Shared :=
  { s with journal := ns.reverse ++ s.journal }

/-- A thread that was not there before runs. -/
def startThread (s : Shared) : Shared :=
  { s with thread := s.threads, threads := s.threads + 1 }

/-- The running thread's last error for a component. -/
def global (s : Shared) (component : String) : Option String :=
  s.globals.lookup (s.thread, component)

def setGlobal (s : Shared) (component message : String) : Shared :=
  let key := (s.thread, component)
  { s with globals := (key, message) :: s.globals.filter fun e => e.1 != key }

end Shared

instance : Journal Shared := ⟨fun n s => s.note n⟩

structure Store (O : Type) where
  shared : Shared
  table : Table O

/-! ## Failing reads and the notes of a cascade -/

/-- The serial number and the state of a live object. -/
def Table.hold {O : Type} (t : Table O) (h : Handle) : Except Fault (Nat × O) :=
  if h.isNull then .error .nullHandle
  else match t.slots.get? h with
    | some s => .ok (s.serial, s.object)
    | none => .error (.unknownHandle h)

/-- The state of a live object. -/
def Table.get {O : Type} (t : Table O) (h : Handle) : Except Fault O := (t.hold h).map (·.2)

/-- A destruction is noted when it happens, a failed release only if it was made for a
    destroyed object: the caller's own one is answered. -/
def Release.notes (component : String) (r : Release) : List Note :=
  match r.fate, r.owner with
  | .destroyed, _ => [.destroyed component r.handle]
  | .unknown, some owner =>
    [.ownedReleaseFailed component r.handle owner (.unknownHandle r.handle)]
  | _, _ => []

/-- What a cascade answers: the fate of its first call. -/
def Release.answer : List Release → Except Fault Unit
  | ⟨h, _, .unknown⟩ :: _ => .error (.unknownHandle h)
  | _ => .ok ()

/-! ## The store of one component inside a larger state -/

/-- Computations of the native side: they change the state and may fail. -/
abbrev Op (σ : Type) := ExceptT Fault (StateM σ)

/-- The outcome of an operation, as an answer of its own. -/
def Op.outcome {σ α : Type} (op : Op σ α) : Op σ (Except Fault α) := fun s =>
  let (r, s) := op s
  (.ok r, s)

/-- Where a state keeps one component's store. -/
structure Part (σ O : Type) where
  view : σ → Store O
  put : Store O → σ → σ

namespace Part

variable {σ O ρ : Type} (p : Part σ O)

/-- Adds a note of this component. -/
def note (n : String → Note) : Op σ Unit := fun s =>
  let st := p.view s
  (.ok (), p.put { st with shared := st.shared.note (n st.table.component) } s)

/-- A new object with one reference. -/
def insert (o : O) : Op σ Handle := fun s =>
  let st := p.view s
  let h := st.shared.nextHandle
  let shared := { st.shared with issued := st.shared.issued + 1 }
  let shared := shared.note (.created st.table.component h)
  (.ok h, p.put { shared := shared, table := st.table.insert h shared.issued o } s)

def get (h : Handle) : Op σ O := fun s => ((p.view s).table.get h, s)

/-- A live object, to be held by a running call: its serial number and its state. -/
def hold (h : Handle) : Op σ (Nat × O) := fun s => ((p.view s).table.hold h, s)

/-- What a call that holds the object sees of it, destroyed or not. -/
def held? (h : Handle) (serial : Nat) : Op σ (Option O) := fun s =>
  (.ok ((p.view s).table.held? h serial), s)

/-- Changes a live object. -/
def update (h : Handle) (f : O → O) : Op σ Unit := fun s =>
  let st := p.view s
  (.ok (), p.put { st with table := st.table.update h f } s)

/-- Changes an object that a running call holds; nobody sees a change to one that is gone. -/
def updateHeld (h : Handle) (serial : Nat) (f : O → O) : Op σ Unit := fun s =>
  let st := p.view s
  (.ok (), p.put { st with table := st.table.updateHeld h serial f } s)

def acquire (h : Handle) : Op σ Unit := fun s =>
  let st := p.view s
  match st.table.acquire h with
  | .ok t => (.ok (), p.put { st with table := t } s)
  | .error e => (.error e, s)

/-- One reference fewer; releasing the null handle changes nothing. -/
def release [Resource O] (h : Handle) : Op σ Unit := fun s =>
  let st := p.view s
  let (t, calls) := st.table.release h
  let shared := st.shared.notes (calls.flatMap (Release.notes st.table.component))
  (Release.answer calls, p.put { shared := shared, table := t } s)

/-- Gives back references that were taken for a call that failed after all. -/
def rollBack [Resource O] : List Handle → Op σ Unit
  | [] => pure ()
  | h :: rest => do
    match ← (p.release h).outcome with
    | .ok _ => pure ()
    | .error why => p.note fun component => .rollbackFailed component h why
    rollBack rest

/-! ## Last errors -/

/-- On the object if it is live, else in the running thread's slot of the component. -/
def recordError (h : Handle) (message : String) : StateM σ Unit := fun s =>
  let st := p.view s
  if !h.isNull && st.table.live h then
    ((), p.put { st with table := st.table.setError h message } s)
  else
    ((), p.put { st with shared := st.shared.setGlobal st.table.component message } s)

/-- The null handle reads the running thread's slot. -/
def lastError (h : Handle) : Op σ (Option String) := fun s =>
  let st := p.view s
  if h.isNull then (.ok (st.shared.global st.table.component), s)
  else match st.table.slots.get? h with
    | some slot => (.ok slot.lastError, s)
    | none => (.error (.unknownHandle h), s)

/-! ## Exported operations -/

/-- Notes and records a failure. -/
def fail (h : Handle) (why : Fault) : StateM σ Unit := do
  discard (p.note fun component => .callFailed component why).run
  p.recordError h why.message

/-- Runs an operation on the target `h`. `cells` are the outputs as the caller passed them:
    a successful operation answers them as it left them, after a failure they are
    unchanged. -/
def guard (h : Handle) (cells : ρ) (op : Op σ ρ) : StateM σ (Status × ρ) := do
  match ← op.run with
  | .ok after => return (Status.ok, after)
  | .error why =>
    p.fail h why
    return (why.code, cells)

end Part

end Boundary
