/-
  Boundary.Bench — tables of plain nodes, on their own (`ObjectTable` without the
  exported functions over it).

  Several tables share one process: the handle counter, the threads and the journal.
  A node has a tag and owns what it was made with. Steps work on one table each, by
  index.
-/
import Boundary.Thread

namespace Boundary.Bench

structure Node where
  tag : Tag
  owned : List Handle
  deriving DecidableEq, Repr

instance : Resource Node := ⟨Node.tag, Node.owned⟩

structure State where
  shared : Shared := {}
  tables : List (Table Node)

instance : Threaded State := ⟨State.shared, fun shared s => { s with shared := shared }⟩

/-- The table with an index; there is an unnamed empty one where there is none. -/
def part (index : Nat) : Part State Node where
  view s := ⟨s.shared, s.tables[index]?.getD { component := "" }⟩
  put st s := { shared := st.shared, tables := s.tables.set index st.table }

/-! ## Steps -/

/-- What a guarded operation does. -/
inductive Guarded where
  | succeed
  | fail (code : Status) (message : String)
  | panic (message : Option String)
  | release
  | releaseThenFail (code : Status) (message : String)
  deriving DecidableEq, Repr

inductive Step where
  | component
  | insert (node : Node)
  | get (h : Handle)
  | acquire (h : Handle)
  | release (h : Handle)
  | count (h : Handle)
  | record (h : Handle) (message : String)
  | lastError (h : Handle)
  | guarded (h : Handle) (op : Guarded)
  deriving DecidableEq, Repr

inductive Task where
  | step (table : Nat) (s : Step)
  | thread (tasks : List Task)

inductive Value where
  | nothing
  | text (s : String)
  | handle (h : Handle)
  | tag (t : Tag)
  | references (n : Option UInt32)
  | message (s : Option String)
  | status (s : Status)
  | refused (why : Fault)
  deriving DecidableEq, Repr

inductive Answer where
  | step (value : Value) (notes : List Note)
  | thread (answers : List Answer)

/-- A live object: its handle, the index of its table and its reference count. -/
structure LiveNode where
  handle : Handle
  table : Nat
  count : UInt32
  deriving DecidableEq, Repr

/-! ## Running -/

/-- The value of a call, refused or not. -/
def asked (op : Op State Value) : StateM State Value := do
  match ← op.run with
  | .ok v => return v
  | .error why => return .refused why

def Guarded.run (p : Part State Node) (h : Handle) : Guarded → Op State Unit
  | succeed => pure ()
  | fail code message => throw (.foreign code message)
  | panic message => throw (.panicked message)
  | release => p.release h
  | releaseThenFail code message => do
    p.release h
    throw (.foreign code message)

def Step.run (p : Part State Node) : Step → StateM State Value
  | component => do return .text (p.view (← MonadState.get)).table.component
  | insert node => asked do return .handle (← p.insert node)
  | get h => asked do return .tag (← p.get h).tag
  | acquire h => asked do
    p.acquire h
    return .nothing
  | release h => asked do
    p.release h
    return .nothing
  | count h => do return .references ((p.view (← MonadState.get)).table.count? h)
  | record h message => do
    p.recordError h message
    return .nothing
  | lastError h => asked do return .message (← p.lastError h)
  | guarded h op => do
    let (status, _) ← p.guard h () (op.run p h)
    return .status status

mutual

def Task.run : Task → StateM State Answer
  | .step table s => do
    let value ← s.run (part table)
    return .step value (← takeNotes)
  | .thread tasks => do return .thread (← onThread (runAll tasks))

def runAll : List Task → StateM State (List Answer)
  | [] => pure []
  | t :: rest => do
    let answer ← t.run
    return answer :: (← runAll rest)

end

/-- The live nodes among the first handles. -/
def liveNodes (s : State) : List LiveNode :=
  (List.range 256).flatMap fun n =>
    let h : Handle := ⟨UInt64.ofNat (n + 1)⟩
    s.tables.zipIdx.filterMap fun (t, index) => (t.count? h).map fun count => ⟨h, index, count⟩

/-- Runs the tasks on empty tables of the given components. -/
def run (components : List String) (tasks : List Task) : List Answer × List LiveNode :=
  let (answers, s) := runAll tasks { tables := components.map fun c => { component := c } }
  (answers, liveNodes s)

end Boundary.Bench
