/-
  Boundary.Process — the state of one process (`NEXT_HANDLE`, `REGISTRY`,
  `INJECTED_PRIMES`, and the `OBJECTS` of each component).

  Three components with a table each, the registry they share, the primes component
  injected into the calculator, and whatever the code outside the components keeps
  (`outer`). An empty process has loaded nothing and issues handles from one on.
-/
import Boundary.Calculator.Object
import Boundary.Primes.Object
import Boundary.Registry
import Boundary.Thread
import Boundary.Zoo.Object

namespace Boundary

structure Process (ω : Type) where
  shared : Shared := {}
  zoo : Table Zoo.Object := { component := Component.zoo.name }
  calculator : Table Calculator.Object := { component := Component.calculator.name }
  primes : Table Primes.Object := { component := Component.primes.name }
  registry : Registry := {}
  /-- The lookup method of the primes component that calculators read from. -/
  injected : Option Address := none
  outer : ω

/-- What runs in a process. -/
abbrev Act (ω : Type) := StateM (Process ω)

instance {ω : Type} : Journal (Process ω) := ⟨fun n s => { s with shared := s.shared.note n }⟩

instance {ω : Type} : Threaded (Process ω) :=
  ⟨Process.shared, fun shared s => { s with shared := shared }⟩

namespace Process

variable {ω : Type}

def zooPart : Part (Process ω) Zoo.Object where
  view s := ⟨s.shared, s.zoo⟩
  put st s := { s with shared := st.shared, zoo := st.table }

def calculatorPart : Part (Process ω) Calculator.Object where
  view s := ⟨s.shared, s.calculator⟩
  put st s := { s with shared := st.shared, calculator := st.table }

def primesPart : Part (Process ω) Primes.Object where
  view s := ⟨s.shared, s.primes⟩
  put st s := { s with shared := st.shared, primes := st.table }

/-- The current reference count of an object of `c`, none once it is destroyed. -/
def count? (s : Process ω) (c : Component) (h : Handle) : Option UInt32 :=
  match c with
  | .zoo => s.zoo.count? h
  | .calculator => s.calculator.count? h
  | .primes => s.primes.count? h

end Process

end Boundary
