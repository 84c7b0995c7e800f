/-
  Boundary.Calculator.Object — variables and the calculators they are enlisted in
  (`CalculatorObject`: `type_tag`, `owned_handles`).

  A calculator holds one reference per entry of its list; a variable may be enlisted
  more than once and in several calculators.
-/
import Boundary.Table

namespace Boundary.Calculator

inductive Object where
  | var (value : Float)
  | calculator (enlisted : List Handle)
  deriving DecidableEq

namespace Object

/-- Qualified name of the object's class. -/
def className : Object → String
  | var _ => "Calculator::Variable"
  | calculator _ => "Calculator::Calculator"

def owned : Object → List Handle
  | var _ => []
  | calculator enlisted => enlisted

instance : Resource Object := ⟨fun o => Tag.ofName o.className, owned⟩

end Object

end Boundary.Calculator
