/-
  Boundary.Host.Class — the classes the bindings know (each `declare_class`, with its
  `TYPE_TAG` and its `from_object`; `dispatch`).

  Each component has a root class and classes below it. Some are concrete: an object
  reports their tag. `accepts` lists the concrete classes that count as a class;
  `parent?` is the declared hierarchy.
-/
import Boundary.Component
import Boundary.Tag

namespace Boundary.Host

inductive Class where
  | zooBase
  | animal
  | mammal
  | reptile
  | giraffe
  | tiger
  | snake
  | turtle
  | animalIterator
  | zoo
  | calculatorBase
  | calculatorVariable
  | calculator
  | primesBase
  | primesCalculator
  | factorizationCalculator
  | sieveCalculator
  deriving DecidableEq, Repr

namespace Class

def all : List Class :=
  [zooBase, animal, mammal, reptile, giraffe, tiger, snake, turtle, animalIterator, zoo,
   calculatorBase, calculatorVariable, calculator,
   primesBase, primesCalculator, factorizationCalculator, sieveCalculator]

def component : Class → Component
  | zooBase | animal | mammal | reptile | giraffe | tiger | snake | turtle | animalIterator | zoo =>
    .zoo
  | calculatorBase | calculatorVariable | calculator => .calculator
  | primesBase | primesCalculator | factorizationCalculator | sieveCalculator => .primes

def shortName : Class → String
  | zooBase | calculatorBase | primesBase => "Base"
  | animal => "Animal"
  | mammal => "Mammal"
  | reptile => "Reptile"
  | giraffe => "Giraffe"
  | tiger => "Tiger"
  | snake => "Snake"
  | turtle => "Turtle"
  | animalIterator => "AnimalIterator"
  | zoo => "Zoo"
  | calculatorVariable => "Variable"
  | calculator | primesCalculator => "Calculator"
  | factorizationCalculator => "FactorizationCalculator"
  | sieveCalculator => "SieveCalculator"

/-- The qualified name. -/
def name (c : Class) : String := c.component.name ++ "::" ++ c.shortName

def ofName? (s : String) : Option Class := all.find? fun c => c.name == s

def tag : Class → Tag
  | zooBase => ⟨0x3C195753813A1A50⟩
  | animal => ⟨0xB3425100B630BF10⟩
  | mammal => ⟨0x6795AC40341A432B⟩
  | reptile => ⟨0xC18FAAAB1BC665FD⟩
  | giraffe => ⟨0x0F6CEC4A4F8259F1⟩
  | tiger => ⟨0x6A71D9E1F3AFA2F4⟩
  | snake => ⟨0x99DCF8B29933C611⟩
  | turtle => ⟨0xAA88523BE20F3AB8⟩
  | animalIterator => ⟨0x8B700AF267CA8598⟩
  | zoo => ⟨0x32B41720D11113A4⟩
  | calculatorBase => ⟨0x6EEDD775CD317A3D⟩
  | calculatorVariable => ⟨0x681CEE878D15BECC⟩
  | calculator => ⟨0x08F847949AA26FDF⟩
  | primesBase => ⟨0x01F36F43FA0B7BBF⟩
  | primesCalculator => ⟨0xF0D14A0F7122C2CF⟩
  | factorizationCalculator => ⟨0x72354871AC951A33⟩
  | sieveCalculator => ⟨0x7B3AACB91B9C0812⟩

def parent? : Class → Option Class
  | zooBase | calculatorBase | primesBase => none
  | animal | animalIterator | zoo => some zooBase
  | mammal | reptile => some animal
  | giraffe | tiger => some mammal
  | snake | turtle => some reptile
  | calculatorVariable | calculator => some calculatorBase
  | primesCalculator => some primesBase
  | factorizationCalculator | sieveCalculator => some primesCalculator

/-- The concrete classes of a component. -/
def concrete : Component → List Class
  | .zoo => [zoo, animalIterator, giraffe, tiger, snake, turtle]
  | .calculator => [calculatorVariable, calculator]
  | .primes => [factorizationCalculator, sieveCalculator]

/-- The concrete classes whose objects a wrapper of the class may hold. -/
def accepts : Class → List Class
  | zooBase => [zoo, animalIterator, giraffe, tiger, snake, turtle]
  | animal => [giraffe, tiger, snake, turtle]
  | mammal => [giraffe, tiger]
  | reptile => [snake, turtle]
  | giraffe => [giraffe]
  | tiger => [tiger]
  | snake => [snake]
  | turtle => [turtle]
  | animalIterator => [animalIterator]
  | zoo => [zoo]
  | calculatorBase => [calculatorVariable, calculator]
  | calculatorVariable => [calculatorVariable]
  | calculator => [calculator]
  | primesBase => [factorizationCalculator, sieveCalculator]
  | primesCalculator => [factorizationCalculator, sieveCalculator]
  | factorizationCalculator => [factorizationCalculator]
  | sieveCalculator => [sieveCalculator]

/-- The known concrete class that reports a tag. -/
def ofTag? (c : Component) (t : Tag) : Option Class :=
  (concrete c).find? fun k => decide (k.tag = t)

end Class

end Boundary.Host
