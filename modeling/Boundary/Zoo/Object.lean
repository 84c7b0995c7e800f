/-
  Boundary.Zoo.Object — zoos, their animals and iterators over them (`ZooObject`,
  `Species`, `DEFAULT_ANIMALS`).

  A zoo holds one reference to each of its animals. An iterator holds one to each
  animal of the list it was made for, so the list stays walkable whatever becomes of
  the zoo.
-/
import Boundary.Table

namespace Boundary.Zoo

inductive Species where
  | giraffe
  | tiger
  | snake
  | turtle
  /-- Known to the component alone: the bindings have no class for it. -/
  | axolotl
  deriving DecidableEq, Repr

namespace Species

def all : List Species := [giraffe, tiger, snake, turtle, axolotl]

def code : Species → UInt32
  | giraffe => 0
  | tiger => 1
  | snake => 2
  | turtle => 3
  | axolotl => 4

def ofCode? (code : UInt32) : Option Species := all.find? fun s => s.code == code

def name : Species → String
  | giraffe => "Giraffe"
  | tiger => "Tiger"
  | snake => "Snake"
  | turtle => "Turtle"
  | axolotl => "Axolotl"

end Species

inductive Object where
  | zoo (animals : List Handle)
  | iterator (animals : List Handle) (position : Nat)
  | animal (species : Species) (name : String)
  deriving DecidableEq, Repr

namespace Object

/-- Qualified name of the object's class. -/
def className : Object → String
  | zoo _ => "Zoo::Zoo"
  | iterator _ _ => "Zoo::AnimalIterator"
  | animal species _ => "Zoo::" ++ species.name

def owned : Object → List Handle
  | zoo animals => animals
  | iterator animals _ => animals
  | animal _ _ => []

instance : Resource Object := ⟨fun o => Tag.ofName o.className, owned⟩

end Object

/-- The animals of every new zoo. -/
def defaults : List (Species × String) :=
  [(.giraffe, "Gerald Giraffe"), (.tiger, "Tony Tiger"), (.snake, "Sidney Snake"),
   (.turtle, "Tina Turtle")]

end Boundary.Zoo
