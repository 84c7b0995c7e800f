/-
  Boundary.Session.Step — what a session does, and what it answers (a step for each
  method of the bindings).

  A session is a list of tasks. A step loads a library, makes or uses a wrapper, or
  sets up the hook or the script; a thread task runs its tasks on a thread of its own.
  Wrappers and libraries are named, and a new wrapper takes the name `keep`.
-/
import Boundary.Session.Direct
import Boundary.Session.World

namespace Boundary.Session

open Host (Instance Library)
open Primes (PrimeFactor Progress)

/-! ## Steps -/

/-- A handle, or that of a named wrapper. -/
inductive Target where
  | handle (h : Handle)
  | wrapper (name : String)
  deriving DecidableEq, Repr

/-- What a component is loaded through. -/
inductive Way where
  /-- Its own entry point. -/
  | component
  /-- The script's entry point. -/
  | scriptEntry
  /-- The script's lookup method. -/
  | scriptLookup
  deriving DecidableEq, Repr

inductive Step where
  -- libraries
  | load (c : Component) (keep : String) (options : LoadOptions) (way : Way)
  | version (lib : String)
  | libraryError (lib : String)
  | library (lib : String)
  | typeOfHandle (lib : String) (target : Target)
  | find (lib : String) (s : Symbol)
  | resolveSymbol (lib : String) (s : Symbol)
  | register (lib : String) (s : Symbol) (f : Option HostFunction)
  | registry (s : Symbol)
  -- zoo
  | createZoo (lib keep : String)
  | addAnimal (on : String) (species : Zoo.Species) (name : String)
  | animalCount (on : String)
  | animalAt (on : String) (index : UInt32) (keep : String)
  | iterate (on keep : String)
  | nextAnimal (on keep : String)
  | nextMandatoryAnimal (on keep : String)
  | collect (on : String) (limit : Nat)
  | animalName (on : String)
  | roar (on : String)
  -- calculator
  | createVariable (lib : String) (initial : Float) (keep : String)
  | createCalculator (lib keep : String)
  | getVariable (on : String)
  | setVariable (on : String) (value : Float)
  | enlist (on variableName : String)
  | enlisted (on : String) (index : UInt32) (keep : String)
  | clear (on : String)
  | values (on : String) (limit : Nat)
  | add (on keep : String)
  | multiply (on keep : String)
  | apply (on : String) (s : Symbol)
  | injectPrimes (lib source : String)
  | injectComponent (lib ns : String) (lookup : Address)
  | enlistPrimes (on sieve : String)
  -- primes
  | createFactorization (lib keep : String)
  | createSieve (lib keep : String)
  | getValue (on : String)
  | setValue (on : String) (value : UInt64)
  | calculate (on : String)
  | setCallback (on : String) (set : Bool)
  | primeFactors (on : String)
  | primes (on : String)
  | primesSummary (on : String)
  -- any wrapper
  | acquire (on keep : String)
  | release (on : String)
  | drop (on : String)
  | cast (on : String) (target : Host.Class) (keep : String)
  | classify (on keep : String)
  | relabel (on : String) (label : Host.Class) (keep : String)
  | resolve (target : Host.Class) (lib : String) (on : Target) (tag : Option UInt64) (borrow : Bool)
      (keep : String)
  | classTypeId (on : String)
  | lastError (on : String)
  | describe (on : String)
  | count (c : Component) (target : Target)
  | live
  -- outside the components
  | hook (plan : List HookRule)
  | hookLog
  | script (k : Script)
  | scriptLog
  | direct (s : Symbol) (target other : Target) (args : Direct.Args)

inductive Task where
  | step (s : Step)
  | thread (tasks : List Task)

/-! ## Answers -/

/-- A live object: its handle, component and reference count. -/
structure LiveObject where
  handle : Handle
  component : Component
  count : UInt32
  deriving DecidableEq, Repr

/-- Why a step was not carried out, or failed. -/
inductive Problem where
  /-- No wrapper has the name. -/
  | noWrapper (name : String)
  /-- The wrapper is of another component, or is lent where an owned one is needed. -/
  | wrongWrapper (name : String)
  /-- No library of the component has the name. -/
  | noLibrary (name : String)
  | failed (why : Failure)
  deriving DecidableEq, Repr

inductive Value where
  | nothing
  | text (s : String)
  | message (s : Option String)
  | version (v : Version)
  | library (l : Library)
  | tag (t : Tag)
  | address (a : Option Address)
  /-- A symbol's address, and what a component may call of it. -/
  | addresses (found callable : Option Address)
  | count (n : UInt32)
  | word (n : UInt64)
  | float (x : Float)
  | floats (xs : List Float)
  | names (names : List String)
  | factors (fs : List PrimeFactor)
  | primes (ps : List UInt64)
  /-- How many primes there are, their sum, the first and the last one. -/
  | summary (count : Nat) (sum : UInt64) (first last : Option UInt64)
  | stored (label : Host.Class) (h : Handle)
  | computed (label : Host.Class) (h : Handle) (value : Float)
  | exhausted
  | released (isNull : Bool)
  | known (label : Host.Class) (tag : Tag) (h : Handle)
  | unknown (i : Instance)
  | wrapper (w : Wrapper)
  | references (n : Option UInt32)
  | live (rows : List LiveObject)
  | hookLog (calls : Nat) (progress : List Progress) (ran : List (Nat × Action × Status))
  | scriptLog (rows : List Row)
  /-- The status and the outputs of a direct call; none if no function is registered. -/
  | direct (answer : Option (Status × Direct.Outputs))

/-- The answer to a task. The notes are those of the step alone. -/
inductive Answer where
  | step (result : Except Problem Value) (notes : List Note)
  | thread (answers : List Answer)

/-- What is left to see of a session. -/
structure Transcript where
  answers : List Answer
  /-- After the last task. -/
  live : List LiveObject
  /-- After every wrapper was dropped. -/
  leaked : List LiveObject
  /-- Noted while the wrappers were dropped. -/
  dropNotes : List Note

end Boundary.Session
