/-
  Boundary.Fault — why a native function failed (`NativeError`, one constructor for
  each message that the components raise; `panic_message`).

  A fault answers a status code and a message. The code is what the call returns; the
  message goes to the last-error slot of the call's target.
-/
import Boundary.Handle
import Boundary.Status
import Boundary.Version

namespace Boundary

/-- A float that is no number: the three texts such a value has. -/
inductive NonFinite where
  | nan
  | positive
  | negative
  deriving DecidableEq, Repr

namespace NonFinite

def ofFloat (v : Float) : NonFinite :=
  if v.isNaN then .nan else if v < 0 then .negative else .positive

def text : NonFinite → String
  | nan => "NaN"
  | positive => "inf"
  | negative => "-inf"

end NonFinite

inductive Fault where
  -- handles and counts
  | nullHandle
  | unknownHandle (h : Handle)
  | countOverflow
  -- parameters
  | nullOut
  | nullText
  | textNotUtf8
  | nullBuffer
  | noDestination
  | textTooLong
  -- zoo
  | notZoo
  | notAnimal
  | notIterator
  | notTiger (name : String)
  | unknownSpecies (code : UInt32)
  | emptyName
  | noAnimalAt (index : UInt32)
  | tooManyAnimals
  | exhausted
  -- calculator
  | notVariable
  | notCalculator
  | notFinite (v : NonFinite)
  | noVariableAt (index : UInt32)
  | unregistered (ns name : String)
  | cannotInject (ns : String)
  | nullLookup
  | versionUnavailable (status : Status)
  | incompatible (found required : Version)
  | notInjected
  | sourceGrew
  /-- A failure of another component, passed on with its code and its message. -/
  | foreign (code : Status) (message : String)
  -- primes
  | notFactorization
  | notSieve
  | noFactorization
  | noPrimes
  | boundTooLarge (bound limit : UInt64)
  | valueChanged (before after : UInt64)
  | aborted
  /-- A call that came to a halt; the message is its payload, if that was a text. -/
  | panicked (message : Option String)
  deriving DecidableEq, Repr

namespace Fault

def code : Fault → Status
  | nullHandle | unknownHandle _ | nullOut | nullText | textNotUtf8 | nullBuffer | noDestination
  | textTooLong | unknownSpecies _ | emptyName | noAnimalAt _ | notFinite _ | noVariableAt _
  | cannotInject _ | nullLookup | boundTooLarge _ _ => Status.invalidParam
  | notZoo | notAnimal | notIterator | notTiger _ | notVariable | notCalculator | notFactorization
  | notSieve => Status.invalidCast
  | countOverflow | tooManyAnimals | sourceGrew | valueChanged _ _ | panicked _ => Status.generic
  | exhausted | noFactorization | noPrimes => Status.noResult
  | unregistered _ _ => Status.symbolNotFound
  | incompatible _ _ => Status.incompatibleVersion
  | notInjected => Status.couldNotLoadLibrary
  | aborted => Status.aborted
  | versionUnavailable status => status
  | foreign code _ => code

def message : Fault → String
  | nullHandle => "null handle"
  | unknownHandle h => "unknown handle " ++ h.text
  | countOverflow => "reference count overflow"
  | nullOut => "null out-parameter"
  | nullText => "null string parameter"
  | textNotUtf8 => "string parameter is not UTF-8"
  | nullBuffer => "null buffer with non-zero capacity"
  | noDestination => "no size or buffer out-parameter"
  | textTooLong => "string too long for the boundary"
  | notZoo => "not a zoo"
  | notAnimal => "not an animal"
  | notIterator => "not an animal iterator"
  | notTiger name => name ++ " is not a tiger"
  | unknownSpecies code => "unknown species " ++ toString code.toNat
  | emptyName => "animal name must not be empty"
  | noAnimalAt index => "no animal at index " ++ toString index.toNat
  | tooManyAnimals => "too many animals to count"
  | exhausted => "the iterator has no more animals"
  | notVariable => "not a variable"
  | notCalculator => "not a calculator"
  | notFinite v => v.text ++ " is not a finite value"
  | noVariableAt index => "no variable at index " ++ toString index.toNat
  | unregistered ns name => "no symbol registered as " ++ ns ++ "::" ++ name
  | cannotInject ns => "cannot inject component " ++ ns
  | nullLookup => "null symbol lookup method"
  | versionUnavailable _ => "could not query the primes version"
  | incompatible found required =>
    "primes " ++ found.text ++ " is not compatible with " ++ required.text
  | notInjected => "no primes component has been injected"
  | sourceGrew => "sieve result changed while being read"
  | foreign _ message => message
  | notFactorization => "not a factorization calculator"
  | notSieve => "not a sieve calculator"
  | noFactorization => "no factorization has been calculated"
  | noPrimes => "no primes have been calculated"
  | boundTooLarge bound limit =>
    "sieve bound " ++ toString bound.toNat ++ " exceeds " ++ toString limit.toNat
  | valueChanged before after =>
    "value changed from " ++ toString before.toNat ++ " to " ++ toString after.toNat
      ++ " during the calculation"
  | aborted => "calculation aborted"
  | panicked message => message.getD "panic in native call"

/-- A request for more memory than can be addressed brings a call to a halt. -/
def capacityOverflow : Fault := panicked (some "capacity overflow")

end Fault

end Boundary
