/-
  Boundary.Status — the status code every boundary call answers (`StatusCode`,
  `CABI_OK` and the codes after it).

  Zero is success. A component may answer any other 32-bit code; the named ones are
  those the components here raise themselves.
-/

namespace Boundary

abbrev Status := Int32

namespace Status

def ok : Status := 0
def notImplemented : Status := 1
def invalidParam : Status := 2
def invalidCast : Status := 3
def bufferTooSmall : Status := 4
def generic : Status := 5
def couldNotLoadLibrary : Status := 6
def symbolNotFound : Status := 7
def incompatibleVersion : Status := 8
def noResult : Status := 9
def aborted : Status := 10
def duplicateSymbol : Status := 11

/-- The named codes in ascending order. -/
def all : List Status :=
  [ok, notImplemented, invalidParam, invalidCast, bufferTooSmall, generic, couldNotLoadLibrary,
   symbolNotFound, incompatibleVersion, noResult, aborted, duplicateSymbol]

/-- Decimal, with a minus sign for the negative codes. -/
def text (s : Status) : String := toString s.toInt

end Status

end Boundary
