/-
  Boundary.Handle — opaque names of native objects (`Handle`, `FatHandle`;
  `RawHandle`: `handle`, `cached_tag`).

  A handle is a 64-bit number; zero is the null handle and never names a live object.
  A fat handle carries the type tag of its object as its producer knew it; the tag word
  zero means that the producer did not fill it in and the tag has to be queried.
-/
import Boundary.Tag

namespace Boundary

structure Handle where
  raw : UInt64
  deriving DecidableEq, Repr, Inhabited

namespace Handle

/-- Bytes of a handle in a call. -/
def width : Nat := 8

def null : Handle := ⟨0⟩

def isNull (h : Handle) : Bool := h.raw == 0

def text (h : Handle) : String := toString h.raw.toNat

def debug (h : Handle) : String := "Handle(" ++ h.text ++ ")"

def order (a b : Handle) : Ordering := compare a.raw b.raw

end Handle

structure FatHandle where
  handle : Handle
  tagWord : UInt64
  deriving DecidableEq, Repr, Inhabited

namespace FatHandle

/-- Bytes of a fat handle in a call. -/
def width : Nat := 16

def null : FatHandle := ⟨Handle.null, 0⟩

def isNull (f : FatHandle) : Bool := f.handle.isNull

/-- The tag its producer wrote, if any. -/
def tag (f : FatHandle) : Option Tag := if f.tagWord = 0 then none else some ⟨f.tagWord⟩

def debug (f : FatHandle) : String :=
  "FatHandle \x7b handle: " ++ f.handle.debug ++ ", type_tag: " ++ toString f.tagWord.toNat
    ++ " \x7d"

end FatHandle

/-- A handle as a boundary call returned it. -/
inductive RawHandle where
  | bare (h : Handle)
  | fat (f : FatHandle)
  deriving DecidableEq, Repr

namespace RawHandle

def handle : RawHandle → Handle
  | bare h => h
  | fat f => f.handle

/-- The tag that came with the handle. -/
def cached : RawHandle → Option Tag
  | bare _ => none
  | fat f => f.tag

def debug : RawHandle → String
  | bare h => "Bare(" ++ h.debug ++ ")"
  | fat f => "Fat(" ++ f.debug ++ ")"

end RawHandle

end Boundary
