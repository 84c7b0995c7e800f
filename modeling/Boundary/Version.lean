/-
  Boundary.Version — binary versions of components and the options a component is
  loaded with (`Version`: `is_compatible_with`; `LoadOptions`).

  A native binary serves bindings written against an older minor version of the same
  major one; the micro number never matters.
-/

namespace Boundary

structure Version where
  major : UInt32 := 0
  minor : UInt32 := 0
  micro : UInt32 := 0
  deriving DecidableEq, Repr, Inhabited

namespace Version

/-- Whether a binary of this version serves bindings written against `binding`. -/
def serves (native binding : Version) : Bool :=
  native.major == binding.major && decide (binding.minor ≤ native.minor)

/-- Lexicographic: major, then minor, then micro. -/
def order (a b : Version) : Ordering :=
  (compare a.major b.major).then <| (compare a.minor b.minor).then <| compare a.micro b.micro

def text (v : Version) : String :=
  toString v.major.toNat ++ "." ++ toString v.minor.toNat ++ "." ++ toString v.micro.toNat

/-- The fields by name. -/
def debug (v : Version) : String :=
  "Version \x7b major: " ++ toString v.major.toNat ++ ", minor: " ++ toString v.minor.toNat
    ++ ", micro: " ++ toString v.micro.toNat ++ " \x7d"

end Version

structure LoadOptions where
  /-- Refuse binaries whose version does not serve the bindings. -/
  verify : Bool := true
  /-- How often a variable-length fetch starts over when its source grows under it. -/
  attempts : Nat := 4
  deriving DecidableEq, Repr, Inhabited

namespace LoadOptions

def debug (o : LoadOptions) : String :=
  "LoadOptions \x7b verify_version: " ++ toString o.verify ++ ", fetch_attempts: "
    ++ toString o.attempts ++ " \x7d"

end LoadOptions

end Boundary
