/-
  Boundary.Tag — 64-bit type tags (`TypeTag`: `from_qualified_name`).

  The tag of a class is the first eight bytes of the digest of its qualified name
  (`Zoo::Tiger`), so both sides of the boundary compute it independently.
-/
import Boundary.Tag.Digest

namespace Boundary

structure Tag where
  value : UInt64
  deriving DecidableEq, Repr, Inhabited

namespace Tag

def ofName (name : String) : Tag := ⟨Digest.leading name.toUTF8.toList⟩

def hexDigit (n : Nat) : Char :=
  if n < 10 then Char.ofNat ('0'.toNat + n) else Char.ofNat ('A'.toNat + (n - 10))

/-- The low `places` hexadecimal digits of `n`, upper case. -/
def hexDigits : Nat → Nat → List Char
  | 0, _ => []
  | places + 1, n => hexDigits places (n / 16) ++ [hexDigit (n % 16)]

/-- All sixteen digits after `0x`. -/
def text (t : Tag) : String := "0x" ++ String.ofList (hexDigits 16 t.value.toNat)

def debug (t : Tag) : String := "TypeTag(" ++ toString t.value.toNat ++ ")"

end Tag

end Boundary
