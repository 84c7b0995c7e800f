/-
  Boundary.Text.Utf8 — reading bytes as UTF-8 text (for `in_str`, `read_name` and
  `fetch_string`, and lossily for `injected_error`).

  Text is read one character at a time. Where no character can be read, the longest
  run of bytes that could have begun one is the fault: one to three bytes that cannot
  start or continue a character, or a character cut off by the end of the bytes.
  `read` names the first fault; `readLossy` writes U+FFFD for each one and goes on.
-/

namespace Boundary.Text.Utf8

/-- What the front of a byte string holds. -/
inductive Front where
  | char (c : Char) (length : Nat)
  /-- `length` bytes that cannot start or continue a character. -/
  | broken (length : Nat)
  /-- The start of a character whose end is missing. -/
  | cut
  deriving DecidableEq, Repr

def within (b lo hi : UInt8) : Bool := decide (lo ≤ b) && decide (b ≤ hi)

def isTail (b : UInt8) : Bool := within b 0x80 0xBF

def tailBits (b : UInt8) : Nat := b.toNat % 64

/-- Which second bytes may follow the lead `b` of a character of three or four bytes. -/
def second (b : UInt8) : UInt8 × UInt8 :=
  if b = 0xE0 then (0xA0, 0xBF)
  else if b = 0xED then (0x80, 0x9F)
  else if b = 0xF0 then (0x90, 0xBF)
  else if b = 0xF4 then (0x80, 0x8F)
  else (0x80, 0xBF)

def front : List UInt8 → Front
  | [] => .cut
  | a :: rest =>
    if a < 0x80 then .char (Char.ofNat a.toNat) 1
    else if within a 0xC2 0xDF then
      match rest with
      | [] => .cut
      | b :: _ =>
        if isTail b then .char (Char.ofNat (a.toNat % 32 * 64 + tailBits b)) 2 else .broken 1
    else if within a 0xE0 0xEF then
      match rest with
      | [] => .cut
      | b :: rest =>
        if !within b (second a).1 (second a).2 then .broken 1
        else match rest with
          | [] => .cut
          | c :: _ =>
            if isTail c then
              .char (Char.ofNat ((a.toNat % 16 * 64 + tailBits b) * 64 + tailBits c)) 3
            else .broken 2
    else if within a 0xF0 0xF4 then
      match rest with
      | [] => .cut
      | b :: rest =>
        if !within b (second a).1 (second a).2 then .broken 1
        else match rest with
          | [] => .cut
          | c :: rest =>
            if !isTail c then .broken 2
            else match rest with
              | [] => .cut
              | d :: _ =>
                if isTail d then
                  .char (Char.ofNat (((a.toNat % 8 * 64 + tailBits b) * 64 + tailBits c) * 64
                    + tailBits d)) 4
                else .broken 3
    else .broken 1

/-- Where bytes stop being text. -/
structure Fault where
  /-- Length of the longest prefix that is text. -/
  index : Nat
  /-- How many bytes are at fault; none when the bytes end inside a character. -/
  length : Option Nat
  deriving DecidableEq, Repr

def Fault.text (f : Fault) : String :=
  match f.length with
  | some n =>
    "invalid utf-8 sequence of " ++ toString n ++ " bytes from index " ++ toString f.index
  | none => "incomplete utf-8 byte sequence from index " ++ toString f.index

/-- The first fault at or after `index`, the place where `bytes` starts. Each step takes
    at least one byte, so `fuel` bytes are read in as many steps. -/
def faultFrom : (fuel : Nat) → (index : Nat) → List UInt8 → Fault
  | 0, index, _ => ⟨index, none⟩
  | fuel + 1, index, bytes =>
    match front bytes with
    | .char _ n => faultFrom fuel (index + n) (bytes.drop n)
    | .broken n => ⟨index, some n⟩
    | .cut => ⟨index, none⟩

/-- The text, or the first fault of bytes that are not text. -/
def read (bytes : List UInt8) : Except Fault String :=
  match String.fromUTF8? bytes.toByteArray with
  | some s => .ok s
  | none => .error (faultFrom bytes.length 0 bytes)

def lossyFrom : (fuel : Nat) → List UInt8 → List Char
  | 0, _ => []
  | _ + 1, [] => []
  | fuel + 1, bytes@(_ :: _) =>
    match front bytes with
    | .char c n => c :: lossyFrom fuel (bytes.drop n)
    | .broken n => '\uFFFD' :: lossyFrom fuel (bytes.drop n)
    | .cut => ['\uFFFD']

/-- The text with U+FFFD in the place of every fault. -/
def readLossy (bytes : List UInt8) : String := String.ofList (lossyFrom bytes.length bytes)

/-- The bytes of a text. -/
def write (s : String) : List UInt8 := s.toUTF8.toList

end Boundary.Text.Utf8
