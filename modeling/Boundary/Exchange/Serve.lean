/-
  Boundary.Exchange.Serve — the callee's side of a variable-length output
  (`write_array`, `write_string`).

  The callee always reports how many elements it has and copies as many as the caller
  has room for. A text is served as its UTF-8 bytes and one zero byte.
-/
import Boundary.Exchange.Place
import Boundary.Fault
import Boundary.Text.Utf8

namespace Boundary.Exchange

variable {α : Type}

/-- Serves `data` to a caller with room for `capacity` elements. A caller that announces
    room without a buffer, or that could receive nothing at all, is refused; a refused
    caller's memory stays as it was. -/
def serveArray (data : List α) (capacity : UInt64) (place : Place UInt64 α) :
    Except Fault (Place UInt64 α) :=
  if 0 < capacity ∧ place.buffer.isNone then .error .nullBuffer
  else if place.needed.isNone ∧ place.buffer.isNone then .error .noDestination
  else
    let length := UInt64.ofNat data.length
    .ok { needed := place.needed.write length
          buffer := place.buffer.map (·.overwrite (data.take (min capacity length).toNat)) }

/-- Serves a text. Sizes are 32-bit and count the zero byte. -/
def serveText (text : String) (capacity : UInt32) (place : Place UInt32 UInt8) :
    Except Fault (Place UInt32 UInt8) := do
  let bytes := Text.Utf8.write text ++ [0]
  if UInt32.size ≤ bytes.length then throw .textTooLong
  let wide ← serveArray bytes capacity.toUInt64 ⟨place.needed.map fun _ => 0, place.buffer⟩
  return ⟨place.needed.write (UInt32.ofNat bytes.length), wide.buffer⟩

end Boundary.Exchange
