import DurableFlow.Bytes
import DurableFlow.Json

/-! # Octets for a reader -/

namespace DurableFlow

/-- Octets as text if they are text, and in hexadecimal otherwise. -/
def Bytes.shown (bytes : Bytes) : Json :=
  match bytes.text? with
  | some text => .text text
  | none => .object [("hex", .text bytes.hex)]

end DurableFlow
