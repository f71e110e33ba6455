import DurableFlow.FlowId
import DurableFlow.Json.Fields
import DurableFlow.Json.Printer
import DurableFlow.Json.Reader
import DurableFlow.Resumed

/-! # Images of suspended fibers

A suspended fiber is written as a continuation: a header line, then a JSON record with the flow's
id and name, what the fiber is suspended on, and the flow's own encoded state. Octets without the
header are refused, so that no other JSON is taken for a fiber.
-/

namespace DurableFlow

structure FiberImage where
  flowId : FlowId
  flowName : String
  suspendedOn : SuspensionKind
  state : Bytes
  deriving DecidableEq, Repr

def SuspensionKind.ofJson? (doc : Json) : Option SuspensionKind := do
  match ← doc.choice? false with
  | "messages" => some .messages
  | "wakeup" => some .wakeup
  | "confirmations" => some .confirmations
  | _ => none

namespace FiberImage

def toJson (image : FiberImage) : Json :=
  .object [
    ("flow_id", .text image.flowId.text),
    ("flow_name", .text image.flowName),
    ("suspended_on", .text image.suspendedOn.text),
    ("state", .ofBytes image.state)]

def ofJson? (doc : Json) : Option FiberImage := do
  let [flowId, flowName, suspendedOn, state] ←
    doc.fields? ["flow_id", "flow_name", "suspended_on", "state"] | none
  return {
    flowId := ← flowId.required fun id => id.text?.bind FlowId.ofText?
    flowName := ← flowName.required Json.text?
    suspendedOn := ← suspendedOn.required SuspensionKind.ofJson?
    state := ← state.required Json.bytes? }

end FiberImage

/-- A way of writing suspended fibers. -/
structure FiberSerializer where
  format : String
  serialize : FiberImage → Except String Bytes
  deserialize : Bytes → Except String FiberImage

namespace FiberSerializer

def header : Bytes := Bytes.ofText "FIBER/1\n"

def json : FiberSerializer where
  format := "json"
  serialize image := .ok (header ++ image.toJson.print)
  deserialize bytes :=
    if bytes.take header.length = header then
      match (Json.parse? (bytes.drop header.length)).bind FiberImage.ofJson? with
      | some image => .ok image
      | none => .error "the fiber cannot be read"
    else .error "payload is not a serialized fiber"

end FiberSerializer

end DurableFlow
