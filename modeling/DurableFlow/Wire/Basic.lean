import DurableFlow.FlowId
import DurableFlow.Identity
import DurableFlow.Json.Fields
import DurableFlow.Session
import DurableFlow.Timestamp.Text

/-! # JSON of ids, identities, times and session items

Each type has a document form, `toJson`, and a reader of documents, `ofJson?`. Where a type contains
octets, `toJson` is told how to write them; on the wire they are arrays, `Json.ofBytes`. Readers of
variants without content, and of variants inside variants, come with a parameter `held`: whether
the document was set aside while the tag of an enclosing variant was looked for.
-/

namespace DurableFlow

def FlowId.toJson (id : FlowId) : Json := .text id.text

def FlowId.ofJson? (doc : Json) : Option FlowId := doc.text?.bind FlowId.ofText?

def SessionId.toJson (id : SessionId) : Json := .text id.text

def SessionId.ofJson? (doc : Json) : Option SessionId := doc.text?.map SessionId.mk

def Timestamp.toJson (t : Timestamp) : Json := .text t.text

def Timestamp.ofJson? (doc : Json) : Option Timestamp := doc.text?.bind Timestamp.ofText?

namespace Identity

def toJson (identity : Identity) : Json :=
  .object [("x500_name", .text identity.x500Name), ("group_id", .text identity.groupId)]

def ofJson? (doc : Json) : Option Identity := do
  let [name, group] ← doc.fields? ["x500_name", "group_id"] | none
  return ⟨← name.required Json.text?, ← group.required Json.text?⟩

end Identity

namespace SessionStatus

def text : SessionStatus → String
  | .open => "open"
  | .closed => "closed"
  | .closedByPeer => "closed_by_peer"
  | .errored => "errored"

def ofJson? (doc : Json) : Option SessionStatus := do
  match ← doc.choice? false with
  | "open" => some .open
  | "closed" => some .closed
  | "closed_by_peer" => some .closedByPeer
  | "errored" => some .errored
  | _ => none

end SessionStatus

namespace Item

def toJson (octets : Bytes → Json) : Item → Json
  | .data payload => .object [("type", .text "data"), ("payload", octets payload)]
  | .close => .object [("type", .text "close")]

def ofJson? (held : Bool) (doc : Json) : Option Item := do
  let (tag, content) ← doc.tagged?
  match ← tag.variant? held ["data", "close"] with
  | "data" =>
    let [payload] ← content.fields? ["payload"] | none
    return .data (← payload.required Json.bytes?)
  | "close" => if content.isUnit then some .close else none
  | _ => none

end Item

namespace Session

/-- The number that the name of a pending item is: decimal, without superfluous zeros or escapes. -/
def number? (name : Json.Name) : Option Nat :=
  match (Decimal.Numeral.ofBytes? (Bytes.ofText name.text)).bind Decimal.Numeral.number? with
  | some (.int n) => if 0 ≤ n ∧ !name.disguised then some n.toNat else none
  | _ => none

def toJson (octets : Bytes → Json) (session : Session) : Json :=
  .object [
    ("counterparty", session.counterparty.toJson),
    ("status", .text session.status.text),
    ("next_send_seq", .nat session.nextSend),
    ("next_receive_seq", .nat session.nextReceive),
    ("pending", .object (session.pending.entries.map fun (number, item) =>
      (Decimal.text number, item.toJson octets)))]

def ofJson? (doc : Json) : Option Session := do
  let [counterparty, status, nextSend, nextReceive, pending] ←
    doc.fields? ["counterparty", "status", "next_send_seq", "next_receive_seq", "pending"] | none
  return {
    counterparty := ← counterparty.required Identity.ofJson?
    status := ← status.required SessionStatus.ofJson?
    nextSend := ← nextSend.required (Json.nat? Json.max64)
    nextReceive := ← nextReceive.required (Json.nat? Json.max64)
    pending := ← pending.withDefault {} (Json.map? number? (Item.ofJson? false)) }

end Session

end DurableFlow
