import DurableFlow.Event
import DurableFlow.Record
import DurableFlow.Wire.Checkpoint

/-! # JSON of events and records -/

namespace DurableFlow

namespace InitiatingSession

def toJson (session : InitiatingSession) : Json :=
  .object [
    ("session_id", session.sessionId.toJson),
    ("counterparty", session.counterparty.toJson)]

def ofJson? (doc : Json) : Option InitiatingSession := do
  let [id, counterparty] ← doc.fields? ["session_id", "counterparty"] | none
  return ⟨← id.required SessionId.ofJson?, ← counterparty.required Identity.ofJson?⟩

end InitiatingSession

namespace StartRequest

def toMembers (request : StartRequest) : Json.Members := [
  ("flow_name", .text request.flowName),
  ("owner", request.owner.toJson),
  ("args", .ofBytes request.args),
  ("initiated_by", .ofOption InitiatingSession.toJson request.initiatedBy)]

def ofJson? (doc : Json) : Option StartRequest := do
  let [flowName, owner, args, initiatedBy] ←
    doc.fields? ["flow_name", "owner", "args", "initiated_by"] | none
  return {
    flowName := ← flowName.required Json.text?
    owner := ← owner.required Identity.ofJson?
    args := ← args.required Json.bytes?
    initiatedBy := ← initiatedBy.optional InitiatingSession.ofJson? }

end StartRequest

namespace EventPayload

def toJson : EventPayload → Json
  | .startFlow request => .object (("type", .text "start_flow") :: request.toMembers)
  | .session id number item => .object [
      ("type", .text "session"),
      ("session_id", id.toJson),
      ("sequence_number", .nat number),
      ("payload", item.toJson .ofBytes)]
  | .wakeup => .object [("type", .text "wakeup")]
  | .confirmation count => .object [("type", .text "confirmation"), ("count", .nat count)]
  | .failure reason => .object [("type", .text "failure"), ("reason", .text reason)]

def names : List String := ["start_flow", "session", "wakeup", "confirmation", "failure"]

def ofJson? (doc : Json) : Option EventPayload := do
  let (tag, content) ← doc.tagged?
  match ← tag.variant? false names with
  | "start_flow" => return .startFlow (← StartRequest.ofJson? content)
  | "session" =>
    let [id, number, item] ←
      content.fields? ["session_id", "sequence_number", "payload"] | none
    return .session (← id.required SessionId.ofJson?) (← number.required (Json.nat? Json.max64))
      (← item.required (Item.ofJson? true))
  | "wakeup" => if content.isUnit then some .wakeup else none
  | "confirmation" =>
    let [count] ← content.fields? ["count"] | none
    return .confirmation (← count.required (Json.nat? Json.max32))
  | "failure" =>
    let [reason] ← content.fields? ["reason"] | none
    return .failure (← reason.required Json.text?)
  | _ => none

end EventPayload

namespace Event

def toJson (event : Event) : Json :=
  .object [("flow_id", event.flowId.toJson), ("payload", event.payload.toJson)]

def ofJson? (doc : Json) : Option Event := do
  let [flowId, payload] ← doc.fields? ["flow_id", "payload"] | none
  return ⟨← flowId.required FlowId.ofJson?, ← payload.required EventPayload.ofJson?⟩

end Event

namespace Record

def toJson (octets : Bytes → Json) : Record → Json
  | .sessionData flowId sessionId counterparty number payload => .object [
      ("type", .text "session_data"),
      ("flow_id", flowId.toJson),
      ("session_id", sessionId.toJson),
      ("counterparty", counterparty.toJson),
      ("sequence_number", .nat number),
      ("payload", octets payload)]
  | .sessionClose flowId sessionId counterparty number => .object [
      ("type", .text "session_close"),
      ("flow_id", flowId.toJson),
      ("session_id", sessionId.toJson),
      ("counterparty", counterparty.toJson),
      ("sequence_number", .nat number)]
  | .sessionAck flowId sessionId number => .object [
      ("type", .text "session_ack"),
      ("flow_id", flowId.toJson),
      ("session_id", sessionId.toJson),
      ("sequence_number", .nat number)]
  | .sessionError flowId sessionId counterparty reason => .object [
      ("type", .text "session_error"),
      ("flow_id", flowId.toJson),
      ("session_id", sessionId.toJson),
      ("counterparty", counterparty.toJson),
      ("reason", .text reason)]
  | .scheduleWakeup flowId due => .object [
      ("type", .text "schedule_wakeup"),
      ("flow_id", flowId.toJson),
      ("at", due.toJson)]
  | .flowStatus flowId status detail => .object [
      ("type", .text "flow_status"),
      ("flow_id", flowId.toJson),
      ("status", .text status.text),
      ("detail", .ofOption .text detail)]
  | .scheduleCleanup flowId expiresAt => .object [
      ("type", .text "schedule_cleanup"),
      ("flow_id", flowId.toJson),
      ("expires_at", expiresAt.toJson)]

def names : List String :=
  ["session_data", "session_close", "session_ack", "session_error", "schedule_wakeup",
    "flow_status", "schedule_cleanup"]

def ofJson? (doc : Json) : Option Record := do
  let (tag, content) ← doc.tagged?
  match ← tag.variant? false names with
  | "session_data" =>
    let [flowId, sessionId, counterparty, number, payload] ← content.fields?
      ["flow_id", "session_id", "counterparty", "sequence_number", "payload"] | none
    return .sessionData (← flowId.required FlowId.ofJson?)
      (← sessionId.required SessionId.ofJson?) (← counterparty.required Identity.ofJson?)
      (← number.required (Json.nat? Json.max64)) (← payload.required Json.bytes?)
  | "session_close" =>
    let [flowId, sessionId, counterparty, number] ← content.fields?
      ["flow_id", "session_id", "counterparty", "sequence_number"] | none
    return .sessionClose (← flowId.required FlowId.ofJson?)
      (← sessionId.required SessionId.ofJson?) (← counterparty.required Identity.ofJson?)
      (← number.required (Json.nat? Json.max64))
  | "session_ack" =>
    let [flowId, sessionId, number] ←
      content.fields? ["flow_id", "session_id", "sequence_number"] | none
    return .sessionAck (← flowId.required FlowId.ofJson?)
      (← sessionId.required SessionId.ofJson?) (← number.required (Json.nat? Json.max64))
  | "session_error" =>
    let [flowId, sessionId, counterparty, reason] ←
      content.fields? ["flow_id", "session_id", "counterparty", "reason"] | none
    return .sessionError (← flowId.required FlowId.ofJson?)
      (← sessionId.required SessionId.ofJson?) (← counterparty.required Identity.ofJson?)
      (← reason.required Json.text?)
  | "schedule_wakeup" =>
    let [flowId, due] ← content.fields? ["flow_id", "at"] | none
    return .scheduleWakeup (← flowId.required FlowId.ofJson?)
      (← due.required Timestamp.ofJson?)
  | "flow_status" =>
    let [flowId, status, detail] ← content.fields? ["flow_id", "status", "detail"] | none
    return .flowStatus (← flowId.required FlowId.ofJson?)
      (← status.required (Status.ofJson? true)) (← detail.optional Json.text?)
  | "schedule_cleanup" =>
    let [flowId, expiresAt] ← content.fields? ["flow_id", "expires_at"] | none
    return .scheduleCleanup (← flowId.required FlowId.ofJson?)
      (← expiresAt.required Timestamp.ofJson?)
  | _ => none

end Record

end DurableFlow
