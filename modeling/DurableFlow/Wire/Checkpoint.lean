import DurableFlow.Checkpoint
import DurableFlow.Fiber.Image
import DurableFlow.Wire.Basic

/-! # JSON of checkpoints, requests and resume values -/

namespace DurableFlow

namespace SessionFailureReason

def word : SessionFailureReason → String
  | .closedByPeer => "closed_by_peer"
  | .timedOut => "timed_out"

def ofJson? (held : Bool) (doc : Json) : Option SessionFailureReason := do
  match ← doc.choice? held with
  | "closed_by_peer" => some .closedByPeer
  | "timed_out" => some .timedOut
  | _ => none

end SessionFailureReason

namespace Resumed

def toJson (octets : Bytes → Json) : Resumed → Json
  | .messages received => .object [
      ("type", .text "messages"),
      ("value", .object (received.entries.map fun (id, payload) => (id.text, octets payload)))]
  | .wakeup => .object [("type", .text "wakeup")]
  | .confirmed confirmations => .object [
      ("type", .text "confirmed"),
      ("value", .object [("confirmations", .nat confirmations)])]
  | .sessionFailed id reason => .object [
      ("type", .text "session_failed"),
      ("value", .object [("session_id", id.toJson), ("reason", .text reason.word)])]

def ofParts? (held : Bool) (tag content : Json) : Option Resumed := do
  match ← tag.choice? held with
  | "messages" =>
    return .messages (← content.map? (fun name => some ⟨name.text⟩) Json.bytes?)
  | "wakeup" =>
    match content with
    | .null => some .wakeup
    | _ => none
  | "confirmed" =>
    let [confirmations] ← content.namedFields? ["confirmations"] | none
    return .confirmed (← confirmations.required (Json.nat? Json.max32))
  | "session_failed" =>
    let [id, reason] ← content.fields? ["session_id", "reason"] | none
    return .sessionFailed (← id.required SessionId.ofJson?)
      (← reason.required (SessionFailureReason.ofJson? held))
  | _ => none

/-- The resume value a document stands for. Its tag stands beside its content; a content that
comes first is held until the tag is known. -/
def ofJson? (doc : Json) : Option Resumed :=
  match doc with
  | .object members =>
    let (parts, others) := members.partition fun m => m.1.text = "type" || m.1.text = "value"
    if others.all (·.2.passable) then
      match parts with
      | [(⟨"type", _⟩, tag)] =>
        match tag.choice? false with
        | some "wakeup" => some .wakeup
        | _ => none
      | [(⟨"type", _⟩, tag), (⟨"value", _⟩, content)] => ofParts? false tag content
      | [(⟨"value", _⟩, content), (⟨"type", _⟩, tag)] =>
        if content.readable then
          match tag.choice? false with
          | some name => ofParts? true (.text name) content
          | none => none
        else none
      | _ => none
    else none
  | .array [tag, content] => ofParts? false tag content
  | _ => none

end Resumed

namespace OutboundMessage

def toJson (octets : Bytes → Json) (message : OutboundMessage) : Json :=
  .object [("session_id", message.sessionId.toJson), ("payload", octets message.payload)]

def ofJson? (doc : Json) : Option OutboundMessage := do
  let [id, payload] ← doc.fields? ["session_id", "payload"] | none
  return ⟨← id.required SessionId.ofJson?, ← payload.required Json.bytes?⟩

end OutboundMessage

namespace Request

def toJson (octets : Bytes → Json) : Request → Json
  | .send messages => .object [
      ("type", .text "send"),
      ("messages", .array (messages.map (OutboundMessage.toJson octets)))]
  | .sendAndReceive messages receiveFrom => .object [
      ("type", .text "send_and_receive"),
      ("messages", .array (messages.map (OutboundMessage.toJson octets))),
      ("receive_from", .array (receiveFrom.map SessionId.toJson))]
  | .receive sessions => .object [
      ("type", .text "receive"),
      ("sessions", .array (sessions.map SessionId.toJson))]
  | .sleep wakeAt => .object [("type", .text "sleep"), ("until", wakeAt.toJson)]
  | .waitForConfirmations required => .object [
      ("type", .text "wait_for_confirmations"),
      ("required", .nat required)]
  | .forceCheckpoint => .object [("type", .text "force_checkpoint")]

def names : List String :=
  ["send", "send_and_receive", "receive", "sleep", "wait_for_confirmations", "force_checkpoint"]

def ofJson? (doc : Json) : Option Request := do
  let (tag, content) ← doc.tagged?
  match ← tag.variant? false names with
  | "send" =>
    let [messages] ← content.fields? ["messages"] | none
    return .send (← messages.required (Json.list? OutboundMessage.ofJson?))
  | "send_and_receive" =>
    let [messages, receiveFrom] ← content.fields? ["messages", "receive_from"] | none
    return .sendAndReceive (← messages.required (Json.list? OutboundMessage.ofJson?))
      (← receiveFrom.required (Json.list? SessionId.ofJson?))
  | "receive" =>
    let [sessions] ← content.fields? ["sessions"] | none
    return .receive (← sessions.required (Json.list? SessionId.ofJson?))
  | "sleep" =>
    let [wakeAt] ← content.fields? ["until"] | none
    return .sleep (← wakeAt.required Timestamp.ofJson?)
  | "wait_for_confirmations" =>
    let [required] ← content.fields? ["required"] | none
    return .waitForConfirmations (← required.required (Json.nat? Json.max32))
  | "force_checkpoint" => if content.isUnit then some .forceCheckpoint else none
  | _ => none

end Request

def Status.ofJson? (held : Bool) (doc : Json) : Option Status := do
  match ← doc.choice? held with
  | "CREATED" => some .created
  | "RUNNING" => some .running
  | "SUSPENDED" => some .suspended
  | "COMPLETED" => some .completed
  | "FAILED" => some .failed
  | "RETRYING" => some .retrying
  | _ => none

namespace Wait

def toJson : Wait → Json
  | .start => .object [("type", .text "start")]
  | .sessions awaited deadline => .object [
      ("type", .text "session_data"),
      ("sessions", .array (awaited.map SessionId.toJson)),
      ("deadline", .ofOption Timestamp.toJson deadline)]
  | .wakeup due => .object [("type", .text "wakeup"), ("at", due.toJson)]
  | .confirmations required received => .object [
      ("type", .text "confirmations"),
      ("required", .nat required),
      ("received", .nat received)]
  | .nothing => .object [("type", .text "nothing")]

def names : List String := ["start", "session_data", "wakeup", "confirmations", "nothing"]

def ofJson? (doc : Json) : Option Wait := do
  let (tag, content) ← doc.tagged?
  match ← tag.variant? false names with
  | "start" => if content.isUnit then some .start else none
  | "session_data" =>
    let [awaited, deadline] ← content.fields? ["sessions", "deadline"] | none
    return .sessions (← awaited.required (Json.list? SessionId.ofJson?))
      (← deadline.optional Timestamp.ofJson?)
  | "wakeup" =>
    let [due] ← content.fields? ["at"] | none
    return .wakeup (← due.required Timestamp.ofJson?)
  | "confirmations" =>
    let [required, received] ← content.fields? ["required", "received"] | none
    return .confirmations (← required.required (Json.nat? Json.max32))
      (← received.required (Json.nat? Json.max32))
  | "nothing" => if content.isUnit then some .nothing else none
  | _ => none

end Wait

namespace Checkpoint

def toJson (octets : Bytes → Json) (cp : Checkpoint) : Json :=
  .object [
    ("flow_id", cp.flowId.toJson),
    ("owner", cp.owner.toJson),
    ("flow_name", .text cp.flowName),
    ("serialized_continuation", .ofOption octets cp.continuation),
    ("waiting_for", cp.waitingFor.toJson),
    ("sessions", .object (cp.sessions.entries.map fun (id, session) =>
      (id.text, session.toJson octets))),
    ("status", .text cp.status.text),
    ("retry_count", .nat cp.retryCount),
    ("last_failure_reason", .ofOption .text cp.lastFailureReason),
    ("version", .nat cp.version),
    ("start_args", .ofOption octets cp.startArgs),
    ("pending_resume", .ofOption (Resumed.toJson octets) cp.pendingResume),
    ("result", .ofOption octets cp.result),
    ("initiated_by", .ofOption SessionId.toJson cp.initiatedBy),
    ("created_at", cp.createdAt.toJson),
    ("updated_at", cp.updatedAt.toJson)]

def fieldNames : List String :=
  ["flow_id", "owner", "flow_name", "serialized_continuation", "waiting_for", "sessions", "status",
    "retry_count", "last_failure_reason", "version", "start_args", "pending_resume", "result",
    "initiated_by", "created_at", "updated_at"]

def optionalBytes? : Json.Slot → Option (Option Bytes)
  | .given .null => some none
  | .given doc => doc.bytes?.map some
  | _ => some none

def ofJson? (doc : Json) : Option Checkpoint := do
  let [flowId, owner, flowName, continuation, waitingFor, sessions, status, retryCount,
    lastFailureReason, version, startArgs, pendingResume, result, initiatedBy, createdAt,
    updatedAt] ← doc.fields? fieldNames | none
  return {
    flowId := ← flowId.required FlowId.ofJson?
    owner := ← owner.required Identity.ofJson?
    flowName := ← flowName.required Json.text?
    continuation := ← optionalBytes? continuation
    waitingFor := ← waitingFor.required Wait.ofJson?
    sessions := ← sessions.required (Json.map? (fun name => some ⟨name.text⟩) Session.ofJson?)
    status := ← status.required (Status.ofJson? false)
    retryCount := ← retryCount.required (Json.nat? Json.max32)
    lastFailureReason := ← lastFailureReason.optional Json.text?
    version := ← version.required (Json.nat? Json.max64)
    startArgs := ← optionalBytes? startArgs
    pendingResume := ← pendingResume.optional Resumed.ofJson?
    result := ← optionalBytes? result
    initiatedBy := ← initiatedBy.optional SessionId.ofJson?
    createdAt := ← createdAt.required Timestamp.ofJson?
    updatedAt := ← updatedAt.required Timestamp.ofJson? }

/-- The checkpoint with some fields of its document replaced. -/
def withFields? (cp : Checkpoint) (fields : Json.Members) : Option Checkpoint :=
  match cp.toJson Json.ofBytes with
  | .object members =>
    ofJson? (.object (members.filter (fun (name, _) => !fields.any (·.1.text = name.text)) ++ fields))
  | _ => none

end Checkpoint

end DurableFlow
