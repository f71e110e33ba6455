import DurableFlow.Codec.Json
import DurableFlow.Flow
import DurableFlow.Samples.Names
import DurableFlow.Wire.Checkpoint
import DurableFlow.Wire.Shown

/-! # Scripted flows

A script is a list of acts, each an array of a name and arguments. Acts run in order; one that
suspends the flow leaves the acts after it, and the log, as the state. A script that has run to its
end finishes with its log. The world of a script is a budget of failures.
-/

namespace DurableFlow.Samples

/-- Take one off the budget of failures; whether there was one. -/
def spend : Logic Nat Bool := do
  match ← Logic.world with
  | 0 => return false
  | budget + 1 => do
    Logic.setWorld budget
    return true

/-- What a script carries from act to act. -/
structure Script where
  log : List Json
  /-- The value the flow was resumed with, until an act takes it. -/
  last : Option Resumed

namespace Script

/-- What an act leads to. -/
inductive Move where
  | goOn (script : Script)
  | suspend (request : Request)

def note (script : Script) (entry : Json) : Move :=
  .goOn { script with log := script.log ++ [entry] }

/-- Fail because an act is malformed. -/
def malformed {α : Type} : Logic Nat α := Logic.fail (.failed "bad act")

/-- What was read from an argument, if it could be read. -/
def read {α : Type} : Option α → Logic Nat α
  | some value => return value
  | none => malformed

def initiator : Logic Nat SessionId := do
  match (← Logic.context).initiator with
  | some id => return id
  | none => Logic.fail (.failed "no initiating session")

def session (arg : Json) : Logic Nat SessionId := do
  let text ← read arg.text?
  if text = "@" then initiator
  else match text.toList with
    | '$' :: rest => return ⟨(← Logic.context).flowId.text ++ "-" ++ String.ofList rest⟩
    | _ => return ⟨text⟩

def takeLast (script : Script) : Logic Nat (Resumed × Script) := do
  match script.last with
  | some value => return (value, { script with last := none })
  | none => Logic.fail (.failed "nothing resumed")

def sorted (members : List (String × Json)) : Json := .ofMap (.ofList members)

/-- What a script sees of a session. -/
def viewEntry (ctx : Context) (id : SessionId) : Json :=
  match ctx.sessions.get? id with
  | some view => sorted [("counterparty", .text view.counterparty.text), ("open", .bool view.isOpen)]
  | none => .null

/-- What a script sees of its flow. -/
def whoEntry (ctx : Context) : Json :=
  sorted [
    ("flow_id", .text ctx.flowId.text),
    ("owner", .text ctx.owner.text),
    ("now", .text ctx.now.text),
    ("initiator", .ofOption SessionId.toJson ctx.initiator)]

/-- Suspend on a request, unless it is refused. -/
def suspendOn (result : Except FlowError Request) : Logic Nat Move := do
  return .suspend (← Logic.ofFlow result)

/-- Acts that suspend the flow. -/
def suspending (names : TypeNames) (name : String) (args : List Json) : Logic Nat Move := do
  match name, args with
  | "send", [id, value] =>
    suspendOn ((← Logic.context).send (.value names.value) (← session id) value)
  | "send_and_receive", [id, value] =>
    suspendOn ((← Logic.context).sendAndReceive (.value names.value) (← session id) value)
  | "receive", [.array ids] => suspendOn ((← Logic.context).receive (← ids.mapM session))
  | "sleep", [millis] =>
    return .suspend (← Logic.ofTime ((← Logic.context).sleep (← read millis.int64?)))
  | "sleep_until", [due] =>
    return .suspend ((← Logic.context).sleepUntil (← read (Timestamp.ofJson? due)))
  | "confirm", [required] =>
    return .suspend ((← Logic.context).waitForConfirmations (← read (required.nat? Json.max32)))
  | "checkpoint", [] => return .suspend (← Logic.context).forceCheckpoint
  | "raw", [request] => return .suspend (← read (Request.ofJson? request))
  | _, _ => malformed

/-- Acts on the value the flow was resumed with. -/
def consuming (names : TypeNames) (script : Script) (name : String) (args : List Json) :
    Logic Nat Move := do
  let (value, script) ← script.takeLast
  match name, args with
  | "take", [] => return script.note (← read (value.toJson Bytes.shown).normal?)
  | "messages", [] =>
    let messages ← Logic.ofFlow value.intoMessages
    return script.note (.object (messages.entries.map fun (id, payload) => (id.text, payload.shown)))
  | "number", [] =>
    let messages ← Logic.ofFlow value.intoMessages
    return script.note (.nat (← Logic.ofFlow (messages.decodeSingle (.nat names.word64 Json.max64))))
  | "number_from", [id] =>
    let id ← session id
    let messages ← Logic.ofFlow value.intoMessages
    return script.note (.nat (← Logic.ofFlow (messages.decode (.nat names.word64 Json.max64) id)))
  | _, _ => malformed

/-- Acts that end the flow, or might. -/
def failing (script : Script) (name : String) (args : List Json) : Logic Nat Move := do
  match name, args with
  | "fail", [reason] => Logic.fail (.failed (← read reason.text?))
  | "transient", [reason] => Logic.fail (.transient (← read reason.text?))
  | "flaky", [reason] =>
    let reason ← read reason.text?
    if ← spend then Logic.fail (.transient reason) else return .goOn script
  | "panic", [text] => Logic.panic (some (← read text.text?))
  | "panic_any", [] => Logic.panic none
  | _, _ => malformed

/-- Acts on sessions and on the log. -/
def noting (script : Script) (name : String) (args : List Json) : Logic Nat Move := do
  match name, args with
  | "initiate", [counterparty] =>
    let (id, ctx) := (← Logic.context).initiateSession (← read (Identity.ofJson? counterparty))
    Logic.setContext ctx
    return script.note id.toJson
  | "close", [id] =>
    Logic.setContext (← Logic.ofFlow ((← Logic.context).closeSession (← session id)))
    return .goOn script
  | "log", [entry] => return script.note entry
  | "view", [id] => return script.note (viewEntry (← Logic.context) (← session id))
  | "who", [] => return script.note (whoEntry (← Logic.context))
  | _, _ => malformed

def perform (names : TypeNames) (script : Script) (act : Json) : Logic Nat Move := do
  match act with
  | .array (.text name :: args) =>
    if ["initiate", "close", "log", "view", "who"].contains name then script.noting name args
    else if ["fail", "transient", "flaky", "panic", "panic_any"].contains name then
      script.failing name args
    else if ["take", "messages", "number", "number_from"].contains name then
      script.consuming names name args
    else suspending names name args
  | _ => malformed

/-- Perform acts up to the first that suspends the flow, or to the end. -/
def run (names : TypeNames) (script : Script) :
    List Json → Logic Nat (Step (List Json × List Json) (List Json))
  | [] => return .finish script.log
  | act :: rest => do
    match ← script.perform names act with
    | .goOn script => run names script rest
    | .suspend request => return .suspend (rest, script.log) request

end Script

/-- A flow that performs the acts it is given. -/
def script (names : TypeNames) : Flow Nat :=
  TypedFlow.withCodecs (.values names.values) (.valueLists names.valueLists) (.values names.values) {
    start acts := Script.run names ⟨[], none⟩ acts
    resume := fun (acts, log) value => Script.run names ⟨log, some value⟩ acts }

end DurableFlow.Samples
