import DurableFlow.Event
import DurableFlow.Outcome

/-! # What an event does before any flow logic runs

Each kind of event applies to flows with certain waits only. An event that applies changes the
checkpoint, adds records, and decides whether and how flow logic is entered. An event that is
refused changes nothing.
-/

namespace DurableFlow

inductive Refusal where
  /-- The flow waits for something else. -/
  | notApplicable (event : String) (wait : Option WaitKind)
  | alreadyOver (status : Status)
  | alreadyStarted
  | namesNoFlow
  | noCheckpoint
  | unknownSession (id : SessionId)
  | sessionNotOpen (id : SessionId)
  | duplicateItem (number : Nat) (id : SessionId)
  | nothingToResumeWith
  | namesNoSessions
  | noTimer
  | emptyConfirmation
  | notWaitingForConfirmations
  | checkpoint (error : CheckpointError)
  deriving DecidableEq, Repr

def Refusal.message : Refusal → String
  | .notApplicable event wait =>
    let shown := match wait with
      | some kind => "Some(" ++ kind.text ++ ")"
      | none => "None"
    event ++ " event does not apply while waiting for " ++ shown
  | .alreadyOver status => "flow already " ++ status.text
  | .alreadyStarted => "flow already started"
  | .namesNoFlow => "start request names no flow"
  | .noCheckpoint => "flow has no checkpoint"
  | .unknownSession id => "unknown session '" ++ id.text ++ "'"
  | .sessionNotOpen id => "session '" ++ id.text ++ "' is no longer open"
  | .duplicateItem number id =>
    "duplicate message " ++ toString number ++ " on session '" ++ id.text ++ "'"
  | .nothingToResumeWith => "retrying flow has nothing to resume with"
  | .namesNoSessions => "session wait names no sessions"
  | .noTimer => "flow is not waiting on a timer"
  | .emptyConfirmation => "empty confirmation"
  | .notWaitingForConfirmations => "flow is not waiting for confirmations"
  | .checkpoint error => error.message

inductive HandlerError where
  | refused (reason : Refusal)
  | time (error : TimeError)
  deriving DecidableEq, Repr

/-- How flow logic is to be entered. -/
inductive Decision where
  | start (args : Bytes)
  | resume (value : Resumed)
  /-- Not at all. -/
  | skip
  deriving DecidableEq

/-- A checkpoint ready for its flow logic. -/
structure Prepared where
  draft : Draft
  decision : Decision
  deriving DecidableEq

namespace Handler

def resumeIf : Option Resumed → Decision
  | some value => .resume value
  | none => .skip

def start (flowId : FlowId) (request : StartRequest) (now : Timestamp)
    (cp : Option Checkpoint) : Except Refusal Prepared :=
  if cp.isSome then .error .alreadyStarted
  else if request.flowName.isEmpty then .error .namesNoFlow
  else
    let cp := { Checkpoint.new flowId request.owner request.flowName now with
      startArgs := some request.args }
    let cp := match request.initiatedBy with
      | none => cp
      | some initiator =>
        { cp.addSession initiator.sessionId initiator.counterparty with
          initiatedBy := some initiator.sessionId }
    .ok ⟨⟨cp, []⟩, .start request.args⟩

/-- Keep an inbound item, acknowledge it, and resume the flow if it was the last one awaited. Items
are kept whatever a suspended flow waits for, since a reply may come before the wait for it. -/
def session (flowId : FlowId) (id : SessionId) (number : Nat) (item : Item) (cp : Checkpoint) :
    Except Refusal Prepared :=
  match cp.sessions.get? id with
  | none => .error (.unknownSession id)
  | some session =>
    if !session.isOpen then .error (.sessionNotOpen id)
    else if session.hasSeen number then .error (.duplicateItem number id)
    else
      let (value, cp) := (cp.putSession id (session.buffer number item)).takeReady
      .ok ⟨⟨cp, [.sessionAck flowId id number]⟩, resumeIf value⟩

/-- Enter a flow again that waits for its retry. -/
def retry (cp : Checkpoint) : Except Refusal Prepared :=
  match cp.pendingResume with
  | some value => .ok ⟨⟨{ cp with pendingResume := none }, []⟩, .resume value⟩
  | none =>
    if cp.continuation.isNone then .ok ⟨⟨cp, []⟩, .start (cp.startArgs.getD [])⟩
    else .error .nothingToResumeWith

/-- Whether a session cannot deliver its next item. -/
def isLate (cp : Checkpoint) (id : SessionId) : Bool :=
  ((cp.sessions.get? id).bind Session.next?).isNone

/-- Resume a sleeping flow, retry a flow whose delay is over, or let a wait for session items time
out. A wake-up that comes too early asks for another one. -/
def wakeup (now : Timestamp) (cp : Checkpoint) : Except Refusal Prepared :=
  match cp.waitingFor with
  | .wakeup due =>
    if now < due then .ok ⟨⟨cp, [.scheduleWakeup cp.flowId due]⟩, .skip⟩
    else if cp.status = .retrying then retry cp
    else .ok ⟨⟨cp, []⟩, .resume .wakeup⟩
  | .sessions awaited (some deadline) =>
    if now < deadline then .ok ⟨⟨cp, [.scheduleWakeup cp.flowId deadline]⟩, .skip⟩
    else match (awaited.find? (isLate cp)).or awaited.head? with
      | some id => .ok ⟨⟨cp, []⟩, .resume (.sessionFailed id .timedOut)⟩
      | none => .error .namesNoSessions
  | _ => .error .noTimer

/-- Count confirmations, up to a limit, and resume the flow once there are enough. -/
def confirmation (count : Nat) (cp : Checkpoint) : Except Refusal Prepared :=
  match cp.waitingFor with
  | .confirmations required received =>
    let received := min (received + count) maxConfirmations
    let cp := { cp with waitingFor := .confirmations required received }
    .ok ⟨⟨cp, []⟩, if required ≤ received then .resume (.confirmed received) else .skip⟩
  | _ => .error .notWaitingForConfirmations

def failure (reason : String) (config : Config) (now : Timestamp) (cp : Checkpoint) :
    Except HandlerError Prepared :=
  match Draft.fail ⟨cp, []⟩ reason config now with
  | .ok draft => .ok ⟨draft, .skip⟩
  | .error (.checkpoint error) => .error (.refused (.checkpoint error))
  | .error (.time error) => .error (.time error)

def name : EventPayload → String
  | .startFlow _ => "start flow"
  | .session _ _ _ => "session message"
  | .wakeup => "wakeup"
  | .confirmation _ => "confirmation"
  | .failure _ => "failure"

/-- Whether an event applies to a flow with a wait; no wait means that there is no such flow. -/
def accepts : EventPayload → Option Wait → Bool
  | .startFlow _, none => true
  | .session _ _ _, some (.sessions _ _) => true
  | .session _ _ _, some (.wakeup _) => true
  | .session _ _ _, some (.confirmations _ _) => true
  | .wakeup, some (.wakeup _) => true
  | .wakeup, some (.sessions _ (some _)) => true
  | .confirmation _, some (.confirmations _ _) => true
  | .failure _, some wait => wait.kind ≠ .nothing
  | _, _ => false

/-- Let an event do its part on a checkpoint. -/
def preprocess (flowId : FlowId) (payload : EventPayload) (config : Config) (now : Timestamp)
    (cp : Option Checkpoint) : Except HandlerError Prepared :=
  match payload, cp with
  | .startFlow request, cp => (start flowId request now cp).mapError .refused
  | .confirmation 0, _ => .error (.refused .emptyConfirmation)
  | _, none => .error (.refused .noCheckpoint)
  | .session id number item, some cp => (session flowId id number item cp).mapError .refused
  | .wakeup, some cp => (wakeup now cp).mapError .refused
  | .confirmation count, some cp => (confirmation count cp).mapError .refused
  | .failure reason, some cp => failure reason config now cp

/-- Refuse an event that does not apply, and let any other do its part. -/
def prepare (flowId : FlowId) (payload : EventPayload) (config : Config) (now : Timestamp)
    (cp : Option Checkpoint) : Except HandlerError Prepared :=
  let wait := cp.map (·.waitingFor)
  if accepts payload wait then preprocess flowId payload config now cp
  else .error (.refused (.notApplicable (name payload) (wait.map Wait.kind)))

end Handler

end DurableFlow
