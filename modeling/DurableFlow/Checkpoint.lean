import DurableFlow.FlowId
import DurableFlow.Request

/-! # Checkpoints

A checkpoint is the durable record of one flow: the continuation of its suspended fiber, what it
waits for, its sessions, its retries, and a version that counts the times it was stored. `takeReady`
decides when a wait for session items is over.
-/

namespace DurableFlow

/-- Where a flow is in its life. -/
inductive Status where
  | created
  | running
  | suspended
  | completed
  | failed
  | retrying
  deriving DecidableEq, Repr, Inhabited

namespace Status

def text : Status → String
  | .created => "CREATED"
  | .running => "RUNNING"
  | .suspended => "SUSPENDED"
  | .completed => "COMPLETED"
  | .failed => "FAILED"
  | .retrying => "RETRYING"

def isTerminal : Status → Bool
  | .completed => true
  | .failed => true
  | _ => false

/-- Whether a flow may move from one status to another. -/
def canMoveTo : Status → Status → Bool
  | .created, .running => true
  | .created, .failed => true
  | .running, .suspended => true
  | .running, .completed => true
  | .running, .failed => true
  | .running, .retrying => true
  | .suspended, .running => true
  | .suspended, .failed => true
  | .retrying, .running => true
  | .retrying, .failed => true
  | _, _ => false

end Status

/-- What a flow needs before it can run again. -/
inductive Wait where
  | start
  /-- The next item of every listed session, or the deadline. -/
  | sessions (awaited : List SessionId) (deadline : Option Timestamp)
  | wakeup (due : Timestamp)
  | confirmations (required received : Nat)
  | nothing
  deriving DecidableEq, Repr, Inhabited

inductive WaitKind where
  | start
  | sessionData
  | wakeup
  | confirmations
  | nothing
  deriving DecidableEq, Repr, Inhabited

def WaitKind.text : WaitKind → String
  | .start => "Start"
  | .sessionData => "SessionData"
  | .wakeup => "Wakeup"
  | .confirmations => "Confirmations"
  | .nothing => "Nothing"

def Wait.kind : Wait → WaitKind
  | .start => .start
  | .sessions _ _ => .sessionData
  | .wakeup _ => .wakeup
  | .confirmations _ _ => .confirmations
  | .nothing => .nothing

/-- The point in time at which a wait ends by itself, if there is one. -/
def Wait.alarm? : Wait → Option Timestamp
  | .wakeup due => some due
  | .sessions _ deadline => deadline
  | _ => none

def maxConfirmations : Nat := Nat.pow 2 32 - 1

/-- The durable record of one flow. -/
structure Checkpoint where
  flowId : FlowId
  owner : Identity
  flowName : String
  /-- The suspended fiber as its serializer wrote it. -/
  continuation : Option Bytes
  waitingFor : Wait
  sessions : SortedMap SessionId Session
  status : Status
  /-- Failures in a row that were retried. -/
  retryCount : Nat
  lastFailureReason : Option String
  /-- How often the record was stored; zero if never. -/
  version : Nat
  /-- The encoded start arguments, kept for a retried start. -/
  startArgs : Option Bytes
  /-- The resume value that a retried resume is given again. -/
  pendingResume : Option Resumed
  result : Option Bytes
  /-- The session through which the flow was started, if it answers another flow. -/
  initiatedBy : Option SessionId
  createdAt : Timestamp
  updatedAt : Timestamp
  deriving DecidableEq

inductive CheckpointError where
  | invalidTransition (flowId : FlowId) (source target : Status)
  | unknownSession (flowId : FlowId) (sessionId : SessionId)
  deriving DecidableEq, Repr

def CheckpointError.message : CheckpointError → String
  | .invalidTransition id source target =>
    "flow " ++ id.text ++ " cannot move from " ++ source.text ++ " to " ++ target.text
  | .unknownSession id session => "flow " ++ id.text ++ " has no session '" ++ session.text ++ "'"

namespace Checkpoint

/-- The checkpoint of a flow that has not been started. -/
def new (flowId : FlowId) (owner : Identity) (flowName : String) (now : Timestamp) : Checkpoint where
  flowId
  owner
  flowName
  continuation := none
  waitingFor := .start
  sessions := {}
  status := .created
  retryCount := 0
  lastFailureReason := none
  version := 0
  startArgs := none
  pendingResume := none
  result := none
  initiatedBy := none
  createdAt := now
  updatedAt := now

def isTerminal (cp : Checkpoint) : Bool := cp.status.isTerminal

def setStatus (cp : Checkpoint) (target : Status) : Except CheckpointError Checkpoint :=
  if cp.status.canMoveTo target then .ok { cp with status := target }
  else .error (.invalidTransition cp.flowId cp.status target)

/-- Add a session, unless there is one with that id. -/
def addSession (cp : Checkpoint) (id : SessionId) (counterparty : Identity) : Checkpoint :=
  if cp.sessions.contains id then cp
  else { cp with sessions := cp.sessions.insert id (.new counterparty) }

def session (cp : Checkpoint) (id : SessionId) : Except CheckpointError Session :=
  match cp.sessions.get? id with
  | some session => .ok session
  | none => .error (.unknownSession cp.flowId id)

def putSession (cp : Checkpoint) (id : SessionId) (session : Session) : Checkpoint :=
  { cp with sessions := cp.sessions.insert id session }

/-- The open sessions in the order of their ids. -/
def openSessions (cp : Checkpoint) : List SessionId :=
  (cp.sessions.filter fun _ session => session.isOpen).keys

/-- How far a wait for session items has come. -/
inductive Readiness where
  | waiting
  /-- A session that can never deliver comes before any that cannot deliver yet. -/
  | ended (id : SessionId)
  | ready
  deriving DecidableEq, Repr

/-- Look at the awaited sessions in order. -/
def readiness (sessions : SortedMap SessionId Session) : List SessionId → Readiness
  | [] => .ready
  | id :: rest =>
    match sessions.get? id with
    | none => .waiting
    | some session =>
      if !session.isOpen then .ended id
      else if session.next?.isNone then .waiting
      else readiness sessions rest

/-- Whether the next item of a session is its counterparty's close. -/
def isClosing (sessions : SortedMap SessionId Session) (id : SessionId) : Bool :=
  (sessions.get? id).bind Session.next? = some .close

/-- Consume the next item of a session; the payload if it carries one. -/
def consume (sessions : SortedMap SessionId Session) (id : SessionId) :
    Option Bytes × SortedMap SessionId Session :=
  match (sessions.get? id).bind Session.consume? with
  | some (.data payload, session) => (some payload, sessions.insert id session)
  | some (.close, session) => (none, sessions.insert id session)
  | none => (none, sessions)

/-- Consume the next item of each listed session, collecting the payloads. -/
def collect (sessions : SortedMap SessionId Session) (messages : Messages) :
    List SessionId → Messages × SortedMap SessionId Session
  | [] => (messages, sessions)
  | id :: rest =>
    match consume sessions id with
    | (some payload, sessions) => collect sessions (messages.insert id payload) rest
    | (none, sessions) => collect sessions messages rest

/-- End a wait for session items: if every awaited session can deliver, consume what they deliver.
A close is delivered alone as the failure of its session, and the items of the others stay. -/
def takeReady (cp : Checkpoint) : Option Resumed × Checkpoint :=
  match cp.waitingFor with
  | .sessions awaited _ =>
    match readiness cp.sessions awaited with
    | .waiting => (none, cp)
    | .ended id => (some (.sessionFailed id .closedByPeer), cp)
    | .ready =>
      match awaited.find? (isClosing cp.sessions) with
      | some id =>
        (some (.sessionFailed id .closedByPeer),
          { cp with sessions := (consume cp.sessions id).2 })
      | none =>
        let (messages, sessions) := collect cp.sessions {} awaited
        (some (.messages messages), { cp with sessions })
  | _ => (none, cp)

/-- What a wait that is over is answered with, and the checkpoint after that. -/
def takeReady? (cp : Checkpoint) : Option (Resumed × Checkpoint) :=
  cp.takeReady.1.map (·, cp.takeReady.2)

end Checkpoint

end DurableFlow
