import DurableFlow.Config
import DurableFlow.Context
import DurableFlow.Fiber
import DurableFlow.Record

/-! # From the outcome of a run to the checkpoint

After flow logic has run, its outcome is written into the checkpoint, and the records that follow
from it are added to those of the event. Session effects count only if the logic suspended or
finished. A wait that is over as soon as it begins is answered at once.
-/

namespace DurableFlow

inductive OutcomeError where
  | checkpoint (error : CheckpointError)
  | time (error : TimeError)
  deriving DecidableEq, Repr

/-- How flow logic was entered, so that a retry can enter it likewise. -/
inductive Attempt where
  | start
  | resume (value : Resumed)
  deriving DecidableEq

/-- What is to be done after an outcome. -/
inductive Next where
  /-- The checkpoint can be committed. -/
  | done
  /-- What the flow waits for is there already. -/
  | resume (value : Resumed)
  deriving DecidableEq

/-- A checkpoint and the records that an event has led to so far. -/
structure Draft where
  checkpoint : Checkpoint
  records : List Record
  deriving DecidableEq

namespace Draft

def emit (draft : Draft) (record : Record) : Draft :=
  { draft with records := draft.records ++ [record] }

def setStatus (draft : Draft) (status : Status) : Except OutcomeError Draft := do
  let cp ← (draft.checkpoint.setStatus status).mapError OutcomeError.checkpoint
  return { draft with checkpoint := cp }

def session (draft : Draft) (id : SessionId) : Except OutcomeError Session :=
  (draft.checkpoint.session id).mapError .checkpoint

def closeSession (draft : Draft) (id : SessionId) : Except OutcomeError Draft := do
  let session ← draft.session id
  let (number, session) := session.reserve
  let cp := draft.checkpoint.putSession id { session with status := .closed }
  return { draft with checkpoint := cp }.emit
    (.sessionClose cp.flowId id session.counterparty number)

/-- Open the sessions and close the sessions that flow logic has opened and closed. -/
def applyEffects (draft : Draft) (effects : Effects) : Except OutcomeError Draft := do
  let cp := effects.initiated.foldl (fun cp (id, counterparty) => cp.addSession id counterparty)
    draft.checkpoint
  effects.closed.foldlM closeSession { draft with checkpoint := cp }

def sendMessage (draft : Draft) (message : OutboundMessage) : Except OutcomeError Draft := do
  let session ← draft.session message.sessionId
  let (number, session) := session.reserve
  let cp := draft.checkpoint.putSession message.sessionId session
  return { draft with checkpoint := cp }.emit
    (.sessionData cp.flowId message.sessionId session.counterparty number message.payload)

/-- Give up a session because its flow failed. -/
def errorSession (reason : String) (draft : Draft) (id : SessionId) :
    Except OutcomeError Draft := do
  let session ← draft.session id
  let cp := draft.checkpoint.putSession id { session with status := .errored }
  return { draft with checkpoint := cp }.emit
    (.sessionError cp.flowId id session.counterparty reason)

/-- Announce that the flow is over and when its checkpoint may go. -/
def announceEnd (draft : Draft) (status : Status) (detail : Option String) (config : Config)
    (now : Timestamp) : Except OutcomeError Draft := do
  let id := draft.checkpoint.flowId
  let expiresAt ← (config.expiry now).mapError OutcomeError.time
  return (draft.emit (.flowStatus id status detail)).emit (.scheduleCleanup id expiresAt)

/-- Fail the flow, giving up every session that is open. -/
def fail (draft : Draft) (reason : String) (config : Config) (now : Timestamp) :
    Except OutcomeError Draft := do
  let draft ← draft.setStatus .failed
  let draft ← draft.checkpoint.openSessions.foldlM (errorSession reason) draft
  let cp := { draft.checkpoint with
    waitingFor := .nothing
    pendingResume := none
    lastFailureReason := some reason }
  { draft with checkpoint := cp }.announceEnd .failed (some reason) config now

def complete (draft : Draft) (output : Bytes) (effects : Effects) (config : Config)
    (now : Timestamp) : Except OutcomeError Draft := do
  let draft ← draft.applyEffects effects
  let draft ← draft.checkpoint.openSessions.foldlM closeSession draft
  let draft ← draft.setStatus .completed
  let cp := { draft.checkpoint with
    result := some output
    waitingFor := .nothing
    pendingResume := none }
  { draft with checkpoint := cp }.announceEnd .completed none config now

/-- Let the flow wait out the delay before its next retry. -/
def retry (draft : Draft) (error : FlowError) (attempt : Attempt) (config : Config)
    (now : Timestamp) : Except OutcomeError Draft := do
  let draft ← draft.setStatus .retrying
  let retryCount := draft.checkpoint.retryCount + 1
  let due ← (now.add (config.retry.backoff retryCount)).mapError OutcomeError.time
  let cp := { draft.checkpoint with
    retryCount
    lastFailureReason := some error.message
    pendingResume := match attempt with
      | .start => none
      | .resume value => some value
    waitingFor := .wakeup due }
  return ({ draft with checkpoint := cp }.emit (.scheduleWakeup cp.flowId due)).emit
    (.flowStatus cp.flowId .retrying (some error.message))

/-- Do what a request asks for at once, and say what the flow waits for then. -/
def beginWait (draft : Draft) (request : Request) (deadline : Option Timestamp)
    (now : Timestamp) : Except OutcomeError (Draft × Wait) := do
  match request with
  | .send messages => return (← messages.foldlM sendMessage draft, .wakeup now)
  | .sendAndReceive messages receiveFrom =>
    return (← messages.foldlM sendMessage draft, .sessions receiveFrom deadline)
  | .receive sessions => return (draft, .sessions sessions deadline)
  | .sleep wakeAt => return (draft, .wakeup wakeAt)
  | .waitForConfirmations required => return (draft, .confirmations required 0)
  | .forceCheckpoint => return (draft, .wakeup now)

/-- Answer a wait that is over as soon as it begins. -/
def answerWait (draft : Draft) : Draft × Next :=
  let ended : Option Resumed := match draft.checkpoint.waitingFor with
    | .confirmations required received =>
      if required ≤ received then some (.confirmed received) else none
    | _ => none
  match ended with
  | some value => (draft, .resume value)
  | none =>
    match draft.checkpoint.takeReady with
    | (some value, cp) => ({ draft with checkpoint := cp }, .resume value)
    | (none, cp) => ({ draft with checkpoint := cp }, .done)

/-- Suspend the flow on a request. -/
def suspend (draft : Draft) (request : Request) (config : Config) (now : Timestamp) :
    Except OutcomeError (Draft × Next) := do
  let deadline ← (config.deadline now).mapError OutcomeError.time
  let (draft, wait) ← draft.beginWait request deadline now
  let draft := { draft with checkpoint := { draft.checkpoint with waitingFor := wait } }
  let draft := match wait.alarm? with
    | some due => draft.emit (.scheduleWakeup draft.checkpoint.flowId due)
    | none => draft
  let draft ← draft.setStatus .suspended
  return draft.answerWait

/-- Write the outcome of a run into the checkpoint. -/
def applyOutcome (draft : Draft) (outcome : FiberOutcome) (effects : Effects) (attempt : Attempt)
    (config : Config) (now : Timestamp) : Except OutcomeError (Draft × Next) := do
  match outcome with
  | .suspended request continuation =>
    let draft ← draft.applyEffects effects
    let cp := { draft.checkpoint with
      continuation := some continuation
      retryCount := 0
      lastFailureReason := none
      pendingResume := none }
    { draft with checkpoint := cp }.suspend request config now
  | .completed output => return (← draft.complete output effects config now, .done)
  | .failed error =>
    if error.isRetryable ∧ draft.checkpoint.retryCount < config.retry.maxRetries then
      return (← draft.retry error attempt config now, .done)
    else return (← draft.fail error.message config now, .done)

end Draft

end DurableFlow
