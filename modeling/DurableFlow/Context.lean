import DurableFlow.Checkpoint

/-! # The context of running flow logic

Flow logic sees its flow's id and owner, the time, and its sessions. It opens and closes sessions
and builds its requests here. Nothing it does reaches the checkpoint directly: the changes are
kept as effects, to be applied when the logic suspends or finishes and dropped when it fails.
-/

namespace DurableFlow

structure SessionView where
  counterparty : Identity
  isOpen : Bool
  deriving DecidableEq, Repr

/-- What flow logic did to its sessions. -/
structure Effects where
  initiated : List (SessionId × Identity)
  closed : List SessionId
  deriving DecidableEq, Repr

namespace Effects

def none : Effects := ⟨[], []⟩

def isEmpty (effects : Effects) : Bool := effects.initiated.isEmpty && effects.closed.isEmpty

end Effects

structure Context where
  flowId : FlowId
  owner : Identity
  /-- The time at which the event is handled that the logic runs for. -/
  now : Timestamp
  /-- The session through which the flow was started, if any. -/
  initiator : Option SessionId
  sessions : SortedMap SessionId SessionView
  effects : Effects
  deriving DecidableEq

namespace Context

def new (flowId : FlowId) (owner : Identity) (now : Timestamp) : Context :=
  { flowId, owner, now, initiator := none, sessions := {}, effects := .none }

/-- The view that a flow has of its own checkpoint. -/
def ofCheckpoint (cp : Checkpoint) (now : Timestamp) : Context where
  flowId := cp.flowId
  owner := cp.owner
  now
  initiator := cp.initiatedBy
  sessions := cp.sessions.mapValues fun _ session => ⟨session.counterparty, session.isOpen⟩
  effects := .none

def withSession (ctx : Context) (id : SessionId) (counterparty : Identity) : Context :=
  { ctx with sessions := ctx.sessions.insert id ⟨counterparty, true⟩ }

/-- Add an open session as the one through which the flow was started. -/
def withInitiator (ctx : Context) (id : SessionId) (counterparty : Identity) : Context :=
  { ctx with initiator := some id }.withSession id counterparty

/-- The id of the next session that the flow opens. It depends on the flow and its sessions only,
so running the same logic again opens the same sessions. -/
def nextSessionId (ctx : Context) : SessionId :=
  ⟨ctx.flowId.text ++ "-" ++ toString (ctx.sessions.size + 1)⟩

def initiateSession (ctx : Context) (counterparty : Identity) : SessionId × Context :=
  let id := ctx.nextSessionId
  (id, { ctx.withSession id counterparty with
    effects := { ctx.effects with initiated := ctx.effects.initiated ++ [(id, counterparty)] } })

/-- Fail unless a session is known and open; its view otherwise. -/
def requireOpen (ctx : Context) (id : SessionId) : Except FlowError SessionView :=
  match ctx.sessions.get? id with
  | none => .error (.unknownSession id)
  | some view => if view.isOpen then .ok view else .error (.sessionClosed id)

def closeSession (ctx : Context) (id : SessionId) : Except FlowError Context := do
  let view ← ctx.requireOpen id
  return { ctx with
    sessions := ctx.sessions.insert id { view with isOpen := false }
    effects := { ctx.effects with closed := ctx.effects.closed ++ [id] } }

variable {α : Type}

/-- The message that carries a value on a session. -/
def outbound (ctx : Context) (codec : Codec α) (id : SessionId) (value : α) :
    Except FlowError OutboundMessage := do
  let _ ← ctx.requireOpen id
  return ⟨id, ← codec.encodePayload value⟩

def send (ctx : Context) (codec : Codec α) (id : SessionId) (value : α) :
    Except FlowError Request := do
  return .send [← ctx.outbound codec id value]

/-- Send a value and wait for the reply. -/
def sendAndReceive (ctx : Context) (codec : Codec α) (id : SessionId) (value : α) :
    Except FlowError Request := do
  return .sendAndReceive [← ctx.outbound codec id value] [id]

/-- Wait for one message from each of some sessions. -/
def receive (ctx : Context) (ids : List SessionId) : Except FlowError Request := do
  if ids.isEmpty then throw (.failed "receive needs at least one session")
  ids.forM fun id => discard (ctx.requireOpen id)
  return .receive ids

def sleepUntil (_ : Context) (wakeAt : Timestamp) : Request := .sleep wakeAt

def sleep (ctx : Context) (millis : Int) : Except TimeError Request := do
  return .sleep (← ctx.now.add (← duration millis))

def waitForConfirmations (_ : Context) (required : Nat) : Request := .waitForConfirmations required

def forceCheckpoint (_ : Context) : Request := .forceCheckpoint

/-- The effects so far, and the context without them. -/
def takeEffects (ctx : Context) : Effects × Context :=
  (ctx.effects, { ctx with effects := .none })

end Context

end DurableFlow
