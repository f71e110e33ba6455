import DurableFlow.Resumed
import DurableFlow.Timestamp

/-! # What a flow suspends on -/

namespace DurableFlow

structure OutboundMessage where
  sessionId : SessionId
  payload : Bytes
  deriving DecidableEq, Repr, Inhabited

/-- The interaction with the outside that a flow suspends on. -/
inductive Request where
  /-- Send, and go on once the sending is durable. -/
  | send (messages : List OutboundMessage)
  /-- Send, then wait for one message from each of some sessions. -/
  | sendAndReceive (messages : List OutboundMessage) (receiveFrom : List SessionId)
  | receive (sessions : List SessionId)
  | sleep (wakeAt : Timestamp)
  | waitForConfirmations (required : Nat)
  /-- Make the current state durable, then go on. -/
  | forceCheckpoint
  deriving DecidableEq, Repr

/-- The kind of value a request is answered with. -/
def Request.expects : Request → SuspensionKind
  | .sendAndReceive _ _ => .messages
  | .receive _ => .messages
  | .send _ => .wakeup
  | .sleep _ => .wakeup
  | .forceCheckpoint => .wakeup
  | .waitForConfirmations _ => .confirmations

end DurableFlow
