import DurableFlow.Codec
import DurableFlow.SortedMap

/-! # What a flow is resumed with -/

namespace DurableFlow

inductive SuspensionKind where
  | messages
  | wakeup
  | confirmations
  deriving DecidableEq, Repr, Inhabited

def SuspensionKind.text : SuspensionKind → String
  | .messages => "messages"
  | .wakeup => "wakeup"
  | .confirmations => "confirmations"

/-- Why a session stopped delivering to a waiting flow. -/
inductive SessionFailureReason where
  | closedByPeer
  | timedOut
  deriving DecidableEq, Repr, Inhabited

def SessionFailureReason.text : SessionFailureReason → String
  | .closedByPeer => "closed by peer"
  | .timedOut => "timed out"

/-- One payload from each of some sessions. -/
abbrev Messages := SortedMap SessionId Bytes

namespace Messages

variable {α : Type}

def decode (codec : Codec α) (messages : Messages) (id : SessionId) : Except FlowError α :=
  match messages.get? id with
  | some payload => codec.decodePayload payload
  | none => .error (.unknownSession id)

def decodeSingle (codec : Codec α) (messages : Messages) : Except FlowError α :=
  match messages.entries with
  | [(_, payload)] => codec.decodePayload payload
  | entries =>
    .error (.payload ("expected a single message, received " ++ toString entries.length))

end Messages

inductive Resumed where
  | messages (received : Messages)
  | wakeup
  | confirmed (confirmations : Nat)
  | sessionFailed (id : SessionId) (reason : SessionFailureReason)
  deriving DecidableEq

namespace Resumed

/-- The kind of a resume value. A failed session answers a wait for messages. -/
def kind : Resumed → SuspensionKind
  | .messages _ => .messages
  | .sessionFailed _ _ => .messages
  | .wakeup => .wakeup
  | .confirmed _ => .confirmations

/-- The messages of a resume value, as flow logic asks for them. -/
def intoMessages : Resumed → Except FlowError Messages
  | .messages received => .ok received
  | .sessionFailed id reason => .error (.sessionFailed id reason.text)
  | other => .error (.resumeMismatch SuspensionKind.messages.text other.kind.text)

end Resumed

end DurableFlow
