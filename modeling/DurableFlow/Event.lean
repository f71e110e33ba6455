import DurableFlow.FlowId
import DurableFlow.Session

/-! # Inbound events -/

namespace DurableFlow

/-- The session through which a flow is started that answers another flow. -/
structure InitiatingSession where
  sessionId : SessionId
  counterparty : Identity
  deriving DecidableEq, Repr

structure StartRequest where
  flowName : String
  owner : Identity
  /-- The arguments as the flow's codec wrote them. -/
  args : Bytes
  initiatedBy : Option InitiatingSession
  deriving DecidableEq, Repr

inductive EventPayload where
  | startFlow (request : StartRequest)
  /-- An item arrived on a session, numbered by its sender. -/
  | session (sessionId : SessionId) (number : Nat) (item : Item)
  | wakeup
  | confirmation (count : Nat)
  /-- The flow is to be given up for a reason from outside. -/
  | failure (reason : String)
  deriving DecidableEq, Repr

def EventPayload.kind : EventPayload → String
  | .startFlow _ => "start_flow"
  | .session _ _ _ => "session"
  | .wakeup => "wakeup"
  | .confirmation _ => "confirmation"
  | .failure _ => "failure"

structure Event where
  flowId : FlowId
  payload : EventPayload
  deriving DecidableEq, Repr

end DurableFlow
