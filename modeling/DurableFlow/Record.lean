import DurableFlow.Checkpoint

/-! # Outbound records

Records are handed to the transport after a commit: what the flow sends on its sessions,
acknowledgements of what it received, and what the surroundings have to know about it.
-/

namespace DurableFlow

inductive Record where
  | sessionData (flowId : FlowId) (sessionId : SessionId) (counterparty : Identity) (number : Nat)
    (payload : Bytes)
  | sessionClose (flowId : FlowId) (sessionId : SessionId) (counterparty : Identity) (number : Nat)
  /-- An inbound item has been kept. -/
  | sessionAck (flowId : FlowId) (sessionId : SessionId) (number : Nat)
  | sessionError (flowId : FlowId) (sessionId : SessionId) (counterparty : Identity)
    (reason : String)
  /-- A wake-up is wanted at or after a point in time. -/
  | scheduleWakeup (flowId : FlowId) (due : Timestamp)
  | flowStatus (flowId : FlowId) (status : Status) (detail : Option String)
  /-- The checkpoint may be removed after a point in time. -/
  | scheduleCleanup (flowId : FlowId) (expiresAt : Timestamp)
  deriving DecidableEq, Repr

def Record.flowId : Record → FlowId
  | .sessionData id _ _ _ _ => id
  | .sessionClose id _ _ _ => id
  | .sessionAck id _ _ => id
  | .sessionError id _ _ _ => id
  | .scheduleWakeup id _ => id
  | .flowStatus id _ _ => id
  | .scheduleCleanup id _ => id

end DurableFlow
