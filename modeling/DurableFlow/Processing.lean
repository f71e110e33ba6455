import DurableFlow.Environment
import DurableFlow.Handler
import DurableFlow.Publisher
import DurableFlow.Scheduler
import DurableFlow.Store

/-! # What handling an event is given and what becomes of it -/

namespace DurableFlow

inductive ProcessingError where
  | store (error : StoreError)
  /-- Another writer came first. -/
  | conflict (flowId : FlowId) (expected : Nat) (current : Option Nat)
  | environment (error : EnvironmentError)
  | fiber (error : FiberError)
  /-- The checkpoint is written, but its records were not taken over. -/
  | publish (flowId : FlowId) (error : PublishError)
  | scheduler (error : SchedulerError)
  | checkpoint (error : CheckpointError)
  deriving DecidableEq, Repr

namespace ProcessingError

def versionText : Option Nat → String
  | some version => "Some(" ++ toString version ++ ")"
  | none => "None"

def message : ProcessingError → String
  | .store error => error.message
  | .conflict id expected current =>
    "checkpoint of flow " ++ id.text ++ " changed underneath us (expected version " ++
      toString expected ++ ", found " ++ versionText current ++ ")"
  | .environment error => error.message
  | .fiber error => "engine failure: " ++ error.message
  | .publish id error => "flow " ++ id.text ++ " committed but publishing failed: " ++ error.message
  | .scheduler error => error.message
  | .checkpoint error => error.message

/-- Whether handling the event again may succeed. -/
def isTransient : ProcessingError → Bool
  | .store _ => true
  | .conflict _ _ _ => true
  | .scheduler _ => true
  | .environment error => error.isTransient
  | _ => false

end ProcessingError

/-- Why handling an event stops. -/
inductive Stop where
  | error (reason : ProcessingError)
  /-- A point in time cannot be computed; the job crashes. -/
  | time (error : TimeError)
  /-- The flow entered its logic more often than one event may. -/
  | entryLimit
  deriving DecidableEq, Repr

inductive ProcessingOutcome where
  | committed (flowId : FlowId) (version : Nat) (status : Status)
  /-- The event did not apply, and nothing changed. -/
  | discarded (flowId : FlowId) (reason : Refusal)
  deriving DecidableEq, Repr

/-- What holds while one event is handled. -/
structure Settings where
  config : Config
  /-- The time that the event is stamped with. -/
  now : Timestamp
  /-- The reading of the clock that kept fibers expire by. -/
  instant : Nat
  /-- How often the event may enter flow logic. -/
  entryLimit : Nat

end DurableFlow
