import DurableFlow.Processing

/-! # Names of the kinds of errors

A report names the kind of an error beside its wording, so that a reader can tell errors apart
without taking the wording to pieces.
-/

namespace DurableFlow

def FlowError.kind : FlowError → String
  | .failed _ => "Failed"
  | .transient _ => "Transient"
  | .unknownSession _ => "UnknownSession"
  | .sessionClosed _ => "SessionClosed"
  | .sessionFailed _ _ => "SessionFailed"
  | .resumeMismatch _ _ => "ResumeMismatch"
  | .payload _ => "Payload"
  | .panicked _ => "Panicked"
  | .unknownFlow _ => "UnknownFlow"

def FiberError.kind : FiberError → String
  | .unknownFlow _ => "UnknownFlow"
  | .decode _ _ => "Decode"
  | .encode _ _ => "Encode"
  | .missingContinuation _ => "MissingContinuation"
  | .invalidState _ _ _ => "InvalidState"

def CheckpointError.kind : CheckpointError → String
  | .invalidTransition _ _ _ => "InvalidTransition"
  | .unknownSession _ _ => "UnknownSession"

def PublishError.kind : PublishError → String
  | .unavailable _ => "Unavailable"
  | .rejected _ => "Rejected"

def SchedulerError.kind : SchedulerError → String
  | .shuttingDown => "ShuttingDown"
  | .cancelled => "Cancelled"

def EnvironmentError.kind : EnvironmentError → String
  | .inMaintenance _ => "InMaintenance"
  | .unavailable _ => "Unavailable"
  | .construction _ _ => "Construction"

def ProcessingError.kind : ProcessingError → String
  | .store _ => "Store"
  | .conflict _ _ _ => "Conflict"
  | .environment _ => "Environment"
  | .fiber _ => "FatalEngine"
  | .publish _ _ => "Publish"
  | .scheduler _ => "Scheduler"
  | .checkpoint _ => "Checkpoint"

end DurableFlow
