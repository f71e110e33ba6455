import DurableFlow.Session

/-! # Failures of flow logic

These are the ways in which a flow itself fails, by its own decision or through a primitive it
calls. They never stop the engine. Only a transient failure may be retried.
-/

namespace DurableFlow

inductive FlowError where
  /-- The flow gave up for a reason of its own. -/
  | failed (reason : String)
  | transient (reason : String)
  | unknownSession (id : SessionId)
  | sessionClosed (id : SessionId)
  | sessionFailed (id : SessionId) (reason : String)
  /-- The value a flow was resumed with does not fit what it waited for. -/
  | resumeMismatch (expected found : String)
  | payload (reason : String)
  | panicked (reason : String)
  | unknownFlow (name : String)
  deriving DecidableEq, Repr, Inhabited

namespace FlowError

def isRetryable : FlowError → Bool
  | .transient _ => true
  | _ => false

def message : FlowError → String
  | .failed reason => "flow failed: " ++ reason
  | .transient reason => "transient failure: " ++ reason
  | .unknownSession id => "unknown session '" ++ id.text ++ "'"
  | .sessionClosed id => "session '" ++ id.text ++ "' is closed"
  | .sessionFailed id reason => "session '" ++ id.text ++ "' failed: " ++ reason
  | .resumeMismatch expected found =>
    "resume value mismatch: expected " ++ expected ++ ", found " ++ found
  | .payload reason => "payload error: " ++ reason
  | .panicked reason => "flow panicked: " ++ reason
  | .unknownFlow name => "flow '" ++ name ++ "' is not registered"

end FlowError

end DurableFlow
