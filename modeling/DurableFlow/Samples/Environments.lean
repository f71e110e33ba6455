import DurableFlow.Environment
import DurableFlow.Fiber
import DurableFlow.Samples.Flows

/-! # Execution contexts for the sample flows -/

namespace DurableFlow.Samples

/-- The context of an identity. One identity cannot write its fibers. -/
def execution (registry : Registry Nat) (serial : Nat) (owner : Identity) :
    ExecutionContext Nat where
  serial
  owner
  registry
  serializer := if owner.x500Name = "O=BadSerializer" then refusing else .json

/-- The sample flows for every identity, except for those with one of some names. -/
def factory (names : TypeNames) (broken : List String) (serial : Nat) (owner : Identity) :
    Except String (ExecutionContext Nat) :=
  if broken.contains owner.x500Name then .error ("no environment for " ++ owner.x500Name)
  else .ok (execution (registry names) serial owner)

/-- A fiber of a sample flow that has run on its own up to its first stop. -/
def started (exec : ExecutionContext Nat) (id : FlowId) (flowName : String) (args : Bytes) :
    Except FiberError (Fiber Nat) := do
  let fiber ← Fiber.forFlow exec id flowName
  return (fiber.start exec args (.new id exec.owner .epoch) 0).fiber

end DurableFlow.Samples
