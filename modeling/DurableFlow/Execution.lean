import DurableFlow.Fiber.Image
import DurableFlow.Flow
import DurableFlow.Text.Quoted

/-! # Execution contexts

An execution context is where the fibers of one identity are created, restored and written: it
says what the names of flows mean and how continuations are written. Contexts that were built
separately are told apart by a serial number even if they are otherwise the same.
-/

namespace DurableFlow

/-- The environment of the fibers of one identity. -/
structure ExecutionContext (σ : Type) where
  serial : Nat
  owner : Identity
  registry : Registry σ
  serializer : FiberSerializer

namespace ExecutionContext

/-- A description for log lines: the owner, the number of flows and the format. -/
def describe {σ : Type} (exec : ExecutionContext σ) : String :=
  "ExecutionContext \x7b owner: HoldingIdentity \x7b x500_name: " ++ Text.quote exec.owner.x500Name ++
    ", group_id: " ++ Text.quote exec.owner.groupId ++ " \x7d, flows: " ++
    toString exec.registry.size ++ ", format: " ++ Text.quote exec.serializer.format ++ " \x7d"

end ExecutionContext

end DurableFlow
