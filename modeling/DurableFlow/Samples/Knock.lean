import DurableFlow.Host
import DurableFlow.Processing
import DurableFlow.Samples.Echo

/-! # A flow that asks a busy service

A knock waits for an item and passes its payload on, which fails as long as the service it calls is
busy. How many more calls find the service busy is all there is to its world.
-/

namespace DurableFlow.Samples

/-- Wait for an item of the initiating session, and finish with its payload unless the service is
busy. -/
def knock : Flow Nat where
  start _ := do
    let ctx ← Logic.context
    return .suspend [] (← Logic.ofFlow (ctx.receive ctx.initiator.toList))
  resume _ := .ok fun value => do
    let messages ← Logic.ofFlow value.intoMessages
    match ← Logic.world with
    | 0 => return .finish (messages.entries.flatMap (·.2))
    | more + 1 =>
      Logic.setWorld more
      Logic.fail (.transient "busy")

namespace Knock

/-- What knocks run in. -/
def execution (number : Nat) (owner : Identity) : Except String (ExecutionContext Nat) :=
  .ok ⟨number, owner, .ofList [("echo", knock)], .json⟩

theorem execution_serializer : ∀ number owner exec, execution number owner = .ok exec →
    exec.serializer = .json := by
  rintro number owner exec ⟨⟩
  rfl

/-- An event is handled when the first retry is due. -/
def later : Settings :=
  { Echo.settings with now := (Timestamp.of? 1 0).getD .epoch }

end Knock

end DurableFlow.Samples
