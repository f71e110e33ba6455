import DurableFlow.Host
import DurableFlow.Processing
import DurableFlow.Samples.Echo

/-! # A flow that asks for two items at once

A duet waits until it is woken up, so that items can arrive, and then names the session through which it
was started twice in one wait. It finishes with all that it was ever told.
-/

namespace DurableFlow.Samples

/-- Wait for two items of the initiating session at once, and finish with what is told of them. -/
def duet : Flow Unit where
  start _ := do return .suspend [] (← Logic.context).forceCheckpoint
  resume _ := .ok fun value => do
    match value with
    | .messages messages => return .finish (messages.entries.flatMap (·.2))
    | _ =>
      let ctx ← Logic.context
      let sessions := ctx.initiator.toList
      return .suspend [] (← Logic.ofFlow (ctx.receive (sessions ++ sessions)))

namespace Duet

/-- What duets run in. -/
def execution (number : Nat) (owner : Identity) : Except String (ExecutionContext Unit) :=
  .ok ⟨number, owner, .ofList [("duet", duet)], .json⟩

/-- The request to start the flow. -/
def begin : Event :=
  ⟨Echo.flow, .startFlow ⟨"duet", ⟨"O=Alice", "g1"⟩, [], some ⟨Echo.session, ⟨"O=Bob", "g1"⟩⟩⟩⟩

def wake : Event := ⟨Echo.flow, .wakeup⟩

end Duet

end DurableFlow.Samples
