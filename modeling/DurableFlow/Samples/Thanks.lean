import DurableFlow.Host
import DurableFlow.Processing
import DurableFlow.Samples.Echo

/-! # A flow that sends and takes its leave

A flow gives thanks on the session through which it was started, and is over once that is durable. A
hasty one closes the session after it has built the message and before it suspends.
-/

namespace DurableFlow.Samples

/-- Send an octet on the initiating session, and finish. -/
def thanks (hasty : Bool) : Flow Unit where
  start _ := do
    let ctx ← Logic.context
    match ctx.initiator with
    | none => Logic.fail (.failed "nobody to thank")
    | some id =>
      let request ← Logic.ofFlow (ctx.send (Codec.fixed "octet" 1) id 1)
      if hasty then
        Logic.setContext (← Logic.ofFlow (ctx.closeSession id))
      return .suspend [] request
  resume _ := .ok fun _ => return .finish []

namespace Thanks

/-- What thanks run in. -/
def execution (hasty : Bool) (number : Nat) (owner : Identity) :
    Except String (ExecutionContext Unit) :=
  .ok ⟨number, owner, .ofList [("thanks", thanks hasty)], .json⟩

/-- The request to start the flow. -/
def begin : Event :=
  ⟨Echo.flow, .startFlow ⟨"thanks", ⟨"O=Alice", "g1"⟩, [], some ⟨Echo.session, ⟨"O=Bob", "g1"⟩⟩⟩⟩

def wake : Event := ⟨Echo.flow, .wakeup⟩

end Thanks

end DurableFlow.Samples
