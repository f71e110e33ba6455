import DurableFlow.Samples.Echo

/-! # A flow that takes minutes

Minutes take down item by item what is said on the session through which the flow was started, and
are over when that session is. All that was heard so far is the state between two items.
-/

namespace DurableFlow.Samples

/-- Wait for the next item of the initiating session, keeping what was heard. -/
def listen (heard : Bytes) : Logic Unit RawStep := do
  let ctx ← Logic.context
  return .suspend heard (← Logic.ofFlow (ctx.receive ctx.initiator.toList))

/-- Listen until the session ends, and finish with what was heard. -/
def minutes : Flow Unit where
  start _ := listen []
  resume heard := .ok fun value =>
    match value with
    | .messages messages => listen (heard ++ messages.entries.flatMap (·.2))
    | _ => return .finish heard

namespace Minutes

/-- What minutes run in. -/
def execution (number : Nat) (owner : Identity) : Except String (ExecutionContext Unit) :=
  .ok ⟨number, owner, .ofList [("minutes", minutes)], .json⟩

/-- The context of a flow that was started through a session. -/
def context : Context :=
  (Context.new Echo.flow ⟨"O=Alice", "g1"⟩ .epoch).withInitiator Echo.session ⟨"O=Bob", "g1"⟩

/-- What the flow is told when an octet arrives. -/
def hears (octet : UInt8) : Resumed := .messages (.ofList [(Echo.session, [octet])])

end Minutes

end DurableFlow.Samples
