import DurableFlow.Host
import DurableFlow.Processing
import DurableFlow.Samples.Echo

/-! # A flow that opens a session

An enquiry opens a session with an advisor, sends an octet there, and is over once that is durable.
-/

namespace DurableFlow.Samples

namespace Enquiry

def owner : Identity := ⟨"O=Alice", "g1"⟩

/-- The party that has started the flow. -/
def client : Identity := ⟨"O=Bob", "g1"⟩

def advisor : Identity := ⟨"O=Carol", "g1"⟩

end Enquiry

/-- Send an octet to the advisor, and finish. -/
def enquiry : Flow Unit where
  start _ := do
    let ctx ← Logic.context
    let opened := ctx.initiateSession Enquiry.advisor
    Logic.setContext opened.2
    return .suspend [] (← Logic.ofFlow (opened.2.send (Codec.fixed "octet" 1) opened.1 1))
  resume _ := .ok fun _ => return .finish []

namespace Enquiry

/-- What enquiries run in. -/
def execution (number : Nat) (owner : Identity) : Except String (ExecutionContext Unit) :=
  .ok ⟨number, owner, .ofList [("enquiry", enquiry)], .json⟩

/-- The request to start the flow through a session. -/
def begin (session : SessionId) : Event :=
  ⟨Echo.flow, .startFlow ⟨"enquiry", owner, [], some ⟨session, client⟩⟩⟩

end Enquiry

end DurableFlow.Samples
