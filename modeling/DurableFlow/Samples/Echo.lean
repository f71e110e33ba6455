import DurableFlow.Host
import DurableFlow.Processing

/-! # A flow that repeats what it hears

An echo waits for the next item of the session through which it was started, and finishes with what
it is told. It observes nothing but its context.
-/

namespace DurableFlow.Samples

/-- Wait for an item of the initiating session, and finish with its payload. -/
def echo : Flow Unit where
  start _ := do
    let ctx ← Logic.context
    return .suspend [] (← Logic.ofFlow (ctx.receive ctx.initiator.toList))
  resume _ := .ok fun value => do
    let messages ← Logic.ofFlow value.intoMessages
    return .finish (messages.entries.flatMap (·.2))

namespace Echo

/-- What echoes run in. -/
def execution (number : Nat) (owner : Identity) : Except String (ExecutionContext Unit) :=
  .ok ⟨number, owner, .ofList [("echo", echo)], .json⟩

theorem execution_serializer : ∀ number owner exec, execution number owner = .ok exec →
    exec.serializer = .json := by
  rintro number owner exec ⟨⟩
  rfl

/-- An event is handled under the default configuration. -/
def settings : Settings := ⟨.default, .epoch, 0, 8⟩

/-- An event is handled under a configuration by which no flow waits for items longer than a
second. -/
def timed : Settings := { settings with config := { Config.default with suspensionTimeout := some 1000 } }

/-- A host for echoes that keeps no fibers. -/
def host : Host Unit := ⟨.new execution, .disabled, ()⟩

def flow : FlowId := ⟨1⟩

/-- The session that it listens to. -/
def session : SessionId := ⟨"s1"⟩

/-- The request to start the flow. -/
def begin : Event :=
  ⟨flow, .startFlow ⟨"echo", ⟨"O=Alice", "g1"⟩, [], some ⟨session, ⟨"O=Bob", "g1"⟩⟩⟩⟩

/-- An item for the flow. -/
def say (number : Nat) (item : Item) : Event := ⟨flow, .session session number item⟩

end Echo

end DurableFlow.Samples
