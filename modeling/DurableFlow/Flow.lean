import DurableFlow.Context

/-! # Flows

A flow is written in two parts. `start` runs it from the beginning; `resume` continues it from the
state it suspended with, given what it was waiting for. Either part ends by suspending on a request,
by finishing with an output, or early by a failure. Everything a flow needs later has to be in the
state it suspends with.

Logic may depend on more than its context: `σ` is whatever else it can observe and change, such as
a service that is sometimes busy. Logic that is determined by its arguments has `σ := Unit`.
-/

namespace DurableFlow

inductive Step (State Output : Type) where
  /-- Wait for the answer to a request, keeping a state. -/
  | suspend (state : State) (request : Request)
  | finish (output : Output)
  deriving DecidableEq, Repr

/-- A step whose state and output are encoded. -/
abbrev RawStep := Step Bytes Bytes

/-- How flow logic ends early. -/
inductive Halt where
  | error (reason : FlowError)
  /-- An abrupt end, with a text if there is one. -/
  | panic (text : Option String)
  deriving DecidableEq, Repr

/-- The failure that an early end counts as. -/
def Halt.flowError : Halt → FlowError
  | .error reason => reason
  | .panic text => .panicked (text.getD "unknown panic payload")

/-- Flow logic that ends early or with a value; what it did to its context and to the rest of the
world stays in either case. -/
abbrev Logic (σ α : Type) := ExceptT Halt (StateM (Context × σ)) α

namespace Logic

variable {σ α : Type}

/-- End with the failure of a computation, if it fails. -/
def ofFlow (result : Except FlowError α) : Logic σ α := ExceptT.mk (pure (result.mapError .error))

/-- A time that cannot be computed ends the logic abruptly. -/
def ofTime (result : Except TimeError α) : Logic σ α :=
  ExceptT.mk (pure (result.mapError fun error => .panic (some error.message)))

def context : Logic σ Context := return (← get).1

def setContext (ctx : Context) : Logic σ Unit := modify fun (_, world) => (ctx, world)

def world : Logic σ σ := return (← get).2

def setWorld (world : σ) : Logic σ Unit := modify fun (ctx, _) => (ctx, world)

def fail (error : FlowError) : Logic σ α := throw (.error error)

def panic (text : Option String) : Logic σ α := throw (.panic text)

end Logic

/-- A flow seen from the engine, which knows arguments, states and outputs as octets only. -/
structure Flow (σ : Type) where
  start : Bytes → Logic σ RawStep
  /-- The continuation from a state, unless the state cannot be decoded. -/
  resume : Bytes → Except String (Resumed → Logic σ RawStep)

/-- A flow as it is written, with types for its arguments, state and output. -/
structure TypedFlow (σ Args State Output : Type) where
  start : Args → Logic σ (Step State Output)
  resume : State → Resumed → Logic σ (Step State Output)

namespace TypedFlow

variable {σ Args State Output : Type}

def encodeStep (state : Codec State) (output : Codec Output) :
    Step State Output → Logic σ RawStep
  | .suspend s request => do return .suspend (← .ofFlow (state.encodePayload s)) request
  | .finish o => do return .finish (← .ofFlow (output.encodePayload o))

/-- A flow with codecs for its types. Arguments that cannot be decoded fail the flow; a state that
cannot be decoded is reported before any logic runs. -/
def withCodecs (args : Codec Args) (state : Codec State) (output : Codec Output)
    (flow : TypedFlow σ Args State Output) : Flow σ where
  start bytes := do
    let a ← Logic.ofFlow (args.decodePayload bytes)
    encodeStep state output (← flow.start a)
  resume bytes := do
    let s ← state.decode bytes
    return fun resumed => do encodeStep state output (← flow.resume s resumed)

end TypedFlow

/-- Flows by name. The names are written into checkpoints. -/
abbrev Registry (σ : Type) := SortedMap String (Flow σ)

end DurableFlow
