import DurableFlow.Execution

/-! # Fibers

A fiber drives one flow. Between two calls it is parked in memory or, once its continuation is
stored, gone and restored later; either way it resumes alike, since the continuation holds all
that the parked fiber holds. A failure of the flow is an outcome; only misuse of the fiber and
unreadable or unwritable continuations are errors.
-/

namespace DurableFlow

inductive FiberState where
  | created
  | running
  | suspended
  | completed
  | failed
  deriving DecidableEq, Repr, Inhabited

def FiberState.text : FiberState → String
  | .created => "created"
  | .running => "running"
  | .suspended => "suspended"
  | .completed => "completed"
  | .failed => "failed"

inductive FiberError where
  | unknownFlow (name : String)
  | decode (flowId : FlowId) (reason : String)
  | encode (flowId : FlowId) (reason : String)
  | missingContinuation (flowId : FlowId)
  | invalidState (flowId : FlowId) (action : String) (state : FiberState)
  deriving DecidableEq, Repr

def FiberError.message : FiberError → String
  | .unknownFlow name => "flow '" ++ name ++ "' is not registered in this execution context"
  | .decode id reason =>
    "continuation for flow " ++ id.text ++ " could not be decoded: " ++ reason
  | .encode id reason =>
    "continuation for flow " ++ id.text ++ " could not be encoded: " ++ reason
  | .missingContinuation id =>
    "checkpoint for flow " ++ id.text ++ " has no continuation to resume"
  | .invalidState id action state =>
    "fiber for flow " ++ id.text ++ " cannot " ++ action ++ " while " ++ state.text

/-- What running a fiber up to its next stop leads to. -/
inductive FiberOutcome where
  | suspended (request : Request) (continuation : Bytes)
  | completed (output : Bytes)
  | failed (error : FlowError)
  deriving DecidableEq, Repr

structure Parked where
  kind : SuspensionKind
  state : Bytes
  deriving DecidableEq, Repr

structure Fiber (σ : Type) where
  flowId : FlowId
  flowName : String
  logic : Flow σ
  state : FiberState
  parked : Option Parked

/-- What a call of a fiber leaves behind. -/
structure FiberRun (σ : Type) where
  result : Except FiberError FiberOutcome
  fiber : Fiber σ
  context : Context
  world : σ

namespace Fiber

variable {σ : Type}

def create (flowId : FlowId) (flowName : String) (logic : Flow σ) : Fiber σ :=
  { flowId, flowName, logic, state := .created, parked := none }

def forFlow (exec : ExecutionContext σ) (flowId : FlowId) (flowName : String) :
    Except FiberError (Fiber σ) :=
  match exec.registry.get? flowName with
  | some logic => .ok (create flowId flowName logic)
  | none => .error (.unknownFlow flowName)

/-- The suspended fiber that a continuation describes. -/
def restore (exec : ExecutionContext σ) (flowId : FlowId) (continuation : Bytes) :
    Except FiberError (Fiber σ) :=
  match exec.serializer.deserialize continuation with
  | .error reason => .error (.decode flowId reason)
  | .ok image =>
    if image.flowId ≠ flowId then
      .error (.decode flowId ("continuation belongs to flow " ++ image.flowId.text))
    else match exec.registry.get? image.flowName with
      | none => .error (.unknownFlow image.flowName)
      | some logic => .ok {
          flowId
          flowName := image.flowName
          logic
          state := .suspended
          parked := some ⟨image.suspendedOn, image.state⟩ }

/-- Draw the conclusion from what the logic of a running fiber did. -/
def settle (exec : ExecutionContext σ) (fiber : Fiber σ) (result : Except Halt RawStep) :
    Except FiberError FiberOutcome × Fiber σ :=
  match result with
  | .error halt => (.ok (.failed halt.flowError), { fiber with state := .failed })
  | .ok (.finish output) => (.ok (.completed output), { fiber with state := .completed })
  | .ok (.suspend state request) =>
    let kind := request.expects
    match exec.serializer.serialize ⟨fiber.flowId, fiber.flowName, kind, state⟩ with
    | .error reason => (.error (.encode fiber.flowId reason), { fiber with state := .failed })
    | .ok continuation =>
      (.ok (.suspended request continuation),
        { fiber with state := .suspended, parked := some ⟨kind, state⟩ })

/-- Run the logic of a fiber and draw the conclusion. -/
def enter (exec : ExecutionContext σ) (fiber : Fiber σ) (logic : Logic σ RawStep) (ctx : Context)
    (world : σ) : FiberRun σ :=
  let (result, ctx, world) := logic.run.run (ctx, world)
  let (result, fiber) := fiber.settle exec result
  ⟨result, fiber, ctx, world⟩

def start (exec : ExecutionContext σ) (fiber : Fiber σ) (args : Bytes) (ctx : Context)
    (world : σ) : FiberRun σ :=
  if fiber.state ≠ .created then
    ⟨.error (.invalidState fiber.flowId "start" fiber.state), fiber, ctx, world⟩
  else enter exec { fiber with state := .running } (fiber.logic.start args) ctx world

/-- Continue a suspended flow. A value of the wrong kind fails the flow before any logic runs. -/
def resume (exec : ExecutionContext σ) (fiber : Fiber σ) (resumed : Resumed) (ctx : Context)
    (world : σ) : FiberRun σ :=
  if fiber.state ≠ .suspended then
    ⟨.error (.invalidState fiber.flowId "resume" fiber.state), fiber, ctx, world⟩
  else match fiber.parked with
    | none => ⟨.error (.missingContinuation fiber.flowId), fiber, ctx, world⟩
    | some parked =>
      let fiber := { fiber with parked := none }
      if resumed.kind ≠ parked.kind then
        ⟨.ok (.failed (.resumeMismatch parked.kind.text resumed.kind.text)),
          { fiber with state := .failed }, ctx, world⟩
      else match fiber.logic.resume parked.state with
        | .error reason =>
          ⟨.error (.decode fiber.flowId reason), { fiber with state := .failed }, ctx, world⟩
        | .ok logic => enter exec { fiber with state := .running } (logic resumed) ctx world

end Fiber

end DurableFlow
