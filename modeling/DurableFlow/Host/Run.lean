import DurableFlow.Host
import DurableFlow.Processing

/-! # Running a fiber for an event

A fiber is run up to its next stop, and its outcome is written into the draft of the checkpoint. If
what the flow waits for then is there already, the fiber is resumed in place. Nothing outside the
host is touched.
-/

namespace DurableFlow

/-- A computation on a host that may stop early; what it did to the host stays. -/
abbrev Hosted (σ α : Type) := ExceptT Stop (StateM (Host σ)) α

namespace Hosted

variable {σ α : Type}

def fail (error : ProcessingError) : Hosted σ α := throw (.error error)

def ofFiber (result : Except FiberError α) : Hosted σ α :=
  ExceptT.mk (pure (result.mapError fun error => .error (.fiber error)))

def ofOutcome (result : Except OutcomeError α) : Hosted σ α :=
  ExceptT.mk (pure (result.mapError fun
    | .checkpoint error => .error (.checkpoint error)
    | .time error => .time error))

def acquire (owner : Identity) : Hosted σ (ExecutionContext σ) := do
  let host ← get
  match host.environments.acquire owner with
  | (.ok exec, environments) =>
    set { host with environments }
    return exec
  | (.error error, environments) =>
    set { host with environments }
    fail (.environment error)

/-- Take the fiber of a flow out of the cache, or restore it from its continuation. -/
def awaken (exec : ExecutionContext σ) (cp : Checkpoint) (instant : Nat) : Hosted σ (Fiber σ) := do
  let host ← get
  let (kept, cache) := host.cache.take instant cp.flowId cp.version exec
  set { host with cache }
  match kept, cp.continuation with
  | some fiber, _ => return fiber
  | none, some continuation => ofFiber (Fiber.restore exec cp.flowId continuation)
  | none, none => fail (.fiber (.missingContinuation cp.flowId))

/-- What a fiber did in one run of its logic. -/
structure Entry (σ : Type) where
  fiber : Fiber σ
  outcome : FiberOutcome
  effects : Effects
  attempt : Attempt

def enter (attempt : Attempt) (run : σ → FiberRun σ) : Hosted σ (Entry σ) := do
  let host ← get
  let left := run host.world
  set { host with world := left.world }
  let outcome ← ofFiber left.result
  return ⟨left.fiber, outcome, left.context.effects, attempt⟩

/-- Write what a fiber did into the draft, and resume it for as long as what it waits for is there
already, at most `fuel` times. -/
def conclude (exec : ExecutionContext σ) (settings : Settings) :
    Nat → Draft → Entry σ → Hosted σ (Draft × Fiber σ)
  | 0, _, _ => throw .entryLimit
  | fuel + 1, draft, entry => do
    let (draft, next) ← ofOutcome
      (draft.applyOutcome entry.outcome entry.effects entry.attempt settings.config settings.now)
    match next with
    | .done => return (draft, entry.fiber)
    | .resume value =>
      let draft ← ofOutcome (draft.setStatus .running)
      let ctx := Context.ofCheckpoint draft.checkpoint settings.now
      let entry ← enter (.resume value) (entry.fiber.resume exec value ctx)
      conclude exec settings fuel draft entry

/-- A fiber that is left suspended, with the context that ran it. -/
structure Suspended (σ : Type) where
  fiber : Fiber σ
  exec : ExecutionContext σ

def suspended? (exec : ExecutionContext σ) (fiber : Fiber σ) : Option (Suspended σ) :=
  if fiber.state = .suspended then some ⟨fiber, exec⟩ else none

/-- Start a flow and run it up to its next stop. A flow that is not registered fails. -/
def start (exec : ExecutionContext σ) (settings : Settings) (draft : Draft) (args : Bytes) :
    Hosted σ (Draft × Option (Suspended σ)) := do
  let cp := draft.checkpoint
  match Fiber.forFlow exec cp.flowId cp.flowName with
  | .error (.unknownFlow name) =>
    let (draft, _) ← ofOutcome (draft.applyOutcome (.failed (.unknownFlow name)) .none .start
      settings.config settings.now)
    return (draft, none)
  | created =>
    let fiber ← ofFiber created
    let entry ← enter .start (fiber.start exec args (Context.ofCheckpoint cp settings.now))
    let (draft, fiber) ← conclude exec settings settings.entryLimit draft entry
    return (draft, suspended? exec fiber)

/-- Resume a flow and run it up to its next stop. -/
def resume (exec : ExecutionContext σ) (settings : Settings) (draft : Draft) (value : Resumed) :
    Hosted σ (Draft × Option (Suspended σ)) := do
  let cp := draft.checkpoint
  let fiber ← awaken exec cp settings.instant
  let entry ← enter (.resume value)
    (fiber.resume exec value (Context.ofCheckpoint cp settings.now))
  let (draft, fiber) ← conclude exec settings settings.entryLimit draft entry
  return (draft, suspended? exec fiber)

/-- Get ready to run the fiber of a draft: acquire the context, and mark the flow as running. -/
def ready (draft : Draft) : Hosted σ (ExecutionContext σ × Draft) := do
  let exec ← acquire draft.checkpoint.owner
  return (exec, ← ofOutcome (draft.setStatus .running))

/-- Do what was decided about the fiber. The result has the fiber if it is left suspended. -/
def follow (settings : Settings) (prepared : Prepared) :
    Hosted σ (Draft × Option (Suspended σ)) := do
  match prepared.decision with
  | .skip => return (prepared.draft, none)
  | .start args =>
    let (exec, draft) ← ready prepared.draft
    start exec settings draft args
  | .resume value =>
    let (exec, draft) ← ready prepared.draft
    resume exec settings draft value

end Hosted

end DurableFlow
