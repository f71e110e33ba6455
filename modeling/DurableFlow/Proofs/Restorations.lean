import DurableFlow.Proofs.Continuations
import DurableFlow.Samples.Minutes

/-! # Restored fibers go on as live ones

A fiber may be dropped whenever it is suspended, and restored from its latest continuation before it
is resumed. Driven from one stop to the next, a fiber that is restored now and then does just what it
does if it is kept: `drive` is about either of them, leg by leg. What carries the argument is that the
fiber at hand is the one its latest continuation restores, `Restorable`, which every leg hands on.
-/

namespace DurableFlow

variable {σ : Type}

/-- One resume on the way of a fiber. -/
structure Leg where
  value : Resumed
  context : Context
  /-- The fiber was dropped after the leg before. -/
  restored : Bool

/-- The same leg of a fiber that was kept. -/
def Leg.live (leg : Leg) : Leg := { leg with restored := false }

namespace Fiber

variable {exec : ExecutionContext σ} {id : FlowId} {continuation : Bytes}

/-- The fiber with which a leg begins. -/
def board (exec : ExecutionContext σ) (id : FlowId) (leg : Leg) (fiber : Fiber σ)
    (continuation : Bytes) : Except FiberError (Fiber σ) :=
  if leg.restored then restore exec id continuation else .ok fiber

/-- Resume a fiber leg by leg, as long as it is left suspended. A leg that cannot begin because the
fiber cannot be restored is the last one as well. -/
def drive (exec : ExecutionContext σ) (id : FlowId) (fiber : Fiber σ) (continuation : Bytes)
    (world : σ) : List Leg → List (Except FiberError (FiberRun σ))
  | [] => []
  | leg :: legs =>
    match board exec id leg fiber continuation with
    | .error error => [.error error]
    | .ok fiber =>
      let run := fiber.resume exec leg.value leg.context world
      match run.result with
      | .ok (.suspended _ continuation) =>
        .ok run :: drive exec id run.fiber continuation run.world legs
      | _ => [.ok run]

/-- A fiber of a flow on its way, with the continuation that it has written last. -/
structure Underway (exec : ExecutionContext σ) (id : FlowId) (fiber : Fiber σ)
    (continuation : Bytes) : Prop where
  registered : fiber.Registered exec
  flowId : fiber.flowId = id
  restorable : fiber.Restorable exec continuation

theorem Underway.board_eq {fiber : Fiber σ} (underway : fiber.Underway exec id continuation)
    (leg : Leg) : board exec id leg fiber continuation = .ok fiber := by
  obtain ⟨_, rfl, restorable⟩ := underway
  unfold board
  split
  · exact restorable
  · rfl

theorem Left.underway {fiber left : Fiber σ} {request : Request}
    (faithful : exec.serializer.Faithful) (registered : fiber.Registered exec)
    (flowId : fiber.flowId = id) (h : Left exec fiber (.suspended request continuation) left) :
    left.Underway exec id continuation := by
  obtain ⟨sameFlow, name, logic, _⟩ := h.keeps
  refine ⟨?_, sameFlow.trans flowId, h.restorable faithful registered⟩
  rw [Registered, name, logic]
  exact registered

theorem Underway.resume {fiber : Fiber σ} (faithful : exec.serializer.Faithful)
    (underway : fiber.Underway exec id continuation) {value : Resumed} {ctx : Context} {world : σ}
    {request : Request} {next : Bytes}
    (suspends : (fiber.resume exec value ctx world).result = .ok (.suspended request next)) :
    (fiber.resume exec value ctx world).fiber.Underway exec id next :=
  (resume_left suspends).underway faithful underway.registered underway.flowId

/-- A fiber on its way is driven alike whether it is restored or not. -/
theorem Underway.drive_eq (faithful : exec.serializer.Faithful) {fiber : Fiber σ}
    (underway : fiber.Underway exec id continuation) (world : σ) (legs : List Leg) :
    drive exec id fiber continuation world legs =
      drive exec id fiber continuation world (legs.map Leg.live) := by
  induction legs generalizing fiber continuation world with
  | nil => rfl
  | cons leg rest ih =>
      simp only [drive, List.map_cons, underway.board_eq, Leg.live]
      split
      next suspends => rw [ih (underway.resume faithful suspends)]
      next => rfl

theorem Underway.of_drive (faithful : exec.serializer.Faithful) {fiber : Fiber σ}
    (underway : fiber.Underway exec id continuation) {world : σ} {legs : List Leg}
    {run : FiberRun σ} (ran : .ok run ∈ drive exec id fiber continuation world legs)
    {request : Request} {next : Bytes} (suspends : run.result = .ok (.suspended request next)) :
    run.fiber.Underway exec id next := by
  induction legs generalizing fiber continuation world with
  | nil => cases ran
  | cons leg rest ih =>
      simp only [drive, underway.board_eq] at ran
      split at ran
      next left =>
        rcases List.mem_cons.1 ran with here | later
        · cases here
          exact underway.resume faithful suspends
        · exact ih (underway.resume faithful left) later
      next others =>
        cases List.mem_singleton.1 ran
        exact absurd suspends (others _ _)

theorem Underway.restore_other {fiber : Fiber σ} (underway : fiber.Underway exec id continuation)
    {other : FlowId} (differs : other ≠ id) :
    restore exec other continuation =
      .error (.decode other ("continuation belongs to flow " ++ id.text)) := by
  obtain ⟨_, rfl, restorable⟩ := underway
  obtain ⟨_, _, _, image, read, same, _, _⟩ := restore_ok restorable
  simp only [restore, read, same, ne_eq, Ne.symm differs, not_false_eq_true, if_true]

/-- A fiber of a registered flow that suspends as it is started does the same on all its legs,
whichever of them begin with a restored fiber. None of its continuations restores a fiber of another
flow. -/
theorem restored_as_live (json : exec.serializer = .json) {name : String} {fiber : Fiber σ}
    (made : forFlow exec id name = .ok fiber) (args : Bytes) (ctx : Context) (world : σ)
    {request : Request}
    (suspends : (fiber.start exec args ctx world).result = .ok (.suspended request continuation))
    (legs : List Leg) :
    let begun := fiber.start exec args ctx world
    let runs := drive exec id begun.fiber continuation begun.world legs
    runs = drive exec id begun.fiber continuation begun.world (legs.map Leg.live) ∧
      ∀ left, left = continuation ∨ (∃ run request, .ok run ∈ runs ∧
          run.result = .ok (.suspended request left)) →
        ∀ other, other ≠ id → restore exec other left =
          .error (.decode other ("continuation belongs to flow " ++ id.text)) := by
  intro begun runs
  have faithful : exec.serializer.Faithful := json ▸ FiberSerializer.json_faithful
  obtain ⟨registered, flowId, _⟩ := registered_of_forFlow made
  have underway : begun.fiber.Underway exec id continuation :=
    (start_left suspends).underway faithful registered flowId
  refine ⟨underway.drive_eq faithful begun.world legs, ?_⟩
  rintro left (rfl | ⟨run, request, ran, suspended⟩) other differs
  · exact underway.restore_other differs
  · exact (underway.of_drive faithful ran suspended).restore_other differs

/-- Minutes that are restored before the second item and before the end of their session have heard
both items. -/
theorem restored_as_live_of_minutes :
    let exec : ExecutionContext Unit :=
      ⟨1, ⟨"O=Alice", "g1"⟩, .ofList [("minutes", Samples.minutes)], .json⟩
    let fiber := create Samples.Echo.flow "minutes" Samples.minutes
    let begun := fiber.start exec [] Samples.Minutes.context ()
    let legs : List Leg := [
      ⟨Samples.Minutes.hears 1, Samples.Minutes.context, false⟩,
      ⟨Samples.Minutes.hears 2, Samples.Minutes.context, true⟩,
      ⟨.sessionFailed Samples.Echo.session .closedByPeer, Samples.Minutes.context, true⟩]
    ∃ request continuation, begun.result = .ok (.suspended request continuation) ∧
      (drive exec Samples.Echo.flow begun.fiber continuation begun.world legs)[2]?.map
          (·.map FiberRun.result) = some (.ok (.ok (.completed [1, 2]))) := by
  intro exec fiber begun legs
  refine ⟨_, _, rfl, ?_⟩
  rw [(@restored_as_live Unit exec Samples.Echo.flow _ rfl "minutes" fiber rfl []
    Samples.Minutes.context () _ rfl legs).1]
  rfl

end Fiber

end DurableFlow
