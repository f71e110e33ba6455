import DurableFlow.Fiber
import DurableFlow.Proofs.Stateful

/-! # What a fiber leaves behind

A call of a fiber that succeeds leaves it suspended, completed or failed, as its outcome says. A
fiber that is left suspended is the one its continuation describes, so a context that reads what it
has written restores just that fiber.
-/

namespace DurableFlow

/-- A serializer that reads back whatever it has written. -/
def FiberSerializer.Faithful (serializer : FiberSerializer) : Prop :=
  ∀ image continuation, serializer.serialize image = .ok continuation →
    serializer.deserialize continuation = .ok image

theorem FiberSerializer.Faithful.of_serializes {σ : Type} {serializer : FiberSerializer}
    {recipe : Nat → Identity → Except String (ExecutionContext σ)} (faithful : serializer.Faithful)
    (serializes : ∀ number owner exec, recipe number owner = .ok exec →
      exec.serializer = serializer) :
    ∀ number owner exec, recipe number owner = .ok exec → exec.serializer.Faithful := by
  intro number owner exec made
  rw [serializes number owner exec made]
  exact faithful

namespace Fiber

variable {σ : Type}

/-- A fiber suspended in a state. -/
def park (fiber : Fiber σ) (kind : SuspensionKind) (state : Bytes) : Fiber σ :=
  { fiber with state := .suspended, parked := some ⟨kind, state⟩ }

/-- The outcome of a run of flow logic, and the fiber it leaves. -/
inductive Left (exec : ExecutionContext σ) (fiber : Fiber σ) : FiberOutcome → Fiber σ → Prop where
  | suspended {request : Request} {state continuation : Bytes}
      (written : exec.serializer.serialize
        ⟨fiber.flowId, fiber.flowName, request.expects, state⟩ = .ok continuation) :
      Left exec fiber (.suspended request continuation) (fiber.park request.expects state)
  | completed {output : Bytes} {left : Fiber σ} (finished : left.state = .completed) :
      Left exec fiber (.completed output) left
  | failed {error : FlowError} {left : Fiber σ} (finished : left.state = .failed) :
      Left exec fiber (.failed error) left

/-- A fiber whose logic is what its context knows by the name of its flow. -/
def Registered (exec : ExecutionContext σ) (fiber : Fiber σ) : Prop :=
  exec.registry.get? fiber.flowName = some fiber.logic

/-- A fiber that the context restores from a continuation. -/
def Restorable (exec : ExecutionContext σ) (fiber : Fiber σ) (continuation : Bytes) : Prop :=
  restore exec fiber.flowId continuation = .ok fiber

theorem Left.state_iff {exec : ExecutionContext σ} {fiber left : Fiber σ} {outcome : FiberOutcome}
    (h : Left exec fiber outcome left) :
    left.state = .suspended ↔ ∃ request continuation, outcome = .suspended request continuation := by
  cases h with
  | suspended written => simp [park]
  | completed finished => simp [finished]
  | failed finished => simp [finished]

theorem settle_left {exec : ExecutionContext σ} {fiber left : Fiber σ} {step : Except Halt RawStep}
    {outcome : FiberOutcome} (h : fiber.settle exec step = (.ok outcome, left)) :
    Left exec fiber outcome left := by
  rcases step with halt | ⟨state, request⟩ | output
  · cases h
    exact .failed rfl
  · simp only [settle] at h
    split at h
    · cases h
    next written =>
      cases h
      exact .suspended written
  · cases h
    exact .completed rfl

theorem enter_left {exec : ExecutionContext σ} {fiber : Fiber σ} {logic : Logic σ RawStep}
    {ctx : Context} {world : σ} {outcome : FiberOutcome}
    (h : (enter exec fiber logic ctx world).result = .ok outcome) :
    Left exec fiber outcome (enter exec fiber logic ctx world).fiber :=
  settle_left (Prod.ext h rfl)

theorem Left.of_running {exec : ExecutionContext σ} {fiber left : Fiber σ} {outcome : FiberOutcome}
    {state : FiberState} {parked : Option Parked}
    (h : Left exec { fiber with state, parked } outcome left) : Left exec fiber outcome left := by
  cases h with
  | suspended written => exact .suspended written
  | completed finished => exact .completed finished
  | failed finished => exact .failed finished

theorem start_left {exec : ExecutionContext σ} {fiber : Fiber σ} {args : Bytes} {ctx : Context}
    {world : σ} {outcome : FiberOutcome}
    (h : (fiber.start exec args ctx world).result = .ok outcome) :
    Left exec fiber outcome (fiber.start exec args ctx world).fiber := by
  unfold start at h ⊢
  split at h
  · cases h
  next created =>
    rw [if_neg created]
    exact (enter_left h).of_running

/-- The value that flow logic gets to see when its fiber is resumed with it: a value of the wrong
kind is kept from it. -/
def heeded (fiber : Fiber σ) (value : Resumed) : Option Resumed :=
  if fiber.parked.map Parked.kind = some value.kind then some value else none

/-- Resuming a fiber runs its logic with the value, or fails because the value is of the wrong
kind. -/
theorem resume_ok {exec : ExecutionContext σ} {fiber : Fiber σ} {value : Resumed} {ctx : Context}
    {world : σ} {outcome : FiberOutcome}
    (h : (fiber.resume exec value ctx world).result = .ok outcome) :
    ∃ parked, fiber.parked = some parked ∧
      (value.kind = parked.kind → ∃ logic, fiber.logic.resume parked.state = .ok logic ∧
        fiber.resume exec value ctx world =
          enter exec { fiber with state := .running, parked := none } (logic value) ctx world) ∧
      (value.kind ≠ parked.kind →
        outcome = .failed (.resumeMismatch parked.kind.text value.kind.text) ∧
          (fiber.resume exec value ctx world).fiber.state = .failed) := by
  unfold resume at h ⊢
  split at h
  · cases h
  next suspended =>
    rw [if_neg suspended]
    cases held : fiber.parked with
    | none =>
        rw [held] at h
        cases h
    | some parked =>
        simp only [held] at h ⊢
        refine ⟨parked, rfl, fun fits => ?_, fun differs => ?_⟩
        · simp only [fits, ne_eq, not_true_eq_false, if_false] at h ⊢
          cases known : fiber.logic.resume parked.state with
          | error reason =>
              simp only [known] at h
              cases h
          | ok logic => exact ⟨logic, rfl, rfl⟩
        · simp only [ne_eq, differs, not_false_eq_true, if_true] at h ⊢
          cases h
          exact ⟨rfl, trivial⟩

theorem resume_left {exec : ExecutionContext σ} {fiber : Fiber σ} {value : Resumed} {ctx : Context}
    {world : σ} {outcome : FiberOutcome}
    (h : (fiber.resume exec value ctx world).result = .ok outcome) :
    Left exec fiber outcome (fiber.resume exec value ctx world).fiber := by
  obtain ⟨parked, _, fits, differs⟩ := resume_ok h
  by_cases same : value.kind = parked.kind
  · obtain ⟨logic, _, ran⟩ := fits same
    rw [ran] at h ⊢
    exact (enter_left h).of_running
  · obtain ⟨rfl, finished⟩ := differs same
    exact .failed finished

/-- The continuation of a fiber that is left suspended restores that fiber. -/
theorem Left.restorable {exec : ExecutionContext σ} {fiber left : Fiber σ} {request : Request}
    {continuation : Bytes} (faithful : exec.serializer.Faithful) (registered : fiber.Registered exec)
    (h : Left exec fiber (.suspended request continuation) left) :
    left.Restorable exec continuation := by
  cases h with
  | suspended written =>
      have known : exec.registry.get? fiber.flowName = some fiber.logic := registered
      simp [Restorable, restore, faithful _ _ written, park, known]

theorem Left.keeps {exec : ExecutionContext σ} {fiber left : Fiber σ} {request : Request}
    {continuation : Bytes} (h : Left exec fiber (.suspended request continuation) left) :
    left.flowId = fiber.flowId ∧ left.flowName = fiber.flowName ∧ left.logic = fiber.logic ∧
      left.parked.map Parked.kind = some request.expects := by
  cases h with
  | suspended written => exact ⟨rfl, rfl, rfl, rfl⟩

theorem registered_of_forFlow {exec : ExecutionContext σ} {id : FlowId} {name : String}
    {fiber : Fiber σ} (h : forFlow exec id name = .ok fiber) :
    fiber.Registered exec ∧ fiber.flowId = id ∧ fiber.flowName = name ∧ fiber.parked = none := by
  unfold forFlow at h
  split at h
  next logic known =>
    cases h
    exact ⟨known, rfl, rfl, rfl⟩
  · cases h

theorem restore_eq {exec : ExecutionContext σ} {id : FlowId} {continuation : Bytes}
    {image : FiberImage} {logic : Flow σ}
    (read : exec.serializer.deserialize continuation = .ok image) (same : image.flowId = id)
    (known : exec.registry.get? image.flowName = some logic) :
    restore exec id continuation =
      .ok ⟨id, image.flowName, logic, .suspended, some ⟨image.suspendedOn, image.state⟩⟩ := by
  simp only [restore, read, same, known, ne_eq, not_true_eq_false, if_false]

theorem restore_ok {exec : ExecutionContext σ} {id : FlowId} {continuation : Bytes}
    {fiber : Fiber σ} (h : restore exec id continuation = .ok fiber) :
    fiber.Registered exec ∧ fiber.flowId = id ∧ fiber.state = .suspended ∧
      ∃ image, exec.serializer.deserialize continuation = .ok image ∧ image.flowId = id ∧
        image.flowName = fiber.flowName ∧
        fiber.parked = some ⟨image.suspendedOn, image.state⟩ := by
  unfold restore at h
  split at h
  · cases h
  next image read =>
    split at h
    · cases h
    next same =>
      split at h
      · cases h
      next logic known =>
        cases h
        exact ⟨known, rfl, rfl, image, read, by simpa using same, rfl, rfl⟩

end Fiber

end DurableFlow
