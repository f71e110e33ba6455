import DurableFlow.Proofs.Calls
import DurableFlow.Proofs.SessionActs

/-! # Logic that keeps to the primitives

Flow logic that keeps to the primitives changes its context by opening and closing sessions only, and
builds its requests from the context that it has at that time. What a run of such logic leaves is
then settled by the context it began with, `Context.Leaves`, and fits the checkpoint that this
context shows: `Context.Mirrors`.
-/

namespace DurableFlow

open Stateful

variable {σ : Type}

/-- A wait for session items that names a session, or any other wait. -/
def Wait.NamesSessions : Wait → Prop
  | .sessions awaited _ => awaited ≠ []
  | _ => True

namespace Context

/-- What flow logic can make of its context. -/
inductive Reaches : Context → Context → Prop where
  | refl {ctx : Context} : Reaches ctx ctx
  | initiate {ctx after : Context} {counterparty : Identity}
      (rest : Reaches (ctx.initiateSession counterparty).2 after) : Reaches ctx after
  | close {ctx next after : Context} {id : SessionId} (closed : ctx.closeSession id = .ok next)
      (rest : Reaches next after) : Reaches ctx after

theorem Reaches.trans {a b c : Context} (ab : a.Reaches b) (bc : b.Reaches c) : a.Reaches c := by
  induction ab with
  | refl => exact bc
  | initiate _ ih => exact .initiate (ih bc)
  | close closed _ ih => exact .close closed (ih bc)

theorem Reaches.keeps {P : Context → Prop}
    (initiate : ∀ ctx counterparty, P ctx → P (ctx.initiateSession counterparty).2)
    (close : ∀ ctx id next, P ctx → ctx.closeSession id = .ok next → P next)
    {ctx after : Context} (reaches : ctx.Reaches after) (start : P ctx) : P after := by
  induction reaches with
  | refl => exact start
  | initiate _ ih => exact ih (initiate _ _ start)
  | close closed _ ih => exact ih (close _ _ _ start closed)

theorem Reaches.contains {ctx after : Context} (reaches : ctx.Reaches after) {id : SessionId}
    (known : ctx.sessions.contains id) : after.sessions.contains id := by
  refine reaches.keeps (P := (·.sessions.contains id = true)) ?_ ?_ known
  · intro ctx counterparty known
    simp only [initiateSession, withSession, SortedMap.contains_insert, known, Bool.or_true]
  · intro ctx other next known closed
    simp only [closeSession, bind_eq_ok, pure_eq_ok] at closed
    obtain ⟨view, _, rfl⟩ := closed
    simp only [SortedMap.contains_insert, known, Bool.or_true]

/-- The requests that can be built from a context. -/
inductive Builds (ctx : Context) : Request → Prop where
  | send {α : Type} {codec : Codec α} {id : SessionId} {value : α} {request : Request}
      (built : ctx.send codec id value = .ok request) : Builds ctx request
  | sendAndReceive {α : Type} {codec : Codec α} {id : SessionId} {value : α} {request : Request}
      (built : ctx.sendAndReceive codec id value = .ok request) : Builds ctx request
  | receive {ids : List SessionId} {request : Request} (built : ctx.receive ids = .ok request) :
      Builds ctx request
  | sleepUntil (wakeAt : Timestamp) : Builds ctx (ctx.sleepUntil wakeAt)
  | sleep {millis : Int} {request : Request} (built : ctx.sleep millis = .ok request) :
      Builds ctx request
  | waitForConfirmations (required : Nat) : Builds ctx (ctx.waitForConfirmations required)
  | forceCheckpoint : Builds ctx ctx.forceCheckpoint

/-- A session that is known and open. -/
def IsOpen (ctx : Context) (id : SessionId) : Prop :=
  ∃ view, ctx.sessions.get? id = some view ∧ view.isOpen

theorem requireOpen_ok {ctx : Context} {id : SessionId} {view : SessionView} :
    ctx.requireOpen id = .ok view ↔ ctx.sessions.get? id = some view ∧ view.isOpen := by
  unfold requireOpen
  cases ctx.sessions.get? id with
  | none => simp
  | some known =>
      by_cases isOpen : known.isOpen
      · simp only [isOpen, if_true, Except.ok.injEq, Option.some.injEq]
        constructor
        · rintro rfl
          exact ⟨rfl, isOpen⟩
        · exact And.left
      · simp only [isOpen, Bool.false_eq_true, if_false, reduceCtorEq, Option.some.injEq, false_iff]
        rintro ⟨rfl, impossible⟩
        exact isOpen impossible

theorem closeSession_ok {ctx next : Context} {id : SessionId} (h : ctx.closeSession id = .ok next) :
    ∃ view, ctx.sessions.get? id = some view ∧ view.isOpen ∧
      next = { ctx with
        sessions := ctx.sessions.insert id { view with isOpen := false }
        effects := { ctx.effects with closed := ctx.effects.closed ++ [id] } } := by
  simp only [closeSession, bind_eq_ok, pure_eq_ok, requireOpen_ok] at h
  obtain ⟨view, ⟨known, isOpen⟩, rfl⟩ := h
  exact ⟨view, known, isOpen, rfl⟩

theorem outbound_ok {α : Type} {ctx : Context} {codec : Codec α} {id : SessionId} {value : α}
    {message : OutboundMessage} (h : ctx.outbound codec id value = .ok message) :
    ctx.IsOpen id ∧ message.sessionId = id := by
  simp only [outbound, bind_eq_ok, pure_eq_ok, requireOpen_ok] at h
  obtain ⟨view, ⟨known, isOpen⟩, payload, _, rfl⟩ := h
  exact ⟨⟨view, known, isOpen⟩, rfl⟩

/-- A request that was built sends on open sessions, and if it is answered by items it names a
session to wait for. -/
theorem Builds.sound {ctx : Context} {request : Request} (builds : ctx.Builds request) :
    (∀ message ∈ request.messages, ctx.IsOpen message.sessionId) ∧
      ∀ deadline now, (request.wait deadline now).NamesSessions := by
  cases builds with
  | send built =>
      simp only [Context.send, bind_eq_ok, pure_eq_ok] at built
      obtain ⟨message, out, rfl⟩ := built
      obtain ⟨isOpen, rfl⟩ := outbound_ok out
      simpa [Request.messages, Request.wait, Wait.NamesSessions] using isOpen
  | sendAndReceive built =>
      simp only [Context.sendAndReceive, bind_eq_ok, pure_eq_ok] at built
      obtain ⟨message, out, rfl⟩ := built
      obtain ⟨isOpen, rfl⟩ := outbound_ok out
      simpa [Request.messages, Request.wait, Wait.NamesSessions] using isOpen
  | @receive ids _ built =>
      have named : ids ≠ [] := by
        rintro rfl
        cases built
      unfold Context.receive at built
      rw [if_neg (by simpa using named)] at built
      simp only [bind_eq_ok, pure_eq_ok] at built
      obtain ⟨_, _, _, _, rfl⟩ := built
      simpa [Request.messages, Request.wait, Wait.NamesSessions] using named
  | sleep built =>
      simp only [Context.sleep, bind_eq_ok, pure_eq_ok] at built
      obtain ⟨_, _, _, _, rfl⟩ := built
      simp [Request.messages, Request.wait, Wait.NamesSessions]
  | sleepUntil | waitForConfirmations | forceCheckpoint =>
      simp [Context.sleepUntil, Context.waitForConfirmations, Context.forceCheckpoint,
        Request.messages, Request.wait, Wait.NamesSessions]

/-- What a run that keeps to the primitives leaves, given the context that it began with. The request
was built on the way, so sessions may have been closed since. -/
inductive Leaves (ctx : Context) : FiberOutcome → Effects → Prop where
  | suspended {request : Request} {continuation : Bytes} {middle last : Context}
      (before : ctx.Reaches middle) (builds : middle.Builds request) (since : middle.Reaches last) :
      Leaves ctx (.suspended request continuation) last.effects
  | completed {output : Bytes} {last : Context} (reaches : ctx.Reaches last) :
      Leaves ctx (.completed output) last.effects
  | failed {error : FlowError} {effects : Effects} : Leaves ctx (.failed error) effects

end Context

/-- Logic that changes its context through the primitives only, and suspends on nothing but what it
built from the context that it had at that time. -/
def Logic.KeepsToPrimitives (logic : Logic σ RawStep) : Prop :=
  ∀ ctx world, let run := logic.run.run (ctx, world)
    ctx.Reaches run.2.1 ∧ ∀ state request, run.1 = .ok (.suspend state request) →
      ∃ middle, ctx.Reaches middle ∧ middle.Builds request ∧ middle.Reaches run.2.1

def Flow.KeepsToPrimitives (flow : Flow σ) : Prop :=
  ∀ input logic, flow.logic? input = .ok logic → logic.KeepsToPrimitives

/-- A state that a flow may suspend with. -/
def Flow.Suspends (flow : Flow σ) (ctx : Context) (state : Bytes) (request : Request)
    (effects : Effects) : Prop :=
  ∃ input logic world, flow.logic? input = .ok logic ∧
    let run := logic.run.run (ctx, world)
    run.1 = .ok (.suspend state request) ∧ run.2.1.effects = effects

namespace Fiber

variable {exec : ExecutionContext σ} {fiber : Fiber σ} {ctx : Context} {world : σ}
  {outcome : FiberOutcome}

/-- A call of a fiber that leads to an outcome, as a run of its logic. -/
structure Calls (fiber : Fiber σ) (ctx : Context) (outcome : FiberOutcome) (left : FiberRun σ) :
    Prop where
  leaves : fiber.logic.KeepsToPrimitives → ctx.Leaves outcome left.context.effects
  suspends : ∀ request continuation, outcome = .suspended request continuation → ∃ state,
    left.fiber.parked = some ⟨request.expects, state⟩ ∧
      fiber.logic.Suspends ctx state request left.context.effects

theorem enter_calls {logic : Logic σ RawStep} {input : Call.Input}
    (known : fiber.logic.logic? input = .ok logic)
    (h : (enter exec fiber logic ctx world).result = .ok outcome) :
    fiber.Calls ctx outcome (enter exec fiber logic ctx world) := by
  rcases ran : logic.run.run (ctx, world) with ⟨halt | ⟨state, request⟩ | output, last, after⟩
  · simp only [enter, ran, settle] at h ⊢
    cases h
    exact ⟨fun _ => .failed, fun _ _ impossible => by cases impossible⟩
  · simp only [enter, ran, settle] at h ⊢
    split at h
    · cases h
    next written =>
      cases h
      refine ⟨fun keeps => ?_, ?_⟩
      · have builds := (keeps _ _ known ctx world).2
        rw [ran] at builds
        obtain ⟨middle, before, builds, since⟩ := builds _ _ rfl
        exact .suspended before builds since
      · rintro _ _ ⟨⟩
        exact ⟨state, rfl, input, logic, world, known, by rw [ran], by rw [ran]⟩
  · simp only [enter, ran, settle] at h ⊢
    cases h
    refine ⟨fun keeps => .completed ?_, fun _ _ impossible => by cases impossible⟩
    have reaches := (keeps _ _ known ctx world).1
    rw [ran] at reaches
    exact reaches

theorem start_calls {args : Bytes} (h : (fiber.start exec args ctx world).result = .ok outcome) :
    fiber.Calls ctx outcome (fiber.start exec args ctx world) := by
  unfold start at h ⊢
  split at h
  · cases h
  next created =>
    rw [if_neg created]
    have known : fiber.logic.logic? (.start args) = .ok (fiber.logic.start args) := rfl
    have calls : Calls { fiber with state := .running } ctx outcome _ := enter_calls known h
    exact ⟨calls.leaves, calls.suspends⟩

theorem resume_calls {value : Resumed}
    (h : (fiber.resume exec value ctx world).result = .ok outcome) :
    fiber.Calls ctx outcome (fiber.resume exec value ctx world) := by
  obtain ⟨parked, _, fits, differs⟩ := resume_ok h
  by_cases same : value.kind = parked.kind
  · obtain ⟨logic, decoded, ran⟩ := fits same
    have known : fiber.logic.logic? (.resume parked.state value) = .ok (logic value) := by
      simp [Flow.logic?, decoded, Except.map]
    rw [ran] at h ⊢
    have calls : Calls { fiber with state := .running, parked := none } ctx outcome _ :=
      enter_calls known h
    exact ⟨calls.leaves, calls.suspends⟩
  · obtain ⟨rfl, _⟩ := differs same
    exact ⟨fun _ => .failed, fun _ _ impossible => by cases impossible⟩

end Fiber

/-- A checkpoint with sessions that were opened. -/
def Checkpoint.opened (cp : Checkpoint) (initiated : List (SessionId × Identity)) : Checkpoint :=
  initiated.foldl (fun cp (id, counterparty) => cp.addSession id counterparty) cp

namespace Checkpoint

theorem addSession_contains (cp : Checkpoint) (id other : SessionId) (counterparty : Identity) :
    (cp.addSession id counterparty).sessions.contains other =
      (decide (other = id) || cp.sessions.contains other) := by
  unfold addSession
  split
  next known =>
    by_cases here : other = id
    · simp [here, known]
    · simp [here]
  next => exact SortedMap.contains_insert ..

theorem opened_append (cp : Checkpoint) (first second : List (SessionId × Identity)) :
    cp.opened (first ++ second) = (cp.opened first).opened second :=
  List.foldl_append

end Checkpoint

/-- A context that flow logic has reached which began with the view of a checkpoint: it knows the
sessions that the checkpoint has once those are added that the logic has opened. -/
structure Context.Mirrors (ctx : Context) (cp : Checkpoint) : Prop where
  flowId : ctx.flowId = cp.flowId
  contains : ∀ id, ctx.sessions.contains id =
    (cp.opened ctx.effects.initiated).sessions.contains id
  closed : ∀ id ∈ ctx.effects.closed, ctx.sessions.contains id

namespace Context.Mirrors

theorem ofCheckpoint (cp : Checkpoint) (now : Timestamp) : (Context.ofCheckpoint cp now).Mirrors cp where
  flowId := rfl
  contains id := by
    simp [Context.ofCheckpoint, SortedMap.contains, SortedMap.get?_mapValues, Effects.none,
      Checkpoint.opened]
  closed _ member := by cases member

variable {ctx after : Context} {cp : Checkpoint}

theorem initiate (mirrors : ctx.Mirrors cp) (counterparty : Identity) :
    (ctx.initiateSession counterparty).2.Mirrors cp where
  flowId := mirrors.flowId
  contains id := by
    simp only [initiateSession, withSession, Checkpoint.opened_append, SortedMap.contains_insert]
    rw [Checkpoint.opened, List.foldl_cons, List.foldl_nil, Checkpoint.addSession_contains,
      mirrors.contains]
  closed id member := by
    simp only [initiateSession, withSession, SortedMap.contains_insert, Bool.or_eq_true]
    exact .inr (mirrors.closed id member)

theorem close (mirrors : ctx.Mirrors cp) {id : SessionId} (h : ctx.closeSession id = .ok after) :
    after.Mirrors cp := by
  obtain ⟨view, known, _, rfl⟩ := closeSession_ok h
  have contained : ctx.sessions.contains id := by simp [SortedMap.contains, known]
  refine ⟨mirrors.flowId, fun other => ?_, fun other member => ?_⟩
  · rw [SortedMap.contains_insert_of_contains contained]
    exact mirrors.contains other
  · rw [SortedMap.contains_insert_of_contains contained]
    rcases List.mem_append.1 member with before | here
    · exact mirrors.closed other before
    · rw [List.mem_singleton] at here
      exact here ▸ contained

theorem reaches (mirrors : ctx.Mirrors cp) (reaches : ctx.Reaches after) : after.Mirrors cp :=
  reaches.keeps (P := (·.Mirrors cp)) (fun _ counterparty mirrors => mirrors.initiate counterparty)
    (fun _ _ _ mirrors closed => mirrors.close closed) mirrors

end Context.Mirrors

end DurableFlow
