import DurableFlow.Proofs.Decimals
import DurableFlow.Proofs.Primitives

/-! # Taking leave of a session

A session that a flow has closed is not opened again, and nothing is sent on it later, if two things
hold. The flow keeps to the primitives. And the names that it gives to its own sessions are new, since
none of them runs ahead of the number of its sessions: `Tidy`. Within the step that closes the session,
the flow has to be `Patient` for that: not to close it once it has built a message for it. What a step
leaves is `Effects.Parting`.
-/

namespace DurableFlow

open Stateful

variable {σ : Type}

theorem Decimal.eq_of_toString {m n : Nat} (same : toString m = toString n) : m = n := by
  have digits : Nat.toDigits 10 m = Nat.toDigits 10 n := String.ofList_injective same
  rw [← value_digits m, ← value_digits n, Decimal.digits, Decimal.digits, digits]

/-- The name of the session that a flow opens as its `number`th. -/
def SessionId.own (flow : FlowId) (number : Nat) : SessionId :=
  ⟨flow.text ++ "-" ++ toString number⟩

theorem SessionId.eq_of_own {flow : FlowId} {m n : Nat} (same : own flow m = own flow n) : m = n :=
  Decimal.eq_of_toString ((String.append_right_inj _).1 (congrArg SessionId.text same))

/-- Sessions among which no name of the flow's own runs ahead of their number. -/
def Tidy {α : Type} (flow : FlowId) (sessions : SortedMap SessionId α) : Prop :=
  ∀ number, sessions.contains (.own flow number) → number ≤ sessions.size

namespace Tidy

variable {α β : Type} {flow : FlowId} {sessions : SortedMap SessionId α}

theorem fresh (tidy : Tidy flow sessions) :
    sessions.contains (.own flow (sessions.size + 1)) = false := by
  cases known : sessions.contains (.own flow (sessions.size + 1)) with
  | false => rfl
  | true =>
      have bound := tidy _ known
      omega

theorem insert (tidy : Tidy flow sessions) (value : α) :
    Tidy flow (sessions.insert (.own flow (sessions.size + 1)) value) := by
  intro number known
  rw [SortedMap.size_insert value tidy.fresh]
  rw [SortedMap.contains_insert, Bool.or_eq_true, decide_eq_true_eq] at known
  rcases known with new | old
  · exact Nat.le_of_eq (SessionId.eq_of_own new)
  · exact Nat.le_succ_of_le (tidy number old)

theorem of_contains {other : SortedMap SessionId β} (tidy : Tidy flow sessions)
    (same : ∀ id, other.contains id = sessions.contains id) : Tidy flow other := by
  intro number known
  rw [same] at known
  have sizes : sessions.size ≤ other.size := SortedMap.size_le fun id known => (same id).trans known
  exact Nat.le_trans (tidy number known) sizes

end Tidy

/-- A session that is known and not open. -/
def Checkpoint.Shut (cp : Option Checkpoint) (id : SessionId) : Prop :=
  ∃ session, (cp.bind fun cp => cp.sessions.get? id) = some session ∧ session.isOpen = false

theorem Checkpoint.opened_contains (cp : Checkpoint) (initiated : List (SessionId × Identity))
    (id : SessionId) : (cp.opened initiated).sessions.contains id =
      (cp.sessions.contains id || initiated.any fun new => id = new.1) := by
  induction initiated generalizing cp with
  | nil => simp [opened]
  | cons first rest ih =>
      have step : cp.opened (first :: rest) = (cp.addSession first.1 first.2).opened rest := rfl
      rw [step, ih, addSession_contains, List.any_cons, Bool.or_comm (decide _), Bool.or_assoc]

/-- A context that flow logic has reached which began with the view of a checkpoint: what it takes
for open was not shut there and has not been closed since, and nothing was closed twice. -/
structure Context.Careful (ctx : Context) (cp : Checkpoint) : Prop where
  mirrors : ctx.Mirrors cp
  tidy : Tidy cp.flowId ctx.sessions
  opens : ∀ id, ctx.IsOpen id → ¬ Checkpoint.Shut (some cp) id ∧ id ∉ ctx.effects.closed
  closed : ∀ id ∈ ctx.effects.closed, ¬ Checkpoint.Shut (some cp) id
  once : ctx.effects.closed.Nodup

namespace Context.Careful

variable {ctx after : Context} {cp : Checkpoint}

theorem ofCheckpoint (tidy : Tidy cp.flowId cp.sessions) (now : Timestamp) :
    (Context.ofCheckpoint cp now).Careful cp where
  mirrors := .ofCheckpoint cp now
  tidy := tidy.of_contains (Mirrors.ofCheckpoint cp now).contains
  opens id isOpen := by
    obtain ⟨view, shown, isOpen⟩ := isOpen
    refine ⟨?_, fun closed => by cases closed⟩
    rintro ⟨session, found, shut⟩
    rw [Option.bind_some] at found
    simp only [Context.ofCheckpoint, SortedMap.get?_mapValues, found, Option.map_some,
      Option.some.injEq] at shown
    subst shown
    rw [shut] at isOpen
    cases isOpen
  closed _ closed := by cases closed
  once := List.nodup_nil

theorem initiate (careful : ctx.Careful cp) (counterparty : Identity) :
    (ctx.initiateSession counterparty).2.Careful cp := by
  have named : ctx.nextSessionId = .own cp.flowId (ctx.sessions.size + 1) := by
    rw [← careful.mirrors.flowId]
    rfl
  have fresh : ctx.sessions.contains ctx.nextSessionId = false := named ▸ careful.tidy.fresh
  refine ⟨careful.mirrors.initiate counterparty, ?_, ?_, careful.closed, careful.once⟩
  · simp only [initiateSession, withSession, named]
    exact careful.tidy.insert _
  · rintro id ⟨view, shown, isOpen⟩
    simp only [initiateSession, withSession] at shown ⊢
    by_cases new : id = ctx.nextSessionId
    · subst new
      refine ⟨?_, fun closed => ?_⟩
      · rintro ⟨session, found, _⟩
        rw [careful.mirrors.contains, Checkpoint.opened_contains] at fresh
        rw [Option.bind_some] at found
        simp [SortedMap.contains, found] at fresh
      · rw [careful.mirrors.closed _ closed] at fresh
        cases fresh
    · rw [SortedMap.get?_insert_of_ne _ _ new] at shown
      exact careful.opens id ⟨view, shown, isOpen⟩

theorem close (careful : ctx.Careful cp) {id : SessionId} (h : ctx.closeSession id = .ok after) :
    after.Careful cp := by
  have mirrors := careful.mirrors.close h
  obtain ⟨view, known, isOpen, rfl⟩ := closeSession_ok h
  obtain ⟨unshut, unclosed⟩ := careful.opens id ⟨view, known, isOpen⟩
  have contained : ctx.sessions.contains id := by simp [SortedMap.contains, known]
  refine ⟨mirrors, ?_, ?_, ?_, ?_⟩
  · exact careful.tidy.of_contains (SortedMap.contains_insert_of_contains contained _)
  · rintro other ⟨shown, found, isOpen⟩
    by_cases here : other = id
    · subst here
      rw [SortedMap.get?_insert_self] at found
      cases found
      cases isOpen
    · rw [SortedMap.get?_insert_of_ne _ _ here] at found
      obtain ⟨unshut, unclosed⟩ := careful.opens other ⟨shown, found, isOpen⟩
      exact ⟨unshut, by simp [unclosed, here]⟩
  · intro other closed
    rcases List.mem_append.1 closed with before | here
    · exact careful.closed other before
    · rw [List.mem_singleton.1 here]
      exact unshut
  · rw [← List.concat_eq_append]
    exact careful.once.concat unclosed

theorem reaches (careful : ctx.Careful cp) (reaches : ctx.Reaches after) : after.Careful cp :=
  reaches.keeps (P := (·.Careful cp)) (fun _ counterparty careful => careful.initiate counterparty)
    (fun _ _ _ careful closed => careful.close closed) careful

end Context.Careful

/-- A flow that, when it suspends on a request that sends on a session, has not closed that session. -/
def Flow.Patient (flow : Flow σ) : Prop :=
  ∀ ctx state request effects, ctx.effects = .none → flow.Suspends ctx state request effects →
    ∀ message ∈ request.messages, message.sessionId ∉ effects.closed

/-- A flow that keeps to the primitives, and is patient if that is asked for. -/
structure Flow.Courteous (strict : Prop) (flow : Flow σ) : Prop where
  primitives : flow.KeepsToPrimitives
  patient : strict → flow.Patient

/-- What can be done to the sessions of a checkpoint so that none is sent on or closed which was shut
before: first the changes that flow logic has made, then the messages of its request. -/
structure Effects.Parting (strict : Prop) (effects : Effects) (cp : Checkpoint)
    (messages : List OutboundMessage) : Prop where
  closed : ∀ id ∈ effects.closed, ¬ Checkpoint.Shut (some cp) id
  once : effects.closed.Nodup
  sent : ∀ message ∈ messages, ¬ Checkpoint.Shut (some cp) message.sessionId
  unclosed : strict → ∀ message ∈ messages, message.sessionId ∉ effects.closed
  tidy : Tidy cp.flowId (cp.opened effects.initiated).sessions

/-- The messages that an outcome sends. -/
def FiberOutcome.messages : FiberOutcome → List OutboundMessage
  | .suspended request _ => request.messages
  | .completed _ => []
  | .failed _ => []

/-- What a courteous flow leaves, unless it has failed. -/
theorem Fiber.Calls.parting {strict : Prop} {fiber : Fiber σ} {cp : Checkpoint} {now : Timestamp}
    {outcome : FiberOutcome} {left : FiberRun σ}
    (calls : fiber.Calls (.ofCheckpoint cp now) outcome left)
    (courteous : fiber.logic.Courteous strict) (tidy : Tidy cp.flowId cp.sessions)
    (succeeds : ∀ error, outcome ≠ .failed error) :
    left.context.effects.Parting strict cp outcome.messages := by
  have careful := Context.Careful.ofCheckpoint tidy now
  have leaves := calls.leaves courteous.primitives
  have suspends := calls.suspends
  generalize left.context.effects = effects at leaves suspends
  have leave {last : Context} (careful : last.Careful cp) {messages : List OutboundMessage}
      (sent : ∀ message ∈ messages, ¬ Checkpoint.Shut (some cp) message.sessionId)
      (unclosed : strict → ∀ message ∈ messages, message.sessionId ∉ last.effects.closed) :
      last.effects.Parting strict cp messages :=
    ⟨careful.closed, careful.once, sent, unclosed,
      careful.tidy.of_contains fun id => (careful.mirrors.contains id).symm⟩
  cases leaves with
  | @suspended request continuation middle last before builds since =>
      obtain ⟨state, _, suspends⟩ := suspends request continuation rfl
      refine leave (careful.reaches (before.trans since)) (fun message member => ?_) fun asked => ?_
      · exact ((careful.reaches before).opens _ (builds.sound.1 message member)).1
      · exact courteous.patient asked _ state request _ rfl suspends
  | completed reaches =>
      exact leave (careful.reaches reaches) (fun _ impossible => by cases impossible)
        fun _ _ impossible => by cases impossible
  | @failed error => exact absurd rfl (succeeds error)

/-- An event that does not start its flow through a session with a name that the flow is going to give
to another one. -/
def Event.StartsTidy (event : Event) : Prop :=
  ∀ request initiator, event.payload = .startFlow request → request.initiatedBy = some initiator →
    ∀ number, initiator.sessionId = .own event.flowId number → number ≤ 1

end DurableFlow
