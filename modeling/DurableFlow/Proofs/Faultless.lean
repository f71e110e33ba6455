import DurableFlow.Proofs.Primitives

/-! # Writing an outcome without a fault

What flow logic does through the primitives can be written into the checkpoint that its context
showed: every session it closes or sends on is known there, or is opened before, and a running flow
may move on to whatever comes of it. Only a point in time may be impossible to compute.
-/

namespace DurableFlow

open Stateful

variable {α β : Type}

/-- A result that is not a fault of the checkpoint. -/
def Faultless (result : Except OutcomeError α) : Prop :=
  ∀ error, result ≠ .error (.checkpoint error)

namespace Faultless

theorem ok (a : α) : Faultless (.ok a) := by
  intro error impossible
  cases impossible

theorem bind {x : Except OutcomeError α} {f : α → Except OutcomeError β} (first : Faultless x)
    (rest : ∀ a, x = .ok a → Faultless (f a)) : Faultless (x >>= f) := by
  intro error fault
  cases x with
  | error e =>
      cases fault
      exact first error rfl
  | ok a => exact rest a rfl error fault

theorem time (result : Except TimeError α) : Faultless (result.mapError OutcomeError.time) := by
  intro error fault
  cases result <;> cases fault

end Faultless

namespace Draft

theorem SessionWork.contains {draft next : Draft} (work : draft.SessionWork next) {id : SessionId}
    (known : draft.checkpoint.sessions.contains id) : next.checkpoint.sessions.contains id := by
  obtain ⟨session, found⟩ := Option.isSome_iff_exists.1 known
  obtain ⟨session', found', _⟩ := work.sessions.old id session found
  simp [SortedMap.contains, found']

theorem contains_of_open {draft : Draft} {id : SessionId} (isOpen : id ∈ draft.checkpoint.openSessions) :
    draft.checkpoint.sessions.contains id := by
  obtain ⟨session, found, _⟩ := SortedMap.mem_keys_filter.1 isOpen
  simp [SortedMap.contains, found]

theorem foldlM_faultless {f : Draft → α → Except OutcomeError Draft} (session : α → SessionId)
    (step : ∀ draft a, draft.checkpoint.sessions.contains (session a) → Faultless (f draft a))
    (work : ∀ draft a next, f draft a = .ok next → draft.SessionWork next) {items : List α}
    {draft : Draft} (known : ∀ a ∈ items, draft.checkpoint.sessions.contains (session a)) :
    Faultless (items.foldlM f draft) := by
  induction items generalizing draft with
  | nil => exact .ok draft
  | cons a rest ih =>
      rw [List.foldlM_cons]
      refine .bind (step draft a (known a List.mem_cons_self)) fun next done => ?_
      refine ih fun other member => ?_
      exact (work draft a next done).contains (known other (List.mem_cons_of_mem _ member))

variable {draft : Draft} {id : SessionId}

theorem session_faultless (known : draft.checkpoint.sessions.contains id) :
    Faultless (draft.session id) := by
  obtain ⟨session, found⟩ := Option.isSome_iff_exists.1 known
  rw [session_ok.2 found]
  exact .ok session

theorem closeSession_faultless (known : draft.checkpoint.sessions.contains id) :
    Faultless (draft.closeSession id) :=
  .bind (session_faultless known) fun _ _ => .ok _

theorem sendMessage_faultless {message : OutboundMessage}
    (known : draft.checkpoint.sessions.contains message.sessionId) :
    Faultless (draft.sendMessage message) :=
  .bind (session_faultless known) fun _ _ => .ok _

theorem errorSession_faultless (reason : String) (known : draft.checkpoint.sessions.contains id) :
    Faultless (draft.errorSession reason id) :=
  .bind (session_faultless known) fun _ _ => .ok _

theorem setStatus_faultless {status : Status} (moves : draft.checkpoint.status.canMoveTo status) :
    Faultless (draft.setStatus status) := by
  rw [setStatus_ok.2 ⟨moves, rfl⟩]
  exact .ok _

theorem announceEnd_faultless (status : Status) (detail : Option String) (config : Config)
    (now : Timestamp) : Faultless (draft.announceEnd status detail config now) :=
  .bind (.time _) fun _ _ => .ok _

theorem closings_faultless : Faultless (draft.checkpoint.openSessions.foldlM closeSession draft) := by
  apply foldlM_faultless id
  · intro draft id known
    exact closeSession_faultless known
  · intro draft id next done
    exact (closeSession_replaces id).work closed_served done
  · intro id isOpen
    exact contains_of_open isOpen

theorem fail_faultless {reason : String} {config : Config} {now : Timestamp}
    (running : draft.checkpoint.status = .running) : Faultless (draft.fail reason config now) := by
  refine .bind (setStatus_faultless (by rw [running]; rfl)) fun failed _ => ?_
  refine .bind ?_ fun given _ => announceEnd_faultless _ _ _ _
  apply foldlM_faultless id
  · intro draft id known
    exact errorSession_faultless reason known
  · intro draft id next done
    exact (errorSession_replaces reason id).work errored_served done
  · intro id isOpen
    exact contains_of_open isOpen

theorem retry_faultless {error : FlowError} {attempt : Attempt} {config : Config} {now : Timestamp}
    (running : draft.checkpoint.status = .running) :
    Faultless (draft.retry error attempt config now) := by
  refine .bind (setStatus_faultless (by rw [running]; rfl)) fun moving _ => ?_
  exact .bind (.time _) fun _ _ => .ok _

/-- The changes that flow logic has made to its sessions can be made to the checkpoint that its
context showed, and the sessions that it knows then are known there. -/
theorem applyEffects_faultless {ctx : Context} (mirrors : ctx.Mirrors draft.checkpoint) :
    Faultless (draft.applyEffects ctx.effects) ∧
      ∀ next, draft.applyEffects ctx.effects = .ok next → ∀ id, ctx.sessions.contains id →
        next.checkpoint.sessions.contains id := by
  constructor
  · apply foldlM_faultless id
    · intro draft id known
      exact closeSession_faultless known
    · intro draft id next done
      exact (closeSession_replaces id).work closed_served done
    · intro id closed
      have known := mirrors.closed id closed
      rwa [mirrors.contains] at known
  · intro next applied id known
    rw [mirrors.contains] at known
    have work := foldlM_work (fun _ id _ => (closeSession_replaces id).work closed_served) applied
    exact work.contains known

theorem beginWait_faultless {request : Request} {deadline : Option Timestamp} {now : Timestamp}
    (known : ∀ message ∈ request.messages, draft.checkpoint.sessions.contains message.sessionId) :
    Faultless (draft.beginWait request deadline now) := by
  have sending : Faultless (request.messages.foldlM sendMessage draft) := by
    apply foldlM_faultless OutboundMessage.sessionId
    · intro draft message known
      exact sendMessage_faultless known
    · intro draft message next done
      exact (sendMessage_replaces message).work sent_served done
    · exact known
  cases request with
  | send | sendAndReceive => exact .bind sending fun _ _ => .ok _
  | receive | sleep | waitForConfirmations | forceCheckpoint => exact .ok _

theorem suspend_faultless {request : Request} {config : Config} {now : Timestamp}
    (running : draft.checkpoint.status = .running)
    (known : ∀ message ∈ request.messages, draft.checkpoint.sessions.contains message.sessionId) :
    Faultless (draft.suspend request config now) := by
  refine .bind (.time _) fun deadline _ => .bind (beginWait_faultless known) fun began begins => ?_
  obtain ⟨sent, wait⟩ := began
  have status : sent.checkpoint.status = .running := by
    rw [(beginWait_ok begins).1.rest]
    exact running
  refine .bind (setStatus_faultless ?_) fun _ _ => .ok _
  cases wait.alarm? <;> simp [emit, status, Status.canMoveTo]

theorem complete_faultless {output : Bytes} {ctx : Context} {config : Config} {now : Timestamp}
    (running : draft.checkpoint.status = .running) (mirrors : ctx.Mirrors draft.checkpoint) :
    Faultless (draft.complete output ctx.effects config now) := by
  refine .bind (applyEffects_faultless mirrors).1 fun worked applied => ?_
  refine .bind closings_faultless fun shut closings => ?_
  have closing := foldlM_work (fun _ id _ => (closeSession_replaces id).work closed_served) closings
  have status : shut.checkpoint.status = .running := by
    rw [closing.rest, (applyEffects_work applied).rest]
    exact running
  refine .bind (setStatus_faultless (by rw [status]; rfl)) fun _ _ => announceEnd_faultless _ _ _ _

theorem failing_faultless {error : FlowError} {effects : Effects} {attempt : Attempt} {config : Config}
    {now : Timestamp} (running : draft.checkpoint.status = .running) :
    Faultless (draft.applyOutcome (.failed error) effects attempt config now) := by
  unfold applyOutcome
  simp only
  split
  · exact .bind (retry_faultless running) fun _ _ => .ok _
  · exact .bind (fail_faultless running) fun _ _ => .ok _

/-- What a run leaves that keeps to the primitives can be written without a fault. -/
theorem applyOutcome_faultless {ctx : Context} {outcome : FiberOutcome} {effects : Effects}
    {attempt : Attempt} {config : Config} {now : Timestamp}
    (running : draft.checkpoint.status = .running) (mirrors : ctx.Mirrors draft.checkpoint)
    (leaves : ctx.Leaves outcome effects) :
    Faultless (draft.applyOutcome outcome effects attempt config now) := by
  cases leaves with
  | @suspended request continuation middle last before builds since =>
      have mirrors := mirrors.reaches (before.trans since)
      obtain ⟨faultless, known⟩ := applyEffects_faultless mirrors
      refine .bind faultless fun worked applied => suspend_faultless ?_ ?_
      · have work := applyEffects_work applied
        simp only
        rw [work.rest]
        exact running
      · intro message member
        obtain ⟨view, shown, _⟩ := builds.sound.1 message member
        have contained : middle.sessions.contains message.sessionId := by
          simp [SortedMap.contains, shown]
        exact known worked applied _ (since.contains contained)
  | completed reaches =>
      exact .bind (complete_faultless running (mirrors.reaches reaches)) fun _ _ => .ok _
  | failed => exact failing_faultless running

theorem park_waits {parked : Draft} {request : Request} {config : Config} {now : Timestamp}
    (h : draft.park request config now = .ok parked) :
    ∃ deadline, parked.checkpoint.waitingFor = request.wait deadline now := by
  simp only [park, bind_eq_ok, beginWait_eq] at h
  obtain ⟨deadline, _, began, sending, moved⟩ := h
  obtain ⟨sent, _, rfl⟩ := map_eq_ok.1 sending
  obtain ⟨_, rfl⟩ := setStatus_ok.1 moved
  refine ⟨deadline, ?_⟩
  cases alarm : (request.wait deadline now).alarm? <;> simp [emit]

theorem applyOutcome_names {ctx : Context} {outcome : FiberOutcome} {effects : Effects}
    {attempt : Attempt} {config : Config} {now : Timestamp} {after : Draft}
    (leaves : ctx.Leaves outcome effects)
    (applied : draft.applyOutcome outcome effects attempt config now = .ok (after, .done)) :
    after.checkpoint.waitingFor.NamesSessions := by
  cases leaves with
  | suspended before builds since =>
      simp only [applyOutcome, bind_eq_ok] at applied
      obtain ⟨worked, _, applied⟩ := applied
      obtain ⟨parked, parks, done⟩ := suspend_eq_ok.1 applied
      cases eq_of_answerWait_done done
      obtain ⟨deadline, waits⟩ := park_waits parks
      rw [waits]
      exact builds.sound.2 deadline now
  | completed reaches =>
      have applied := applyOutcome_ok applied
      generalize result : (after, Next.done) = r at applied
      cases applied with
      | completed _ _ rest =>
          cases result
          rw [rest]
          trivial
  | failed =>
      have applied := applyOutcome_ok applied
      generalize result : (after, Next.done) = r at applied
      cases applied with
      | retried _ rest | failed _ _ rest =>
          cases result
          rw [rest]
          trivial

end Draft

end DurableFlow
