import DurableFlow.Proofs.Turns
import DurableFlow.Samples.Echo

/-! # No readiness is missed

What a flow waits for may be there before it waits, or arrive while it waits for something else. It is
looked at whenever a wait begins and whenever something arrives, so a flow that is stored as suspended
has something to wait for: `Checkpoint.Waits`.
-/

namespace DurableFlow

open Samples

variable {σ π : Type}

namespace Checkpoint

/-- The wait of a flow is not over: what it waits for is neither kept nor counted yet. -/
structure Waits (cp : Checkpoint) : Prop where
  unready : cp.takeReady? = none
  unconfirmed : ∀ required received, cp.waitingFor = .confirmations required received →
    received < required

/-- Nothing can be taken just if no wait for session items is over. -/
theorem unready_iff_waiting {cp : Checkpoint} :
    cp.takeReady? = none ↔ ∀ awaited deadline, cp.waitingFor = .sessions awaited deadline →
      readiness cp.sessions awaited = .waiting := by
  cases wait : cp.waitingFor with
  | sessions awaited deadline =>
      simp only [takeReady?, takeReady, wait, Wait.sessions.injEq, and_imp]
      constructor
      · rintro unready _ _ rfl rfl
        split at unready
        next waiting => exact waiting
        · cases unready
        · split at unready <;> cases unready
      · intro waiting
        rw [waiting awaited deadline rfl rfl]
        rfl
  | start | wakeup | confirmations | nothing => simp [takeReady?, takeReady, wait]

theorem late_of_waiting {cp : Checkpoint} {awaited : List SessionId}
    (waiting : readiness cp.sessions awaited = .waiting) : ∃ id ∈ awaited, Handler.isLate cp id := by
  induction awaited with
  | nil => cases waiting
  | cons first rest ih =>
      simp only [readiness] at waiting
      split at waiting
      next unknown => exact ⟨first, List.mem_cons_self, by simp [Handler.isLate, unknown]⟩
      next session found =>
        split at waiting
        · cases waiting
        · split at waiting
          next late => exact ⟨first, List.mem_cons_self, by simpa [Handler.isLate, found] using late⟩
          next =>
            obtain ⟨id, listed, late⟩ := ih waiting
            exact ⟨id, List.mem_cons_of_mem _ listed, late⟩

theorem Waits.late {cp : Checkpoint} {awaited : List SessionId} {deadline : Option Timestamp}
    (waits : cp.Waits) (wait : cp.waitingFor = .sessions awaited deadline) :
    ∃ id ∈ awaited, Handler.isLate cp id :=
  late_of_waiting (unready_iff_waiting.1 waits.unready awaited deadline wait)

end Checkpoint

namespace Draft

theorem waits_of_answerWait {parked after : Draft} (h : parked.answerWait = (after, .done)) :
    after.checkpoint.Waits := by
  cases eq_of_answerWait_done h
  refine ⟨?_, fun required received wait => ?_⟩
  · cases ended : parked.checkpoint.takeReady? with
    | none => rfl
    | some answer =>
        obtain ⟨_, _, _, wait, _⟩ := Checkpoint.takeReady?_some ended
        simp [answerWait, wait, Checkpoint.takeReady?_eq_some_iff.1 ended] at h
  · refine Nat.lt_of_not_le fun enough => ?_
    simp [answerWait, wait, enough] at h

/-- Of all that can become of an outcome, only a wait that goes on leaves a flow suspended. -/
theorem Applied.waits {draft after : Draft} {attempt : Attempt} {outcome : FiberOutcome}
    (applied : draft.Applied attempt outcome (after, .done))
    (suspended : after.checkpoint.status = .suspended) : after.checkpoint.Waits := by
  generalize result : (after, Next.done) = r at applied
  cases applied with
  | suspended parks => exact waits_of_answerWait result.symm
  | completed _ _ rest | retried _ rest | failed _ _ rest =>
      cases result
      rw [rest] at suspended
      cases suspended

end Draft

theorem Handler.Prepares.waits {flowId : FlowId} {config : Config} {now : Timestamp}
    {payload : EventPayload} {loaded : Option Checkpoint} {draft : Draft}
    (prepares : Prepares flowId config now payload loaded ⟨draft, .skip⟩)
    (waits : ∀ cp, loaded = some cp → cp.status = .suspended → cp.Waits)
    (suspended : draft.checkpoint.status = .suspended) : draft.checkpoint.Waits := by
  cases prepares with
  | kept found isOpen unseen unready => exact ⟨unready, (waits _ rfl suspended).unconfirmed⟩
  | early alarm early => exact waits _ rfl suspended
  | counted wait sum few =>
      refine ⟨rfl, fun required received same => ?_⟩
      cases same
      exact Nat.lt_of_not_le few
  | failed failed =>
      obtain ⟨_, _, _, rest⟩ := Draft.fail_ok failed
      rw [rest] at suspended
      cases suspended

theorem Plan.Leads.waits {settings : Settings} {event : Event} {loaded : Option Checkpoint}
    {commit : Commit σ} (leads : Leads settings event loaded commit)
    (waits : ∀ cp, loaded = some cp → cp.status = .suspended → cp.Waits)
    (suspended : commit.written.status = .suspended) : commit.written.Waits := by
  obtain ⟨prepared, draft, prepares, settles, checkpoint, _⟩ := leads.course
  rw [Commit.written, checkpoint] at suspended ⊢
  have waits : draft.checkpoint.Waits := by
    cases settles with
    | skipped => exact prepares.waits waits suspended
    | ran enters settles =>
        obtain ⟨last, _, _, _, _, applied⟩ :=
          settles.induction (P := fun _ _ => True) (fun _ _ _ _ _ _ _ _ => trivial) trivial
        exact (Draft.applyOutcome_ok applied).waits suspended
  have waiting := Checkpoint.unready_iff_waiting.1 waits.unready
  exact ⟨Checkpoint.unready_iff_waiting.2 fun awaited deadline wait =>
    waiting awaited deadline wait, waits.unconfirmed⟩

/-- Whatever happens at a site over an empty store, a flow that is stored as suspended waits for
something: nothing can be taken for it, it lacks confirmations if it waits for some, and if it waits
for sessions one of them has not delivered its next item. -/
theorem Services.waits_of_suspended (publisher : Publisher π) (host : Host σ) (published : π)
    (moments : List Moment) (id : FlowId) (cp : Checkpoint) :
    (Services.run ⟨Store.inMemory, publisher⟩ moments ⟨host, {}, published⟩).2.stored.get? id =
        some cp →
      cp.status = .suspended →
      cp.takeReady = (none, cp) ∧
        (∀ required received, cp.waitingFor = .confirmations required received →
          received < required) ∧
        ∀ awaited deadline, cp.waitingFor = .sessions awaited deadline →
          ∃ session ∈ awaited, Handler.isLate cp session := by
  intro stored suspended
  have waits : cp.Waits := by
    refine run_stored publisher (P := fun _ cp => cp.status = .suspended → cp.Waits)
      (fun _ _ _ _ _ waits leads => leads.waits waits) ?_ ?_ moments id cp stored suspended
    · intro _ _ found
      cases found
    · intro _ _ found
      cases found
  exact ⟨Checkpoint.takeReady?_eq_none_iff.1 waits.unready, waits.unconfirmed, fun _ _ => waits.late⟩

/-- An echo that has been sent its second item only is stored as suspended, and still waits. -/
theorem Services.waits_of_suspended_echo :
    let host : Host Unit := ⟨.new Echo.execution, .new 1 1000, ()⟩
    let moments : List Moment :=
      [.event Echo.settings Echo.begin, .event Echo.settings (Echo.say 2 .close)]
    let run := Services.run ⟨Store.inMemory, .collecting⟩ moments ⟨host, {}, []⟩
    ∃ cp, run.2.stored.get? Echo.flow = some cp ∧ cp.status = .suspended ∧
      ∃ session ∈ [Echo.session], Handler.isLate cp session := by
  intro host moments run
  refine ⟨_, rfl, rfl, ?_⟩
  exact (Services.waits_of_suspended .collecting host [] moments Echo.flow _ rfl rfl).2.2 _ none rfl

end DurableFlow
