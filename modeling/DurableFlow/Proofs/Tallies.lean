import Mathlib.Data.List.DropRight
import DurableFlow.Proofs.Attempts
import DurableFlow.Proofs.Retries
import DurableFlow.Proofs.Waits

/-! # How often a flow has failed in a row

A flow counts the retryable failures of its logic. What the count is to be can be read off the trials of
the flow, that is, all that its logic has come to: it is the number of failures in a row with which they
end, `Trial.failuresInRow`. Every outcome keeps the two the same, and so does every event.
-/

namespace DurableFlow

open Stateful

variable {σ : Type}

/-- What flow logic has come to, and the time that the event was stamped with. -/
structure Trial where
  outcome : FiberOutcome
  now : Timestamp

namespace Trial

/-- Whether flow logic has failed in a way that may be tried again. -/
def isRetryable (trial : Trial) : Bool :=
  match trial.outcome with
  | .failed error => error.isRetryable
  | _ => false

/-- The number of retryable failures with which trials end. -/
def failuresInRow (trials : List Trial) : Nat := (trials.rtakeWhile isRetryable).length

theorem failuresInRow_concat (trials : List Trial) (trial : Trial) :
    failuresInRow (trials ++ [trial]) =
      if trial.isRetryable then failuresInRow trials + 1 else 0 := by
  rw [failuresInRow, List.rtakeWhile_concat]
  split
  · exact List.length_append
  · rfl

end Trial

open Trial

/-- The trials of an event. -/
def Settings.trials (settings : Settings) (outcomes : List FiberOutcome) : List Trial :=
  outcomes.map (⟨·, settings.now⟩)

namespace Checkpoint

/-- The failures that a checkpoint counts are those with which the trials of its flow end, and they
are within the budget. If it waits for its retry, it does so until the delay is over that its count
leads to, from the last of them on. -/
structure Tallies (config : Config) (trials : List Trial) (cp : Checkpoint) : Prop where
  count : cp.isTerminal = false → cp.retryCount = failuresInRow trials
  within : cp.isTerminal = false → cp.retryCount ≤ config.retry.maxRetries
  suspended : cp.status = .suspended → cp.retryCount = 0
  retrying : cp.status = .retrying → 1 ≤ cp.retryCount ∧ ∃ last due, trials.getLast? = some last ∧
    last.isRetryable ∧ last.now.add (config.retry.backoff cp.retryCount) = .ok due ∧
    cp.waitingFor = .wakeup due

/-- What a retryable failure has made of a flow: it has failed if there were as many failures in a row
before as are retried, and is retried if there were fewer. -/
structure Spends (config : Config) (before : List Trial) (cp : Checkpoint) : Prop where
  within : failuresInRow before ≤ config.retry.maxRetries
  failed : cp.status = .failed ↔ failuresInRow before = config.retry.maxRetries
  retrying : cp.status = .retrying ↔ failuresInRow before < config.retry.maxRetries

theorem Tallies.of_terminal {config : Config} {trials : List Trial} {cp : Checkpoint}
    (terminal : cp.isTerminal) : cp.Tallies config trials where
  count live := by simp [terminal] at live
  within live := by simp [terminal] at live
  suspended status := by
    rw [isTerminal, status] at terminal
    cases terminal
  retrying status := by
    rw [isTerminal, status] at terminal
    cases terminal

end Checkpoint

namespace Draft

theorem retry_due {draft after : Draft} {error : FlowError} {attempt : Attempt} {config : Config}
    {now : Timestamp} (h : draft.retry error attempt config now = .ok after) :
    ∃ due, now.add (config.retry.backoff (draft.checkpoint.retryCount + 1)) = .ok due ∧
      after.checkpoint.waitingFor = .wakeup due := by
  simp only [retry, bind_eq_ok, pure_eq_ok, mapError_eq_ok] at h
  obtain ⟨_, moved, due, delayed, rfl⟩ := h
  obtain ⟨_, rfl⟩ := setStatus_ok.1 moved
  exact ⟨due, delayed, rfl⟩

/-- What an outcome makes of a draft with a count of failures. -/
structure Scores (config : Config) (trials : List Trial) (trial : Trial) (after : Draft) (next : Next) :
    Prop where
  tallies : after.checkpoint.Tallies config (trials ++ [trial])
  spends : trial.isRetryable → next = .done ∧ after.checkpoint.Spends config trials

variable {draft after : Draft} {outcome : FiberOutcome} {effects : Effects} {attempt : Attempt}
  {config : Config} {now : Timestamp} {trials : List Trial}

theorem Parks.scores {parked : Draft} {request : Request} {continuation : Bytes} {next : Next}
    (parks : draft.Parks request continuation parked) (answered : parked.answerWait = (after, next)) :
    Scores config trials ⟨.suspended request continuation, now⟩ after next := by
  have none : after.checkpoint.retryCount = 0 ∧ after.checkpoint.status = .suspended := by
    rcases answerWait_cases parked with done | ⟨_, _, _, ended⟩
    · rw [done] at answered
      cases answered
      rw [parks.rest]
      exact ⟨rfl, rfl⟩
    · rw [ended] at answered
      cases answered
      rw [parks.rest]
      exact ⟨rfl, rfl⟩
  refine ⟨⟨fun _ => ?_, fun _ => ?_, fun _ => none.1, fun retrying => ?_⟩, nofun⟩
  · rw [none.1, failuresInRow_concat]
    rfl
  · rw [none.1]
    exact Nat.zero_le _
  · rw [none.2] at retrying
    cases retrying

/-- Whatever the outcome, the failures in a row are counted. -/
theorem applyOutcome_scores {next : Next}
    (applied : draft.applyOutcome outcome effects attempt config now = .ok (after, next))
    (count : draft.checkpoint.retryCount = failuresInRow trials)
    (within : draft.checkpoint.retryCount ≤ config.retry.maxRetries) :
    Scores config trials ⟨outcome, now⟩ after next := by
  cases outcome with
  | suspended request continuation =>
      have ways := applyOutcome_ok applied
      generalize result : (after, next) = r at ways
      cases ways with
      | suspended parks => exact parks.scores result.symm
  | completed output =>
      have ways := applyOutcome_ok applied
      generalize result : (after, next) = r at ways
      cases ways with
      | completed _ _ rest =>
          cases result
          exact ⟨.of_terminal (by rw [rest]; rfl), nofun⟩
  | failed error =>
      simp only [applyOutcome] at applied
      split at applied
      next again =>
        simp only [bind_eq_ok, pure_eq_ok] at applied
        obtain ⟨left, retried, same⟩ := applied
        cases same
        obtain ⟨due, delayed, wait⟩ := retry_due retried
        obtain ⟨_, rest⟩ := retry_ok retried
        have counted : after.checkpoint.retryCount = draft.checkpoint.retryCount + 1 := by rw [rest]
        have status : after.checkpoint.status = .retrying := by rw [rest]
        have fails : Trial.isRetryable ⟨.failed error, now⟩ = true := again.1
        refine ⟨⟨fun _ => ?_, fun _ => ?_, fun impossible => ?_, fun _ => ?_⟩, fun _ => ⟨rfl, ?_⟩⟩
        · rw [counted, failuresInRow_concat, if_pos fails, count]
        · rw [counted]
          exact again.2
        · rw [status] at impossible
          cases impossible
        · rw [counted]
          exact ⟨Nat.le_add_left 1 _, ⟨.failed error, now⟩, due, List.getLast?_concat, fails,
            delayed, wait⟩
        · rw [count] at again
          refine ⟨Nat.le_of_lt again.2, ?_, ?_⟩
          · simp [status, Nat.ne_of_lt again.2]
          · simp [status, again.2]
      next enough =>
        simp only [bind_eq_ok, pure_eq_ok] at applied
        obtain ⟨left, failed, same⟩ := applied
        cases same
        obtain ⟨_, _, _, rest⟩ := fail_ok failed
        have status : after.checkpoint.status = .failed := by rw [rest]
        refine ⟨.of_terminal (by rw [rest]; rfl), fun fails => ⟨rfl, ?_⟩⟩
        -- The count is within the limit but not below it, so that it has reached it.
        have spent : failuresInRow trials = config.retry.maxRetries := by
          have fails : error.isRetryable = true := fails
          rw [count] at enough within
          simp only [fails, true_and, Nat.not_lt] at enough
          exact Nat.le_antisymm within enough
        exact ⟨Nat.le_of_eq spent, by simp [status, spent], by simp [status, spent]⟩

theorem Meets.scores {settings : Settings} {outcomes : List FiberOutcome}
    (meets : draft.Meets settings attempt outcomes after)
    (count : draft.checkpoint.retryCount = failuresInRow trials)
    (within : draft.checkpoint.retryCount ≤ settings.config.retry.maxRetries) :
    after.checkpoint.Tallies settings.config (trials ++ settings.trials outcomes) ∧
      ∀ earlier last later, settings.trials outcomes = earlier ++ last :: later → last.isRetryable →
        later = [] ∧ after.checkpoint.Spends settings.config (trials ++ earlier) := by
  induction meets generalizing trials with
  | @done attempt draft after outcome effects applied =>
      obtain ⟨tallies, spends⟩ := applyOutcome_scores applied count within
      refine ⟨tallies, fun earlier last later split retryable => ?_⟩
      rcases earlier with _ | ⟨first, earlier⟩
      · cases split
        rw [List.append_nil]
        exact ⟨rfl, (spends retryable).2⟩
      · simp [Settings.trials] at split
  | @again attempt draft taken after outcome effects value outcomes applied rest ih =>
      obtain ⟨tallies, spends⟩ := applyOutcome_scores applied count within
      have status := (applyOutcome_ok applied).status_of_resume
      have live : taken.checkpoint.isTerminal = false := by
        rw [Checkpoint.isTerminal, status]
        rfl
      obtain ⟨tallied, spent⟩ := ih (tallies.count live) (tallies.within live)
      refine ⟨by simpa [Settings.trials] using tallied, fun earlier last later split retryable => ?_⟩
      rcases earlier with _ | ⟨first, earlier⟩
      · cases split
        cases (spends retryable).1
      · obtain ⟨rfl, listed⟩ := List.cons.inj split
        obtain ⟨ended, spends⟩ := spent earlier last later listed retryable
        exact ⟨ended, by simpa using spends⟩

end Draft

theorem Plan.Opens.tallies {settings : Settings} {event : Event} {found : Option Checkpoint}
    {prepared : Prepared} {trials : List Trial} (opens : Opens settings event found prepared)
    (tallies : ∀ cp, found = some cp → cp.Tallies settings.config trials)
    (decided : prepared.decision = .skip) :
    prepared.draft.checkpoint.Tallies settings.config trials := by
  have prepares := Handler.prepare_prepares opens.prepares
  generalize event.payload = payload at prepares
  cases prepares with
  | started | answered | awake | again | restarted | timedOut | confirmed => cases decided
  | @kept _ _ _ cp =>
      obtain ⟨count, within, suspended, retrying⟩ := tallies cp rfl
      exact ⟨count, within, suspended, retrying⟩
  | @early cp => exact tallies cp rfl
  | @counted cp _ _ _ _ wait =>
      obtain ⟨count, within, suspended, retrying⟩ := tallies cp rfl
      refine ⟨count, within, suspended, fun status => ?_⟩
      obtain ⟨_, _, _, _, _, _, delayed⟩ := retrying status
      cases wait.symm.trans delayed
  | failed failed =>
      obtain ⟨_, _, _, rest⟩ := Draft.fail_ok failed
      exact .of_terminal (by rw [rest]; rfl)

theorem Plan.Opens.retries_of_enters {settings : Settings} {event : Event} {cp : Checkpoint}
    {prepared : Prepared} (opens : Opens settings event (some cp) prepared)
    (retrying : cp.status = .retrying) (delayed : ∃ due, cp.waitingFor = .wakeup due)
    (enters : prepared.decision ≠ .skip) : event.Retries cp settings.now := by
  obtain ⟨due, wait⟩ := delayed
  have prepares := Handler.prepare_prepares opens.prepares
  generalize payload : event.payload = given at prepares
  cases prepares with
  | kept | early | counted | failed => exact absurd rfl enters
  | answered _ _ _ taken =>
      obtain ⟨_, _, _, other, _⟩ := Checkpoint.takeReady?_some taken
      cases wait.symm.trans other
  | awake _ _ first => exact absurd retrying first
  | again wait late | restarted wait late => exact ⟨payload, retrying, _, wait, late⟩
  | timedOut other | confirmed other => cases wait.symm.trans other

namespace Commit.Meets

variable {settings : Settings} {event : Event} {found : Option Checkpoint}
  {outcomes : List FiberOutcome} {commit : Commit σ}

/-- The count of failures goes on from one stored checkpoint to the next. -/
theorem tallies {trials : List Trial} (meets : commit.Meets settings event found outcomes)
    (before : ∀ cp, found = some cp → cp.Tallies settings.config trials)
    (fresh : found = none → trials = []) :
    commit.written.Tallies settings.config (trials ++ settings.trials outcomes) ∧
      ∀ earlier last later, settings.trials outcomes = earlier ++ last :: later → last.isRetryable →
        later = [] ∧ commit.written.Spends settings.config (trials ++ earlier) := by
  obtain ⟨prepared, draft, opens, meets, closes⟩ := meets
  have unchanged : commit.written = { draft.checkpoint with
      updatedAt := settings.now, version := commit.expected + 1 } := by
    rw [Commit.written, closes]
  suffices drafted : draft.checkpoint.Tallies settings.config (trials ++ settings.trials outcomes) ∧
      ∀ earlier last later, settings.trials outcomes = earlier ++ last :: later → last.isRetryable →
        later = [] ∧ draft.checkpoint.Spends settings.config (trials ++ earlier) by
    obtain ⟨⟨count, within, suspended, retrying⟩, spends⟩ := drafted
    rw [unchanged]
    refine ⟨⟨count, within, suspended, retrying⟩, fun earlier last later split retryable => ?_⟩
    obtain ⟨ended, within, failed, retrying⟩ := spends earlier last later split retryable
    exact ⟨ended, within, failed, retrying⟩
  have count : prepared.draft.checkpoint.retryCount = failuresInRow trials ∧
      prepared.draft.checkpoint.retryCount ≤ settings.config.retry.maxRetries := by
    rw [(Handler.prepare_prepares opens.prepares).retryCount_eq]
    cases found with
    | none =>
        rw [fresh rfl]
        exact ⟨rfl, Nat.zero_le _⟩
    | some cp =>
        have live := opens.live cp rfl
        exact ⟨(before cp rfl).count live, (before cp rfl).within live⟩
  cases meets with
  | skipped =>
      refine ⟨?_, fun earlier last later split => ?_⟩
      · rw [Settings.trials, List.map_nil, List.append_nil]
        exact opens.tallies before rfl
      · simp [Settings.trials] at split
  | unknown applied =>
      refine ⟨.of_terminal ?_, fun earlier last later split => ?_⟩
      · have ways := Draft.applyOutcome_ok applied
        generalize result : (draft, _) = r at ways
        cases ways with
        | retried retryable => cases retryable
        | failed _ _ rest =>
            cases result
            rw [rest]
            rfl
      · simp [Settings.trials] at split
  | ran enters meets => exact meets.scores count.1 count.2

/-- While a flow waits for its retry, no event but the wake-up that is due has its logic come to
anything, and none changes its count of failures. -/
theorem waits {cp : Checkpoint} (meets : commit.Meets settings event (some cp) outcomes)
    (retrying : cp.status = .retrying) (delayed : ∃ due, cp.waitingFor = .wakeup due) :
    (outcomes = [] ∧ commit.written.retryCount = cp.retryCount) ∨ event.Retries cp settings.now := by
  obtain ⟨prepared, draft, opens, meets, closes⟩ := meets
  cases meets with
  | skipped =>
      have counted := (Handler.prepare_prepares opens.prepares).retryCount_eq
      exact .inl ⟨rfl, by rw [Commit.written, closes]; exact counted⟩
  | unknown => exact .inr (opens.retries rfl)
  | ran enters =>
      refine .inr (opens.retries_of_enters retrying delayed ?_)
      rintro rfl
      cases enters

end Commit.Meets

end DurableFlow
