import DurableFlow.Proofs.Entrances
import DurableFlow.Proofs.Faultless
import DurableFlow.Proofs.Outlines
import DurableFlow.Proofs.Readiness

/-! # What a wait allows

At any time a wait may be ended with certain values only: `Wait.Allows`. An item that ends a wait for
sessions is the next one of its session if the wait names no session twice, a wait for confirmations
counts what has come in since it began, `Wait.Sound`, and that a timeout names a session which is late
depends on that no stored wait is over, `Checkpoint.Awaits`.
-/

namespace DurableFlow

open Stateful

variable {σ : Type}

/-- The sessions whose items a request waits for. -/
def Request.awaited : Request → List SessionId
  | .sendAndReceive _ receiveFrom => receiveFrom
  | .receive sessions => sessions
  | _ => []

/-- A flow whose requests name no session twice. -/
def Flow.NamesOnce (flow : Flow σ) : Prop :=
  ∀ ctx state request effects, flow.Suspends ctx state request effects → request.awaited.Nodup

/-- The confirmations that an event brings. -/
def EventPayload.confirmations : EventPayload → Nat
  | .confirmation count => count
  | _ => 0

namespace Wait

/-- What a wait may be ended with at a time, given the sessions of its flow and how many confirmations
have come in since it began. -/
inductive Allows (sessions : SortedMap SessionId Session) (counted : Nat) (now : Timestamp) :
    Wait → Resumed → Prop where
  | awake {due : Timestamp} (late : due ≤ now) : Allows sessions counted now (.wakeup due) .wakeup
  | confirmed {required received : Nat} (enough : required ≤ min counted maxConfirmations) :
      Allows sessions counted now (.confirmations required received)
        (.confirmed (min counted maxConfirmations))
  /-- Every awaited session delivers the item that is next on it, and no other session delivers. -/
  | messages {awaited : List SessionId} {deadline : Option Timestamp} {received : Messages}
      (keys : ∀ id, received.contains id ↔ id ∈ awaited)
      (payloads : ∀ id payload, received.get? id = some payload → ∃ session,
        sessions.get? id = some session ∧
          session.pending.get? session.nextReceive = some (.data payload)) :
      Allows sessions counted now (.sessions awaited deadline) (.messages received)
  | closedByPeer {awaited : List SessionId} {deadline : Option Timestamp} {id : SessionId}
      {session : Session} (listed : id ∈ awaited) (found : sessions.get? id = some session)
      (ended : session.isOpen = false ∨ session.next? = some .close) :
      Allows sessions counted now (.sessions awaited deadline) (.sessionFailed id .closedByPeer)
  | timedOut {awaited : List SessionId} {deadline : Timestamp} {id : SessionId}
      (late : deadline ≤ now) (listed : id ∈ awaited)
      (missing : (sessions.get? id).bind Session.next? = none) :
      Allows sessions counted now (.sessions awaited (some deadline)) (.sessionFailed id .timedOut)

/-- A wait that names no session twice, and has counted the confirmations that have come in. -/
def Sound (counted : Nat) : Wait → Prop
  | .sessions awaited _ => awaited.Nodup
  | .confirmations _ received => received = min counted maxConfirmations
  | _ => True

theorem Sound.add {required received counted count total : Nat}
    (sound : (confirmations required received).Sound counted)
    (sum : total = min (received + count) maxConfirmations) :
    (confirmations required total).Sound (counted + count) := by
  simp only [Sound] at sound ⊢
  omega

end Wait

theorem Request.wait_sound {request : Request} (once : request.awaited.Nodup)
    (deadline : Option Timestamp) (now : Timestamp) : (request.wait deadline now).Sound 0 := by
  cases request with
  | sendAndReceive | receive => exact once
  | waitForConfirmations => exact (Nat.zero_min _).symm
  | send | sleep | forceCheckpoint => trivial

namespace Checkpoint

/-- The wait of a flow is sound, and if it waits for sessions, one of them is late. -/
structure Awaits (counted : Nat) (cp : Checkpoint) : Prop where
  sound : cp.waitingFor.Sound counted
  unready : ∀ awaited deadline, cp.waitingFor = .sessions awaited deadline →
    readiness cp.sessions awaited = .waiting

/-- What ends a wait for sessions that names none of them twice is what is next on them. -/
theorem Answer.allows {sessions after : SortedMap SessionId Session} {awaited : List SessionId}
    {value : Resumed} (answer : Answer sessions awaited value after) (once : awaited.Nodup)
    (deadline : Option Timestamp) (counted : Nat) (now : Timestamp) :
    (Wait.sessions awaited deadline).Allows sessions counted now value := by
  cases answer with
  | ended listed found finished => exact .closedByPeer listed found (.inl finished)
  | closed listed canDeliver closing =>
      obtain ⟨session, _, found, _, _⟩ := canDeliver
      rw [← Intake.next?_eq_head?, found] at closing
      exact .closedByPeer listed found (.inr closing)
  | received canDeliver data =>
      have delivers : ∀ id ∈ awaited, ∃ session payload, sessions.get? id = some session ∧
          session.next? = some (.data payload) ∧
          (collect sessions {} awaited).1.get? id = some payload := by
        intro id listed
        obtain ⟨session, item, found, _, arrived⟩ := canDeliver id listed
        cases item with
        | close => exact absurd arrived (data id listed)
        | data payload =>
            have single := Nat.lt_succ_of_le (List.nodup_iff_count_le_one.1 once id)
            obtain ⟨_, got⟩ := collect_once {} listed arrived (.inl single)
            rw [← Intake.next?_eq_head?, found] at arrived
            exact ⟨session, payload, found, arrived, got⟩
      have silent : ∀ id, id ∉ awaited → (collect sessions {} awaited).1.get? id = none :=
        fun id unlisted => (collect_of_not_mem sessions {} unlisted).2
      refine .messages (fun id => ⟨fun known => ?_, fun listed => ?_⟩) fun id payload got => ?_
      · by_contra unlisted
        simp [SortedMap.contains, silent id unlisted] at known
      · obtain ⟨_, _, _, _, got⟩ := delivers id listed
        simp [SortedMap.contains, got]
      · have listed : id ∈ awaited := by
          by_contra unlisted
          rw [silent id unlisted] at got
          cases got
        obtain ⟨session, _, found, next, got'⟩ := delivers id listed
        rw [got] at got'
        cases got'
        exact ⟨session, found, next⟩

end Checkpoint

namespace Draft

theorem allows_of_answerWait {written taken : Draft} {value : Resumed}
    (sound : written.checkpoint.waitingFor.Sound 0)
    (answered : written.answerWait = (taken, .resume value)) (now : Timestamp) :
    written.checkpoint.waitingFor.Allows written.checkpoint.sessions 0 now value := by
  obtain ⟨_, ends, _⟩ := answered_of_answerWait answered
  cases ends with
  | @confirmed required received wait =>
      rw [wait] at sound ⊢
      have enough : required ≤ received := by
        by_contra few
        simp [answerWait, wait, few, Checkpoint.takeReady] at answered
      cases sound
      exact .confirmed enough
  | taken wait answer =>
      rw [wait] at sound ⊢
      exact answer.allows sound _ _ _

theorem write_sound {draft written : Draft} {outcome : FiberOutcome} {effects : Effects}
    {attempt : Attempt} {config : Config} {now : Timestamp}
    (wrote : draft.write outcome effects attempt config now = .ok written)
    (once : ∀ request continuation, outcome = .suspended request continuation →
      request.awaited.Nodup) : written.checkpoint.waitingFor.Sound 0 := by
  cases outcome with
  | suspended request continuation =>
      simp only [write, bind_eq_ok] at wrote
      obtain ⟨_, _, parks⟩ := wrote
      obtain ⟨deadline, wait⟩ := park_waits parks
      rw [wait]
      exact Request.wait_sound (once request continuation rfl) deadline now
  | completed output =>
      obtain ⟨_, _, _, rest⟩ := complete_ok wrote
      rw [rest]
      trivial
  | failed error =>
      simp only [write] at wrote
      split at wrote
      · obtain ⟨_, rest⟩ := retry_ok wrote
        rw [rest]
        trivial
      · obtain ⟨_, _, _, rest⟩ := fail_ok wrote
        rw [rest]
        trivial

theorem applyOutcome_awaits {draft after : Draft} {outcome : FiberOutcome} {effects : Effects}
    {attempt : Attempt} {config : Config} {now : Timestamp}
    (applied : draft.applyOutcome outcome effects attempt config now = .ok (after, .done))
    (once : ∀ request continuation, outcome = .suspended request continuation →
      request.awaited.Nodup) : after.checkpoint.Awaits 0 := by
  obtain ⟨written, wrote, done⟩ := write_of_applyOutcome applied
  have waits := waits_of_answerWait done
  cases eq_of_answerWait_done done
  exact ⟨write_sound wrote once, Checkpoint.unready_iff_waiting.1 waits.unready⟩

end Draft

/-- A wake-up for a flow that has waited out the delay before its retry. -/
structure Event.Retries (event : Event) (cp : Checkpoint) (now : Timestamp) : Prop where
  wakes : event.payload = .wakeup
  retrying : cp.status = .retrying
  delayed : ∃ due, cp.waitingFor = .wakeup due ∧ due ≤ now

namespace Handler

variable {flowId : FlowId} {config : Config} {now : Timestamp} {cp : Checkpoint} {prepared : Prepared}

theorem wakeup_of_prepare (h : prepare flowId .wakeup config now (some cp) = .ok prepared) :
    wakeup now cp = .ok prepared := by
  simp only [prepare, preprocess] at h
  split at h
  · exact mapError_eq_ok.1 h
  · cases h

theorem late_of_wakeup {awaited : List SessionId} {deadline : Timestamp} {id : SessionId}
    (h : wakeup now cp = .ok prepared) (wait : cp.waitingFor = .sessions awaited (some deadline))
    (unready : Checkpoint.readiness cp.sessions awaited = .waiting)
    (decided : prepared.decision = .resume (.sessionFailed id .timedOut)) :
    (cp.sessions.get? id).bind Session.next? = none := by
  obtain ⟨_, listed, late⟩ := Checkpoint.late_of_waiting unready
  obtain ⟨chosen, found⟩ := Option.isSome_iff_exists.1 (List.find?_isSome.2 ⟨_, listed, late⟩)
  simp only [wakeup, wait, found, Option.some_or] at h
  split at h
  · cases h
    cases decided
  · cases h
    cases decided
    simpa [isLate] using List.find?_some found

end Handler

namespace Plan.Opens

variable {settings : Settings} {event : Event} {cp : Checkpoint} {prepared : Prepared} {counted : Nat}

/-- An event resumes a stored flow with what its wait allows, unless it has a failed resume replayed. -/
theorem allows (opens : Opens settings event (some cp) prepared) (awaits : cp.Awaits counted)
    {value : Resumed} (decided : prepared.decision = .resume value) :
    event.Retries cp settings.now ∧ cp.pendingResume = some value ∨
      cp.waitingFor.Allows (Handler.waiting event.payload (some cp) prepared).sessions
        (counted + event.payload.confirmations) settings.now value := by
  have prepares := Handler.prepare_prepares opens.prepares
  have source := opens.prepares
  have sound := awaits.sound
  generalize payload : event.payload = given at prepares source
  cases prepares with
  | kept | early | restarted | counted | failed => cases decided
  | answered found isOpen unseen taken =>
      cases decided
      obtain ⟨awaited, deadline, _, wait, answer, _⟩ := Checkpoint.takeReady?_some taken
      have same : cp.waitingFor = .sessions awaited deadline := wait
      rw [same] at sound ⊢
      simp only [Handler.waiting, found]
      exact .inr (answer.allows sound _ _ _)
  | awake wait late first =>
      cases decided
      rw [wait]
      exact .inr (.awake late)
  | again wait late retrying pending =>
      cases decided
      exact .inl ⟨⟨payload, retrying, _, wait, late⟩, pending⟩
  | timedOut wait late listed =>
      cases decided
      have missing := Handler.late_of_wakeup (Handler.wakeup_of_prepare source) wait
        (awaits.unready _ _ wait) rfl
      rw [wait]
      exact .inr (.timedOut late listed missing)
  | confirmed wait sum enough =>
      cases decided
      rw [wait] at sound ⊢
      obtain rfl : _ = min _ maxConfirmations := sound.add sum
      exact .inr (.confirmed enough)

theorem retries (opens : Opens settings event (some cp) prepared) {args : Bytes}
    (decided : prepared.decision = .start args) : event.Retries cp settings.now := by
  have prepares := Handler.prepare_prepares opens.prepares
  generalize payload : event.payload = given at prepares
  cases prepares with
  | restarted wait late retrying => exact ⟨payload, retrying, _, wait, late⟩
  | _ => cases decided

theorem awaits {found : Option Checkpoint} (opens : Opens settings event found prepared)
    (awaits : ∀ cp, found = some cp → cp.Awaits counted) (decided : prepared.decision = .skip) :
    prepared.draft.checkpoint.Awaits (counted + event.payload.confirmations) := by
  have prepares := Handler.prepare_prepares opens.prepares
  generalize event.payload = payload at prepares
  cases prepares with
  | started | answered | awake | again | restarted | timedOut | confirmed => cases decided
  | kept found isOpen unseen unready =>
      exact ⟨(awaits _ rfl).sound, Checkpoint.unready_iff_waiting.1 unready⟩
  | early => exact awaits _ rfl
  | counted wait sum few =>
      have sound := (awaits _ rfl).sound
      rw [wait] at sound
      exact ⟨sound.add sum, fun _ _ impossible => by cases impossible⟩
  | failed failed =>
      obtain ⟨_, _, _, rest⟩ := Draft.fail_ok failed
      rw [rest]
      exact ⟨trivial, fun _ _ impossible => by cases impossible⟩

end Plan.Opens

end DurableFlow
