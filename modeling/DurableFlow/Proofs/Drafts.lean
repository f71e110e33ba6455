import DurableFlow.Outcome
import DurableFlow.Proofs.Answers
import DurableFlow.Proofs.Stateful

/-! # What the work on a draft changes

Sending, opening, closing and giving up sessions touch nothing of a checkpoint but its sessions, and
nothing of a session that concerns what it receives: `SessionWork`. Every way an outcome is applied
is such work followed by an update of named fields; `park_ok`, `complete_ok`, `retry_ok` and
`fail_ok` say which. The theorems about flows start from these and never unfold the operations.
-/

namespace DurableFlow

open Stateful

/-- A session after some sending or after its end: what it receives is as before. -/
structure Session.Served (before after : Session) : Prop where
  counterparty : after.counterparty = before.counterparty
  nextReceive : after.nextReceive = before.nextReceive
  pending : after.pending = before.pending
  nextSend : before.nextSend ≤ after.nextSend

namespace Session.Served

theorem refl (session : Session) : session.Served session := ⟨rfl, rfl, rfl, Nat.le_refl _⟩

theorem trans {a b c : Session} (ab : a.Served b) (bc : b.Served c) : a.Served c :=
  ⟨bc.counterparty.trans ab.counterparty, bc.nextReceive.trans ab.nextReceive,
    bc.pending.trans ab.pending, Nat.le_trans ab.nextSend bc.nextSend⟩

end Session.Served

/-- Sessions after some work on them: none is lost, and those that are new have received nothing. -/
structure SessionsServed (before after : SortedMap SessionId Session) : Prop where
  old : ∀ id s, before.get? id = some s → ∃ s', after.get? id = some s' ∧ s.Served s'
  new : ∀ id s', before.get? id = none → after.get? id = some s' →
    (Session.new s'.counterparty).Served s'

namespace SessionsServed

theorem refl (sessions : SortedMap SessionId Session) : SessionsServed sessions sessions where
  old _ s found := ⟨s, found, .refl s⟩
  new _ _ missing found := by rw [missing] at found; cases found

theorem trans {a b c : SortedMap SessionId Session} (ab : SessionsServed a b)
    (bc : SessionsServed b c) : SessionsServed a c where
  old id s found := by
    obtain ⟨s', found', served⟩ := ab.old id s found
    obtain ⟨s'', found'', served'⟩ := bc.old id s' found'
    exact ⟨s'', found'', served.trans served'⟩
  new id s'' missing found := by
    cases middle : b.get? id with
    | none => exact bc.new id s'' middle found
    | some s' =>
        obtain ⟨_, found', served⟩ := bc.old id s' middle
        rw [found] at found'
        cases found'
        have first := ab.new id s' missing middle
        rw [served.counterparty]
        exact first.trans served

theorem insert {sessions : SortedMap SessionId Session} {id : SessionId} {s s' : Session}
    (found : sessions.get? id = some s) (served : s.Served s') :
    SessionsServed sessions (sessions.insert id s') where
  old other t foundOther := by
    by_cases same : other = id
    · subst same
      rw [found] at foundOther
      cases foundOther
      exact ⟨s', SortedMap.get?_insert_self .., served⟩
    · exact ⟨t, by rw [SortedMap.get?_insert_of_ne _ _ same, foundOther], .refl t⟩
  new other t missing foundOther := by
    have other_ne : other ≠ id := by
      rintro rfl
      rw [found] at missing
      cases missing
    rw [SortedMap.get?_insert_of_ne _ _ other_ne, missing] at foundOther
    cases foundOther

theorem insert_new {sessions : SortedMap SessionId Session} {id : SessionId}
    (missing : sessions.get? id = none) (counterparty : Identity) :
    SessionsServed sessions (sessions.insert id (.new counterparty)) where
  old other t found := by
    have other_ne : other ≠ id := by
      rintro rfl
      rw [missing] at found
      cases found
    exact ⟨t, by rw [SortedMap.get?_insert_of_ne _ _ other_ne, found], .refl t⟩
  new other t missingOther found := by
    by_cases same : other = id
    · subst same
      rw [SortedMap.get?_insert_self] at found
      cases found
      exact .refl _
    · rw [SortedMap.get?_insert_of_ne _ _ same, missingOther] at found
      cases found

end SessionsServed

/-- What identifies a checkpoint and never changes while an event is handled. -/
structure Checkpoint.SameFlow (a b : Checkpoint) : Prop where
  flowId : b.flowId = a.flowId
  owner : b.owner = a.owner
  flowName : b.flowName = a.flowName
  version : b.version = a.version
  startArgs : b.startArgs = a.startArgs
  initiatedBy : b.initiatedBy = a.initiatedBy

namespace Checkpoint.SameFlow

theorem refl (cp : Checkpoint) : cp.SameFlow cp := ⟨rfl, rfl, rfl, rfl, rfl, rfl⟩

theorem trans {a b c : Checkpoint} (ab : a.SameFlow b) (bc : b.SameFlow c) : a.SameFlow c :=
  ⟨bc.flowId.trans ab.flowId, bc.owner.trans ab.owner, bc.flowName.trans ab.flowName,
    bc.version.trans ab.version, bc.startArgs.trans ab.startArgs,
    bc.initiatedBy.trans ab.initiatedBy⟩

end Checkpoint.SameFlow

theorem Checkpoint.flowId_addSession (cp : Checkpoint) (id : SessionId) (counterparty : Identity) :
    (cp.addSession id counterparty).flowId = cp.flowId := by
  unfold Checkpoint.addSession
  split <;> rfl

/-- The value that flow logic was entered with, if it was not started. -/
def Attempt.value? : Attempt → Option Resumed
  | .start => none
  | .resume value => some value

namespace Draft

/-- Work on the sessions of a draft, which leaves the rest of the checkpoint alone. -/
structure SessionWork (a b : Draft) : Prop where
  rest : b.checkpoint = { a.checkpoint with sessions := b.checkpoint.sessions }
  sessions : SessionsServed a.checkpoint.sessions b.checkpoint.sessions

namespace SessionWork

theorem refl (draft : Draft) : draft.SessionWork draft := ⟨rfl, .refl _⟩

theorem trans {a b c : Draft} (ab : a.SessionWork b) (bc : b.SessionWork c) : a.SessionWork c :=
  ⟨by rw [bc.rest, ab.rest], ab.sessions.trans bc.sessions⟩

end SessionWork

theorem setStatus_ok {draft next : Draft} {status : Status} :
    draft.setStatus status = .ok next ↔
      draft.checkpoint.status.canMoveTo status ∧
        next = { draft with checkpoint := { draft.checkpoint with status } } := by
  simp only [setStatus, Checkpoint.setStatus, bind_eq_ok, mapError_eq_ok, pure_eq_ok]
  by_cases moves : draft.checkpoint.status.canMoveTo status
  · simp [moves, eq_comm]
  · simp [moves]

theorem session_ok {draft : Draft} {id : SessionId} {s : Session} :
    draft.session id = .ok s ↔ draft.checkpoint.sessions.get? id = some s := by
  simp only [session, Checkpoint.session, mapError_eq_ok]
  split <;> simp_all

/-- An operation that puts another state of a session in place of one that is known. -/
def Replaces (f : Draft → Except OutcomeError Draft) (id : SessionId)
    (change : Session → Session) : Prop :=
  ∀ draft next, f draft = .ok next → ∃ s, draft.checkpoint.sessions.get? id = some s ∧
    next.checkpoint = draft.checkpoint.putSession id (change s)

theorem Replaces.work {f : Draft → Except OutcomeError Draft} {id : SessionId}
    {change : Session → Session} (replaces : Replaces f id change)
    (served : ∀ s : Session, s.Served (change s)) {draft next : Draft} (h : f draft = .ok next) :
    draft.SessionWork next := by
  obtain ⟨s, found, same⟩ := replaces draft next h
  refine ⟨by rw [same]; rfl, ?_⟩
  rw [same]
  exact .insert found (served s)

/-- A session of which this flow has sent the last item. -/
def closed (s : Session) : Session := { s with nextSend := s.nextSend + 1, status := .closed }

/-- A session that is given up. -/
def errored (s : Session) : Session := { s with status := .errored }

/-- A session on which one more item was sent. -/
def sent (s : Session) : Session := { s with nextSend := s.nextSend + 1 }

theorem closeSession_replaces (id : SessionId) : Replaces (·.closeSession id) id closed := by
  intro draft next h
  simp only [closeSession, bind_eq_ok, pure_eq_ok, session_ok] at h
  obtain ⟨s, found, rfl⟩ := h
  exact ⟨s, found, rfl⟩

theorem errorSession_replaces (reason : String) (id : SessionId) :
    Replaces (errorSession reason · id) id errored := by
  intro draft next h
  simp only [errorSession, bind_eq_ok, pure_eq_ok, session_ok] at h
  obtain ⟨s, found, rfl⟩ := h
  exact ⟨s, found, rfl⟩

theorem sendMessage_replaces (message : OutboundMessage) :
    Replaces (·.sendMessage message) message.sessionId sent := by
  intro draft next h
  simp only [sendMessage, bind_eq_ok, pure_eq_ok, session_ok] at h
  obtain ⟨s, found, rfl⟩ := h
  exact ⟨s, found, rfl⟩

theorem closed_served (s : Session) : s.Served (closed s) := ⟨rfl, rfl, rfl, Nat.le_succ _⟩

theorem errored_served (s : Session) : s.Served (errored s) := ⟨rfl, rfl, rfl, Nat.le_refl _⟩

theorem sent_served (s : Session) : s.Served (sent s) := ⟨rfl, rfl, rfl, Nat.le_succ _⟩

theorem addSession_work (draft : Draft) (id : SessionId) (counterparty : Identity) :
    draft.SessionWork { draft with checkpoint := draft.checkpoint.addSession id counterparty } := by
  unfold Checkpoint.addSession
  split
  next => exact .refl draft
  next missing =>
    refine ⟨rfl, .insert_new ?_ counterparty⟩
    simpa [SortedMap.contains] using missing

theorem addSessions_work (initiated : List (SessionId × Identity)) (draft : Draft) :
    draft.SessionWork { draft with
      checkpoint := initiated.foldl (fun cp (id, counterparty) => cp.addSession id counterparty)
        draft.checkpoint } := by
  induction initiated generalizing draft with
  | nil => exact .refl draft
  | cons head rest ih => exact (addSession_work draft head.1 head.2).trans (ih _)

theorem foldlM_work {α : Type} {f : Draft → α → Except OutcomeError Draft}
    (step : ∀ draft a next, f draft a = .ok next → draft.SessionWork next) {items : List α}
    {draft next : Draft} (h : items.foldlM f draft = .ok next) : draft.SessionWork next :=
  foldlM_keeps (P := draft.SessionWork) (fun b a b' before done => before.trans (step b a b' done))
    (.refl draft) h

theorem applyEffects_work {draft next : Draft} {effects : Effects}
    (h : draft.applyEffects effects = .ok next) : draft.SessionWork next :=
  (addSessions_work effects.initiated draft).trans
    (foldlM_work (fun _ id _ => (closeSession_replaces id).work closed_served) h)

theorem isOpen_of_foldlM {f : Draft → SessionId → Except OutcomeError Draft}
    {change : Session → Session} (replaces : ∀ id, Replaces (f · id) id change)
    (ends : ∀ s, (change s).isOpen = false) {ids : List SessionId} {draft next : Draft}
    (h : ids.foldlM f draft = .ok next) {id : SessionId} {s : Session}
    (found : next.checkpoint.sessions.get? id = some s) (isOpen : s.isOpen) :
    id ∉ ids ∧ draft.checkpoint.sessions.get? id = some s := by
  induction ids generalizing draft with
  | nil =>
      cases h
      exact ⟨List.not_mem_nil, found⟩
  | cons first rest ih =>
      rw [List.foldlM_cons, bind_eq_ok] at h
      obtain ⟨middle, step, h⟩ := h
      obtain ⟨notLater, before⟩ := ih h
      obtain ⟨t, _, same⟩ := replaces first draft middle step
      rw [same, Checkpoint.putSession] at before
      by_cases here : id = first
      · subst here
        rw [SortedMap.get?_insert_self] at before
        cases before
        rw [ends t] at isOpen
        cases isOpen
      · rw [SortedMap.get?_insert_of_ne _ _ here] at before
        exact ⟨by simp [here, notLater], before⟩

theorem isOpen_eq_false_of_foldlM {f : Draft → SessionId → Except OutcomeError Draft}
    {change : Session → Session} (replaces : ∀ id, Replaces (f · id) id change)
    (ends : ∀ s, (change s).isOpen = false) {draft next : Draft}
    (h : draft.checkpoint.openSessions.foldlM f draft = .ok next) {id : SessionId} {s : Session}
    (found : next.checkpoint.sessions.get? id = some s) : s.isOpen = false := by
  refine Bool.not_eq_true _ ▸ fun isOpen => ?_
  obtain ⟨notListed, before⟩ := isOpen_of_foldlM replaces ends h found isOpen
  exact notListed (SortedMap.mem_keys_filter.2 ⟨s, before, isOpen⟩)

theorem announceEnd_ok {draft next : Draft} {status : Status} {detail : Option String}
    {config : Config} {now : Timestamp} (h : draft.announceEnd status detail config now = .ok next) :
    next.checkpoint = draft.checkpoint := by
  simp only [announceEnd, bind_eq_ok, pure_eq_ok] at h
  obtain ⟨_, _, rfl⟩ := h
  rfl

/-- A failed flow differs from the one before in its sessions, none of which is open, and in the
fields that say that it failed. -/
theorem fail_ok {draft next : Draft} {reason : String} {config : Config} {now : Timestamp}
    (h : draft.fail reason config now = .ok next) :
    ∃ sessions, SessionsServed draft.checkpoint.sessions sessions ∧
      (∀ id s, sessions.get? id = some s → s.isOpen = false) ∧
      next.checkpoint = { draft.checkpoint with
        status := .failed
        sessions
        waitingFor := .nothing
        pendingResume := none
        lastFailureReason := some reason } := by
  simp only [fail, bind_eq_ok] at h
  obtain ⟨failed, moved, given, erred, announced⟩ := h
  obtain ⟨_, rfl⟩ := setStatus_ok.1 moved
  have work := foldlM_work (fun _ id _ => (errorSession_replaces reason id).work errored_served) erred
  refine ⟨given.checkpoint.sessions, work.sessions, fun id s found => ?_, ?_⟩
  · exact isOpen_eq_false_of_foldlM (errorSession_replaces reason) (fun _ => rfl) erred found
  · rw [announceEnd_ok announced, work.rest]

/-- A completed flow differs from the one before in its sessions, none of which is open, and in the
fields that say that it completed. -/
theorem complete_ok {draft next : Draft} {output : Bytes} {effects : Effects} {config : Config}
    {now : Timestamp} (h : draft.complete output effects config now = .ok next) :
    ∃ sessions, SessionsServed draft.checkpoint.sessions sessions ∧
      (∀ id s, sessions.get? id = some s → s.isOpen = false) ∧
      next.checkpoint = { draft.checkpoint with
        status := .completed
        sessions
        result := some output
        waitingFor := .nothing
        pendingResume := none } := by
  simp only [complete, bind_eq_ok] at h
  obtain ⟨worked, applied, shut, closings, done, moved, announced⟩ := h
  obtain ⟨_, rfl⟩ := setStatus_ok.1 moved
  have work := (applyEffects_work applied).trans
    (foldlM_work (fun _ id _ => (closeSession_replaces id).work closed_served) closings)
  refine ⟨shut.checkpoint.sessions, work.sessions, fun id s found => ?_, ?_⟩
  · exact isOpen_eq_false_of_foldlM closeSession_replaces (fun _ => rfl) closings found
  · rw [announceEnd_ok announced, work.rest]

theorem retry_ok {draft next : Draft} {error : FlowError} {attempt : Attempt} {config : Config}
    {now : Timestamp} (h : draft.retry error attempt config now = .ok next) :
    ∃ due, next.checkpoint = { draft.checkpoint with
      status := .retrying
      retryCount := draft.checkpoint.retryCount + 1
      lastFailureReason := some error.message
      pendingResume := attempt.value?
      waitingFor := .wakeup due } := by
  simp only [retry, bind_eq_ok, pure_eq_ok] at h
  obtain ⟨moving, moved, due, _, rfl⟩ := h
  obtain ⟨_, rfl⟩ := setStatus_ok.1 moved
  cases attempt with
  | start => exact ⟨due, rfl⟩
  | resume value => exact ⟨due, rfl⟩

end Draft

/-- The kind of value that ends a wait. -/
def Wait.answer? : Wait → Option SuspensionKind
  | .sessions _ _ => some .messages
  | .wakeup _ => some .wakeup
  | .confirmations _ _ => some .confirmations
  | .start => none
  | .nothing => none

namespace Draft

theorem beginWait_ok {draft next : Draft} {wait : Wait} {request : Request}
    {deadline : Option Timestamp} {now : Timestamp}
    (h : draft.beginWait request deadline now = .ok (next, wait)) :
    draft.SessionWork next ∧ wait.answer? = some request.expects := by
  have sending {messages : List OutboundMessage} {sent : Draft}
      (h : messages.foldlM sendMessage draft = .ok sent) : draft.SessionWork sent :=
    foldlM_work (fun _ message _ => (sendMessage_replaces message).work sent_served) h
  cases request with
  | send messages =>
      simp only [beginWait, bind_eq_ok, pure_eq_ok] at h
      obtain ⟨sent, done, h⟩ := h
      cases h
      exact ⟨sending done, rfl⟩
  | sendAndReceive messages receiveFrom =>
      simp only [beginWait, bind_eq_ok, pure_eq_ok] at h
      obtain ⟨sent, done, h⟩ := h
      cases h
      exact ⟨sending done, rfl⟩
  | receive | sleep | waitForConfirmations | forceCheckpoint =>
      cases h
      exact ⟨.refl draft, rfl⟩

/-- The draft of a flow that has just begun to wait, before its wait is looked at. -/
structure Parks (draft : Draft) (request : Request) (continuation : Bytes) (parked : Draft) :
    Prop where
  sessions : SessionsServed draft.checkpoint.sessions parked.checkpoint.sessions
  rest : parked.checkpoint = { draft.checkpoint with
    status := .suspended
    sessions := parked.checkpoint.sessions
    continuation := some continuation
    waitingFor := parked.checkpoint.waitingFor
    retryCount := 0
    lastFailureReason := none
    pendingResume := none }
  answer : parked.checkpoint.waitingFor.answer? = some request.expects

/-- Suspend the flow on a request, without a look at the wait that begins. -/
def park (draft : Draft) (request : Request) (config : Config) (now : Timestamp) :
    Except OutcomeError Draft := do
  let deadline ← (config.deadline now).mapError OutcomeError.time
  let (draft, wait) ← draft.beginWait request deadline now
  let draft := { draft with checkpoint := { draft.checkpoint with waitingFor := wait } }
  let draft := match wait.alarm? with
    | some due => draft.emit (.scheduleWakeup draft.checkpoint.flowId due)
    | none => draft
  draft.setStatus .suspended

theorem park_ok {draft parked : Draft} {request : Request} {config : Config} {now : Timestamp}
    (h : draft.park request config now = .ok parked) :
    SessionsServed draft.checkpoint.sessions parked.checkpoint.sessions ∧
      parked.checkpoint.waitingFor.answer? = some request.expects ∧
      parked.checkpoint = { draft.checkpoint with
        status := .suspended
        sessions := parked.checkpoint.sessions
        waitingFor := parked.checkpoint.waitingFor } := by
  simp only [park, bind_eq_ok] at h
  obtain ⟨deadline, _, ⟨worked, wait⟩, began, moved⟩ := h
  obtain ⟨work, answer⟩ := beginWait_ok began
  obtain ⟨_, rfl⟩ := setStatus_ok.1 moved
  refine ⟨?_, ?_, ?_⟩
  all_goals cases alarm : wait.alarm? <;> simp only [emit]
  · exact work.sessions
  · exact work.sessions
  · exact answer
  · exact answer
  · rw [work.rest]
  · rw [work.rest]

theorem suspend_eq_ok {draft : Draft} {request : Request} {config : Config} {now : Timestamp}
    {result : Draft × Next} : draft.suspend request config now = .ok result ↔
      ∃ parked, draft.park request config now = .ok parked ∧ parked.answerWait = result := by
  simp only [suspend, park, bind_eq_ok, pure_eq_ok]
  constructor
  · rintro ⟨deadline, timed, began, begins, parked, moved, same⟩
    exact ⟨parked, ⟨deadline, timed, began, begins, moved⟩, same⟩
  · rintro ⟨parked, ⟨deadline, timed, began, begins, moved⟩, same⟩
    exact ⟨deadline, timed, began, begins, parked, moved, same⟩

/-- The ways in which an outcome is written into a draft. -/
inductive Applied (draft : Draft) (attempt : Attempt) : FiberOutcome → Draft × Next → Prop where
  | suspended {request : Request} {continuation : Bytes} {parked : Draft}
      (parks : draft.Parks request continuation parked) :
      Applied draft attempt (.suspended request continuation) parked.answerWait
  | completed {output : Bytes} {after : Draft} {sessions : SortedMap SessionId Session}
      (served : SessionsServed draft.checkpoint.sessions sessions)
      (finished : ∀ id s, sessions.get? id = some s → s.isOpen = false)
      (rest : after.checkpoint = { draft.checkpoint with
        status := .completed
        sessions
        result := some output
        waitingFor := .nothing
        pendingResume := none }) :
      Applied draft attempt (.completed output) (after, .done)
  | retried {error : FlowError} {after : Draft} {due : Timestamp} (retryable : error.isRetryable)
      (rest : after.checkpoint = { draft.checkpoint with
        status := .retrying
        retryCount := draft.checkpoint.retryCount + 1
        lastFailureReason := some error.message
        pendingResume := attempt.value?
        waitingFor := .wakeup due }) :
      Applied draft attempt (.failed error) (after, .done)
  | failed {error : FlowError} {after : Draft} {sessions : SortedMap SessionId Session}
      (served : SessionsServed draft.checkpoint.sessions sessions)
      (finished : ∀ id s, sessions.get? id = some s → s.isOpen = false)
      (rest : after.checkpoint = { draft.checkpoint with
        status := .failed
        sessions
        waitingFor := .nothing
        pendingResume := none
        lastFailureReason := some error.message }) :
      Applied draft attempt (.failed error) (after, .done)

theorem applyOutcome_ok {draft : Draft} {outcome : FiberOutcome} {effects : Effects}
    {attempt : Attempt} {config : Config} {now : Timestamp} {result : Draft × Next}
    (h : draft.applyOutcome outcome effects attempt config now = .ok result) :
    draft.Applied attempt outcome result := by
  cases outcome with
  | suspended request continuation =>
      simp only [applyOutcome, bind_eq_ok] at h
      obtain ⟨worked, applied, h⟩ := h
      obtain ⟨parked, parks, rfl⟩ := suspend_eq_ok.1 h
      obtain ⟨served, answer, rest⟩ := park_ok parks
      have work := applyEffects_work applied
      exact .suspended ⟨work.sessions.trans served, by rw [rest, work.rest], answer⟩
  | completed output =>
      simp only [applyOutcome, bind_eq_ok, pure_eq_ok] at h
      obtain ⟨after, completed, rfl⟩ := h
      obtain ⟨sessions, served, finished, rest⟩ := complete_ok completed
      exact .completed served finished rest
  | failed error =>
      simp only [applyOutcome] at h
      split at h
      next again =>
        simp only [bind_eq_ok, pure_eq_ok] at h
        obtain ⟨after, retried, rfl⟩ := h
        obtain ⟨due, rest⟩ := retry_ok retried
        exact .retried again.1 rest
      next =>
        simp only [bind_eq_ok, pure_eq_ok] at h
        obtain ⟨after, failed, rfl⟩ := h
        obtain ⟨sessions, served, finished, rest⟩ := fail_ok failed
        exact .failed served finished rest

/-- Only a flow that has just been parked is resumed in place. -/
theorem Applied.of_resume {draft taken : Draft} {attempt : Attempt} {outcome : FiberOutcome}
    {value : Resumed} (applied : draft.Applied attempt outcome (taken, .resume value)) :
    ∃ request continuation parked, outcome = .suspended request continuation ∧
      draft.Parks request continuation parked ∧ parked.answerWait = (taken, .resume value) := by
  generalize result : (taken, Next.resume value) = r at applied
  cases applied with
  | suspended parks => exact ⟨_, _, _, rfl, parks, rfl⟩
  | completed | retried | failed => cases result

/-- What ends a wait, and the sessions after that. -/
inductive Answered (cp : Checkpoint) : Resumed → SortedMap SessionId Session → Prop where
  | confirmed {required received : Nat} (wait : cp.waitingFor = .confirmations required received) :
      Answered cp (.confirmed received) cp.sessions
  | taken {awaited : List SessionId} {deadline : Option Timestamp} {value : Resumed}
      {sessions : SortedMap SessionId Session} (wait : cp.waitingFor = .sessions awaited deadline)
      (answer : Checkpoint.Answer cp.sessions awaited value sessions) : Answered cp value sessions

theorem Answered.answer?_eq {cp : Checkpoint} {value : Resumed}
    {sessions : SortedMap SessionId Session} (answered : Answered cp value sessions) :
    cp.waitingFor.answer? = some value.kind := by
  cases answered with
  | confirmed wait => rw [wait]; rfl
  | taken wait answer => rw [wait, answer.kind_eq]; rfl

theorem answerWait_cases (parked : Draft) :
    parked.answerWait = (parked, .done) ∨
      ∃ value sessions, Answered parked.checkpoint value sessions ∧
        parked.answerWait =
          ({ parked with checkpoint := { parked.checkpoint with sessions } }, .resume value) := by
  unfold answerWait
  cases wait : parked.checkpoint.waitingFor with
  | confirmations required received =>
      by_cases enough : required ≤ received
      · exact .inr ⟨_, parked.checkpoint.sessions, .confirmed wait, by simp [enough]⟩
      · exact .inl (by simp [enough, Checkpoint.takeReady, wait])
  | sessions awaited deadline =>
      rcases ended : parked.checkpoint.takeReady with ⟨_ | value, after⟩
      · cases Checkpoint.takeReady_unready ended
        exact .inl rfl
      · obtain ⟨_, _, sessions, wait, given, rfl⟩ :=
          Checkpoint.takeReady?_some (Checkpoint.takeReady?_eq_some_iff.2 ended)
        exact .inr ⟨value, sessions, .taken wait given, rfl⟩
  | start | wakeup | nothing => exact .inl (by simp [Checkpoint.takeReady, wait])

theorem eq_of_answerWait_done {parked after : Draft} (h : parked.answerWait = (after, .done)) :
    after = parked := by
  rcases answerWait_cases parked with done | ⟨_, _, _, ended⟩
  · rw [done] at h
    cases h
    rfl
  · rw [ended] at h
    cases h

theorem answered_of_answerWait {parked taken : Draft} {value : Resumed}
    (h : parked.answerWait = (taken, .resume value)) :
    ∃ sessions, Answered parked.checkpoint value sessions ∧
      taken = { parked with checkpoint := { parked.checkpoint with sessions } } := by
  rcases answerWait_cases parked with done | ⟨_, sessions, answered, ended⟩
  · rw [done] at h
    cases h
  · rw [ended] at h
    cases h
    exact ⟨sessions, answered, rfl⟩

theorem Applied.sameFlow {draft : Draft} {attempt : Attempt} {outcome : FiberOutcome}
    {result : Draft × Next} (applied : draft.Applied attempt outcome result) :
    draft.checkpoint.SameFlow result.1.checkpoint := by
  cases applied with
  | @suspended request continuation parked parks =>
      have same : draft.checkpoint.SameFlow parked.checkpoint := by
        rw [parks.rest]
        exact ⟨rfl, rfl, rfl, rfl, rfl, rfl⟩
      rcases answerWait_cases parked with done | ⟨_, _, _, ended⟩
      · rw [done]
        exact same
      · rw [ended]
        exact same.trans ⟨rfl, rfl, rfl, rfl, rfl, rfl⟩
  | completed _ _ rest | retried _ rest | failed _ _ rest =>
      rw [rest]
      exact ⟨rfl, rfl, rfl, rfl, rfl, rfl⟩

theorem Applied.of_failed {draft after : Draft} {attempt : Attempt} {error : FlowError} {next : Next}
    (applied : draft.Applied attempt (.failed error) (after, next)) :
    next = .done ∧ after.checkpoint.continuation = draft.checkpoint.continuation := by
  cases applied with
  | retried _ rest | failed _ _ rest => exact ⟨rfl, by rw [rest]⟩

/-- A flow that waits for its retry keeps what its logic was entered with. -/
theorem Applied.of_retrying {draft after : Draft} {attempt : Attempt} {outcome : FiberOutcome}
    (applied : draft.Applied attempt outcome (after, .done))
    (retrying : after.checkpoint.status = .retrying) :
    after.checkpoint.pendingResume = attempt.value? ∧
      after.checkpoint.continuation = draft.checkpoint.continuation := by
  generalize result : (after, Next.done) = r at applied
  cases applied with
  | suspended parks =>
      cases eq_of_answerWait_done result.symm
      rw [parks.rest] at retrying
      cases retrying
  | completed _ _ rest | failed _ _ rest =>
      cases result
      rw [rest] at retrying
      cases retrying
  | retried _ rest =>
      cases result
      rw [rest]
      exact ⟨rfl, rfl⟩

end Draft

end DurableFlow
