import DurableFlow.Proofs.Turns

/-! # What an outcome does on sessions

Writing an outcome into a draft comes down to single acts on its sessions, in an order that the
effects and the request give: `Draft.Performs`. Between the acts only records are added that concern
no session, and only fields change that are not sessions. What every act keeps is kept by an outcome,
`Draft.Does.keeps`, up to the items that a wait takes off the sessions when it is over at once.
-/

namespace DurableFlow

open Stateful

/-- The session that a record is about. -/
def Record.session? : Record → Option SessionId
  | .sessionData _ id _ _ _ => some id
  | .sessionClose _ id _ _ => some id
  | .sessionAck _ id _ => some id
  | .sessionError _ id _ _ => some id
  | .scheduleWakeup _ _ => none
  | .flowStatus _ _ _ => none
  | .scheduleCleanup _ _ => none

/-- Something that is done on a session of a draft. -/
inductive SessionAct where
  | add (id : SessionId) (counterparty : Identity)
  | close (id : SessionId)
  | send (message : OutboundMessage)
  | giveUp (reason : String) (id : SessionId)

/-- What effects do on sessions. -/
def Effects.acts (effects : Effects) : List SessionAct :=
  (effects.initiated.map fun (id, counterparty) => .add id counterparty) ++ effects.closed.map .close

/-- The messages that a request sends. -/
def Request.messages : Request → List OutboundMessage
  | .send messages => messages
  | .sendAndReceive messages _ => messages
  | .receive _ => []
  | .sleep _ => []
  | .waitForConfirmations _ => []
  | .forceCheckpoint => []

/-- What a flow waits for that has suspended on a request. -/
def Request.wait (deadline : Option Timestamp) (now : Timestamp) : Request → Wait
  | .send _ => .wakeup now
  | .sendAndReceive _ receiveFrom => .sessions receiveFrom deadline
  | .receive sessions => .sessions sessions deadline
  | .sleep wakeAt => .wakeup wakeAt
  | .waitForConfirmations required => .confirmations required 0
  | .forceCheckpoint => .wakeup now

namespace Draft

def perform (draft : Draft) : SessionAct → Except OutcomeError Draft
  | .add id counterparty =>
    .ok { draft with checkpoint := draft.checkpoint.addSession id counterparty }
  | .close id => draft.closeSession id
  | .send message => draft.sendMessage message
  | .giveUp reason id => draft.errorSession reason id

theorem applyEffects_eq (draft : Draft) (effects : Effects) :
    draft.applyEffects effects = effects.acts.foldlM perform draft := by
  rw [applyEffects, Effects.acts, List.foldlM_append]
  have added (initiated : List (SessionId × Identity)) (draft : Draft) :
      (initiated.map fun (id, counterparty) => SessionAct.add id counterparty).foldlM perform draft =
        .ok { draft with
          checkpoint := initiated.foldl (fun cp (id, counterparty) => cp.addSession id counterparty)
            draft.checkpoint } := by
    induction initiated generalizing draft with
    | nil => rfl
    | cons head rest ih => exact ih _
  have closed (draft : Draft) :
      (effects.closed.map .close).foldlM perform draft = effects.closed.foldlM closeSession draft :=
    List.foldlM_map
  rw [added]
  exact (closed _).symm

theorem beginWait_eq (draft : Draft) (request : Request) (deadline : Option Timestamp)
    (now : Timestamp) : draft.beginWait request deadline now =
      ((request.messages.map .send).foldlM perform draft).map
        fun sent => (sent, request.wait deadline now) := by
  rw [List.foldlM_map]
  cases request with
  | send messages | sendAndReceive messages receiveFrom =>
      simp only [beginWait, Request.messages, perform]
      cases messages.foldlM sendMessage draft <;> rfl
  | receive | sleep | waitForConfirmations | forceCheckpoint => rfl

/-- A change of a draft that concerns no session. -/
structure Tends (before after : Draft) : Prop where
  flowId : after.checkpoint.flowId = before.checkpoint.flowId
  sessions : after.checkpoint.sessions = before.checkpoint.sessions
  records : ∃ more, after.records = before.records ++ more ∧ ∀ record ∈ more, record.session? = none

namespace Tends

theorem of_checkpoint {draft : Draft} {cp : Checkpoint} (flowId : cp.flowId = draft.checkpoint.flowId)
    (sessions : cp.sessions = draft.checkpoint.sessions) :
    draft.Tends { draft with checkpoint := cp } :=
  ⟨flowId, sessions, [], by simp, by simp⟩

theorem emit (draft : Draft) {record : Record} (apart : record.session? = none) :
    draft.Tends (draft.emit record) :=
  ⟨rfl, rfl, [record], rfl, by simp [apart]⟩

theorem setStatus {draft next : Draft} {status : Status} (h : draft.setStatus status = .ok next) :
    draft.Tends next := by
  obtain ⟨_, rfl⟩ := setStatus_ok.1 h
  exact of_checkpoint rfl rfl

theorem trans {a b c : Draft} (ab : a.Tends b) (bc : b.Tends c) : a.Tends c := by
  obtain ⟨first, recordsB, apart⟩ := ab.records
  obtain ⟨second, recordsC, apart'⟩ := bc.records
  refine ⟨bc.flowId.trans ab.flowId, bc.sessions.trans ab.sessions, first ++ second, ?_, ?_⟩
  · rw [recordsC, recordsB, List.append_assoc]
  · exact fun record member => (List.mem_append.1 member).elim (apart record) (apart' record)

end Tends

/-- Acts one after the other, with changes in between that concern no session. -/
inductive Does : List SessionAct → Draft → Draft → Prop where
  | nil {draft : Draft} : Does [] draft draft
  | act {act : SessionAct} {acts : List SessionAct} {draft next after : Draft}
      (performed : draft.perform act = .ok next) (rest : Does acts next after) :
      Does (act :: acts) draft after
  | tend {acts : List SessionAct} {draft next after : Draft} (tends : draft.Tends next)
      (rest : Does acts next after) : Does acts draft after

namespace Does

theorem trans {first second : List SessionAct} {a b c : Draft} (ab : Does first a b)
    (bc : Does second b c) : Does (first ++ second) a c := by
  induction ab with
  | nil => exact bc
  | act performed _ ih => exact .act performed (ih bc)
  | tend tends _ ih => exact .tend tends (ih bc)

theorem then_tend {acts : List SessionAct} {a b c : Draft} (ab : Does acts a b) (bc : b.Tends c) :
    Does acts a c := by
  have both := ab.trans (.tend bc .nil)
  rwa [List.append_nil] at both

theorem of_foldlM {acts : List SessionAct} {draft after : Draft}
    (h : acts.foldlM perform draft = .ok after) : Does acts draft after := by
  induction acts generalizing draft with
  | nil =>
      cases h
      exact .nil
  | cons first rest ih =>
      rw [List.foldlM_cons, bind_eq_ok] at h
      obtain ⟨next, performed, h⟩ := h
      exact .act performed (ih h)

/-- What every act and every other change relates, a whole list of acts relates. -/
theorem keeps {R : Draft → Draft → Prop} (refl : ∀ draft, R draft draft)
    (trans : ∀ a b c, R a b → R b c → R a c)
    (act : ∀ draft act next, draft.perform act = .ok next → R draft next)
    (tend : ∀ draft next, draft.Tends next → R draft next)
    {acts : List SessionAct} {draft after : Draft} (does : Does acts draft after) : R draft after := by
  induction does with
  | nil => exact refl _
  | act performed _ ih => exact trans _ _ _ (act _ _ _ performed) ih
  | tend tends _ ih => exact trans _ _ _ (tend _ _ tends) ih

end Does

theorem announceEnd_tends {draft next : Draft} {status : Status} {detail : Option String}
    {config : Config} {now : Timestamp} (h : draft.announceEnd status detail config now = .ok next) :
    draft.Tends next := by
  simp only [announceEnd, bind_eq_ok, pure_eq_ok] at h
  obtain ⟨_, _, rfl⟩ := h
  exact ⟨rfl, rfl, [_, _], List.append_assoc _ [_] [_], by simp [Record.session?]⟩

theorem fail_does {draft next : Draft} {reason : String} {config : Config} {now : Timestamp}
    (h : draft.fail reason config now = .ok next) :
    Does (draft.checkpoint.openSessions.map (.giveUp reason)) draft next := by
  simp only [fail, bind_eq_ok] at h
  obtain ⟨failed, moved, given, erred, announced⟩ := h
  have tends := Tends.setStatus moved
  have same : failed.checkpoint.openSessions = draft.checkpoint.openSessions := by
    rw [Checkpoint.openSessions, tends.sessions]
    rfl
  rw [same] at erred
  have drops : Does (draft.checkpoint.openSessions.map (.giveUp reason)) failed given :=
    .of_foldlM (by rw [List.foldlM_map]; exact erred)
  refine .tend tends (drops.then_tend (.trans ?_ (announceEnd_tends announced)))
  exact .of_checkpoint rfl rfl

/-- What an outcome does on the sessions of a draft. -/
inductive Performs (draft : Draft) (effects : Effects) : FiberOutcome → Draft × Next → Prop where
  | suspended {request : Request} {continuation : Bytes} {parked : Draft}
      (does : Does (effects.acts ++ request.messages.map .send) draft parked)
      (status : parked.checkpoint.status = .suspended) :
      Performs draft effects (.suspended request continuation) parked.answerWait
  | completed {output : Bytes} {middle after : Draft} (works : Does effects.acts draft middle)
      (closes : Does (middle.checkpoint.openSessions.map .close) middle after) :
      Performs draft effects (.completed output) (after, .done)
  | retried {error : FlowError} {after : Draft} (does : Does [] draft after) :
      Performs draft effects (.failed error) (after, .done)
  | failed {error : FlowError} {after : Draft}
      (does : Does (draft.checkpoint.openSessions.map (.giveUp error.message)) draft after) :
      Performs draft effects (.failed error) (after, .done)

theorem park_does {draft parked : Draft} {request : Request} {config : Config} {now : Timestamp}
    (h : draft.park request config now = .ok parked) :
    Does (request.messages.map .send) draft parked ∧ parked.checkpoint.status = .suspended := by
  simp only [park, bind_eq_ok, beginWait_eq] at h
  obtain ⟨deadline, _, began, sending, moved⟩ := h
  obtain ⟨sent, sends, rfl⟩ := map_eq_ok.1 sending
  have tends := Tends.setStatus moved
  obtain ⟨_, rfl⟩ := setStatus_ok.1 moved
  have waits : Does (request.messages.map .send) draft
      { sent with checkpoint := { sent.checkpoint with waitingFor := request.wait deadline now } } :=
    (Does.of_foldlM sends).then_tend (.of_checkpoint rfl rfl)
  refine ⟨?_, rfl⟩
  cases alarm : (request.wait deadline now).alarm? with
  | none =>
      simp only [alarm] at tends ⊢
      exact waits.then_tend tends
  | some due =>
      simp only [alarm] at tends ⊢
      exact (waits.then_tend (.emit _ rfl)).then_tend tends

theorem complete_does {draft next : Draft} {output : Bytes} {effects : Effects} {config : Config}
    {now : Timestamp} (h : draft.complete output effects config now = .ok next) :
    ∃ middle, Does effects.acts draft middle ∧
      Does (middle.checkpoint.openSessions.map .close) middle next := by
  simp only [complete, bind_eq_ok, applyEffects_eq] at h
  obtain ⟨middle, applied, shut, closings, completed, moved, announced⟩ := h
  have closes : Does (middle.checkpoint.openSessions.map .close) middle shut :=
    .of_foldlM (by rw [List.foldlM_map]; exact closings)
  refine ⟨middle, .of_foldlM applied, closes.then_tend (.trans (.setStatus moved) ?_)⟩
  refine .trans ?_ (announceEnd_tends announced)
  exact .of_checkpoint rfl rfl

theorem retry_does {draft next : Draft} {error : FlowError} {attempt : Attempt} {config : Config}
    {now : Timestamp} (h : draft.retry error attempt config now = .ok next) : Does [] draft next := by
  simp only [retry, bind_eq_ok, pure_eq_ok] at h
  obtain ⟨moving, moved, due, _, rfl⟩ := h
  refine .tend (.trans (.setStatus moved) (.trans ?_ (.trans (.emit _ rfl) (.emit _ rfl)))) .nil
  exact .of_checkpoint rfl rfl

theorem applyOutcome_performs {draft : Draft} {outcome : FiberOutcome} {effects : Effects}
    {attempt : Attempt} {config : Config} {now : Timestamp} {result : Draft × Next}
    (h : draft.applyOutcome outcome effects attempt config now = .ok result) :
    draft.Performs effects outcome result := by
  cases outcome with
  | suspended request continuation =>
      simp only [applyOutcome, bind_eq_ok, applyEffects_eq] at h
      obtain ⟨worked, applied, h⟩ := h
      obtain ⟨parked, parks, rfl⟩ := suspend_eq_ok.1 h
      obtain ⟨sends, status⟩ := park_does parks
      refine .suspended ((Does.of_foldlM applied).trans (.tend ?_ sends)) status
      exact .of_checkpoint rfl rfl
  | completed output =>
      simp only [applyOutcome, bind_eq_ok, pure_eq_ok] at h
      obtain ⟨after, completes, rfl⟩ := h
      obtain ⟨middle, works, closes⟩ := complete_does completes
      exact .completed works closes
  | failed error =>
      simp only [applyOutcome] at h
      split at h
      · simp only [bind_eq_ok, pure_eq_ok] at h
        obtain ⟨after, retries, rfl⟩ := h
        exact .retried (retry_does retries)
      · simp only [bind_eq_ok, pure_eq_ok] at h
        obtain ⟨after, fails, rfl⟩ := h
        exact .failed (fail_does fails)

end Draft

/-- Sessions after items were kept on them or taken off them: none is lost, gained or opened again,
and neither what they send nor with whom they are is touched. -/
structure SessionsReceived (before after : SortedMap SessionId Session) : Prop where
  old : ∀ id s, before.get? id = some s →
    ∃ s', after.get? id = some s' ∧ s'.nextSend = s.nextSend ∧ (s'.isOpen → s.isOpen)
  new : ∀ id, before.get? id = none → after.get? id = none
  counterparty : ∀ id s s', before.get? id = some s → after.get? id = some s' →
    s'.counterparty = s.counterparty

namespace SessionsReceived

theorem refl (sessions : SortedMap SessionId Session) : SessionsReceived sessions sessions :=
  ⟨fun _ s found => ⟨s, found, rfl, fun isOpen => isOpen⟩, fun _ missing => missing,
    fun _ _ _ found found' => by rw [Option.some.inj (found.symm.trans found')]⟩

theorem trans {a b c : SortedMap SessionId Session} (ab : SessionsReceived a b)
    (bc : SessionsReceived b c) : SessionsReceived a c where
  old id s found := by
    obtain ⟨s', found', sends, opens⟩ := ab.old id s found
    obtain ⟨s'', found'', sends', opens'⟩ := bc.old id s' found'
    exact ⟨s'', found'', sends'.trans sends, fun isOpen => opens (opens' isOpen)⟩
  new id missing := bc.new id (ab.new id missing)
  counterparty id s s'' found found'' := by
    obtain ⟨s', found', _⟩ := ab.old id s found
    exact (bc.counterparty id s' s'' found' found'').trans (ab.counterparty id s s' found found')

theorem insert {sessions : SortedMap SessionId Session} {id : SessionId} {s s' : Session}
    (found : sessions.get? id = some s) (sends : s'.nextSend = s.nextSend)
    (opens : s'.isOpen → s.isOpen) (counterparty : s'.counterparty = s.counterparty) :
    SessionsReceived sessions (sessions.insert id s') where
  old other t known := by
    by_cases here : other = id
    · subst here
      rw [found] at known
      cases known
      exact ⟨s', SortedMap.get?_insert_self .., sends, opens⟩
    · exact ⟨t, by rw [SortedMap.get?_insert_of_ne _ _ here, known], rfl, fun isOpen => isOpen⟩
  new other missing := by
    have differs : other ≠ id := by
      rintro rfl
      rw [found] at missing
      cases missing
    rw [SortedMap.get?_insert_of_ne _ _ differs, missing]
  counterparty other t t' known known' := by
    by_cases here : other = id
    · subst here
      rw [SortedMap.get?_insert_self] at known'
      cases known'
      cases found.symm.trans known
      exact counterparty
    · rw [SortedMap.get?_insert_of_ne _ _ here] at known'
      cases known.symm.trans known'
      rfl

variable {sessions after : SortedMap SessionId Session}

theorem consume (sessions : SortedMap SessionId Session) (id : SessionId) :
    SessionsReceived sessions (Checkpoint.consume sessions id).2 := by
  cases arrived : (Intake.find sessions id).head? with
  | none =>
      rw [Checkpoint.consume_of_stalled arrived]
      exact .refl sessions
  | some item =>
      obtain ⟨session, found, _, consumed⟩ := Checkpoint.consume_of_head? arrived
      rw [consumed]
      refine .insert found rfl (fun isOpen => ?_) rfl
      cases item with
      | data payload => exact isOpen
      | close => simp [Session.taken, Session.isOpen] at isOpen

theorem collect (sessions : SortedMap SessionId Session) (messages : Messages)
    (ids : List SessionId) : SessionsReceived sessions (Checkpoint.collect sessions messages ids).2 := by
  induction ids generalizing sessions messages with
  | nil => exact .refl sessions
  | cons id rest ih =>
      rw [Checkpoint.collect_cons]
      exact (consume sessions id).trans (ih _ _)

theorem of_answer {awaited : List SessionId} {value : Resumed}
    (answer : Checkpoint.Answer sessions awaited value after) : SessionsReceived sessions after := by
  cases answer with
  | ended listed found finished => exact .refl sessions
  | closed listed canDeliver closing => exact consume sessions _
  | received canDeliver data => exact collect sessions _ _

theorem of_answered {cp : Checkpoint} {value : Resumed} (answered : Draft.Answered cp value after) :
    SessionsReceived cp.sessions after := by
  cases answered with
  | confirmed wait => exact .refl _
  | taken wait answer => exact of_answer answer

end SessionsReceived

end DurableFlow
