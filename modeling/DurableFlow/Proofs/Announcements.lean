import DurableFlow.Proofs.Turns
import DurableFlow.Timers

/-! # What the records of a commit announce

Most records of a commit are talk: things said on the sessions of the flow, which no timer minds.
After the talk an outcome announces how the flow is left, `Draft.Announces`: when it wants to be woken,
or that it is over. An outcome that is answered at once has asked for a wake-up at most, so only the
last outcome of a turn can end the flow.
-/

namespace DurableFlow

open Stateful

/-- Whether a record says that its flow is over, or when its checkpoint may go. -/
def Record.isFinal : Record → Bool
  | .flowStatus _ status _ => status.isTerminal
  | .scheduleCleanup _ _ => true
  | _ => false

theorem Record.goesOn_of_lasting {record : Record} (lasting : record.isFinal = false) :
    Timers.ended? record = none := by
  cases record with
  | flowStatus id status detail =>
      rw [isFinal] at lasting
      simp [Timers.ended?, lasting]
  | _ => rfl

/-- A record of a flow that no timer minds. -/
structure Record.IsTalk (id : FlowId) (record : Record) : Prop where
  flowId : record.flowId = id
  silent : Timers.alarm? record = none
  lasting : record.isFinal = false

theorem Record.IsTalk.goesOn {id : FlowId} {record : Record} (talk : record.IsTalk id) :
    Timers.ended? record = none :=
  goesOn_of_lasting talk.lasting

namespace Draft

/-- Work on a draft that adds nothing but talk to its records. -/
structure Talks (before after : Draft) : Prop where
  flowId : after.checkpoint.flowId = before.checkpoint.flowId
  records : ∃ talk, after.records = before.records ++ talk ∧
    ∀ record ∈ talk, record.IsTalk before.checkpoint.flowId

namespace Talks

theorem of_eq {before after : Draft} (flowId : after.checkpoint.flowId = before.checkpoint.flowId)
    (records : after.records = before.records) : before.Talks after :=
  ⟨flowId, [], by rw [records, List.append_nil], by simp⟩

theorem refl (draft : Draft) : draft.Talks draft := of_eq rfl rfl

theorem trans {a b c : Draft} (ab : a.Talks b) (bc : b.Talks c) : a.Talks c := by
  obtain ⟨sameAB, talk, saidAB, talkAB⟩ := ab
  obtain ⟨sameBC, talk', saidBC, talkBC⟩ := bc
  refine ⟨sameBC.trans sameAB, talk ++ talk', ?_, ?_⟩
  · rw [saidBC, saidAB, List.append_assoc]
  · intro record member
    rw [sameAB] at talkBC
    exact (List.mem_append.1 member).elim (talkAB record) (talkBC record)

theorem emit {before after : Draft} {record : Record}
    (flowId : after.checkpoint.flowId = before.checkpoint.flowId)
    (records : after.records = before.records ++ [record])
    (talk : record.IsTalk before.checkpoint.flowId) : before.Talks after :=
  ⟨flowId, [record], records, by simpa using talk⟩

end Talks

theorem closeSession_talks {draft next : Draft} {id : SessionId}
    (h : draft.closeSession id = .ok next) : draft.Talks next := by
  simp only [closeSession, bind_eq_ok, pure_eq_ok] at h
  obtain ⟨session, _, rfl⟩ := h
  exact .emit rfl rfl ⟨rfl, rfl, rfl⟩

theorem errorSession_talks {reason : String} {draft next : Draft} {id : SessionId}
    (h : draft.errorSession reason id = .ok next) : draft.Talks next := by
  simp only [errorSession, bind_eq_ok, pure_eq_ok] at h
  obtain ⟨session, _, rfl⟩ := h
  exact .emit rfl rfl ⟨rfl, rfl, rfl⟩

theorem sendMessage_talks {draft next : Draft} {message : OutboundMessage}
    (h : draft.sendMessage message = .ok next) : draft.Talks next := by
  simp only [sendMessage, bind_eq_ok, pure_eq_ok] at h
  obtain ⟨session, _, rfl⟩ := h
  exact .emit rfl rfl ⟨rfl, rfl, rfl⟩

theorem foldlM_talks {α : Type} {f : Draft → α → Except OutcomeError Draft}
    (step : ∀ draft a next, f draft a = .ok next → draft.Talks next) {items : List α}
    {draft next : Draft} (h : items.foldlM f draft = .ok next) : draft.Talks next :=
  foldlM_keeps (P := draft.Talks) (fun b a b' before done => before.trans (step b a b' done))
    (.refl draft) h

theorem applyEffects_talks {draft next : Draft} {effects : Effects}
    (h : draft.applyEffects effects = .ok next) : draft.Talks next := by
  have opened := congrArg Checkpoint.flowId (addSessions_work effects.initiated draft).rest
  have closed := foldlM_talks (f := closeSession) (fun _ _ _ => closeSession_talks) h
  exact ⟨closed.flowId.trans opened, opened ▸ closed.records⟩

theorem beginWait_talks {draft next : Draft} {wait : Wait} {request : Request}
    {deadline : Option Timestamp} {now : Timestamp}
    (h : draft.beginWait request deadline now = .ok (next, wait)) : draft.Talks next := by
  cases request with
  | send messages | sendAndReceive messages receiveFrom =>
      simp only [beginWait, bind_eq_ok, pure_eq_ok] at h
      obtain ⟨sent, done, h⟩ := h
      cases h
      exact foldlM_talks (fun _ _ _ => sendMessage_talks) done
  | receive | sleep | waitForConfirmations | forceCheckpoint =>
      cases h
      exact .refl draft

/-- What is announced of a flow that is left as a checkpoint says. -/
inductive Announces (cp : Checkpoint) : List Record → Prop where
  | goesOn (live : cp.isTerminal = false) :
      Announces cp (cp.waitingFor.alarm?.map (Record.scheduleWakeup cp.flowId)).toList
  | retrying {due : Timestamp} {detail : Option String} (retrying : cp.status = .retrying)
      (wait : cp.waitingFor = .wakeup due) :
      Announces cp [.scheduleWakeup cp.flowId due, .flowStatus cp.flowId .retrying detail]
  | finished {detail : Option String} {expiresAt : Timestamp} (terminal : cp.isTerminal)
      (wait : cp.waitingFor = .nothing) :
      Announces cp [.flowStatus cp.flowId cp.status detail, .scheduleCleanup cp.flowId expiresAt]

/-- Work on a draft that talks and then announces how the flow is left. -/
def Reports (before after : Draft) : Prop :=
  ∃ said announced, before.Talks said ∧ after.checkpoint.flowId = before.checkpoint.flowId ∧
    after.records = said.records ++ announced ∧ Announces after.checkpoint announced

theorem announceEnd_reports {before said draft after : Draft} {status : Status}
    {detail : Option String} {config : Config} {now : Timestamp}
    (h : draft.announceEnd status detail config now = .ok after) (talks : before.Talks said)
    (flowId : draft.checkpoint.flowId = said.checkpoint.flowId)
    (records : draft.records = said.records) (same : draft.checkpoint.status = status)
    (terminal : status.isTerminal) (wait : draft.checkpoint.waitingFor = .nothing) :
    before.Reports after := by
  simp only [announceEnd, bind_eq_ok, pure_eq_ok] at h
  obtain ⟨expiresAt, _, rfl⟩ := h
  subst same
  have announces : Announces draft.checkpoint
      [.flowStatus draft.checkpoint.flowId draft.checkpoint.status detail,
        .scheduleCleanup draft.checkpoint.flowId expiresAt] := .finished terminal wait
  exact ⟨said, _, talks, flowId.trans talks.flowId, by simp [emit, records], announces⟩

theorem fail_reports {draft after : Draft} {reason : String} {config : Config} {now : Timestamp}
    (h : draft.fail reason config now = .ok after) : draft.Reports after := by
  simp only [fail, bind_eq_ok] at h
  obtain ⟨failed, moved, given, erred, announced⟩ := h
  obtain ⟨_, rfl⟩ := setStatus_ok.1 moved
  have work := foldlM_work (fun _ id _ => (errorSession_replaces reason id).work errored_served) erred
  have talks := foldlM_talks (fun _ _ _ => errorSession_talks) erred
  have talks : draft.Talks given := ⟨talks.flowId, talks.records⟩
  exact announceEnd_reports announced talks rfl rfl (congrArg Checkpoint.status work.rest) rfl rfl

theorem complete_reports {draft after : Draft} {output : Bytes} {effects : Effects}
    {config : Config} {now : Timestamp}
    (h : draft.complete output effects config now = .ok after) : draft.Reports after := by
  simp only [complete, bind_eq_ok] at h
  obtain ⟨worked, applied, shut, closings, done, moved, announced⟩ := h
  obtain ⟨_, rfl⟩ := setStatus_ok.1 moved
  have talks := (applyEffects_talks applied).trans (foldlM_talks (fun _ _ _ => closeSession_talks) closings)
  exact announceEnd_reports announced talks rfl rfl rfl rfl rfl

theorem retry_records {draft after : Draft} {error : FlowError} {attempt : Attempt}
    {config : Config} {now : Timestamp} (h : draft.retry error attempt config now = .ok after) :
    ∃ due, after.checkpoint.waitingFor = .wakeup due ∧ after.records = draft.records ++
      [.scheduleWakeup draft.checkpoint.flowId due,
        .flowStatus draft.checkpoint.flowId .retrying (some error.message)] := by
  simp only [retry, bind_eq_ok, pure_eq_ok] at h
  obtain ⟨moving, moved, due, _, rfl⟩ := h
  obtain ⟨_, rfl⟩ := setStatus_ok.1 moved
  exact ⟨due, rfl, by simp [emit]⟩

theorem retry_reports {draft after : Draft} {error : FlowError} {attempt : Attempt}
    {config : Config} {now : Timestamp} (h : draft.retry error attempt config now = .ok after) :
    draft.Reports after := by
  obtain ⟨due, wait, records⟩ := retry_records h
  obtain ⟨_, rest⟩ := retry_ok h
  have flowId : after.checkpoint.flowId = draft.checkpoint.flowId := by rw [rest]
  refine ⟨draft, _, .refl draft, flowId, records, ?_⟩
  rw [← flowId]
  exact .retrying (by rw [rest]) wait

theorem answerWait_reports {before parked : Draft} {result : Draft × Next}
    (reports : before.Reports parked) (answer : parked.answerWait = result) :
    before.Reports result.1 := by
  obtain ⟨said, announced, talks, flowId, records, announces⟩ := reports
  rcases answerWait_cases parked with goesOn | ⟨value, sessions, _, ended⟩
  · rw [← answer, goesOn]
    exact ⟨said, announced, talks, flowId, records, announces⟩
  · rw [← answer, ended]
    refine ⟨said, announced, talks, flowId, records, ?_⟩
    cases announces with
    | goesOn live => exact .goesOn live
    | retrying retrying wait => exact .retrying retrying wait
    | finished terminal wait => exact .finished terminal wait

theorem suspend_reports {draft : Draft} {request : Request} {config : Config} {now : Timestamp}
    {result : Draft × Next} (h : draft.suspend request config now = .ok result) :
    draft.Reports result.1 := by
  simp only [suspend, bind_eq_ok, pure_eq_ok] at h
  obtain ⟨deadline, _, ⟨worked, wait⟩, began, parked, moved, answer⟩ := h
  have talks := beginWait_talks began
  obtain ⟨_, rfl⟩ := setStatus_ok.1 moved
  refine answerWait_reports ⟨worked, _, talks, ?_, ?_, .goesOn rfl⟩ answer
  all_goals cases alarm : wait.alarm? <;> simp only [emit]
  · exact talks.flowId
  · exact talks.flowId
  · simp [alarm]
  · simp [alarm]

theorem applyOutcome_reports {draft : Draft} {outcome : FiberOutcome} {effects : Effects}
    {attempt : Attempt} {config : Config} {now : Timestamp} {result : Draft × Next}
    (h : draft.applyOutcome outcome effects attempt config now = .ok result) :
    draft.Reports result.1 := by
  cases outcome with
  | suspended request continuation =>
      simp only [applyOutcome, bind_eq_ok] at h
      obtain ⟨worked, applied, h⟩ := h
      obtain ⟨said, announced, talks, flowId, records, announces⟩ := suspend_reports h
      have worked := applyEffects_talks applied
      exact ⟨said, announced, worked.trans ⟨talks.flowId, talks.records⟩,
        flowId.trans worked.flowId, records, announces⟩
  | completed output =>
      simp only [applyOutcome, bind_eq_ok, pure_eq_ok] at h
      obtain ⟨after, completed, rfl⟩ := h
      exact complete_reports completed
  | failed error =>
      simp only [applyOutcome] at h
      split at h
      · simp only [bind_eq_ok, pure_eq_ok] at h
        obtain ⟨after, retried, rfl⟩ := h
        exact retry_reports retried
      · simp only [bind_eq_ok, pure_eq_ok] at h
        obtain ⟨after, failed, rfl⟩ := h
        exact fail_reports failed

end Draft

end DurableFlow
