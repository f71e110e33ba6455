import DurableFlow.Proofs.Announcements
import DurableFlow.Proofs.Delays
import DurableFlow.Proofs.Provenance
import DurableFlow.Samples.Echo

/-! # When waits end and checkpoints may go

While an event is handled, flow logic may stop at several waits for session items. Every one of them
ends a configured delay later at the latest, and a wake-up for just that time is among the records; the
same goes for the time after which the checkpoint of a flow that is over may go. `Plan.Punctual` says
this of all that an event leads to.
-/

namespace DurableFlow

open Stateful Relation

variable {σ : Type}

namespace Draft

variable {draft said after taken : Draft} {outcome : FiberOutcome} {effects : Effects}
  {attempt : Attempt} {config : Config} {now : Timestamp} {next : Next}

theorem beginWait_deadline {request : Request} {deadline limit : Option Timestamp}
    {awaited : List SessionId}
    (h : draft.beginWait request deadline now = .ok (after, .sessions awaited limit)) :
    limit = deadline := by
  cases request with
  | send messages =>
      simp only [beginWait, bind_eq_ok, pure_eq_ok] at h
      obtain ⟨_, _, h⟩ := h
      cases h
  | sendAndReceive messages receiveFrom =>
      simp only [beginWait, bind_eq_ok, pure_eq_ok] at h
      obtain ⟨_, _, h⟩ := h
      cases h
      rfl
  | receive | sleep | waitForConfirmations | forceCheckpoint =>
      cases h
      try rfl

theorem park_deadline {request : Request} {limit : Option Timestamp} {awaited : List SessionId}
    (h : draft.park request config now = .ok after)
    (wait : after.checkpoint.waitingFor = .sessions awaited limit) : config.deadline now = .ok limit := by
  simp only [park, bind_eq_ok, mapError_eq_ok] at h
  obtain ⟨deadline, timed, ⟨worked, begun⟩, began, moved⟩ := h
  obtain ⟨_, rfl⟩ := setStatus_ok.1 moved
  have same : begun = .sessions awaited limit := by
    rw [← wait]
    cases begun.alarm? <;> rfl
  subst same
  rw [beginWait_deadline began]
  exact timed

/-- A flow that is left waiting for session items waits for the configured time. -/
theorem applyOutcome_deadline {limit : Option Timestamp} {awaited : List SessionId}
    (h : draft.applyOutcome outcome effects attempt config now = .ok (taken, next))
    (wait : taken.checkpoint.waitingFor = .sessions awaited limit) : config.deadline now = .ok limit := by
  cases outcome with
  | suspended request continuation =>
      simp only [applyOutcome, bind_eq_ok] at h
      obtain ⟨worked, _, suspended⟩ := h
      obtain ⟨parked, parks, answer⟩ := suspend_eq_ok.1 suspended
      refine park_deadline parks (Eq.trans ?_ wait)
      rcases answerWait_cases parked with goesOn | ⟨_, _, _, ended⟩
      · rw [goesOn] at answer
        cases answer
        rfl
      · rw [ended] at answer
        cases answer
        rfl
  | completed | failed =>
      have applied := applyOutcome_ok h
      cases applied
      all_goals
        rename_i rest
        rw [rest] at wait
        cases wait

/-- The last record of an outcome after which a flow waits for session items is a wake-up for the
deadline. -/
theorem Reports.wakeup {due : Timestamp} {awaited : List SessionId} (reports : draft.Reports after)
    (wait : after.checkpoint.waitingFor = .sessions awaited (some due)) :
    ∃ said, draft.Talks said ∧
      after.records = said.records ++ [.scheduleWakeup after.checkpoint.flowId due] := by
  obtain ⟨said, announced, talks, _, records, announces⟩ := reports
  refine ⟨said, talks, ?_⟩
  cases announces with
  | goesOn =>
      rw [wait] at records
      exact records
  | retrying _ other | finished _ other =>
      rw [wait] at other
      cases other

theorem Reports.grows (reports : draft.Reports after) : draft.records <+: after.records := by
  obtain ⟨said, announced, talks, _, records, _⟩ := reports
  obtain ⟨talk, told, _⟩ := talks.records
  exact ⟨talk ++ announced, by rw [records, told, List.append_assoc]⟩

/-- The times after which checkpoints may go, according to some records, are as configured. -/
def Dated (config : Config) (now : Timestamp) (records : List Record) : Prop :=
  ∀ id expiresAt, .scheduleCleanup id expiresAt ∈ records → config.expiry now = .ok expiresAt

namespace Dated

theorem append {first second : List Record} (dated : Dated config now first)
    (more : Dated config now second) : Dated config now (first ++ second) := fun id expiresAt member =>
  (List.mem_append.1 member).elim (dated id expiresAt) (more id expiresAt)

theorem of_lasting {records : List Record} (lasting : ∀ record ∈ records, record.isFinal = false) :
    Dated config now records := fun _ _ member => by cases lasting _ member

theorem talks (dated : Dated config now draft.records) (talks : draft.Talks said) :
    Dated config now said.records := by
  obtain ⟨talk, told, lasting⟩ := talks.records
  rw [told]
  exact dated.append (.of_lasting fun record member => (lasting record member).lasting)

theorem announceEnd {status : Status} {detail : Option String} (dated : Dated config now draft.records)
    (h : draft.announceEnd status detail config now = .ok after) : Dated config now after.records := by
  simp only [Draft.announceEnd, bind_eq_ok, pure_eq_ok, mapError_eq_ok] at h
  obtain ⟨expiresAt, known, rfl⟩ := h
  intro id other member
  simp only [Draft.emit, List.mem_append, List.mem_singleton, reduceCtorEq, or_false,
    Record.scheduleCleanup.injEq] at member
  rcases member with before | ⟨_, rfl⟩
  · exact dated id other before
  · exact known

theorem fail {reason : String} (dated : Dated config now draft.records)
    (h : draft.fail reason config now = .ok after) : Dated config now after.records := by
  simp only [Draft.fail, bind_eq_ok] at h
  obtain ⟨failed, moved, given, erred, announced⟩ := h
  obtain ⟨_, rfl⟩ := setStatus_ok.1 moved
  have talks := foldlM_talks (fun _ _ _ => errorSession_talks) erred
  have talks : draft.Talks given := ⟨talks.flowId, talks.records⟩
  have given := dated.talks talks
  refine announceEnd ?_ announced
  exact given

theorem complete {output : Bytes} (dated : Dated config now draft.records)
    (h : draft.complete output effects config now = .ok after) : Dated config now after.records := by
  simp only [Draft.complete, bind_eq_ok] at h
  obtain ⟨worked, applied, shut, closings, done, moved, announced⟩ := h
  obtain ⟨_, rfl⟩ := setStatus_ok.1 moved
  have talks := (applyEffects_talks applied).trans (foldlM_talks (fun _ _ _ => closeSession_talks) closings)
  have shut := dated.talks talks
  refine announceEnd ?_ announced
  exact shut

theorem retry {error : FlowError} (dated : Dated config now draft.records)
    (h : draft.retry error attempt config now = .ok after) : Dated config now after.records := by
  obtain ⟨due, _, records⟩ := retry_records h
  rw [records]
  refine dated.append (.of_lasting fun record member => ?_)
  rcases List.mem_cons.1 member with rfl | member
  · rfl
  · rw [List.mem_singleton.1 member]
    rfl

theorem suspend {request : Request} (dated : Dated config now draft.records)
    (h : draft.suspend request config now = .ok (taken, next)) : Dated config now taken.records := by
  simp only [Draft.suspend, bind_eq_ok, pure_eq_ok] at h
  obtain ⟨deadline, _, ⟨worked, wait⟩, began, parked, moved, answer⟩ := h
  have worked : Dated config now worked.records := dated.talks (beginWait_talks began)
  have dated : Dated config now parked.records := by
    obtain ⟨_, rfl⟩ := setStatus_ok.1 moved
    cases wait.alarm? with
    | none => exact worked
    | some due => exact worked.append (.of_lasting (by simp [Record.isFinal]))
  rcases answerWait_cases parked with goesOn | ⟨_, _, _, ended⟩
  · rw [goesOn] at answer
    cases answer
    exact dated
  · rw [ended] at answer
    cases answer
    exact dated

theorem applyOutcome (dated : Dated config now draft.records)
    (h : draft.applyOutcome outcome effects attempt config now = .ok (taken, next)) :
    Dated config now taken.records := by
  cases outcome with
  | suspended request continuation =>
      simp only [Draft.applyOutcome, bind_eq_ok] at h
      obtain ⟨worked, applied, suspended⟩ := h
      have worked := dated.talks (applyEffects_talks applied)
      refine suspend ?_ suspended
      exact worked
  | completed output =>
      simp only [Draft.applyOutcome, bind_eq_ok, pure_eq_ok] at h
      obtain ⟨after, completed, ⟨⟩⟩ := h
      exact dated.complete completed
  | failed error =>
      simp only [Draft.applyOutcome] at h
      split at h
      · simp only [bind_eq_ok, pure_eq_ok] at h
        obtain ⟨after, retried, ⟨⟩⟩ := h
        exact dated.retry retried
      · simp only [bind_eq_ok, pure_eq_ok] at h
        obtain ⟨after, failed, ⟨⟩⟩ := h
        exact dated.fail failed

end Dated

end Draft

theorem Handler.Prepares.dated {flowId : FlowId} {config : Config} {now : Timestamp}
    {payload : EventPayload} {found : Option Checkpoint} {prepared : Prepared}
    (prepares : Prepares flowId config now payload found prepared) :
    Draft.Dated config now prepared.draft.records := by
  cases prepares with
  | failed failed => exact Draft.Dated.fail (.of_lasting (by simp)) failed
  | _ => exact .of_lasting (by simp [Record.isFinal])

theorem Handler.Prepares.kept_deadline {flowId : FlowId} {config : Config} {now : Timestamp}
    {payload : EventPayload} {found : Option Checkpoint} {prepared : Prepared}
    {awaited : List SessionId} {limit : Option Timestamp}
    (prepares : Prepares flowId config now payload found prepared) (decided : prepared.decision = .skip)
    (wait : prepared.draft.checkpoint.waitingFor = .sessions awaited limit) :
    ∃ cp, found = some cp ∧ cp.waitingFor = .sessions awaited limit := by
  cases prepares with
  | kept | early => exact ⟨_, rfl, wait⟩
  | counted => cases wait
  | failed failed =>
      obtain ⟨_, _, _, rest⟩ := Draft.fail_ok failed
      rw [rest] at wait
      cases wait
  | _ => cases decided

section Entrances

variable {settings : Settings} {event : Event} {found : Option Checkpoint} {prepared : Prepared}
  {host : Host σ} {entrance last : Entrance σ} {outcome : FiberOutcome} {taken after : Draft}
  {next : Next}

theorem Prepared.Reaches.dated (prepared_dated : Draft.Dated settings.config settings.now
      prepared.draft.records) (reached : prepared.Reaches settings host entrance) :
    Draft.Dated settings.config settings.now entrance.draft.records := by
  induction reached with
  | started _ _ moved _ | woken _ _ moved _ =>
      obtain ⟨_, rfl⟩ := Draft.setStatus_ok.1 moved
      exact prepared_dated
  | again _ _ applied moved ih =>
      have taken := ih.applyOutcome applied
      obtain ⟨_, rfl⟩ := Draft.setStatus_ok.1 moved
      exact taken

theorem Entrance.Precedes.grows {settings : Settings} {before after : Entrance σ}
    (precedes : before.Precedes settings after) : before.draft.records <+: after.draft.records := by
  obtain ⟨_, taken, _, _, _, applied, moved, rfl⟩ := precedes
  obtain ⟨_, rfl⟩ := Draft.setStatus_ok.1 moved
  exact (Draft.applyOutcome_reports applied).grows

theorem Entrance.grows_of_leads
    (leads : ReflTransGen (Entrance.Precedes settings) entrance last) :
    entrance.draft.records <+: last.draft.records := by
  induction leads with
  | refl => exact List.prefix_rfl
  | tail _ precedes ih => exact ih.trans precedes.grows

theorem Prepared.Ends.keeps_records {left : Option (Hosted.Suspended σ)}
    (ends : prepared.Ends settings host (.ok (after, left)))
    (reached : prepared.Reaches settings host entrance)
    (ran : (entrance.run settings).result = .ok outcome)
    (applied : entrance.apply settings outcome = .ok (taken, next)) :
    taken.records <+: after.records := by
  obtain ⟨last, _, leads, ranLast, appliedLast⟩ := ends.from reached
  rcases leads.cases_head with rfl | ⟨second, ⟨_, _, _, _, ranFirst, appliedFirst, moved, rfl⟩, leads⟩
  · cases ran.symm.trans ranLast
    cases applied.symm.trans appliedLast
    exact List.prefix_rfl
  · cases ran.symm.trans ranFirst
    cases applied.symm.trans appliedFirst
    obtain ⟨_, rfl⟩ := Draft.setStatus_ok.1 moved
    exact (Entrance.grows_of_leads leads).trans (Draft.applyOutcome_reports appliedLast).grows

end Entrances

/-- A deadline is the one that the configuration sets for waits that begin now. -/
def Config.Limits (config : Config) (now due : Timestamp) : Prop :=
  ∃ millis, config.suspensionTimeout = some millis ∧ Config.Due millis now due

theorem Config.limits_of_deadline {config : Config} {now due : Timestamp}
    (h : config.deadline now = .ok (some due)) : config.Limits now due := by
  obtain ⟨millis, configured, delays⟩ := Config.deadline_ok.1 h
  exact ⟨millis, configured, delays.due⟩

namespace Plan

/-- How the configured delays show in what an event leads to. -/
structure Punctual (settings : Settings) (event : Event) (found : Option Checkpoint) (host : Host σ)
    (commit : Commit σ) : Prop where
  /-- When flow logic stops to wait for session items until a deadline, for however long it waits
  then, a wake-up for the deadline is the last of the records so far. -/
  waits : ∀ entrance outcome taken next awaited due, Reaches settings event found host entrance →
    (entrance.run settings).result = .ok outcome →
    entrance.apply settings outcome = .ok (taken, next) →
    taken.checkpoint.waitingFor = .sessions awaited (some due) →
    settings.config.Limits settings.now due ∧ taken.records <+: commit.records ∧
      ∃ said, entrance.draft.Talks said ∧
        taken.records = said.records ++ [.scheduleWakeup taken.checkpoint.flowId due]
  /-- A deadline that is stored was stored before, or is set now. -/
  stored : ∀ awaited due, commit.checkpoint.waitingFor = .sessions awaited (some due) →
    (∃ cp, found = some cp ∧ cp.waitingFor = .sessions awaited (some due)) ∨
      settings.config.Limits settings.now due
  cleanups : ∀ id expiresAt, .scheduleCleanup id expiresAt ∈ commit.records →
    Config.Due settings.config.cleanupDelay settings.now expiresAt

/-- Whatever event is handled at whatever time under whatever configuration: if no time is out of
range, every deadline for session items that is set meanwhile, with its wake-up, and every time after
which a checkpoint may go are the configured delays from now, see `Config.Due`. -/
theorem punctual {settings : Settings} {event : Event} {found : Option Checkpoint}
    {host after : Host σ} {commit : Commit σ}
    (planned : (ofEvent settings event found).run.run host = (.ok (.commit commit), after)) :
    Punctual settings event found host commit := by
  obtain ⟨prepared, ⟨draft, left⟩, opens, ends, rfl⟩ := ofEvent_followed planned
  have prepares := Handler.prepare_prepares opens.prepares
  refine ⟨?_, ?_, fun id expiresAt member => ?_⟩
  · rintro entrance outcome taken next awaited due ⟨other, opened, reached⟩ ran applied wait
    cases opened.prepares.symm.trans opens.prepares
    exact ⟨Config.limits_of_deadline (Draft.applyOutcome_deadline applied wait),
      ends.keeps_records reached ran applied, (Draft.applyOutcome_reports applied).wakeup wait⟩
  · intro awaited due wait
    cases ends with
    | skipped decided => exact .inl (prepares.kept_deadline decided wait)
    | unknown _ _ applied | concluded _ _ applied =>
        exact .inr (Config.limits_of_deadline (Draft.applyOutcome_deadline applied wait))
  · have dated : Draft.Dated settings.config settings.now draft.records := by
      cases ends with
      | skipped => exact prepares.dated
      | unknown decided moved applied =>
          have dated := prepares.dated
          obtain ⟨_, rfl⟩ := Draft.setStatus_ok.1 moved
          refine Draft.Dated.applyOutcome ?_ applied
          exact dated
      | concluded reached _ applied => exact (reached.dated prepares.dated).applyOutcome applied
    exact (Config.expiry_ok.1 (dated id expiresAt member)).due

open Samples in
/-- An echo that starts at time zero waits for a second. -/
theorem punctual_of_echo : ∃ commit after,
    (ofEvent Echo.timed Echo.begin none).run.run Echo.host = (.ok (.commit commit), after) ∧
      commit.checkpoint.waitingFor =
        .sessions [Echo.session] (some ⟨1, 0, by decide, by decide, by decide, by decide⟩) ∧
      Punctual Echo.timed Echo.begin none Echo.host commit :=
  ⟨_, _, rfl, rfl, punctual rfl⟩

open Samples in
/-- With the longest of all delays, a wait for session items is over before it begins, and the
checkpoint of a flow that fails may go before it is written. -/
theorem longest_delays_are_over :
    let config := { Config.default with
      suspensionTimeout := some 18446744073709551615
      cleanupDelay := 18446744073709551615 }
    let settings := { Echo.settings with config }
    (∃ commit after awaited due,
      (ofEvent settings Echo.begin none).run.run Echo.host = (.ok (.commit commit), after) ∧
        commit.checkpoint.waitingFor = .sessions awaited (some due) ∧
        .scheduleWakeup Echo.flow due ∈ commit.records ∧ due < settings.now) ∧
    ∃ commit after cp expiresAt,
      (ofEvent settings ⟨Echo.flow, .failure "stopped"⟩ (some cp)).run.run Echo.host =
        (.ok (.commit commit), after) ∧
        .scheduleCleanup Echo.flow expiresAt ∈ commit.records ∧ expiresAt < settings.now :=
  ⟨⟨_, _, _, ⟨-1, 999000000, by decide, by decide, by decide, by decide⟩, rfl, rfl, by decide,
      by decide⟩,
    _, _, .new Echo.flow ⟨"O=Alice", "g1"⟩ "echo" .epoch,
      ⟨-1, 999000000, by decide, by decide, by decide, by decide⟩, rfl, by decide, by decide⟩

end Plan

end DurableFlow
