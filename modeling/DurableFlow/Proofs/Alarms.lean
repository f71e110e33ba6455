import DurableFlow.Proofs.Announcements
import DurableFlow.Proofs.Readiness

/-! # Timers agree with what is stored

Timers follow the records of commits. What a commit announces is how it leaves its flow, so a stored
flow that waits for a point in time has a timer for just that point, and one that is over has none:
`Store.Alarmed`. A timer that fires is lost before its wake-up is handled; the wake-up sets it again,
or the flow does not wait for it any more.
-/

namespace DurableFlow

open Stateful Samples

variable {σ π : Type}

namespace Timers

/-- The alarm of a flow once some alarms were set, one after the other. -/
def lastAlarm (id : FlowId) (alarms : List (FlowId × Timestamp)) (before : Option Timestamp) :
    Option Timestamp :=
  alarms.foldl (fun last alarm => if alarm.1 = id then some alarm.2 else last) before

theorem lastAlarm_of_foreign {id : FlowId} {alarms : List (FlowId × Timestamp)}
    (foreign : ∀ alarm ∈ alarms, alarm.1 ≠ id) (before : Option Timestamp) :
    lastAlarm id alarms before = before := by
  induction alarms generalizing before with
  | nil => rfl
  | cons first rest ih =>
      have other := foreign first List.mem_cons_self
      rw [lastAlarm, List.foldl_cons, if_neg other]
      exact ih (fun alarm member => foreign alarm (List.mem_cons_of_mem _ member)) before

theorem due?_set (alarms : List (FlowId × Timestamp)) (timers : Timers) (id : FlowId) :
    (alarms.foldl (fun timers (id, due) => timers.schedule id due) timers).due? id =
      lastAlarm id alarms (timers.due? id) := by
  induction alarms generalizing timers with
  | nil => rfl
  | cons first rest ih =>
      rw [List.foldl_cons, ih, due?_schedule, lastAlarm, lastAlarm, List.foldl_cons]
      simp only [eq_comm]

theorem due?_drop (ids : List FlowId) (timers : Timers) (id : FlowId) :
    (ids.foldl cancel timers).due? id = if id ∈ ids then none else timers.due? id := by
  induction ids generalizing timers with
  | nil => simp
  | cons first rest ih =>
      rw [List.foldl_cons, ih, due?_cancel]
      by_cases later : id ∈ rest
      · simp [later]
      · simp [later]

theorem due?_observe (timers : Timers) (records : List Record) (id : FlowId) :
    (timers.observe records).due? id =
      if id ∈ records.filterMap ended? then none
      else lastAlarm id (records.filterMap alarm?) (timers.due? id) := by
  rw [observe, due?_drop, due?_set]

theorem flowId_of_alarm? {record : Record} {alarm : FlowId × Timestamp}
    (h : alarm? record = some alarm) : alarm.1 = record.flowId := by
  cases record with
  | scheduleWakeup id due =>
      cases h
      rfl
  | _ => cases h

theorem flowId_of_ended? {record : Record} {id : FlowId} (h : ended? record = some id) :
    id = record.flowId := by
  cases record with
  | flowStatus other status detail =>
      simp only [ended?] at h
      split at h
      · cases h
        rfl
      · cases h
  | _ => cases h

theorem due?_observe_of_foreign {records : List Record} {id : FlowId}
    (foreign : ∀ record ∈ records, record.flowId ≠ id) (timers : Timers) :
    (timers.observe records).due? id = timers.due? id := by
  rw [due?_observe, if_neg, lastAlarm_of_foreign]
  · intro alarm member same
    obtain ⟨record, among, set⟩ := List.mem_filterMap.1 member
    exact foreign record among ((flowId_of_alarm? set).symm.trans same)
  · intro member
    obtain ⟨record, among, ended⟩ := List.mem_filterMap.1 member
    exact foreign record among (flowId_of_ended? ended).symm

theorem observe_talk {id : FlowId} {records : List Record}
    (talk : ∀ record ∈ records, record.IsTalk id) (timers : Timers) :
    timers.observe records = timers := by
  have silent : records.filterMap alarm? = [] :=
    List.filterMap_eq_nil_iff.2 fun record member => (talk record member).silent
  have goesOn : records.filterMap ended? = [] :=
    List.filterMap_eq_nil_iff.2 fun record member => (talk record member).goesOn
  rw [observe, silent, goesOn]
  rfl

theorem lastAlarm_waiting {entries : List (FlowId × Checkpoint)}
    (sorted : entries.Pairwise (fun a b => compare a.1 b.1 = .lt)) (id : FlowId)
    (before : Option Timestamp) :
    lastAlarm id (entries.filterMap fun (id, cp) => cp.waitingFor.alarm?.map fun due => (id, due))
        before =
      ((SortedMap.lookupEntry id entries).bind (·.waitingFor.alarm?)).or before := by
  induction entries generalizing before with
  | nil => rfl
  | cons head rest ih =>
      obtain ⟨key, cp⟩ := head
      obtain ⟨below, later⟩ := List.pairwise_cons.1 sorted
      by_cases here : id = key
      · -- The keys are sorted, so the flow is not met again.
        subst here
        have unmet : SortedMap.lookupEntry id rest = none :=
          SortedMap.lookupEntry_eq_none_of_lt below
        cases alarm : cp.waitingFor.alarm? with
        | none =>
            rw [List.filterMap_cons_none (by simp [alarm]), ih later, unmet]
            simp [SortedMap.lookupEntry, alarm]
        | some due =>
            rw [List.filterMap_cons_some (b := (id, due)) (by simp [alarm]), lastAlarm, List.foldl_cons,
              ← lastAlarm, ih later, unmet]
            simp [SortedMap.lookupEntry, alarm]
      · have other : key ≠ id := Ne.symm here
        cases alarm : cp.waitingFor.alarm? with
        | none =>
            rw [List.filterMap_cons_none (by simp [alarm]), ih later]
            simp [SortedMap.lookupEntry, here]
        | some due =>
            rw [List.filterMap_cons_some (b := (key, due)) (by simp [alarm]), lastAlarm,
              List.foldl_cons, ← lastAlarm, if_neg other, ih later]
            simp [SortedMap.lookupEntry, here]

theorem due?_recover (timers : Timers) (store : Store) (id : FlowId) :
    (timers.recover store).due? id =
      ((store.get? id).bind (·.waitingFor.alarm?)).or (timers.due? id) := by
  rw [recover, due?_set, waiting, lastAlarm_waiting store.sorted]
  rfl

end Timers

/-- A flow has the timer that its checkpoint asks for, or none if it is over, and the timers of other
flows are as before. -/
structure Timers.Follows (flow : FlowId) (cp : Checkpoint) (before after : Timers) : Prop where
  others : ∀ other, other ≠ flow → after.due? other = before.due? other
  finished : cp.isTerminal → after.due? flow = none
  alarm : ∀ due, cp.waitingFor.alarm? = some due → after.due? flow = some due

/-- A draft whose records are about its flow and do not end it. -/
structure Draft.Rings (flow : FlowId) (draft : Draft) : Prop where
  flowId : draft.checkpoint.flowId = flow
  mine : ∀ record ∈ draft.records, record.flowId = flow
  lasting : ∀ record ∈ draft.records, record.isFinal = false

namespace Draft

theorem Rings.goesOn {flow : FlowId} {draft : Draft} (rings : draft.Rings flow) :
    draft.records.filterMap Timers.ended? = [] :=
  List.filterMap_eq_nil_iff.2 fun record member => Record.goesOn_of_lasting (rings.lasting record member)

variable {cp : Checkpoint} {announced : List Record}

theorem Announces.mine (announces : Announces cp announced) :
    ∀ record ∈ announced, record.flowId = cp.flowId := by
  cases announces with
  | goesOn live => simp [Record.flowId]
  | retrying retrying wait => simp [Record.flowId]
  | finished terminal wait => simp [Record.flowId]

theorem Announces.alarms (announces : Announces cp announced) :
    announced.filterMap Timers.alarm? =
      (cp.waitingFor.alarm?.map fun due => (cp.flowId, due)).toList := by
  cases announces with
  | goesOn live => cases cp.waitingFor.alarm? <;> rfl
  | retrying retrying wait =>
      rw [wait]
      rfl
  | finished terminal wait =>
      rw [wait]
      simp [Timers.alarm?, Wait.alarm?]

theorem Announces.ended (announces : Announces cp announced) :
    announced.filterMap Timers.ended? = if cp.isTerminal then [cp.flowId] else [] := by
  cases announces with
  | goesOn live =>
      rw [live]
      cases cp.waitingFor.alarm? <;> rfl
  | retrying retrying wait =>
      rw [Checkpoint.isTerminal, retrying]
      rfl
  | finished terminal wait =>
      have ended : cp.status.isTerminal := terminal
      simp [Timers.ended?, ended, terminal]

theorem Announces.lasting (announces : Announces cp announced) (live : cp.isTerminal = false) :
    ∀ record ∈ announced, record.isFinal = false := by
  cases announces with
  | goesOn => simp [Record.isFinal]
  | retrying retrying wait => simp [Record.isFinal, Status.isTerminal]
  | finished terminal wait =>
      rw [live] at terminal
      cases terminal

theorem Announces.live_of_alarm (announces : Announces cp announced) {due : Timestamp}
    (alarm : cp.waitingFor.alarm? = some due) : cp.isTerminal = false := by
  cases announces with
  | goesOn live => exact live
  | retrying retrying wait =>
      rw [Checkpoint.isTerminal, retrying]
      rfl
  | finished terminal wait =>
      rw [wait] at alarm
      cases alarm

namespace Reports

variable {before after : Draft} {flow : FlowId}

theorem filterMap {β : Type} {f : Record → Option β} (reports : before.Reports after)
    (silent : ∀ record, record.IsTalk before.checkpoint.flowId → f record = none) :
    ∃ announced, Announces after.checkpoint announced ∧
      after.records.filterMap f = before.records.filterMap f ++ announced.filterMap f := by
  obtain ⟨said, announced, ⟨_, talk, saying, talks⟩, _, records, announces⟩ := reports
  refine ⟨announced, announces, ?_⟩
  rw [records, saying, List.filterMap_append, List.filterMap_append]
  rw [List.filterMap_eq_nil_iff.2 fun record member => silent record (talks record member)]
  rw [List.append_nil]

theorem mine (reports : before.Reports after) (rings : before.Rings flow) :
    after.checkpoint.flowId = flow ∧ ∀ record ∈ after.records, record.flowId = flow := by
  obtain ⟨said, announced, ⟨_, talk, saying, talks⟩, flowId, records, announces⟩ := reports
  have same := flowId.trans rings.flowId
  refine ⟨same, fun record member => ?_⟩
  rw [records, saying, List.append_assoc, List.mem_append, List.mem_append] at member
  rcases member with before | said | here
  · exact rings.mine record before
  · exact (talks record said).flowId.trans rings.flowId
  · exact (announces.mine record here).trans same

theorem rings (reports : before.Reports after) (rings : before.Rings flow)
    (live : after.checkpoint.isTerminal = false) : after.Rings flow := by
  obtain ⟨flowId, mine⟩ := reports.mine rings
  obtain ⟨said, announced, ⟨_, talk, saying, talks⟩, _, records, announces⟩ := reports
  refine ⟨flowId, mine, fun record member => ?_⟩
  rw [records, saying, List.append_assoc, List.mem_append, List.mem_append] at member
  rcases member with before | said | here
  · exact rings.lasting record before
  · exact (talks record said).lasting
  · exact announces.lasting live record here

theorem follows (reports : before.Reports after) (rings : before.Rings flow) (timers : Timers) :
    Timers.Follows flow after.checkpoint timers (timers.observe after.records) := by
  obtain ⟨flowId, mine⟩ := reports.mine rings
  obtain ⟨_, announces, ended⟩ := reports.filterMap fun _ talk => talk.goesOn
  obtain ⟨_, announces', alarms⟩ := reports.filterMap fun _ talk => talk.silent
  rw [rings.goesOn, List.nil_append, announces.ended, flowId] at ended
  rw [announces'.alarms, flowId] at alarms
  refine ⟨fun other differs => ?_, fun terminal => ?_, fun due alarm => ?_⟩
  · refine Timers.due?_observe_of_foreign (fun record member same => ?_) timers
    exact differs (same.symm.trans (mine record member))
  · rw [Timers.due?_observe, ended]
    simp [terminal]
  · rw [Timers.due?_observe, ended, alarms]
    simp [announces.live_of_alarm alarm, alarm, Timers.lastAlarm]

end Reports

end Draft

theorem Draft.Settles.rings {settings : Settings} {attempt : Attempt} {draft after : Draft}
    {flow : FlowId} (settles : draft.Settles settings attempt after) (begun : draft.Rings flow) :
    ∃ last attempt outcome effects, Draft.Rings flow last ∧
      last.applyOutcome outcome effects attempt settings.config settings.now =
        .ok (after, .done) := by
  refine settles.induction (P := fun _ draft => draft.Rings flow) ?_ begun
  intro _ before outcome effects taken value rings applied
  obtain ⟨_, _, parked, _, parks, answered⟩ := (applyOutcome_ok applied).of_resume
  obtain ⟨sessions, _, rfl⟩ := answered_of_answerWait answered
  have live : parked.checkpoint.isTerminal = false := by
    rw [parks.rest]
    rfl
  have rings := (applyOutcome_reports applied).rings rings live
  exact ⟨rings.flowId, rings.mine, rings.lasting⟩

/-- A checkpoint from which a wake-up that comes in time is never refused. -/
structure Checkpoint.Rousable (cp : Checkpoint) : Prop where
  finished : cp.isTerminal → cp.waitingFor = .nothing
  sessions : ∀ awaited deadline, cp.waitingFor = .sessions awaited deadline → awaited ≠ []
  restarts : cp.status = .retrying → cp.pendingResume = none → cp.continuation = none

namespace Handler

open Checkpoint

variable {flowId : FlowId} {config : Config} {now : Timestamp}

/-- A wake-up is refused only by a flow that waits for no point in time. -/
theorem wakeup_ok {cp : Checkpoint} (rousable : cp.Rousable) {due : Timestamp}
    (alarm : cp.waitingFor.alarm? = some due) : ∃ prepared, wakeup now cp = .ok prepared := by
  unfold wakeup
  split
  next =>
    split
    · exact ⟨_, rfl⟩
    · split
      next retrying =>
        unfold retry
        split
        · exact ⟨_, rfl⟩
        next pending =>
          rw [rousable.restarts retrying pending]
          exact ⟨_, rfl⟩
      · exact ⟨_, rfl⟩
  next awaited deadline wait =>
    split
    · exact ⟨_, rfl⟩
    · split
      · exact ⟨_, rfl⟩
      next nobody =>
        have empty := rousable.sessions awaited _ wait
        rw [Option.or_eq_none_iff, List.head?_eq_none_iff] at nobody
        exact absurd nobody.2 empty
  next noWakeup noDeadline =>
    exfalso
    cases wait : cp.waitingFor with
    | wakeup due => exact noWakeup due wait
    | sessions awaited deadline =>
        rw [wait] at alarm
        cases alarm
        exact noDeadline awaited due wait
    | start | confirmations | nothing =>
        rw [wait] at alarm
        cases alarm

theorem alarm?_of_refuses {settings : Settings} {loaded : Option Checkpoint} {reason : Refusal}
    (refuses : Plan.Refuses settings ⟨flowId, .wakeup⟩ loaded reason) {cp : Checkpoint}
    (found : loaded = some cp) (rousable : cp.Rousable) : cp.waitingFor.alarm? = none := by
  subst found
  rcases refuses with ⟨_, same, terminal⟩ | refused
  · cases same
    rw [rousable.finished terminal]
    rfl
  · cases alarm : cp.waitingFor.alarm? with
    | none => rfl
    | some due =>
        obtain ⟨prepared, ok⟩ : ∃ prepared, wakeup settings.now cp = .ok prepared :=
          wakeup_ok rousable alarm
        have accepted : accepts .wakeup (some cp.waitingFor) := by
          cases wait : cp.waitingFor with
          | sessions awaited deadline =>
              rw [wait] at alarm
              cases alarm
              rfl
          | wakeup due => rfl
          | start | confirmations | nothing =>
              rw [wait] at alarm
              cases alarm
        simp [prepare, accepted, preprocess, ok] at refused

namespace Prepares

variable {payload : EventPayload} {loaded : Option Checkpoint} {prepared : Prepared}

theorem rings (prepares : Prepares flowId config now payload loaded prepared)
    (isOf : IsOf loaded flowId) (runs : prepared.decision ≠ .skip) : prepared.draft.Rings flowId := by
  have same := prepares.flowId_eq isOf
  refine ⟨same, ?_, ?_⟩
  all_goals cases prepares with
  | kept | early | counted | failed => exact absurd rfl runs
  | answered => simp [Record.flowId, Record.isFinal]
  | started | awake | again | restarted | timedOut | confirmed => simp

/-- An event that enters no flow logic keeps an item and leaves the wait alone, or announces how it
leaves the flow. -/
theorem skipped {cp : Checkpoint} {draft : Draft}
    (prepares : Prepares flowId config now payload (some cp) ⟨draft, .skip⟩)
    (live : cp.isTerminal = false) :
    (payload ≠ .wakeup ∧ draft.checkpoint.waitingFor = cp.waitingFor ∧
        draft.checkpoint.status = cp.status ∧ ∀ record ∈ draft.records, record.IsTalk flowId) ∨
      Draft.Reports ⟨cp, []⟩ draft := by
  have announced {draft : Draft} (flowId : draft.checkpoint.flowId = cp.flowId)
      (live : draft.checkpoint.isTerminal = false)
      (records : draft.records = (draft.checkpoint.waitingFor.alarm?.map
        (Record.scheduleWakeup draft.checkpoint.flowId)).toList) : Draft.Reports ⟨cp, []⟩ draft :=
    ⟨⟨cp, []⟩, _, .refl _, flowId, records, .goesOn live⟩
  cases prepares with
  | kept found isOpen unseen waits =>
      refine .inl ⟨by simp, rfl, rfl, fun record member => ?_⟩
      cases List.mem_singleton.1 member
      exact ⟨rfl, rfl, rfl⟩
  | early alarm early => exact .inr (announced rfl live (by simp [alarm]))
  | counted wait sum few => exact .inr (announced rfl live rfl)
  | failed failed => exact .inr (Draft.fail_reports failed)

theorem rousable_of_skipped {draft : Draft}
    (prepares : Prepares flowId config now payload loaded ⟨draft, .skip⟩)
    (rousable : ∀ cp, loaded = some cp → cp.Rousable) : draft.checkpoint.Rousable := by
  cases prepares with
  | kept | early => exact ⟨(rousable _ rfl).finished, (rousable _ rfl).sessions, (rousable _ rfl).restarts⟩
  | counted wait sum few =>
      have rousable := rousable _ rfl
      refine ⟨fun terminal => ?_, fun _ _ same => (by cases same), rousable.restarts⟩
      have nothing := rousable.finished terminal
      rw [wait] at nothing
      cases nothing
  | failed failed =>
      obtain ⟨_, _, _, rest⟩ := Draft.fail_ok failed
      rw [rest]
      exact ⟨fun _ => rfl, fun _ _ same => (by cases same), fun retrying => (by cases retrying)⟩

theorem continuation_of_start (prepares : Prepares flowId config now payload loaded prepared)
    (starts : prepared.decision.attempt? = some .start) :
    prepared.draft.checkpoint.continuation = none := by
  cases prepares with
  | started served rest => rw [rest]; rfl
  | restarted wait late retrying pending unsuspended => exact unsuspended
  | kept | answered | early | awake | again | timedOut | counted | confirmed | failed => cases starts

end Prepares

end Handler

theorem Draft.Applied.rousable {draft after : Draft} {attempt : Attempt} {outcome : FiberOutcome}
    (applied : draft.Applied attempt outcome (after, .done))
    (started : attempt = .start → draft.checkpoint.continuation = none) :
    after.checkpoint.Rousable := by
  have restarts : after.checkpoint.status = .retrying → after.checkpoint.pendingResume = none →
      after.checkpoint.continuation = none := by
    intro retrying pending
    obtain ⟨same, continuation⟩ := applied.of_retrying retrying
    rw [pending] at same
    rw [continuation]
    cases attempt with
    | start => exact started rfl
    | resume value => cases same
  generalize result : (after, Next.done) = r at applied
  cases applied with
  | suspended parks =>
      have waits := waits_of_answerWait result.symm
      cases eq_of_answerWait_done result.symm
      refine ⟨fun terminal => ?_, fun awaited deadline wait empty => ?_, restarts⟩
      · rw [parks.rest] at terminal
        cases terminal
      · obtain ⟨_, listed, _⟩ := waits.late wait
        rw [empty] at listed
        cases listed
  | completed _ _ rest | failed _ _ rest =>
      cases result
      refine ⟨fun _ => by rw [rest], fun awaited deadline wait => ?_, restarts⟩
      rw [rest] at wait
      cases wait
  | retried _ rest =>
      cases result
      refine ⟨fun terminal => ?_, fun awaited deadline wait => ?_, restarts⟩
      · rw [rest] at terminal
        cases terminal
      · rw [rest] at wait
        cases wait

namespace Plan.Leads

variable {settings : Settings} {event : Event} {loaded : Option Checkpoint} {commit : Commit σ}

theorem rousable (leads : Leads settings event loaded commit)
    (rousable : ∀ cp, loaded = some cp → cp.Rousable) : commit.written.Rousable := by
  obtain ⟨prepared, draft, prepares, settles, checkpoint, _⟩ := leads.course
  have left : draft.checkpoint.Rousable := by
    cases settles with
    | skipped => exact prepares.rousable_of_skipped rousable
    | ran enters settles =>
        obtain ⟨last, _, _, _, started, applied⟩ := settles.induction
          (P := fun attempt draft => attempt = .start → draft.checkpoint.continuation = none)
          (fun _ _ _ _ _ _ _ _ impossible => by cases impossible)
          (fun start => prepares.continuation_of_start (enters.trans (congrArg some start)))
        exact (Draft.applyOutcome_ok applied).rousable started
  rw [Commit.written, checkpoint]
  exact ⟨left.finished, left.sessions, left.restarts⟩

theorem reports (leads : Leads settings event loaded commit)
    (isOf : Checkpoint.IsOf loaded event.flowId) :
    ∃ draft : Draft, commit.checkpoint = { draft.checkpoint with updatedAt := settings.now } ∧
      commit.records = draft.records ∧
      ((∃ before : Draft, before.Reports draft ∧ before.Rings event.flowId) ∨
        ∃ cp, loaded = some cp ∧ cp.isTerminal = false ∧ event.payload ≠ .wakeup ∧
          draft.checkpoint.waitingFor = cp.waitingFor ∧ draft.checkpoint.status = cp.status ∧
          ∀ record ∈ draft.records, record.IsTalk event.flowId) := by
  obtain ⟨prepared, draft, prepares, settles, checkpoint, records⟩ := leads.course
  refine ⟨draft, checkpoint, records, ?_⟩
  cases settles with
  | skipped =>
      cases loaded with
      | none =>
          obtain ⟨_, _, starts⟩ := prepares.starts
          cases starts
      | some cp =>
          have live := leads.live cp rfl
          rcases prepares.skipped live with ⟨item, wait, status, talk⟩ | reports
          · exact .inr ⟨cp, rfl, live, item, wait, status, talk⟩
          · exact .inl ⟨⟨cp, []⟩, reports, ⟨isOf cp rfl, by simp, by simp⟩⟩
  | ran enters settles =>
      have rings := prepares.rings isOf fun skips => by
        simp only at skips
        subst skips
        cases enters
      have begun : Draft.Rings event.flowId (Draft.running _) :=
        ⟨rings.flowId, rings.mine, rings.lasting⟩
      obtain ⟨last, _, _, _, rings, applied⟩ := settles.rings begun
      exact .inl ⟨last, Draft.applyOutcome_reports applied, rings⟩

/-- Once the records of a commit were observed, the timers follow what was written; only an event
that leaves the wait alone, and is no wake-up, leaves the timers alone as well. -/
theorem follows (leads : Leads settings event loaded commit)
    (isOf : Checkpoint.IsOf loaded event.flowId) (timers : Timers) :
    Timers.Follows event.flowId commit.written timers (timers.observe commit.records) ∨
      event.payload ≠ .wakeup ∧ timers.observe commit.records = timers ∧
        ∃ cp, loaded = some cp ∧ cp.isTerminal = false ∧
          commit.written.waitingFor = cp.waitingFor ∧ commit.written.status = cp.status := by
  obtain ⟨draft, checkpoint, records, ⟨before, reports, rings⟩ |
    ⟨cp, known, live, item, wait, status, talk⟩⟩ := leads.reports isOf
  all_goals rw [records, Commit.written, checkpoint]
  · have follows := reports.follows rings timers
    exact .inl ⟨follows.others, follows.finished, follows.alarm⟩
  · exact .inr ⟨item, Timers.observe_talk talk timers, cp, known, live, wait, status⟩

end Plan.Leads

/-- Every stored flow that waits for a point in time has a timer for that point, one that is over has
none, and a wake-up in time is refused by neither. -/
structure Store.Alarmed (store : Store) (timers : Timers) : Prop where
  keyed : store.Keyed
  rousable : ∀ id cp, store.get? id = some cp → cp.Rousable
  alarm : ∀ id cp due, store.get? id = some cp → cp.waitingFor.alarm? = some due →
    timers.due? id = some due
  finished : ∀ id cp, store.get? id = some cp → cp.isTerminal → timers.due? id = none

theorem Store.Alarmed.empty : Store.Alarmed {} {} := by
  refine ⟨?_, ?_, ?_, ?_⟩
  all_goals
    intro id cp
    intros
    contradiction

/-- A commit keeps the timers in agreement with what is stored, even if that of its flow has just
fired. -/
theorem Store.Alarmed.commit {store : Store} {timers before : Timers} {settings : Settings}
    {event : Event} {commit : Commit σ} (alarmed : store.Alarmed timers)
    (leads : Plan.Leads settings event (store.get? event.flowId) commit)
    (others : ∀ other, other ≠ event.flowId → before.due? other = timers.due? other)
    (unfired : event.payload ≠ .wakeup → before = timers) :
    Store.Alarmed (store.insert event.flowId commit.written) (before.observe commit.records) := by
  have isOf := alarmed.keyed event.flowId
  have rousable := leads.rousable (alarmed.rousable event.flowId)
  refine ⟨SortedMap.forall_get?_insert alarmed.keyed (leads.flowId_eq isOf),
    SortedMap.forall_get?_insert alarmed.rousable rousable, fun id cp due found alarm => ?_,
    fun id cp found terminal => ?_⟩
  all_goals
    have follows := leads.follows isOf before
    by_cases mine : id = event.flowId
  · subst mine
    rw [SortedMap.get?_insert_self] at found
    cases found
    rcases follows with follows | ⟨item, unchanged, cp, stored, _, wait, _⟩
    · exact follows.alarm due alarm
    · rw [unchanged, unfired item]
      exact alarmed.alarm _ cp due stored (wait ▸ alarm)
  · rw [SortedMap.get?_insert_of_ne _ _ mine] at found
    have kept := alarmed.alarm id cp due found alarm
    rcases follows with follows | ⟨_, unchanged, _⟩
    · rw [follows.others id mine, others id mine, kept]
    · rw [unchanged, others id mine, kept]
  · subst mine
    rw [SortedMap.get?_insert_self] at found
    cases found
    rcases follows with follows | ⟨_, _, cp, _, live, _, status⟩
    · exact follows.finished terminal
    · rw [Checkpoint.isTerminal, status] at terminal
      rw [Checkpoint.isTerminal, terminal] at live
      cases live
  · rw [SortedMap.get?_insert_of_ne _ _ mine] at found
    have kept := alarmed.finished id cp found terminal
    rcases follows with follows | ⟨_, unchanged, _⟩
    · rw [follows.others id mine, others id mine, kept]
    · rw [unchanged, others id mine, kept]

/-- Something that happens at a site whose publisher keeps timers. -/
inductive Happening where
  | moment (moment : Moment)
  /-- The timer of a flow fires, if it has one: it is lost, and its wake-up is handled. -/
  | fires (settings : Settings) (flow : FlowId)

namespace Services

/-- An event was committed or discarded, or it was committed and its records were not taken over. -/
def isDelivered : Except Stop ProcessingOutcome → Bool
  | .ok _ => true
  | .error (.error (.publish _ _)) => true
  | .error _ => false

/-- Let something happen; the result is that of a wake-up that a timer has delivered. -/
def happen (inner : Publisher π) (site : Site σ Store (Timers × π)) :
    Happening → Option (Except Stop ProcessingOutcome) × Site σ Store (Timers × π)
  | .moment moment => (none, (live ⟨Store.inMemory, Timers.publisher inner⟩ site moment).2)
  | .fires settings flow =>
    match site.published.1.due? flow with
    | none => (none, site)
    | some _ =>
      let fired := { site with published := (site.published.1.cancel flow, site.published.2) }
      let (result, site) := (Services.handle ⟨Store.inMemory, Timers.publisher inner⟩ settings
        ⟨flow, .wakeup⟩).run.run fired
      (some result, site)

/-- Let one thing happen after another; the results are those of the wake-ups that timers have
delivered. -/
def elapse (inner : Publisher π) : List Happening → Site σ Store (Timers × π) →
    List (Except Stop ProcessingOutcome) × Site σ Store (Timers × π)
  | [], site => ([], site)
  | happening :: rest, site =>
    let (woken, site) := happen inner site happening
    let (results, site) := elapse inner rest site
    (woken.toList ++ results, site)

theorem observed_of_published (inner : Publisher π) (records : List Record)
    (before : Timers × π) :
    (if records.isEmpty then before else ((Timers.publisher inner).publish records before).2).1 =
      before.1.observe records := by
  split
  next empty =>
    rw [List.isEmpty_iff.1 empty]
    rfl
  next => rfl

theorem live_alarmed (inner : Publisher π) {site : Site σ Store (Timers × π)}
    (alarmed : site.stored.Alarmed site.published.1) (moment : Moment) :
    let after := (live ⟨Store.inMemory, Timers.publisher inner⟩ site moment).2
    after.stored.Alarmed after.published.1 := by
  cases moment with
  | event settings event =>
      have handles := handle_handles (Timers.publisher inner) settings event alarmed.keyed
      simp only [live]
      generalize (Services.handle ⟨Store.inMemory, Timers.publisher inner⟩ settings
        event).run.run site = run at *
      obtain ⟨result, after⟩ := run
      cases handles with
      | stopped unpublished stored published | discarded refuses stored published =>
          rw [stored, published]
          exact alarmed
      | committed leads stored published =>
          rw [stored, published, observed_of_published]
          exact alarmed.commit leads (fun _ _ => rfl) (fun _ => rfl)
  | beginMaintenance owner attached => cases attached <;> exact alarmed
  | endMaintenance owner => exact alarmed

/-- A wake-up that is delivered makes up for the timer that was lost. -/
theorem handle_wakeup_alarmed (inner : Publisher π) {site : Site σ Store (Timers × π)}
    (alarmed : site.stored.Alarmed site.published.1) (settings : Settings) (flow : FlowId) :
    let fired := { site with published := (site.published.1.cancel flow, site.published.2) }
    let run := (Services.handle ⟨Store.inMemory, Timers.publisher inner⟩ settings
      ⟨flow, .wakeup⟩).run.run fired
    isDelivered run.1 → run.2.stored.Alarmed run.2.published.1 := by
  intro fired run delivered
  have others (other : FlowId) (differs : other ≠ flow) :
      fired.published.1.due? other = site.published.1.due? other := by
    simp only [fired, Timers.due?_cancel, if_neg differs]
  have handles : Handles (Timers.publisher inner) settings ⟨flow, .wakeup⟩ fired run.1 run.2 :=
    handle_handles (Timers.publisher inner) settings ⟨flow, .wakeup⟩ alarmed.keyed
  generalize run = after at *
  obtain ⟨result, after⟩ := after
  cases handles with
  | @stopped stop _ unpublished stored published =>
      cases stop with
      | error reason =>
          cases reason with
          | publish id error => exact absurd rfl (unpublished id error)
          | _ => cases delivered
      | time | entryLimit => cases delivered
  | discarded refuses stored published =>
      rw [stored, published]
      refine ⟨alarmed.keyed, alarmed.rousable, fun id cp due found alarm => ?_,
        fun id cp found terminal => ?_⟩
      · by_cases mine : id = flow
        · subst mine
          rw [Handler.alarm?_of_refuses refuses found (alarmed.rousable id cp found)] at alarm
          cases alarm
        · rw [others id mine]
          exact alarmed.alarm id cp due found alarm
      · by_cases mine : id = flow
        · subst mine
          simp only [fired, Timers.due?_cancel, if_pos]
        · rw [others id mine]
          exact alarmed.finished id cp found terminal
  | committed leads stored published =>
      rw [stored, published, observed_of_published]
      exact alarmed.commit leads others fun other => absurd rfl other

theorem elapse_alarmed (inner : Publisher π) {site : Site σ Store (Timers × π)}
    (alarmed : site.stored.Alarmed site.published.1) (happenings : List Happening)
    (delivered : ∀ result ∈ (elapse inner happenings site).1, isDelivered result) :
    let after := (elapse inner happenings site).2
    after.stored.Alarmed after.published.1 := by
  induction happenings generalizing site with
  | nil => exact alarmed
  | cons happening rest ih =>
      have split : (elapse inner (happening :: rest) site).1 =
          (happen inner site happening).1.toList ++
            (elapse inner rest (happen inner site happening).2).1 := rfl
      rw [split] at delivered
      refine ih ?_ fun result member => delivered result (List.mem_append_right _ member)
      have woken (result : Except Stop ProcessingOutcome)
          (woke : (happen inner site happening).1 = some result) : isDelivered result :=
        delivered result (List.mem_append_left _ (by simp [woke]))
      cases happening with
      | moment moment => exact live_alarmed inner alarmed moment
      | fires settings flow =>
          simp only [happen] at woken ⊢
          split
          · exact alarmed
          next due armed =>
            rw [armed] at woken
            exact handle_wakeup_alarmed inner alarmed settings flow (woken _ rfl)

/-- Timers agree with what is stored, however the transport fails. Over an empty store, and as long as
every wake-up that a timer delivers is committed or discarded, taken over or not, a stored flow that
waits for a point in time has a timer for just that point, and one that is over has no timer. Setting
the timers again from what is stored sets exactly those. -/
theorem timers_agree (inner : Publisher π) (host : Host σ) (published : π)
    (happenings : List Happening)
    (delivered : ∀ result ∈ (elapse inner happenings ⟨host, {}, ({}, published)⟩).1,
      isDelivered result) :
    let site := (elapse inner happenings ⟨host, {}, ({}, published)⟩).2
    (∀ id cp due, site.stored.get? id = some cp → cp.waitingFor.alarm? = some due →
        site.published.1.due? id = some due) ∧
      (∀ id cp, site.stored.get? id = some cp → cp.isTerminal → site.published.1.due? id = none) ∧
      ∀ id due, (Timers.recover {} site.stored).due? id = some due ↔
        ∃ cp, site.stored.get? id = some cp ∧ cp.waitingFor.alarm? = some due := by
  intro site
  have alarmed : site.stored.Alarmed site.published.1 :=
    elapse_alarmed inner Store.Alarmed.empty happenings delivered
  refine ⟨alarmed.alarm, alarmed.finished, fun id due => ?_⟩
  rw [Timers.due?_recover, Option.or_eq_left_of_none, Option.bind_eq_some_iff]
  rfl

/-- A transport that takes over nothing. -/
def down : Publisher Unit := ⟨fun _ state => (.error (.unavailable "down"), state)⟩

/-- An echo that waits for a limited time keeps its timer although the transport is down and the timer
has fired too early. -/
theorem timers_agree_early : ∃ results site,
    elapse down [.moment (.event Echo.timed Echo.begin), .fires Echo.timed Echo.flow]
        ⟨Echo.host, {}, ({}, ())⟩ = (results, site) ∧
      results.length = 1 ∧ (∀ result ∈ results, isDelivered result) ∧
      ∃ cp due, site.stored.get? Echo.flow = some cp ∧ cp.waitingFor.alarm? = some due ∧
        site.published.1.due? Echo.flow = some due := by
  let happenings : List Happening :=
    [.moment (.event Echo.timed Echo.begin), .fires Echo.timed Echo.flow]
  have delivered : (elapse down happenings ⟨Echo.host, {}, ({}, ())⟩).1.all isDelivered := by
    decide +kernel
  have fired : (elapse down happenings ⟨Echo.host, {}, ({}, ())⟩).1.length = 1 := by decide +kernel
  have waits : (((elapse down happenings ⟨Echo.host, {}, ({}, ())⟩).2.stored.get? Echo.flow).bind
      (·.waitingFor.alarm?)).isSome := by decide +kernel
  obtain ⟨armed, _⟩ := timers_agree down Echo.host () happenings (List.all_eq_true.1 delivered)
  obtain ⟨due, waits⟩ := Option.isSome_iff_exists.1 waits
  obtain ⟨cp, stored, alarm⟩ := Option.bind_eq_some_iff.1 waits
  exact ⟨_, _, rfl, fired, List.all_eq_true.1 delivered, cp, due, stored, alarm,
    armed _ cp due stored alarm⟩

end Services

end DurableFlow
