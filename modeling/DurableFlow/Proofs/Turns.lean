import DurableFlow.Proofs.Sites

/-! # What a turn of flow logic leaves behind

Whatever flow logic does, and whichever host runs it, its outcomes reach the checkpoint through
`Draft.applyOutcome` only. `Plays` follows one turn entry by entry; `Draft.Settles` forgets the
fibers and keeps what was written, which is enough for every invariant of stored checkpoints that
does not depend on the logic: `Draft.Settles.induction` is the one induction over a turn, and
`Services.run_stored` the one over a run.
-/

namespace DurableFlow

open Stateful

variable {σ α β : Type}

namespace Hosted

/-- A fiber was run, left an entry, and changed the world. -/
structure Enters (attempt : Attempt) (run : σ → FiberRun σ) (before : σ) (entry : Entry σ)
    (after : σ) : Prop where
  result : (run before).result = .ok entry.outcome
  fiber : entry.fiber = (run before).fiber
  effects : entry.effects = (run before).context.effects
  attempt : entry.attempt = attempt
  world : after = (run before).world

theorem enters_of_ok {attempt : Attempt} {run : σ → FiberRun σ} {entry : Entry σ}
    {before after : Host σ} (h : (enter attempt run).run.run before = (.ok entry, after)) :
    Enters attempt run before.world entry after.world := by
  obtain ⟨result, fiber, effects, same⟩ := enter_ok h
  refine ⟨result, fiber, effects, same, ?_⟩
  rw [run_enter] at h
  exact (congrArg (fun run => run.2.world) h).symm

/-- What follows an entry: its outcome is written into the draft, and as long as the wait that has
begun is over already, the fiber is resumed in place. -/
inductive Plays (exec : ExecutionContext σ) (settings : Settings) :
    Draft → Entry σ → σ → Draft → Fiber σ → σ → Prop where
  | done {draft after : Draft} {entry : Entry σ} {world : σ}
      (applied : draft.applyOutcome entry.outcome entry.effects entry.attempt settings.config
        settings.now = .ok (after, .done)) :
      Plays exec settings draft entry world after entry.fiber world
  | again {draft taken after : Draft} {entry next : Entry σ} {fiber : Fiber σ}
      {world middle left : σ} {value : Resumed}
      (applied : draft.applyOutcome entry.outcome entry.effects entry.attempt settings.config
        settings.now = .ok (taken, .resume value))
      (enters : Enters (.resume value) (entry.fiber.resume exec value
        (Context.ofCheckpoint taken.running.checkpoint settings.now)) world next middle)
      (rest : Plays exec settings taken.running next middle after fiber left) :
      Plays exec settings draft entry world after fiber left

theorem conclude_plays {exec : ExecutionContext σ} {settings : Settings} {fuel : Nat}
    {draft after : Draft} {entry : Entry σ} {fiber : Fiber σ} {before later : Host σ}
    (h : (conclude exec settings fuel draft entry).run.run before = (.ok (after, fiber), later)) :
    Plays exec settings draft entry before.world after fiber later.world := by
  induction fuel generalizing draft entry before with
  | zero => cases h
  | succ fuel ih =>
      rcases conclude_succ h with ⟨applied, rfl, rfl⟩ | ⟨_, _, _, _, applied, _, ran, h⟩
      · exact .done applied
      · exact .again applied (enters_of_ok ran) (ih h)

end Hosted

theorem Draft.Applied.status_of_resume {draft taken : Draft} {attempt : Attempt}
    {outcome : FiberOutcome} {value : Resumed}
    (applied : draft.Applied attempt outcome (taken, .resume value)) :
    taken.checkpoint.status = .suspended := by
  obtain ⟨_, _, parked, _, parks, answered⟩ := applied.of_resume
  obtain ⟨sessions, _, rfl⟩ := Draft.answered_of_answerWait answered
  exact congrArg Checkpoint.status parks.rest

/-- How a draft fares while flow logic is run on it, whatever the logic does. -/
inductive Draft.Settles (settings : Settings) : Attempt → Draft → Draft → Prop where
  | done {attempt : Attempt} {draft after : Draft} {outcome : FiberOutcome} {effects : Effects}
      (applied : draft.applyOutcome outcome effects attempt settings.config settings.now =
        .ok (after, .done)) :
      Settles settings attempt draft after
  | again {attempt : Attempt} {draft taken after : Draft} {outcome : FiberOutcome}
      {effects : Effects} {value : Resumed}
      (applied : draft.applyOutcome outcome effects attempt settings.config settings.now =
        .ok (taken, .resume value))
      (rest : Settles settings (.resume value) taken.running after) :
      Settles settings attempt draft after

/-- What holds of a draft whose flow is entered, and is kept when the flow is entered again in
place, holds when the last outcome is written. -/
theorem Draft.Settles.induction {settings : Settings} {P : Attempt → Draft → Prop}
    (step : ∀ attempt draft outcome effects taken value, P attempt draft →
      draft.applyOutcome outcome effects attempt settings.config settings.now =
        .ok (taken, .resume value) → P (.resume value) taken.running)
    {attempt : Attempt} {draft after : Draft} (settles : draft.Settles settings attempt after)
    (start : P attempt draft) :
    ∃ last attempt outcome effects, P attempt last ∧
      last.applyOutcome outcome effects attempt settings.config settings.now =
        .ok (after, .done) := by
  induction settles with
  | done applied => exact ⟨_, _, _, _, start, applied⟩
  | again applied rest ih => exact ih (step _ _ _ _ _ _ start applied)

theorem Hosted.Plays.settles {exec : ExecutionContext σ} {settings : Settings}
    {draft after : Draft} {entry : Entry σ} {fiber : Fiber σ} {world left : σ}
    (plays : Plays exec settings draft entry world after fiber left) :
    draft.Settles settings entry.attempt after := by
  induction plays with
  | done applied => exact .done applied
  | again applied enters rest ih =>
      rw [enters.attempt] at ih
      exact .again applied ih

/-- How a decision has flow logic entered, if at all. -/
def Decision.attempt? : Decision → Option Attempt
  | .start _ => some .start
  | .resume value => some (.resume value)
  | .skip => none

/-- What a decision comes to. -/
inductive Prepared.Settles (settings : Settings) : Prepared → Draft → Prop where
  | skipped {draft : Draft} : Settles settings ⟨draft, .skip⟩ draft
  | ran {draft after : Draft} {decision : Decision} {attempt : Attempt}
      (enters : decision.attempt? = some attempt)
      (settles : draft.running.Settles settings attempt after) :
      Settles settings ⟨draft, decision⟩ after

namespace Hosted

theorem enter_settles {exec : ExecutionContext σ} {settings : Settings} {attempt : Attempt}
    {run : σ → FiberRun σ} {draft after : Draft} {entry : Entry σ} {fiber : Fiber σ}
    {before middle later : Host σ} (ran : (enter attempt run).run.run before = (.ok entry, middle))
    (concludes : (conclude exec settings settings.entryLimit draft entry).run.run middle =
      (.ok (after, fiber), later)) : draft.Settles settings attempt after := by
  have settles := (conclude_plays concludes).settles
  rw [(enters_of_ok ran).attempt] at settles
  exact settles

theorem begin_settles {exec : ExecutionContext σ} {settings : Settings} {draft after : Draft}
    {args : Bytes} {suspended : Option (Suspended σ)} {before later : Host σ}
    (h : (begin exec settings draft args).run.run before = (.ok (after, suspended), later)) :
    draft.running.Settles settings .start after := by
  obtain ⟨_, ⟨_, _, applied, _⟩ | ⟨_, _, _, _, _, ran, concludes, _⟩⟩ := begin_ok h
  · exact .done applied
  · exact enter_settles ran concludes

theorem proceed_settles {exec : ExecutionContext σ} {settings : Settings} {draft after : Draft}
    {value : Resumed} {fiber : Fiber σ} {suspended : Option (Suspended σ)} {before later : Host σ}
    (h : (proceed exec settings draft value fiber).run.run before = (.ok (after, suspended), later)) :
    draft.Settles settings (.resume value) after := by
  obtain ⟨_, _, _, ran, concludes, _⟩ := proceed_ok h
  exact enter_settles ran concludes

theorem follow_settles {settings : Settings} {prepared : Prepared} {after : Draft}
    {suspended : Option (Suspended σ)} {before later : Host σ}
    (h : (follow settings prepared).run.run before = (.ok (after, suspended), later)) :
    prepared.Settles settings after := by
  rcases prepared with ⟨draft, args | value | _⟩
  · rw [follow_start, run_bind_ok] at h
    obtain ⟨exec, _, _, h⟩ := h
    exact .ran rfl (begin_settles h)
  · rw [follow_resume, run_bind_ok] at h
    obtain ⟨exec, _, _, h⟩ := h
    rw [run_bind_ok] at h
    obtain ⟨running, _, first, h⟩ := h
    obtain ⟨moved, rfl⟩ := ofOutcome_ok.1 first
    obtain ⟨_, rfl⟩ := Draft.setStatus_ok.1 moved
    rw [run_bind_ok] at h
    obtain ⟨fiber, _, _, h⟩ := h
    exact .ran rfl (proceed_settles h)
  · cases h
    exact .skipped

end Hosted

/-- All that can lead from an event and the stored checkpoint of its flow to a commit, on any host
and whatever the flow logic does. -/
structure Plan.Leads (settings : Settings) (event : Event) (loaded : Option Checkpoint)
    (commit : Commit σ) : Prop where
  live : ∀ cp, loaded = some cp → cp.isTerminal = false
  course : ∃ prepared draft,
    Handler.Prepares event.flowId settings.config settings.now event.payload loaded prepared ∧
      prepared.Settles settings draft ∧
      commit.checkpoint = { draft.checkpoint with updatedAt := settings.now } ∧
      commit.records = draft.records
  expected : commit.expected = (loaded.map (·.version)).getD 0

/-- How a commit comes about on any host: what the event did to the stored checkpoint, and how the
draft fared then. -/
structure Plan.Arises (settings : Settings) (event : Event) (loaded : Option Checkpoint)
    (commit : Commit σ) (prepared : Prepared) (draft : Draft) : Prop where
  live : ∀ cp, loaded = some cp → cp.isTerminal = false
  prepares : Handler.prepare event.flowId event.payload settings.config settings.now loaded =
    .ok prepared
  settles : prepared.Settles settings draft
  checkpoint : commit.checkpoint = { draft.checkpoint with updatedAt := settings.now }
  records : commit.records = draft.records
  expected : commit.expected = (loaded.map (·.version)).getD 0

theorem Plan.Arises.leads {settings : Settings} {event : Event} {loaded : Option Checkpoint}
    {commit : Commit σ} {prepared : Prepared} {draft : Draft}
    (arises : Arises settings event loaded commit prepared draft) :
    Leads settings event loaded commit :=
  ⟨arises.live, ⟨prepared, draft, Handler.prepare_prepares arises.prepares, arises.settles,
    arises.checkpoint, arises.records⟩, arises.expected⟩

theorem Plan.ofEvent_arises {settings : Settings} {event : Event} {loaded : Option Checkpoint}
    {commit : Commit σ} {before later : Host σ}
    (h : (ofEvent settings event loaded).run.run before = (.ok (.commit commit), later)) :
    ∃ prepared draft, Arises settings event loaded commit prepared draft := by
  unfold ofEvent at h
  split at h
  · cases h
  next live =>
    have live : ∀ cp, loaded = some cp → cp.isTerminal = false := by
      rintro cp rfl
      simpa using live
    split at h
    · cases h
    · cases h
    next prepared prepares =>
      rw [ofPrepared, run_bind_ok] at h
      obtain ⟨⟨draft, suspended⟩, _, followed, h⟩ := h
      cases h
      exact ⟨prepared, draft, live, prepares, Hosted.follow_settles followed, rfl, rfl, rfl⟩

theorem Plan.ofEvent_leads {settings : Settings} {event : Event} {loaded : Option Checkpoint}
    {commit : Commit σ} {before later : Host σ}
    (h : (ofEvent settings event loaded).run.run before = (.ok (.commit commit), later)) :
    Leads settings event loaded commit := by
  obtain ⟨_, _, arises⟩ := ofEvent_arises h
  exact arises.leads

namespace Hosted

/-- A computation that never reports a failure to publish. -/
def Unpublished (c : Hosted σ α) : Prop :=
  ∀ host id error, (c.run.run host).1 ≠ .error (.error (.publish id error))

namespace Unpublished

theorem bind {c : Hosted σ α} {f : α → Hosted σ β} (first : Unpublished c)
    (rest : ∀ a, Unpublished (f a)) : Unpublished (c >>= f) := by
  intro host id error
  have first := first host id error
  rw [run_bind]
  rcases ran : c.run.run host with ⟨stop | a, after⟩
  · rw [ran] at first
    intro same
    exact first (congrArg Except.error (Except.error.inj same))
  · exact rest a after id error

theorem pure (a : α) : Unpublished (σ := σ) (Pure.pure a) := by
  intro _ _ _ h
  cases h

theorem ofFiber (result : Except FiberError α) : Unpublished (σ := σ) (Hosted.ofFiber result) := by
  intro host id error h
  rw [Hosted.ofFiber, run_result] at h
  cases result <;> cases h

theorem ofOutcome (result : Except OutcomeError α) :
    Unpublished (σ := σ) (Hosted.ofOutcome result) := by
  intro host id error h
  rw [Hosted.ofOutcome, run_result] at h
  rcases result with (_ | _) | _ <;> cases h

theorem acquire (owner : Identity) : Unpublished (σ := σ) (Hosted.acquire owner) := by
  intro host id error h
  rw [run_acquire] at h
  cases given : (host.environments.acquire owner).1 <;> simp [given] at h

theorem enter (attempt : Attempt) (run : σ → FiberRun σ) :
    Unpublished (Hosted.enter attempt run) := by
  intro host id error h
  rw [run_enter] at h
  cases left : (run host.world).result <;> simp [left, Except.map] at h

theorem awaken (exec : ExecutionContext σ) (cp : Checkpoint) (instant : Nat) :
    Unpublished (Hosted.awaken exec cp instant) := by
  intro host id error
  rw [run_awaken]
  rcases host.cache.take instant cp.flowId cp.version exec with ⟨_ | fiber, cache⟩
  · unfold revive
    cases cp.continuation with
    | none =>
        intro h
        cases h
    | some continuation => exact ofFiber _ _ id error
  · intro h
    cases h

theorem conclude (exec : ExecutionContext σ) (settings : Settings) (fuel : Nat) (draft : Draft)
    (entry : Entry σ) : Unpublished (Hosted.conclude exec settings fuel draft entry) := by
  induction fuel generalizing draft entry with
  | zero =>
      intro _ _ _ h
      cases h
  | succ fuel ih =>
      refine bind (ofOutcome _) fun ⟨draft, next⟩ => ?_
      cases next with
      | done => exact pure _
      | resume value =>
          exact bind (ofOutcome _) fun draft => bind (enter _ _) fun entry => ih draft entry

theorem begin (exec : ExecutionContext σ) (settings : Settings) (draft : Draft) (args : Bytes) :
    Unpublished (Hosted.begin exec settings draft args) := by
  refine bind (ofOutcome _) fun draft => ?_
  unfold start
  simp only
  split
  · exact bind (ofOutcome _) fun _ => pure _
  · exact bind (ofFiber _) fun _ => bind (enter _ _) fun _ =>
      bind (conclude _ _ _ _ _) fun _ => pure _

theorem proceed (exec : ExecutionContext σ) (settings : Settings) (draft : Draft) (value : Resumed)
    (fiber : Fiber σ) : Unpublished (Hosted.proceed exec settings draft value fiber) :=
  bind (enter _ _) fun _ => bind (conclude _ _ _ _ _) fun _ => pure _

theorem follow (settings : Settings) (prepared : Prepared) :
    Unpublished (σ := σ) (Hosted.follow settings prepared) := by
  rcases prepared with ⟨draft, args | value | _⟩
  · rw [follow_start]
    exact bind (acquire _) fun exec => begin exec settings draft args
  · rw [follow_resume]
    exact bind (acquire _) fun exec => bind (ofOutcome _) fun draft =>
      bind (awaken _ _ _) fun fiber => proceed _ _ _ _ _
  · exact pure _

end Unpublished

end Hosted

/-- An event is refused: its flow is over, or the event does not apply. -/
def Plan.Refuses (settings : Settings) (event : Event) (loaded : Option Checkpoint)
    (reason : Refusal) : Prop :=
  (∃ cp, loaded = some cp ∧ cp.isTerminal) ∨
    Handler.prepare event.flowId event.payload settings.config settings.now loaded =
      .error (.refused reason)

theorem Plan.ofEvent_discard {settings : Settings} {event : Event} {loaded : Option Checkpoint}
    {reason : Refusal} {before later : Host σ}
    (h : (ofEvent settings event loaded).run.run before = (.ok (.discard reason), later)) :
    Refuses settings event loaded reason := by
  unfold ofEvent at h
  split at h
  next cp finished =>
    obtain ⟨found, terminal⟩ := Option.filter_eq_some_iff.1 finished
    exact .inl ⟨cp, found, terminal⟩
  next =>
    split at h
    next refused =>
      cases h
      exact .inr refused
    · cases h
    next =>
      rw [ofPrepared, run_bind_ok] at h
      obtain ⟨⟨draft, suspended⟩, _, _, h⟩ := h
      cases h

theorem Plan.ofEvent_unpublished (settings : Settings) (event : Event) (loaded : Option Checkpoint) :
    Hosted.Unpublished (σ := σ) (ofEvent settings event loaded) := by
  unfold ofEvent
  split
  · exact .pure _
  · split
    · exact .pure _
    · intro _ _ _ h
      cases h
    · exact .bind (.follow _ _) fun _ => .pure _

theorem Plan.unpublished_of_stop {settings : Settings} {event : Event} {loaded : Option Checkpoint}
    {host after : Host σ} {stop : Stop}
    (ran : (ofEvent settings event loaded).run.run host = (.error stop, after)) (id : FlowId)
    (error : PublishError) : stop ≠ .error (.publish id error) := by
  rintro rfl
  exact ofEvent_unpublished settings event loaded host id error (congrArg Prod.fst ran)

theorem Plan.Leads.flowId_eq {settings : Settings} {event : Event} {loaded : Option Checkpoint}
    {commit : Commit σ} (leads : Leads settings event loaded commit)
    (isOf : Checkpoint.IsOf loaded event.flowId) : commit.checkpoint.flowId = event.flowId := by
  obtain ⟨prepared, draft, prepares, settles, checkpoint, _⟩ := leads.course
  have flowId := prepares.flowId_eq isOf
  rw [checkpoint]
  cases settles with
  | skipped => exact flowId
  | ran enters settles =>
      obtain ⟨last, _, _, _, same, applied⟩ := settles.induction
        (P := fun _ draft => draft.checkpoint.flowId = event.flowId)
        (fun _ _ _ _ _ _ same applied => (Draft.applyOutcome_ok applied).sameFlow.flowId.trans same)
        flowId
      exact (Draft.applyOutcome_ok applied).sameFlow.flowId.trans same

namespace Services

variable {π : Type}

/-- What handling an event at a site over a store in memory can come to. -/
inductive Handles (publisher : Publisher π) (settings : Settings) (event : Event)
    (before : Site σ Store π) : Except Stop ProcessingOutcome → Site σ Store π → Prop where
  | stopped {stop : Stop} {after : Site σ Store π}
      (unpublished : ∀ id error, stop ≠ .error (.publish id error))
      (stored : after.stored = before.stored) (published : after.published = before.published) :
      Handles publisher settings event before (.error stop) after
  | discarded {reason : Refusal} {after : Site σ Store π}
      (refuses : Plan.Refuses settings event (before.stored.get? event.flowId) reason)
      (stored : after.stored = before.stored) (published : after.published = before.published) :
      Handles publisher settings event before (.ok (.discarded event.flowId reason)) after
  | committed {result : Except Stop ProcessingOutcome} {commit : Commit σ} {after : Site σ Store π}
      (leads : Plan.Leads settings event (before.stored.get? event.flowId) commit)
      (stored : after.stored = before.stored.insert event.flowId commit.written)
      (published : after.published = if commit.records.isEmpty then before.published
        else (publisher.publish commit.records before.published).2) :
      Handles publisher settings event before result after

theorem handle_handles (publisher : Publisher π) (settings : Settings) (event : Event)
    {site : Site σ Store π} (keyed : site.stored.Keyed) :
    let run := (Services.handle ⟨Store.inMemory, publisher⟩ settings event).run.run site
    Handles publisher settings event site run.1 run.2 := by
  simp only [run_handle, Store.inMemory_load]
  rcases planned : (Plan.ofEvent settings event (site.stored.get? event.flowId)).run.run site.host
    with ⟨stop | reason | commit, host⟩
  · exact .stopped (Plan.unpublished_of_stop planned) rfl rfl
  · exact .discarded (Plan.ofEvent_discard planned) rfl rfl
  · have leads := Plan.ofEvent_leads planned
    have flowId := leads.flowId_eq (keyed _)
    simp only [run_commit, Store.inMemory_save]
    by_cases admits : Store.admits site.stored commit.checkpoint.flowId commit.expected
    · simp only [Store.save, if_pos admits, run_publish]
      have written : site.stored.insert commit.checkpoint.flowId commit.written =
          site.stored.insert event.flowId commit.written := by rw [flowId]
      by_cases empty : commit.records.isEmpty
      · simp only [if_pos empty]
        exact .committed leads written (by rw [if_pos empty])
      · simp only [if_neg empty]
        exact .committed leads written (by rw [if_neg empty])
    · simp only [Store.save, if_neg admits]
      exact .stopped (fun id error same => by cases same) rfl rfl

theorem live_stored (publisher : Publisher π) {P : FlowId → Checkpoint → Prop}
    (step : ∀ settings event loaded (commit : Commit σ), Checkpoint.IsOf loaded event.flowId →
      (∀ cp, loaded = some cp → P event.flowId cp) →
      Plan.Leads settings event loaded commit → P event.flowId commit.written)
    {site : Site σ Store π} (keyed : site.stored.Keyed)
    (holds : ∀ id cp, site.stored.get? id = some cp → P id cp) (moment : Moment) :
    let after := (Services.live ⟨Store.inMemory, publisher⟩ site moment).2
    after.stored.Keyed ∧ ∀ id cp, after.stored.get? id = some cp → P id cp := by
  cases moment with
  | event settings event =>
      have handles := handle_handles publisher settings event keyed
      simp only [live]
      generalize (Services.handle ⟨Store.inMemory, publisher⟩ settings event).run.run site = run at *
      obtain ⟨result, after⟩ := run
      cases handles with
      | stopped unpublished stored published | discarded refuses stored published =>
          rw [stored]
          exact ⟨keyed, holds⟩
      | committed leads stored published =>
          have isOf := keyed event.flowId
          rw [stored]
          exact ⟨SortedMap.forall_get?_insert keyed (leads.flowId_eq isOf),
            SortedMap.forall_get?_insert holds (step _ _ _ _ isOf (holds _) leads)⟩
  | beginMaintenance owner attached => cases attached <;> exact ⟨keyed, holds⟩
  | endMaintenance owner => exact ⟨keyed, holds⟩

/-- What every commit keeps is true of all that is ever stored. -/
theorem run_stored (publisher : Publisher π) {P : FlowId → Checkpoint → Prop}
    (step : ∀ settings event loaded (commit : Commit σ), Checkpoint.IsOf loaded event.flowId →
      (∀ cp, loaded = some cp → P event.flowId cp) →
      Plan.Leads settings event loaded commit → P event.flowId commit.written)
    {site : Site σ Store π} (keyed : site.stored.Keyed)
    (holds : ∀ id cp, site.stored.get? id = some cp → P id cp) (moments : List Moment) :
    ∀ id cp, (Services.run ⟨Store.inMemory, publisher⟩ moments site).2.stored.get? id = some cp →
      P id cp := by
  induction moments generalizing site with
  | nil => exact holds
  | cons moment rest ih =>
      obtain ⟨keyed, holds⟩ := live_stored publisher step keyed holds moment
      exact ih keyed holds

end Services

end DurableFlow
