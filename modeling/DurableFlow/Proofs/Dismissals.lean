import DurableFlow.Faults
import DurableFlow.Proofs.Fleets
import DurableFlow.Samples.Echo

/-! # A flow is given up from outside

An event that fails a flow looks at nothing but its checkpoint: no context is acquired, no continuation is
read and no logic is run. So it comes through in whatever state the host is, for every flow that is not
over: `Checkpoint.Wants` is all that it needs to know of one. What it writes and hands over is
`Checkpoint.dismissed` and `Checkpoint.farewells`.
-/

namespace DurableFlow

open Samples Stateful

variable {σ δ τ π ρ : Type}

/-- What the counterparty of a session is told when its flow is given up. -/
def Record.ofError (flowId : FlowId) (reason : String) (entry : SessionId × Session) : Record :=
  .sessionError flowId entry.1 entry.2.counterparty reason

namespace Checkpoint

/-- A flow that is not over waits for something that an event may bring. -/
def Wants (cp : Checkpoint) : Prop := cp.isTerminal = false → cp.waitingFor.answer?.isSome

/-- The sessions that are open. -/
def stillOpen (cp : Checkpoint) : SortedMap SessionId Session :=
  cp.sessions.filter fun _ session => session.isOpen

/-- The checkpoint of a flow that was given up at a point in time. -/
def dismissed (cp : Checkpoint) (reason : String) (now : Timestamp) : Checkpoint :=
  { cp with
    status := .failed
    sessions := cp.sessions.mapValues fun _ session =>
      if session.isOpen then { session with status := .errored } else session
    waitingFor := .nothing
    pendingResume := none
    lastFailureReason := some reason
    updatedAt := now }

/-- What is handed over for a flow that was given up. -/
def farewells (cp : Checkpoint) (reason : String) (expiresAt : Timestamp) : List Record :=
  cp.stillOpen.entries.map (.ofError cp.flowId reason) ++
    [.flowStatus cp.flowId .failed (some reason), .scheduleCleanup cp.flowId expiresAt]

theorem mem_stillOpen {cp : Checkpoint} {id : SessionId} {session : Session} :
    (id, session) ∈ cp.stillOpen.entries ↔ cp.sessions.get? id = some session ∧ session.isOpen := by
  rw [SortedMap.mem_entries, stillOpen, SortedMap.get?_filter, Option.filter_eq_some_iff]

theorem get?_dismissed (cp : Checkpoint) (reason : String) (now : Timestamp) (id : SessionId) :
    (cp.dismissed reason now).sessions.get? id = (cp.sessions.get? id).map fun session =>
      if session.isOpen then { session with status := .errored } else session :=
  SortedMap.get?_mapValues _ _ _

theorem farewells_eq (cp : Checkpoint) (reason : String) (expiresAt : Timestamp) :
    ∃ erred : List (SessionId × Session),
      erred.Pairwise (fun a b => compare a.1 b.1 = .lt) ∧
      (∀ id session, (id, session) ∈ erred ↔ cp.sessions.get? id = some session ∧ session.isOpen) ∧
      cp.farewells reason expiresAt =
        erred.map (fun (id, session) => .sessionError cp.flowId id session.counterparty reason) ++
          [.flowStatus cp.flowId .failed (some reason), .scheduleCleanup cp.flowId expiresAt] :=
  ⟨cp.stillOpen.entries, cp.stillOpen.sorted, fun _ _ => mem_stillOpen, rfl⟩

end Checkpoint

namespace Draft

theorem foldlM_errorSession (reason : String) {listed : List (SessionId × Session)}
    (distinct : (listed.map (·.1)).Nodup) (draft : Draft)
    (found : ∀ entry ∈ listed, draft.checkpoint.sessions.get? entry.1 = some entry.2) :
    ∃ sessions, (listed.map (·.1)).foldlM (errorSession reason) draft =
        .ok ⟨{ draft.checkpoint with sessions },
          draft.records ++ listed.map (.ofError draft.checkpoint.flowId reason)⟩ ∧
      ∀ id, sessions.get? id = if id ∈ listed.map (·.1)
        then (draft.checkpoint.sessions.get? id).map errored
        else draft.checkpoint.sessions.get? id := by
  induction listed generalizing draft with
  | nil =>
      refine ⟨draft.checkpoint.sessions, ?_, fun _ => rfl⟩
      exact congrArg (Except.ok ∘ Draft.mk draft.checkpoint) (List.append_nil _).symm
  | cons entry rest ih =>
      obtain ⟨id, session⟩ := entry
      obtain ⟨apart, distinct⟩ := List.nodup_cons.mp distinct
      obtain ⟨here, others⟩ := List.forall_mem_cons.mp found
      let next : Draft := ⟨draft.checkpoint.putSession id (errored session),
        draft.records ++ [.ofError draft.checkpoint.flowId reason (id, session)]⟩
      have first : draft.errorSession reason id = .ok next := by
        simp only [errorSession, bind_eq_ok, pure_eq_ok, session_ok]
        exact ⟨session, here, rfl⟩
      have kept (other : SessionId) (differs : other ≠ id) :
          next.checkpoint.sessions.get? other = draft.checkpoint.sessions.get? other :=
        SortedMap.get?_insert_of_ne _ _ differs
      obtain ⟨sessions, done, after⟩ := ih distinct next fun entry member => by
        have differs : entry.1 ≠ id := by
          rintro rfl
          have listed : entry.1 ∈ rest.map (·.1) := List.mem_map_of_mem member
          exact apart listed
        rw [kept entry.1 differs]
        exact others entry member
      refine ⟨sessions, ?_, fun other => ?_⟩
      · rw [List.map_cons, List.foldlM_cons, bind_eq_ok]
        refine ⟨next, first, done.trans ?_⟩
        simp only [next, Checkpoint.putSession, List.append_assoc, List.map_cons, List.singleton_append]
      · by_cases same : other = id
        · subst same
          have given : next.checkpoint.sessions.get? other = some (errored session) :=
            SortedMap.get?_insert_self _ _ _
          simp only [after, given, here, List.map_cons, List.mem_cons, apart, true_or, if_true, if_false,
            Option.map_some]
        · simp only [after, kept other same, List.map_cons, List.mem_cons, same, false_or]

theorem sessions_dismissed {cp : Checkpoint} (reason : String) (now : Timestamp)
    {sessions : SortedMap SessionId Session}
    (after : ∀ id, sessions.get? id = if id ∈ cp.stillOpen.keys
      then (cp.sessions.get? id).map errored
      else cp.sessions.get? id) :
    sessions = (cp.dismissed reason now).sessions := by
  refine SortedMap.ext_get? fun id => ?_
  rw [after id, Checkpoint.get?_dismissed]
  cases found : cp.sessions.get? id with
  | none => simp
  | some session =>
      have listed : id ∈ cp.stillOpen.keys ↔ session.isOpen := by
        refine SortedMap.mem_keys_filter.trans ?_
        simp [found]
      by_cases isOpen : session.isOpen <;> simp [listed, isOpen, errored]

/-- A flow can be given up whenever it is not over. -/
theorem fail_eq {cp : Checkpoint} (live : cp.isTerminal = false) (reason : String) {config : Config}
    {now expiresAt : Timestamp} (inRange : config.expiry now = .ok expiresAt) :
    ∃ draft, fail ⟨cp, []⟩ reason config now = .ok draft ∧
      { draft.checkpoint with updatedAt := now } = cp.dismissed reason now ∧
      draft.records = cp.farewells reason expiresAt := by
  have moves : cp.status.canMoveTo .failed := by
    rw [Checkpoint.isTerminal] at live
    revert live
    cases cp.status <;> decide
  have moved : setStatus ⟨cp, []⟩ .failed = .ok ⟨{ cp with status := .failed }, []⟩ :=
    setStatus_ok.mpr ⟨moves, rfl⟩
  obtain ⟨sessions, done, after⟩ := foldlM_errorSession reason
    (SortedMap.nodup_keys cp.stillOpen) ⟨{ cp with status := .failed }, []⟩
    fun _ member => (Checkpoint.mem_stillOpen.mp member).1
  have same := sessions_dismissed reason now after
  have announced (given : Draft) : given.announceEnd .failed (some reason) config now =
      .ok ((given.emit (.flowStatus given.checkpoint.flowId .failed (some reason))).emit
        (.scheduleCleanup given.checkpoint.flowId expiresAt)) := by
    rw [announceEnd, inRange]
    rfl
  let given : Draft := ⟨{ cp with status := .failed, sessions },
    cp.stillOpen.entries.map (.ofError cp.flowId reason)⟩
  let last : Draft := { given with checkpoint := { given.checkpoint with
    waitingFor := .nothing
    pendingResume := none
    lastFailureReason := some reason } }
  refine ⟨(last.emit (.flowStatus cp.flowId .failed (some reason))).emit
    (.scheduleCleanup cp.flowId expiresAt), ?_, ?_, ?_⟩
  · simp only [fail, bind_eq_ok]
    exact ⟨_, moved, given, done, announced last⟩
  · simp only [emit, last, given, same]
    rfl
  · simp only [emit, last, given, Checkpoint.farewells, List.append_assoc, List.singleton_append]

end Draft

theorem Plan.ofEvent_failure {cp : Checkpoint} (live : cp.isTerminal = false) (wants : cp.Wants)
    (flow : FlowId) (reason : String) {settings : Settings} {expiresAt : Timestamp}
    (inRange : settings.config.expiry settings.now = .ok expiresAt) (host : Host σ) :
    (ofEvent settings ⟨flow, .failure reason⟩ (some cp)).run.run host =
      (.ok (.commit
        { checkpoint := cp.dismissed reason settings.now
          expected := cp.version
          records := cp.farewells reason expiresAt
          ran := false
          suspended := none }), host) := by
  have applies : Handler.accepts (.failure reason) (some cp.waitingFor) := by
    have answerable := wants live
    simp only [Handler.accepts]
    revert answerable
    cases cp.waitingFor <;> simp [Wait.answer?, Wait.kind]
  obtain ⟨draft, failed, checkpoint, records⟩ := Draft.fail_eq live reason inRange
  have prepared : Handler.prepare flow (.failure reason) settings.config settings.now (some cp) =
      .ok ⟨draft, .skip⟩ := by
    simp only [Handler.prepare, Option.map_some, applies, if_true, Handler.preprocess, Handler.failure,
      failed]
  have goesOn : (some cp).filter Checkpoint.isTerminal = none := by simp [Option.filter, live]
  simp only [ofEvent, goesOn, prepared]
  rw [← checkpoint, ← records]
  rfl

theorem Draft.Applied.wants {draft after : Draft} {attempt : Attempt} {outcome : FiberOutcome}
    (applied : draft.Applied attempt outcome (after, .done)) : after.checkpoint.Wants := by
  intro live
  generalize result : (after, Next.done) = r at applied
  cases applied with
  | suspended parks =>
      cases eq_of_answerWait_done result.symm
      rw [parks.answer]
      rfl
  | completed _ _ rest | failed _ _ rest =>
      cases result
      rw [rest] at live
      cases live
  | retried _ rest =>
      cases result
      rw [rest]
      rfl

theorem Handler.Prepares.wants {flowId : FlowId} {config : Config} {now : Timestamp}
    {payload : EventPayload} {cp : Checkpoint} {draft : Draft}
    (prepares : Prepares flowId config now payload (some cp) ⟨draft, .skip⟩)
    (before : cp.isTerminal = false) (wants : cp.Wants) : draft.checkpoint.Wants := by
  intro live
  cases prepares with
  | kept | early => exact wants before
  | counted => rfl
  | failed failed =>
      obtain ⟨_, _, _, rest⟩ := Draft.fail_ok failed
      rw [rest] at live
      cases live

theorem Plan.Leads.wants {settings : Settings} {event : Event} {loaded : Option Checkpoint}
    {commit : Commit σ} (leads : Leads settings event loaded commit)
    (wants : ∀ cp, loaded = some cp → cp.Wants) : commit.written.Wants := by
  obtain ⟨prepared, draft, prepares, settles, checkpoint, _⟩ := leads.course
  have holds : draft.checkpoint.Wants := by
    cases settles with
    | skipped =>
        cases loaded with
        | none =>
            obtain ⟨_, _, starts⟩ := prepares.starts
            cases starts
        | some cp => exact prepares.wants (leads.live cp rfl) (wants cp rfl)
    | ran enters settles =>
        obtain ⟨last, _, _, _, _, applied⟩ :=
          settles.induction (P := fun _ _ => True) (fun _ _ _ _ _ _ _ _ => trivial) trivial
        exact (Draft.applyOutcome_ok applied).wants
  rw [Commit.written, checkpoint]
  exact holds

namespace Fleet

theorem wants_of_stored [DecidableEq δ] (hosts : δ → Host σ) (publishers : δ → Publisher π)
    (published : π) (moves : List (Move σ δ)) {flow : FlowId} {cp : Checkpoint}
    (stored : ((launch hosts published).run publishers moves).stored.get? flow = some cp) :
    cp.flowId = flow ∧ cp.Wants := by
  have sound := Law.sound_of_run Law.plain_kept publishers
    (Law.sound_launch hosts published fun _ => trivial) moves fun _ _ _ _ => trivial
  rw [sound.stored flow] at stored
  have line := sound.lines flow
  refine ⟨line.isOf Law.plain_kept.leads (.last _) cp stored, ?_⟩
  exact line.induction (P := Checkpoint.Wants)
    (fun _ _ _ _ _ _ _ wants planned => (Law.plain_kept.leads planned).wants wants) (.last _) cp stored

end Fleet

/-- A store that keeps to its contract when a write goes through: the checkpoint is there at the version
after the expected one. `view` shows what the store holds. -/
def CheckpointStore.Commits (store : CheckpointStore τ) (view : τ → Store) : Prop :=
  ∀ cp expected state version after, store.save cp expected state = (.ok (.saved version), after) →
    version = expected + 1 ∧ (view after).get? cp.flowId = some { cp with version := expected + 1 }

theorem Store.save_commits {store : Store} {cp : Checkpoint} {expected version : Nat} {after : Store}
    (saved : store.save cp expected = (.saved version, after)) :
    version = expected + 1 ∧ after.get? cp.flowId = some { cp with version := expected + 1 } := by
  unfold Store.save at saved
  split at saved
  · cases saved
    exact ⟨rfl, SortedMap.get?_insert_self _ _ _⟩
  · cases saved

theorem Store.inMemory_commits : Store.inMemory.Commits id := by
  intro cp expected store version after saved
  rw [Store.inMemory_save] at saved
  rcases done : store.save cp expected with ⟨outcome, stored⟩
  rw [done] at saved
  cases saved
  exact Store.save_commits done

theorem FaultyStore.service_commits : FaultyStore.service.Commits FaultyStore.stored := by
  intro cp expected store version after saved
  have written {before : Store} (saved : (Except.ok (ε := StoreError) (before.save cp expected).1,
      { store with saveFault := none, stored := (before.save cp expected).2 }) =
        (.ok (.saved version), after)) :
      version = expected + 1 ∧
        after.stored.get? cp.flowId = some { cp with version := expected + 1 } := by
    obtain ⟨outcome, rfl⟩ := Prod.mk.inj saved
    exact Store.save_commits (Prod.ext (Except.ok.inj outcome) rfl)
  change store.save cp expected = _ at saved
  unfold FaultyStore.save at saved
  split at saved
  · exact written saved
  · cases saved
  · exact written saved
  · exact written saved

/-- What has become of a site at which a flow was given up that had a checkpoint. -/
structure Services.Dismisses (services : Services τ ρ) (view : τ → Store) (cp : Checkpoint)
    (reason : String) (now expiresAt : Timestamp) (site after : Site σ τ ρ)
    (result : Except Stop ProcessingOutcome) : Prop where
  committed : (services.publisher.publish (cp.farewells reason expiresAt) site.published).1 = .ok () →
    result = .ok (.committed cp.flowId (cp.version + 1) .failed)
  /-- The publisher has the last word, but only on the result. -/
  refused : ∀ error,
    (services.publisher.publish (cp.farewells reason expiresAt) site.published).1 = .error error →
      result = .error (.error (.publish cp.flowId error))
  stored : (view after.stored).get? cp.flowId =
    some { cp.dismissed reason now with version := cp.version + 1 }
  handed : after.published =
    (services.publisher.publish (cp.farewells reason expiresAt) site.published).2
  host : after.host = { site.host with cache := site.host.cache.remove cp.flowId }
  uncached : after.host.cache.entries.get? cp.flowId = none

namespace Services

/-- Giving up a flow that is not over takes no more than a store that has its checkpoint and takes another
one, whatever state the host and the continuation are in. -/
theorem handle_failure (services : Services τ ρ) {view : τ → Store}
    (commits : services.store.Commits view) (cp : Checkpoint) (live : cp.isTerminal = false)
    (wants : cp.Wants) (reason : String) {settings : Settings} {expiresAt : Timestamp}
    (inRange : settings.config.expiry settings.now = .ok expiresAt) {site : Site σ τ ρ} {found : τ}
    (loads : services.store.load cp.flowId site.stored = (.ok (some cp), found)) {version : Nat}
    (saves : (services.store.save (cp.dismissed reason settings.now) cp.version found).1 =
      .ok (.saved version)) :
    let run := (services.handle settings ⟨cp.flowId, .failure reason⟩).run.run site
    services.Dismisses view cp reason settings.now expiresAt site run.2 run.1 := by
  intro run
  rcases saved : services.store.save (cp.dismissed reason settings.now) cp.version found with
    ⟨outcome, written⟩
  rw [saved] at saves
  cases saves
  obtain ⟨rfl, stored⟩ := commits _ _ _ _ _ saved
  have told : (cp.farewells reason expiresAt).isEmpty = false := by simp [Checkpoint.farewells]
  have ran : run = (((services.publisher.publish (cp.farewells reason expiresAt) site.published).1.mapError
      fun error => .error (.publish cp.flowId error)).map
        fun _ => .committed cp.flowId (cp.version + 1) .failed,
      ⟨{ site.host with cache := site.host.cache.remove cp.flowId }, written,
        (services.publisher.publish (cp.farewells reason expiresAt) site.published).2⟩) := by
    simp only [run, run_handle, loads, Plan.ofEvent_failure live wants _ _ inRange, run_commit, saved,
      run_publish, told, Bool.false_eq_true, if_false]
    rfl
  rw [ran]
  exact {
    committed := fun taken => by rw [taken]; rfl
    refused := fun error refused => by rw [refused]; rfl
    stored
    handed := rfl
    host := rfl
    uncached := SortedMap.get?_erase_self _ _ }

end Services

namespace Fleet

/-- Whatever has happened in a fleet, a flow that is not over can be given up from outside: at any site
whose store has its checkpoint and takes another one, whatever has become of its continuation, and whatever
the environments, the registered flows and the kept fibers are. -/
theorem can_be_given_up [DecidableEq δ] (hosts : δ → Host σ) (publishers : δ → Publisher π)
    (published : π) (moves : List (Move σ δ)) (flow : FlowId) {cp : Checkpoint}
    (reached : ((launch hosts published).run publishers moves).stored.get? flow = some cp)
    (live : cp.isTerminal = false) (continuation : Option Bytes) (reason : String)
    (services : Services τ ρ) {view : τ → Store} (commits : services.store.Commits view)
    (settings : Settings) {expiresAt : Timestamp}
    (inRange : settings.config.expiry settings.now = .ok expiresAt) (site : Site σ τ ρ) {found : τ}
    (loads : services.store.load flow site.stored = (.ok (some { cp with continuation }), found))
    {version : Nat}
    (saves : (services.store.save ({ cp with continuation }.dismissed reason settings.now)
      cp.version found).1 = .ok (.saved version)) :
    let run := (services.handle settings ⟨flow, .failure reason⟩).run.run site
    services.Dismisses view { cp with continuation } reason settings.now expiresAt site run.2 run.1 ∧
      (∀ id, ({ cp with continuation }.dismissed reason settings.now).sessions.get? id =
        (cp.sessions.get? id).map fun session =>
          if session.isOpen then { session with status := .errored } else session) ∧
      ∃ erred : List (SessionId × Session),
        erred.Pairwise (fun a b => compare a.1 b.1 = .lt) ∧
        (∀ id session, (id, session) ∈ erred ↔ cp.sessions.get? id = some session ∧ session.isOpen) ∧
        ({ cp with continuation }).farewells reason expiresAt =
          erred.map (fun (id, session) => .sessionError flow id session.counterparty reason) ++
            [.flowStatus flow .failed (some reason), .scheduleCleanup flow expiresAt] := by
  obtain ⟨rfl, wants⟩ := wants_of_stored hosts publishers published moves reached
  have dismisses := services.handle_failure commits { cp with continuation } live wants reason inRange
    loads saves
  exact ⟨dismisses, Checkpoint.get?_dismissed { cp with continuation } reason settings.now,
    Checkpoint.farewells_eq { cp with continuation } reason expiresAt⟩

/-- An echo is given up although its continuation is lost, its environment is in maintenance, and nothing
else could be built in its place. -/
theorem can_be_given_up_of_echo :
    let fleet := (launch (fun _ : Unit => Echo.host) []).run (fun _ => .collecting)
      [.submit () Echo.settings Echo.begin, .advance 0, .advance 0, .advance 0]
    let environments : Environments Unit :=
      (Environments.new fun _ _ => .error "out of order").beginMaintenance ⟨"O=Alice", "g1"⟩
    let site : Site Unit FaultyStore (List Record) :=
      ⟨⟨environments, .disabled, ()⟩, { FaultyStore.new with stored := fleet.stored, forgetful := true }, []⟩
    let run := (Services.handle ⟨FaultyStore.service, .collecting⟩ Echo.settings
      ⟨Echo.flow, .failure "stuck"⟩).run.run site
    run.1 = .ok (.committed Echo.flow 2 .failed) ∧
      (∃ expiresAt, run.2.published = [.sessionError Echo.flow Echo.session ⟨"O=Bob", "g1"⟩ "stuck",
        .flowStatus Echo.flow .failed (some "stuck"), .scheduleCleanup Echo.flow expiresAt]) ∧
      run.2.host.cache.entries.get? Echo.flow = none := by
  intro fleet environments site run
  have given := can_be_given_up (fun _ : Unit => Echo.host) (fun _ => .collecting) []
    [.submit () Echo.settings Echo.begin, .advance 0, .advance 0, .advance 0] Echo.flow rfl rfl none
    "stuck" ⟨FaultyStore.service, .collecting⟩ FaultyStore.service_commits Echo.settings rfl site rfl rfl
  exact ⟨given.1.committed rfl, ⟨_, given.1.handed⟩, given.1.uncached⟩

/-- An echo is given up while the publisher refuses every batch. Its checkpoint is written, but the event
ends in an error and nothing is handed over. -/
theorem unannounced_of_refusal :
    let fleet := (launch (fun _ : Unit => Echo.host) []).run (fun _ => .collecting)
      [.submit () Echo.settings Echo.begin, .advance 0, .advance 0, .advance 0]
    let site : Site Unit Store FaultyPublisher :=
      ⟨Echo.host, fleet.stored, ⟨[], some (.rejected "too large")⟩⟩
    let run := (Services.handle ⟨Store.inMemory, FaultyPublisher.service⟩ Echo.settings
      ⟨Echo.flow, .failure "stuck"⟩).run.run site
    (fleet.stored.get? Echo.flow).map (·.isTerminal) = some false ∧
      (Echo.settings.config.expiry Echo.settings.now).toOption.isSome ∧
      (run.2.stored.get? Echo.flow).map (fun cp => (cp.version, cp.status)) = some (2, .failed) ∧
      run.1 = .error (.error (.publish Echo.flow (.rejected "too large"))) ∧
      run.2.published.published = [] :=
  ⟨rfl, rfl, rfl, rfl, rfl⟩

end Fleet

end DurableFlow
