import DurableFlow.Proofs.Announcements
import DurableFlow.Proofs.Watching
import DurableFlow.Samples.Knock

/-! # A retry repeats the attempt that failed

What an attempt was entered with is kept in three fields: the arguments, the continuation, and the
value that the flow was resumed with. A failure that is retried leaves all three as the attempt had
them, and nothing that happens until the retry touches them, `Checkpoint.Replays`.
-/

namespace DurableFlow

open Stateful Hosted Samples

variable {σ π : Type}

/-- How flow logic was entered, given the value it was resumed with. -/
def Attempt.of : Option Resumed → Attempt
  | none => .start
  | some value => .resume value

theorem Attempt.of_value? (attempt : Attempt) : Attempt.of attempt.value? = attempt := by
  cases attempt <;> rfl

/-- The failures in a row that a flow has had when an event makes a call: those that were stored, or
none if the event has made calls before. -/
def Checkpoint.failuresBefore (loaded : Option Checkpoint) (earlier : List Call) : Nat :=
  if earlier.isEmpty then (loaded.map (·.retryCount)).getD 0 else 0

namespace Draft

/-- Flow logic that is entered on a draft is entered in place on another one later on. -/
inductive Reaches (settings : Settings) : Attempt → Draft → Attempt → Draft → Prop where
  | here {attempt : Attempt} {draft : Draft} : Reaches settings attempt draft attempt draft
  | again {attempt last : Attempt} {draft taken entered : Draft} {outcome : FiberOutcome}
      {effects : Effects} {value : Resumed}
      (applied : draft.applyOutcome outcome effects attempt settings.config settings.now =
        .ok (taken, .resume value))
      (rest : Reaches settings (.resume value) taken.running last entered) :
      Reaches settings attempt draft last entered

/-- A call has failed and is to be repeated: of the draft that it was made on, no session, no
continuation and no argument has changed, and a wake-up and a status are all that it adds. -/
structure Postpones (settings : Settings) (entered : Draft) (call : Call) (left : Draft) : Prop where
  context : call.context = Context.ofCheckpoint entered.checkpoint settings.now
  status : left.checkpoint.status = .retrying
  sessions : left.checkpoint.sessions = entered.checkpoint.sessions
  continuation : left.checkpoint.continuation = entered.checkpoint.continuation
  startArgs : left.checkpoint.startArgs = entered.checkpoint.startArgs
  records : ∃ due message, left.checkpoint.waitingFor = .wakeup due ∧ left.records =
    entered.records ++ [.scheduleWakeup entered.checkpoint.flowId due,
      .flowStatus entered.checkpoint.flowId .retrying (some message)]

/-- The last call of a turn, and the draft that it was made on. -/
structure EndsWith (code : Code σ) (settings : Settings) (attempt : Attempt) (draft : Draft)
    (earlier : List Call) (call : Call) (last : Attempt) (entered after : Draft) : Prop where
  reaches : draft.Reaches settings attempt last entered
  makes : ∃ effects outcome, entered.Makes code settings.now last call effects ∧
    Call.Yields code.serializer entered.checkpoint call.result outcome ∧
    entered.applyOutcome outcome effects last settings.config settings.now = .ok (after, .done)
  failures : entered.checkpoint.retryCount =
    if earlier.isEmpty then draft.checkpoint.retryCount else 0

theorem Turns.endsWith {code : Code σ} {settings : Settings} {attempt : Attempt} {draft after : Draft}
    {calls : List Call} (turns : draft.Turns code settings attempt calls (some after)) :
    ∃ earlier call last entered, calls = earlier ++ [call] ∧
      draft.EndsWith code settings attempt earlier call last entered after := by
  generalize same : some after = left at turns
  induction turns with
  | unentered | stopped => cases same
  | @done attempt draft _ call effects outcome makes yields applied =>
      cases same
      exact ⟨[], call, attempt, draft, rfl, .here, ⟨effects, outcome, makes, yields, applied⟩, rfl⟩
  | @again attempt draft taken call effects outcome value calls _ makes yields applied rest ih =>
      obtain ⟨earlier, final, last, entered, rfl, reaches, made, failures⟩ := ih same
      obtain ⟨_, _, parked, _, parks, answered⟩ := (applyOutcome_ok applied).of_resume
      obtain ⟨sessions, _, rfl⟩ := answered_of_answerWait answered
      have fresh : parked.checkpoint.retryCount = 0 := by rw [parks.rest]
      refine ⟨call :: earlier, final, last, entered, rfl, .again applied reaches, made, ?_⟩
      rw [failures]
      split
      · exact fresh
      · rfl

end Draft

/-- A flow that waits to repeat a call has all that the call was given. -/
structure Checkpoint.Replays (serializer : FiberSerializer) (cp : Checkpoint) (call : Call) : Prop where
  status : cp.status = .retrying
  input : cp.EntersWith serializer (.of cp.pendingResume) call.input
  context : ∀ now, Context.ofCheckpoint cp now = { call.context with now }

theorem Checkpoint.EntersWith.of_same {serializer : FiberSerializer} {cp other : Checkpoint}
    {attempt : Attempt} {input : Call.Input} (enters : cp.EntersWith serializer attempt input)
    (continuation : other.continuation = cp.continuation) (startArgs : other.startArgs = cp.startArgs) :
    other.EntersWith serializer attempt input := by
  cases enters with
  | start unsuspended =>
      rw [← startArgs]
      exact .start (continuation.trans unsuspended)
  | resume held read => exact .resume (continuation.trans held) read

/-- A call that fails within the budget for retries leaves a flow that waits to repeat it. -/
theorem Draft.EndsWith.postpones {code : Code σ} {settings : Settings} {attempt last : Attempt}
    {draft entered after : Draft} {earlier : List Call} {call : Call} {halt : Halt}
    (ends : draft.EndsWith code settings attempt earlier call last entered after)
    (failed : call.result = .error halt) (retryable : halt.flowError.isRetryable)
    (budget : (if earlier.isEmpty then draft.checkpoint.retryCount else 0) <
      settings.config.retry.maxRetries) :
    entered.Postpones settings call after ∧ after.checkpoint.Replays code.serializer call := by
  obtain ⟨effects, outcome, makes, yields, applied⟩ := ends.makes
  rw [failed] at yields
  cases yields
  have retries : halt.flowError.isRetryable = true ∧
      entered.checkpoint.retryCount < settings.config.retry.maxRetries :=
    ⟨retryable, ends.failures ▸ budget⟩
  simp only [Draft.applyOutcome, if_pos retries, bind_eq_ok, pure_eq_ok] at applied
  obtain ⟨left, retried, same⟩ := applied
  cases same
  obtain ⟨due, wait, records⟩ := Draft.retry_records retried
  obtain ⟨_, rest⟩ := Draft.retry_ok retried
  refine ⟨⟨makes.context, ?_, ?_, ?_, ?_, due, _, wait, records⟩, ?_, ?_, fun now => ?_⟩
  · rw [rest]
  · rw [rest]
  · rw [rest]
  · rw [rest]
  · rw [rest]
  · rw [rest, Attempt.of_value?]
    exact makes.input.of_same rfl rfl
  · rw [rest, makes.context]
    rfl

namespace Checkpoint

theorem ofCheckpoint_keep {cp : Checkpoint} {id : SessionId} {session : Session}
    (found : cp.sessions.get? id = some session) (number : Nat) (item : Item) (now : Timestamp) :
    Context.ofCheckpoint (Handler.keep cp id session number item) now =
      Context.ofCheckpoint cp now := by
  have views : (cp.sessions.insert id (session.buffer number item)).mapValues
      (fun _ session => SessionView.mk session.counterparty session.isOpen) =
      cp.sessions.mapValues fun _ session => ⟨session.counterparty, session.isOpen⟩ := by
    refine SortedMap.ext_get? fun other => ?_
    rw [SortedMap.get?_mapValues, SortedMap.get?_mapValues]
    by_cases here : other = id
    · subst here
      rw [SortedMap.get?_insert_self, found]
      rfl
    · rw [SortedMap.get?_insert_of_ne _ _ here]
  simp only [Context.ofCheckpoint, Handler.keep, putSession, views]

/-- A flow that waits to repeat a call waits on, is given up, or repeats the call when it is woken. -/
theorem Replays.prepares {serializer : FiberSerializer} {cp : Checkpoint} {call : Call}
    (replays : cp.Replays serializer call) (lawful : cp.Lawful serializer) {flowId : FlowId}
    {config : Config} {now : Timestamp} {payload : EventPayload} {prepared : Prepared}
    (prepares : Handler.Prepares flowId config now payload (some cp) prepared) :
    (prepared.decision = .skip ∧ (prepared.draft.checkpoint.Replays serializer call ∨
        prepared.draft.checkpoint.isTerminal)) ∨
      payload = .wakeup ∧ (∃ due, cp.waitingFor = .wakeup due ∧ ¬ now < due) ∧
        prepared.decision.attempt? = some (.of cp.pendingResume) ∧
        prepared.draft.checkpoint = { cp with pendingResume := none } := by
  have ⟨⟨due, wait⟩, _⟩ := lawful.retrying replays.status
  cases prepares with
  | kept found isOpen unseen unready =>
      refine .inl ⟨rfl, .inl ⟨replays.status, replays.input.of_same rfl rfl, fun now => ?_⟩⟩
      rw [ofCheckpoint_keep found]
      exact replays.context now
  | answered found isOpen unseen taken =>
      obtain ⟨_, _, _, other, _⟩ := takeReady?_some taken
      have wait' : cp.waitingFor = .sessions _ _ := other
      rw [wait] at wait'
      cases wait'
  | early => exact .inl ⟨rfl, .inl replays⟩
  | awake _ _ first => exact absurd replays.status first
  | again wait' late _ pending =>
      refine .inr ⟨rfl, ⟨_, wait', late⟩, ?_, rfl⟩
      rw [pending]
      rfl
  | restarted wait' late _ pending =>
      refine .inr ⟨rfl, ⟨_, wait', late⟩, ?_, ?_⟩
      · rw [pending]
        rfl
      · simp only [← pending]
  | timedOut other | counted other | confirmed other =>
      rw [wait] at other
      cases other
  | failed failed =>
      obtain ⟨_, _, _, rest⟩ := Draft.fail_ok failed
      refine .inl ⟨rfl, .inr ?_⟩
      rw [rest]
      rfl

end Checkpoint

theorem Handler.Prepares.retryCount_eq {flowId : FlowId} {config : Config} {now : Timestamp}
    {payload : EventPayload} {loaded : Option Checkpoint} {prepared : Prepared}
    (prepares : Prepares flowId config now payload loaded prepared) :
    prepared.draft.checkpoint.retryCount = (loaded.map (·.retryCount)).getD 0 := by
  cases prepares with
  | started served rest =>
      rw [rest]
      rfl
  | answered found isOpen unseen taken =>
      obtain ⟨_, _, _, _, _, rfl⟩ := Checkpoint.takeReady?_some taken
      rfl
  | failed failed =>
      obtain ⟨_, _, _, rest⟩ := Draft.fail_ok failed
      rw [rest]
      rfl
  | kept | early | awake | again | restarted | timedOut | counted | confirmed => rfl

section Sites

variable {recipe : Recipe σ} {may : Identity → Code σ → Prop} {serializer : FiberSerializer}

/-- A flow waits to repeat a call, or is over. -/
def Store.Keeps (store : Store) (serializer : FiberSerializer) (flow : FlowId) (call : Call) : Prop :=
  ∃ cp, store.get? flow = some cp ∧ (cp.Replays serializer call ∨ cp.isTerminal)

theorem Store.Keeps.insert {store : Store} {flow : FlowId} {call : Call} {cp : Checkpoint}
    (keeps : cp.Replays serializer call ∨ cp.isTerminal) (version : Nat) (updatedAt : Timestamp) :
    Store.Keeps (store.insert flow { cp with version, updatedAt }) serializer flow call := by
  refine ⟨_, SortedMap.get?_insert_self .., keeps.imp_left fun replays => ?_⟩
  exact ⟨replays.status, replays.input.of_same rfl rfl, replays.context⟩

theorem Prepared.Turns.of_no_calls {settings : Settings} {prepared : Prepared} {draft : Draft}
    (turns : prepared.Turns may settings [] (some draft)) :
    (prepared.decision = .skip ∧ draft = prepared.draft) ∨ draft.checkpoint.isTerminal := by
  generalize none : ([] : List Call) = calls at turns
  generalize same : some draft = left at turns
  cases turns with
  | skipped skips =>
      cases same
      exact .inl ⟨skips, rfl⟩
  | stopped => cases same
  | unregistered starts known unknown applied =>
      cases same
      have applied := Draft.applyOutcome_ok applied
      generalize outcome : FiberOutcome.failed (.unknownFlow _) = o at applied
      generalize result : (draft, Next.done) = r at applied
      cases applied with
      | suspended | completed => cases outcome
      | retried retryable =>
          cases outcome
          cases retryable
      | failed served finished rest =>
          cases result
          refine .inr ?_
          rw [rest]
          rfl
  | ran enters known turns =>
      subst same
      cases turns <;> cases none

namespace Services

/-- The last call that an event makes has failed and is to be repeated. -/
def Postponed (publisher : Publisher π) (settings : Settings) (event : Event) (call : Call)
    (before after : Site (σ × List Call) Store π) : Prop :=
  ∃ prepared attempt last entered left,
    Handler.prepare event.flowId event.payload settings.config settings.now
        (before.stored.get? event.flowId) = .ok prepared ∧
      prepared.decision.attempt? = some attempt ∧
      prepared.draft.running.Reaches settings attempt last entered ∧
      Draft.Postpones settings entered call left ∧
      after.stored.get? event.flowId = some { left.checkpoint with
        updatedAt := settings.now
        version := before.stored.version event.flowId + 1 } ∧
      after.published = (publisher.publish left.records before.published).2

/-- Between an attempt and the next one a flow is stored as before, or its logic is not called. -/
def Idles (services : Services Store π) (flow : FlowId) :
    List Moment → Site (σ × List Call) Store π → Prop
  | [], _ => True
  | moment :: rest, site =>
    let after := (services.live site moment).2
    (after.stored.get? flow = site.stored.get? flow ∨ after.calls = site.calls) ∧
      services.Idles flow rest after

theorem idles_of_quiet {services : Services Store π} {flow : FlowId} {moment : Moment}
    {site : Site (σ × List Call) Store π}
    (quiet : (services.live site moment).2.calls = site.calls) :
    services.Idles flow [moment] site := ⟨.inr quiet, trivial⟩

variable {settings : Settings} {event : Event} {call : Call} {publisher : Publisher π}
  {site after : Site (σ × List Call) Store π}

theorem Hears.postpones {result : Except Stop ProcessingOutcome} {earlier : List Call}
    {halt : Halt}
    (serializes : ∀ owner code, may owner code → code.serializer = serializer)
    (hears : Hears publisher may settings event site (earlier ++ [call]) result after)
    (failed : call.result = .error halt) (retryable : halt.flowError.isRetryable)
    (budget : Checkpoint.failuresBefore (site.stored.get? event.flowId) earlier <
      settings.config.retry.maxRetries)
    (changed : after.stored.get? event.flowId ≠ site.stored.get? event.flowId) :
    Postponed publisher settings event call site after ∧
      after.stored.Keeps serializer event.flowId call := by
  generalize same : earlier ++ [call] = calls at hears
  cases hears with
  | discarded _ stored | broken stored | stopped _ _ _ stored => exact absurd (by rw [stored]) changed
  | @committed prepared _ draft _ _ live prepares turns stored published =>
      have count := (Handler.prepare_prepares prepares).retryCount_eq
      generalize left : some draft = ended at turns
      cases turns with
      | skipped | stopped | unregistered => simp at same
      | @ran attempt code _ _ enters known turns =>
          subst left
          obtain ⟨earlier', call', last, entered, listed, ends⟩ := turns.endsWith
          obtain ⟨rfl, final⟩ := List.append_inj' (same.trans listed) rfl
          cases final
          cases serializes _ _ known
          obtain ⟨postpones, replays⟩ := ends.postpones failed retryable (by
            rw [Checkpoint.failuresBefore, ← count] at budget
            exact budget)
          refine ⟨⟨prepared, attempt, last, entered, draft, prepares, enters, ends.reaches, postpones,
            ?_, ?_⟩, ?_⟩
          · rw [stored]
            exact SortedMap.get?_insert_self ..
          · obtain ⟨_, _, _, records⟩ := postpones.records
            rw [published, if_neg]
            simp [records]
          · rw [stored]
            exact .insert (.inl replays) _ _

/-- A flow that waits to repeat a call still does after whatever happens without a call to it. -/
theorem live_keeps (conforms : recipe.Conforms may serializer)
    (watched : site.Watched recipe may serializer) {flow : FlowId} (keeps : site.stored.Keeps serializer flow call)
    {moment : Moment}
    (idle : let after := (Services.live ⟨Store.inMemory, publisher⟩ site moment).2
      after.stored.get? flow = site.stored.get? flow ∨ after.calls = site.calls) :
    (Services.live ⟨Store.inMemory, publisher⟩ site moment).2.stored.Keeps serializer flow call := by
  have of_same {after : Site (σ × List Call) Store π}
      (same : after.stored.get? flow = site.stored.get? flow) :
      after.stored.Keeps serializer flow call := by
    obtain ⟨cp, found, keeps⟩ := keeps
    exact ⟨cp, same.trans found, keeps⟩
  rcases idle with same | quiet
  · exact of_same same
  cases moment with
  | beginMaintenance owner attached => cases attached <;> exact of_same rfl
  | endMaintenance owner => exact of_same rfl
  | event settings event =>
      obtain ⟨calls, grew, hears⟩ := handle_hears publisher conforms watched settings event
      have none : calls = [] := List.append_right_eq_self.1 (grew.symm.trans quiet)
      subst none
      simp only [live] at of_same ⊢
      generalize (Services.handle ⟨Store.inMemory, publisher⟩ settings event).run.run site = run at *
      obtain ⟨result, after⟩ := run
      cases hears with
      | discarded _ stored | broken stored | stopped _ _ _ stored => exact of_same (by rw [stored])
      | committed live prepares turns stored published =>
          by_cases here : flow = event.flowId
          · subst here
            obtain ⟨cp, found, replays | terminal⟩ := keeps
            · rw [found] at prepares
              have prepared := replays.prepares (watched.bare.lawful _ cp found)
                (Handler.prepare_prepares prepares)
              rw [stored]
              refine .insert ?_ _ _
              rcases turns.of_no_calls with ⟨skips, rfl⟩ | terminal
              · rcases prepared with ⟨_, keeps⟩ | ⟨_, _, enters, _⟩
                · exact keeps
                · rw [skips] at enters
                  cases enters
              · exact .inr terminal
            · exact absurd (live cp found) (by simp [terminal])
          · exact of_same (by rw [stored, SortedMap.get?_insert_of_ne _ _ here])

theorem run_keeps (conforms : recipe.Conforms may serializer)
    (watched : site.Watched recipe may serializer) {flow : FlowId} (keeps : site.stored.Keeps serializer flow call)
    {moments : List Moment} (idles : Services.Idles ⟨Store.inMemory, publisher⟩ flow moments site) :
    (Services.run ⟨Store.inMemory, publisher⟩ moments site).2.stored.Keeps serializer flow call := by
  induction moments generalizing site with
  | nil => exact keeps
  | cons moment rest ih =>
      obtain ⟨idle, idles⟩ := idles
      exact ih (live_watched publisher conforms watched moment)
        (live_keeps conforms watched keeps idle) idles

theorem Hears.repeats {result : Except Stop ProcessingOutcome} {next : Call} {later : List Call}
    (conforms : recipe.Conforms may serializer) (watched : site.Watched recipe may serializer) (keeps : site.stored.Keeps serializer event.flowId call)
    (hears : Hears publisher may settings event site (next :: later) result after) :
    event.payload = .wakeup ∧
      (∃ cp due, site.stored.get? event.flowId = some cp ∧ cp.waitingFor = .wakeup due ∧
        ¬ settings.now < due) ∧
      next.input = call.input ∧ next.context = { call.context with now := settings.now } := by
  obtain ⟨cp, found, keeps⟩ := keeps
  have repeats {prepared : Prepared} {left : Option Draft} (live : cp.isTerminal = false)
      (prepares : Handler.prepare event.flowId event.payload settings.config settings.now
        (site.stored.get? event.flowId) = .ok prepared)
      (turns : prepared.Turns may settings (next :: later) left) :
      event.payload = .wakeup ∧ (∃ due, cp.waitingFor = .wakeup due ∧ ¬ settings.now < due) ∧
        next.input = call.input ∧ next.context = { call.context with now := settings.now } := by
    have replays := keeps.resolve_right (by simp [live])
    rw [found] at prepares
    cases turns with
    | @ran attempt code _ _ enters known turns =>
        rcases replays.prepares (watched.bare.lawful _ cp found) (Handler.prepare_prepares prepares) with
          ⟨skips, _⟩ | ⟨payload, due, again, same⟩
        · rw [skips] at enters
          cases enters
        · obtain ⟨effects, makes⟩ := turns.head
          cases conforms.serializes _ _ known
          cases enters.symm.trans again
          refine ⟨payload, due, ?_, ?_⟩
          · exact replays.input.unique makes.input (by rw [Draft.running, same]) (by rw [Draft.running, same])
          · rw [makes.context, Draft.running, same, ← replays.context]
            rfl
  cases hears with
  | stopped live prepares turns | committed live prepares turns =>
      obtain ⟨payload, ⟨due, wait⟩, again⟩ := repeats (live cp found) prepares turns
      exact ⟨payload, ⟨cp, due, found, wait⟩, again⟩

end Services

end Sites

namespace Services

/-- A retry repeats the attempt that failed. If the last call that an event makes fails within the
budget for retries, then that attempt changes no session, no continuation and no argument, and adds
only a wake-up and a status. Whatever happens then short of another attempt that is committed, no
event but a wake-up that is due makes calls of the logic again, and the first of them is given the
arguments, or the state and the value, that the failed one was given, and its context but for the
time. -/
theorem retries_repeat (publisher : Publisher π) (recipe : Recipe σ) (serializer : FiberSerializer)
    (faithful : serializer.Faithful)
    (serializes : ∀ number owner exec, recipe number owner = .ok exec → exec.serializer = serializer)
    (capacity ttl : Nat) (world : σ) (published : π) (moments : List Moment) (settings : Settings)
    (event : Event) (earlier : List Call) (call : Call) (halt : Halt) :
    let services : Services Store π := ⟨Store.inMemory, publisher⟩
    let before := (services.run moments
      (.launch recipe.watched (.new capacity ttl) (world, []) {} published)).2
    let after := (services.live before (.event settings event)).2
    after.calls = before.calls ++ (earlier ++ [call]) →
      call.result = .error halt → halt.flowError.isRetryable →
      Checkpoint.failuresBefore (before.stored.get? event.flowId) earlier <
        settings.config.retry.maxRetries →
      after.stored.get? event.flowId ≠ before.stored.get? event.flowId →
      Postponed publisher settings event call before after ∧
        ∀ idle settings' event' next more, services.Idles event.flowId idle after →
          event'.flowId = event.flowId →
          let waiting := (services.run idle after).2
          (services.live waiting (.event settings' event')).2.calls = waiting.calls ++ next :: more →
          event'.payload = .wakeup ∧
            (∃ cp due, waiting.stored.get? event.flowId = some cp ∧ cp.waitingFor = .wakeup due ∧
              ¬ settings'.now < due) ∧
            next.input = call.input ∧ next.context = { call.context with now := settings'.now } := by
  intro services before after made failed retryable budget changed
  let may (_ : Identity) (code : Code σ) : Prop := code.serializer = serializer
  have conforms : recipe.Conforms may serializer := ⟨serializes, fun _ _ same => same, faithful⟩
  have watched : before.Watched recipe may serializer :=
    run_watched publisher conforms (Site.launch_watched conforms capacity ttl world published) moments
  obtain ⟨calls, grew, hears⟩ := handle_hears publisher conforms watched settings event
  have same : earlier ++ [call] = calls := List.append_cancel_left (made.symm.trans grew)
  subst same
  obtain ⟨postponed, keeps⟩ := hears.postpones conforms.serializes failed retryable budget changed
  refine ⟨postponed, ?_⟩
  intro idle settings' event' next more idles addressed waiting again
  have watched : after.Watched recipe may serializer := live_watched publisher conforms watched _
  have keeps : waiting.stored.Keeps serializer event.flowId call :=
    run_keeps conforms watched keeps idles
  have watched : waiting.Watched recipe may serializer := run_watched publisher conforms watched idle
  obtain ⟨calls, grew, hears⟩ := handle_hears publisher conforms watched settings' event'
  have same : next :: more = calls := List.append_cancel_left (again.symm.trans grew)
  subst same
  rw [← addressed] at keeps ⊢
  exact hears.repeats conforms watched keeps

end Services

namespace Samples.Knock

open Services

def services : Services Store (List Record) := ⟨Store.inMemory, .collecting⟩

def asked : Event := Echo.say 1 (.data [7])

/-- A site where a knock waits for an item while the service is busy for one more call. -/
def before : Site (Nat × List Call) Store (List Record) :=
  (services.live (.launch (Recipe.watched execution) (.new 1 1000) (1, []) {} [])
    (.event Echo.settings Echo.begin)).2

/-- The item has come in. -/
def after : Site (Nat × List Call) Store (List Record) :=
  (services.live before (.event Echo.settings asked)).2

/-- The session has been closed from the other side. -/
def waiting : Site (Nat × List Call) Store (List Record) :=
  (services.live after (.event Echo.settings (Echo.say 2 .close))).2

/-- The knock has been woken. -/
def woken : Site (Nat × List Call) Store (List Record) :=
  (services.live waiting (.event later ⟨Echo.flow, .wakeup⟩)).2

end Samples.Knock

namespace Services

open Samples.Knock

/-- A knock that finds the service busy is repeated with the same item, although the session has been
closed in between. -/
theorem retries_repeat_knock :
    ∃ call next, after.calls = before.calls ++ [call] ∧
      call.result = .error (.error (.transient "busy")) ∧ woken.calls = waiting.calls ++ [next] ∧
      next.input = call.input := by
  let may (_ : Identity) (code : Code Nat) : Prop := code.serializer = .json
  have conforms : Recipe.Conforms execution may .json :=
    ⟨execution_serializer, fun _ _ same => same, FiberSerializer.json_faithful⟩
  have watched : before.Watched execution may .json :=
    live_watched .collecting conforms (Site.launch_watched conforms 1 1000 1 []) _
  have waits : waiting.Watched execution may .json :=
    live_watched .collecting conforms (live_watched .collecting conforms watched _) _
  have after_watched : after.Watched execution may .json :=
    live_watched .collecting conforms watched _
  have count : after.calls.length = before.calls.length + 1 := by decide +kernel
  have idle : waiting.calls.length = after.calls.length + 0 := by decide +kernel
  have again : woken.calls.length = waiting.calls.length + 1 := by decide +kernel
  obtain ⟨calls, one, made⟩ := live_grows .collecting conforms watched Echo.settings asked count
  obtain ⟨nothing, zero, quiet⟩ :=
    live_grows .collecting conforms after_watched Echo.settings (Echo.say 2 .close) idle
  obtain ⟨calls', one', again⟩ :=
    live_grows .collecting conforms waits later ⟨Echo.flow, .wakeup⟩ again
  obtain ⟨call, rfl⟩ := List.length_eq_one_iff.1 one
  obtain ⟨next, rfl⟩ := List.length_eq_one_iff.1 one'
  rw [List.length_eq_zero_iff.1 zero, List.append_nil] at quiet
  have ends : after.calls.getLast?.map (fun call => match call.result with
      | .error halt => some halt
      | .ok _ => none) = some (some (.error (.transient "busy"))) := by decide +kernel
  have failed : call.result = .error (.error (.transient "busy")) := by
    rw [show after.calls = before.calls ++ [call] from made, List.getLast?_concat,
      Option.map_some] at ends
    split at ends <;> cases ends
    assumption
  have budget : Checkpoint.failuresBefore (before.stored.get? Echo.flow) [] <
      Echo.settings.config.retry.maxRetries := by decide +kernel
  obtain ⟨_, repeats⟩ := retries_repeat .collecting execution .json FiberSerializer.json_faithful
    execution_serializer 1 1000 1 [] [.event Echo.settings Echo.begin] Echo.settings
    asked [] call (.error (.transient "busy")) made failed rfl budget fun same =>
      absurd (congrArg (Option.map (·.version)) same) (by decide +kernel)
  have same := repeats [.event Echo.settings (Echo.say 2 .close)] later ⟨Echo.flow, .wakeup⟩ next []
  rw [run_one, run_one] at same
  obtain ⟨_, _, same, _⟩ := same (idles_of_quiet quiet) rfl again
  exact ⟨call, next, made, failed, again, same⟩

end Services

end DurableFlow
