import DurableFlow.Proofs.Continuations
import DurableFlow.Proofs.Histories
import DurableFlow.Samples.Echo

/-! # What is true of every stored checkpoint

A stored flow is suspended, waits for a retry, or is over, and has all it needs to go on from there:
`Checkpoint.Lawful`. While its logic is being run a flow is `Entered`; every way into the logic leads
there, and every way out of it leads to a lawful checkpoint.
-/

namespace DurableFlow

open Hosted Samples

/-- Numbers count from one in either direction, and no item is kept that was consumed. -/
structure Session.Sound (session : Session) : Prop where
  send : 1 ≤ session.nextSend
  intake : session.intake.Sound

/-- Every session is sound. -/
def SessionsSound (sessions : SortedMap SessionId Session) : Prop :=
  ∀ id session, sessions.get? id = some session → session.Sound

namespace SessionsSound

variable {sessions after : SortedMap SessionId Session}

theorem new (counterparty : Identity) : (Session.new counterparty).Sound :=
  ⟨Nat.le_refl 1, Intake.sound_initial⟩

theorem insert {id : SessionId} {session : Session} (sound : SessionsSound sessions)
    (added : session.Sound) : SessionsSound (sessions.insert id session) := by
  intro other found here
  by_cases same : other = id
  · subst same
    rw [SortedMap.get?_insert_self] at here
    cases here
    exact added
  · rw [SortedMap.get?_insert_of_ne _ _ same] at here
    exact sound other found here

theorem of_served {before after : Session} (sound : before.Sound) (served : before.Served after) :
    after.Sound := by
  refine ⟨Nat.le_trans sound.send served.nextSend, ?_⟩
  have same : after.intake = before.intake := by
    rw [Session.intake, served.nextReceive, served.pending]
    rfl
  rw [same]
  exact sound.intake

theorem served (sound : SessionsSound sessions) (served : SessionsServed sessions after) :
    SessionsSound after := by
  intro id session found
  cases before : sessions.get? id with
  | none => exact of_served (new _) (served.new id session before found)
  | some old =>
      obtain ⟨session', found', kept⟩ := served.old id old before
      rw [found] at found'
      cases found'
      exact of_served (sound id old before) kept

theorem consume (sound : SessionsSound sessions) (id : SessionId) :
    SessionsSound (Checkpoint.consume sessions id).2 := by
  cases arrived : (Intake.find sessions id).head? with
  | none =>
      rw [Checkpoint.consume_of_stalled arrived]
      exact sound
  | some item =>
      obtain ⟨session, found, _, consumed⟩ := Checkpoint.consume_of_head? arrived
      rw [consumed]
      exact sound.insert ⟨(sound id session found).send, (sound id session found).intake.tail⟩

theorem collect (sound : SessionsSound sessions) (messages : Messages) (ids : List SessionId) :
    SessionsSound (Checkpoint.collect sessions messages ids).2 := by
  induction ids generalizing sessions messages with
  | nil => exact sound
  | cons id rest ih =>
      rw [Checkpoint.collect_cons]
      exact ih (sound.consume id) _

theorem answer {awaited : List SessionId} {value : Resumed} (sound : SessionsSound sessions)
    (answer : Checkpoint.Answer sessions awaited value after) : SessionsSound after := by
  cases answer with
  | ended listed found finished => exact sound
  | closed listed canDeliver closing => exact sound.consume _
  | received canDeliver data => exact sound.collect _ _

theorem answered {cp : Checkpoint} {value : Resumed} (sound : SessionsSound cp.sessions)
    (answered : Draft.Answered cp value after) : SessionsSound after := by
  cases answered with
  | confirmed wait => exact sound
  | taken wait given => exact sound.answer given

theorem keep {id : SessionId} {session : Session} {number : Nat} (item : Item)
    (sound : SessionsSound sessions) (found : sessions.get? id = some session)
    (unseen : session.hasSeen number = false) :
    SessionsSound (sessions.insert id (session.buffer number item)) := by
  have old := sound id session found
  refine sound.insert ⟨old.send, old.intake.one_le, fun n held kept => ?_⟩
  simp only [Session.hasSeen, Bool.or_eq_false_iff, decide_eq_false_iff_not, Nat.not_lt] at unseen
  by_cases here : n = number
  · subst here
    exact unseen.1
  · simp only [Session.intake, Session.buffer, SortedMap.get?_insert_of_ne _ _ here] at kept
    exact old.intake.next_le n held kept

end SessionsSound

namespace Checkpoint

variable {serializer : FiberSerializer}

/-- A continuation is that of the flow of a checkpoint, suspended on something of a kind. -/
def Reads (serializer : FiberSerializer) (cp : Checkpoint) (continuation : Bytes)
    (kind : SuspensionKind) : Prop :=
  ∃ image, serializer.deserialize continuation = .ok image ∧ image.flowId = cp.flowId ∧
    image.flowName = cp.flowName ∧ image.suspendedOn = kind

/-- A checkpoint has a continuation of its own flow, suspended on something of a kind. -/
def Holds (serializer : FiberSerializer) (cp : Checkpoint) (kind : SuspensionKind) : Prop :=
  ∃ continuation, cp.continuation = some continuation ∧ cp.Reads serializer continuation kind

/-- What is true of every stored checkpoint. -/
structure Lawful (serializer : FiberSerializer) (cp : Checkpoint) : Prop where
  status : cp.status = .suspended ∨ cp.status = .retrying ∨ cp.status = .completed ∨
    cp.status = .failed
  finished_iff : cp.waitingFor = .nothing ↔ cp.status = .completed ∨ cp.status = .failed
  finished : cp.waitingFor = .nothing → cp.pendingResume = none ∧
    ∀ id session, cp.sessions.get? id = some session → session.isOpen = false
  result_iff : cp.result.isSome ↔ cp.status = .completed
  suspended : cp.status = .suspended → cp.pendingResume = none ∧ cp.retryCount = 0 ∧
    ∃ kind, cp.waitingFor.answer? = some kind ∧ cp.Holds serializer kind
  retrying : cp.status = .retrying → (∃ due, cp.waitingFor = .wakeup due) ∧
    (cp.pendingResume.isSome ↔ cp.continuation.isSome) ∧
    ∀ value, cp.pendingResume = some value → cp.Holds serializer value.kind
  sessions : SessionsSound cp.sessions

/-- What is true of a flow whose logic is being run. -/
structure Entered (serializer : FiberSerializer) (cp : Checkpoint) (attempt : Attempt) : Prop where
  result : cp.result = none
  pending : cp.pendingResume = none
  started : attempt = .start → cp.continuation = none
  resumed : ∀ value, attempt = .resume value → cp.Holds serializer value.kind
  sessions : SessionsSound cp.sessions

namespace Lawful

variable {cp : Checkpoint}

theorem result_eq_none (lawful : cp.Lawful serializer) (live : cp.isTerminal = false) :
    cp.result = none := by
  cases result : cp.result with
  | none => rfl
  | some output =>
      have completed := lawful.result_iff.1 (by rw [result]; rfl)
      rw [isTerminal, completed] at live
      cases live

theorem not_retrying (lawful : cp.Lawful serializer) (other : ∀ due, cp.waitingFor ≠ .wakeup due) :
    cp.status ≠ .retrying := by
  intro retrying
  obtain ⟨⟨due, wait⟩, _⟩ := lawful.retrying retrying
  exact other due wait

theorem suspended_of_answer (lawful : cp.Lawful serializer) {kind : SuspensionKind}
    (answer : cp.waitingFor.answer? = some kind) (first : cp.status ≠ .retrying) :
    cp.pendingResume = none ∧ cp.Holds serializer kind := by
  have suspended : cp.status = .suspended := by
    rcases lawful.status with suspended | retrying | finished
    · exact suspended
    · exact absurd retrying first
    · rw [lawful.finished_iff.2 finished] at answer
      cases answer
  obtain ⟨pending, _, kind', answer', holds⟩ := lawful.suspended suspended
  rw [answer] at answer'
  cases answer'
  exact ⟨pending, holds⟩

theorem stamp (lawful : cp.Lawful serializer) (version : Nat) (updatedAt : Timestamp) :
    Lawful serializer { cp with version, updatedAt } :=
  ⟨lawful.status, lawful.finished_iff, lawful.finished, lawful.result_iff, lawful.suspended,
    lawful.retrying, lawful.sessions⟩

theorem with_sessions (lawful : cp.Lawful serializer) {sessions : SortedMap SessionId Session}
    (sound : SessionsSound sessions) (live : cp.isTerminal = false) :
    Lawful serializer { cp with sessions } := by
  refine ⟨lawful.status, lawful.finished_iff, fun finished => ?_, lawful.result_iff, lawful.suspended,
    lawful.retrying, sound⟩
  rcases lawful.finished_iff.1 finished with completed | failed
  · rw [isTerminal, completed] at live
    cases live
  · rw [isTerminal, failed] at live
    cases live

theorem entered (lawful : cp.Lawful serializer) {value : Resumed} {sessions : SortedMap SessionId Session}
    (answer : cp.waitingFor.answer? = some value.kind) (first : cp.status ≠ .retrying)
    (sound : SessionsSound sessions) (live : cp.isTerminal = false) {wait : Wait} :
    Entered serializer { cp with sessions, status := .running, waitingFor := wait }
      (.resume value) := by
  obtain ⟨pending, holds⟩ := lawful.suspended_of_answer answer first
  refine ⟨lawful.result_eq_none live, pending, ?_, ?_, sound⟩
  · intro start
    cases start
  · intro given resume
    cases resume
    exact holds

theorem of_failed {failed : Checkpoint} {reason : Option String}
    {sessions : SortedMap SessionId Session} (result : cp.result = none)
    (sound : SessionsSound sessions)
    (finished : ∀ id session, sessions.get? id = some session → session.isOpen = false)
    (rest : failed = { cp with
      status := .failed
      sessions
      waitingFor := .nothing
      pendingResume := none
      lastFailureReason := reason }) : failed.Lawful serializer := by
  subst rest
  exact ⟨by simp, by simp, fun _ => ⟨rfl, finished⟩, by simp [result], by simp, by simp, sound⟩

end Lawful

end Checkpoint

/-- A decision that leaves a lawful checkpoint behind or has all that flow logic needs. -/
def Prepared.Proper (serializer : FiberSerializer) (prepared : Prepared) : Prop :=
  match prepared.decision with
  | .skip => prepared.draft.checkpoint.Lawful serializer
  | .start _ => prepared.draft.running.checkpoint.Entered serializer .start
  | .resume value => prepared.draft.running.checkpoint.Entered serializer (.resume value)

theorem Handler.Prepares.proper {serializer : FiberSerializer} {flowId : FlowId} {config : Config}
    {now : Timestamp} {payload : EventPayload} {loaded : Option Checkpoint} {prepared : Prepared}
    (prepares : Prepares flowId config now payload loaded prepared)
    (lawful : ∀ cp, loaded = some cp → cp.Lawful serializer)
    (live : ∀ cp, loaded = some cp → cp.isTerminal = false) : prepared.Proper serializer := by
  cases prepares with
  | started served rest =>
      have sound : SessionsSound _ := SessionsSound.served (fun _ _ found => by cases found) served
      rw [rest]
      refine ⟨rfl, rfl, fun _ => rfl, ?_, sound⟩
      intro value resumed
      cases resumed
  | @kept id number item cp session found isOpen unseen waits =>
      have sound := (lawful cp rfl).sessions.keep item found unseen
      exact (lawful cp rfl).with_sessions sound (live cp rfl)
  | @answered id number item cp after session value found isOpen unseen taken =>
      obtain ⟨awaited, deadline, sessions, wait, answer, rfl⟩ := Checkpoint.takeReady?_some taken
      have sound := ((lawful cp rfl).sessions.keep item found unseen).answer answer
      have waits : cp.waitingFor = .sessions awaited deadline := wait
      have first := (lawful cp rfl).not_retrying fun due => by simp [waits]
      exact (lawful cp rfl).entered (by rw [waits, answer.kind_eq]; rfl) first sound (live cp rfl)
  | early alarm early => exact lawful _ rfl
  | @awake cp due wait late first =>
      exact (lawful cp rfl).entered (by rw [wait]; rfl) first (lawful cp rfl).sessions (live cp rfl)
  | @again cp due value wait late retrying pending =>
      obtain ⟨_, _, holds⟩ := (lawful cp rfl).retrying retrying
      refine ⟨(lawful cp rfl).result_eq_none (live cp rfl), rfl, ?_, ?_, (lawful cp rfl).sessions⟩
      · intro start
        cases start
      · intro given resume
        cases resume
        exact holds value pending
  | @restarted cp due wait late retrying pending unsuspended =>
      refine ⟨(lawful cp rfl).result_eq_none (live cp rfl), pending, fun _ => unsuspended, ?_,
        (lawful cp rfl).sessions⟩
      intro given resume
      cases resume
  | @timedOut cp awaited deadline id wait late listed =>
      have first := (lawful cp rfl).not_retrying fun due => by simp [wait]
      exact (lawful cp rfl).entered (by rw [wait]; rfl) first (lawful cp rfl).sessions (live cp rfl)
  | @counted cp count required received total wait sum few =>
      have lawful := lawful cp rfl
      have first := lawful.not_retrying fun due => by simp [wait]
      refine ⟨lawful.status, ?_, ?_, lawful.result_iff, ?_, ?_, lawful.sessions⟩
      · simpa [wait] using lawful.finished_iff
      · intro finished
        cases finished
      · intro suspended
        obtain ⟨pending, count, kind, answer, holds⟩ := lawful.suspended suspended
        rw [wait] at answer
        exact ⟨pending, count, kind, answer, holds⟩
      · exact fun retrying => absurd retrying first
  | @confirmed cp count required received total wait sum enough =>
      have first := (lawful cp rfl).not_retrying fun due => by simp [wait]
      exact (lawful cp rfl).entered (by rw [wait]; rfl) first (lawful cp rfl).sessions (live cp rfl)
  | @failed reason cp draft failed =>
      obtain ⟨sessions, served, finished, rest⟩ := Draft.fail_ok failed
      exact .of_failed ((lawful cp rfl).result_eq_none (live cp rfl))
        ((lawful cp rfl).sessions.served served) finished rest

namespace Hosted

variable {σ : Type} {exec : ExecutionContext σ} {serializer : FiberSerializer}

/-- A fiber of the flow of a checkpoint. -/
structure DrivenBy (cp : Checkpoint) (fiber : Fiber σ) : Prop where
  flowId : fiber.flowId = cp.flowId
  flowName : fiber.flowName = cp.flowName

theorem DrivenBy.reads {cp : Checkpoint} {fiber left : Fiber σ} {request : Request}
    {continuation : Bytes} (driven : DrivenBy cp fiber) (same : exec.serializer = serializer)
    (faithful : serializer.Faithful)
    (left : fiber.Left exec (.suspended request continuation) left) :
    cp.Reads serializer continuation request.expects := by
  cases left with
  | suspended written =>
      rw [same] at written
      exact ⟨_, faithful _ _ written, driven.flowId, driven.flowName, rfl⟩

/-- A flow that has just been suspended is lawful, whether or not its wait is over. -/
theorem parks_lawful {draft parked : Draft} {attempt : Attempt} {request : Request}
    {continuation : Bytes} (entered : draft.checkpoint.Entered serializer attempt)
    (parks : draft.Parks request continuation parked)
    (reads : draft.checkpoint.Reads serializer continuation request.expects) :
    parked.checkpoint.Lawful serializer := by
  have waits : parked.checkpoint.waitingFor ≠ .nothing := by
    intro nothing
    have answer := parks.answer
    rw [nothing] at answer
    cases answer
  have answer := parks.answer
  have sound := entered.sessions.served parks.sessions
  have rest := parks.rest
  generalize parked.checkpoint = cp at *
  generalize cp.waitingFor = wait at *
  generalize cp.sessions = sessions at *
  subst rest
  exact ⟨.inl rfl, by simp [waits], fun finished => absurd finished waits, by simp [entered.result],
    fun _ => ⟨rfl, rfl, _, answer, continuation, rfl, reads⟩, by simp, sound⟩

theorem applied_lawful {draft after : Draft} {attempt : Attempt} {outcome : FiberOutcome}
    (entered : draft.checkpoint.Entered serializer attempt)
    (reads : ∀ request continuation, outcome = .suspended request continuation →
      draft.checkpoint.Reads serializer continuation request.expects)
    (applied : draft.Applied attempt outcome (after, .done)) :
    after.checkpoint.Lawful serializer := by
  generalize result : (after, Next.done) = r at applied
  cases applied with
  | suspended parks =>
      cases Draft.eq_of_answerWait_done result.symm
      exact parks_lawful entered parks (reads _ _ rfl)
  | completed served finished rest =>
      cases result
      have sound := entered.sessions.served served
      rw [rest]
      exact ⟨by simp, by simp, fun _ => ⟨rfl, finished⟩, by simp, by simp, by simp, sound⟩
  | retried retryable rest =>
      cases result
      rw [rest]
      refine ⟨by simp, by simp, by simp, by simp [entered.result], by simp, fun _ => ?_,
        entered.sessions⟩
      cases attempt with
      | start => exact ⟨⟨_, rfl⟩, by simp [Attempt.value?, entered.started rfl], by simp [Attempt.value?]⟩
      | resume value =>
          have holds := entered.resumed value rfl
          obtain ⟨continuation, known, _⟩ := holds
          refine ⟨⟨_, rfl⟩, by simp [Attempt.value?, known], fun given pending => ?_⟩
          cases pending
          exact entered.resumed value rfl
  | failed served finished rest =>
      cases result
      exact .of_failed entered.result (entered.sessions.served served) finished rest

theorem entered_of_answered {draft parked taken : Draft} {attempt : Attempt} {request : Request}
    {continuation : Bytes} {value : Resumed}
    (entered : draft.checkpoint.Entered serializer attempt)
    (parks : draft.Parks request continuation parked)
    (reads : draft.checkpoint.Reads serializer continuation request.expects)
    (answered : parked.answerWait = (taken, .resume value)) :
    taken.running.checkpoint.Entered serializer (.resume value) := by
  have lawful := parks_lawful entered parks reads
  have status : parked.checkpoint.status = .suspended := by rw [parks.rest]
  obtain ⟨sessions, ended, rfl⟩ := Draft.answered_of_answerWait answered
  exact lawful.entered ended.answer?_eq (by simp [status]) (lawful.sessions.answered ended)
    (by rw [Checkpoint.isTerminal, status]; rfl)

theorem Concludes.lawful {settings : Settings} {draft after : Draft} {entry : Entry σ}
    {stints : List Stint} {source fiber : Fiber σ} (same : exec.serializer = serializer)
    (faithful : serializer.Faithful)
    (concludes : Concludes exec settings draft entry stints after fiber)
    (entered : draft.checkpoint.Entered serializer entry.attempt)
    (left : source.Left exec entry.outcome entry.fiber) (driven : DrivenBy draft.checkpoint source) :
    after.checkpoint.Lawful serializer := by
  induction concludes generalizing source with
  | done applied =>
      refine applied_lawful entered (fun request continuation outcome => ?_)
        (Draft.applyOutcome_ok applied)
      rw [outcome] at left
      exact driven.reads same faithful left
  | @again draft parked taken after entry next value request continuation stints fiber outcome parks
      answered resumes rest ih =>
      rw [outcome] at left
      have again := entered_of_answered entered parks (driven.reads same faithful left) answered
      obtain ⟨sessions, ended, rfl⟩ := Draft.answered_of_answerWait answered
      have attempt : next.attempt = .resume value := by
        obtain ⟨_, _, _, _, attempt⟩ := resumes
        exact attempt
      refine ih ?_ resumes.left ⟨?_, ?_⟩
      · rw [attempt]
        exact again
      · have flowId : parked.checkpoint.flowId = draft.checkpoint.flowId := by rw [parks.rest]
        exact left.keeps.1.trans (driven.flowId.trans flowId.symm)
      · have flowName : parked.checkpoint.flowName = draft.checkpoint.flowName := by rw [parks.rest]
        exact left.keeps.2.1.trans (driven.flowName.trans flowName.symm)

theorem Course.lawful {offers : Identity → ExecutionContext σ → Prop} {settings : Settings}
    {waiting : Checkpoint} {prepared : Prepared} {stints : List Stint} {after : Draft}
    {suspended : Option (Suspended σ)} (faithful : serializer.Faithful)
    (serializes : ∀ owner exec, offers owner exec → exec.serializer = serializer)
    (course : Course offers settings waiting prepared stints after suspended)
    (proper : prepared.Proper serializer) : after.checkpoint.Lawful serializer := by
  cases course with
  | skipped => exact proper
  | unregistered offered unknown applied =>
      exact applied_lawful proper (fun _ _ impossible => by cases impossible) applied
  | started offered created starts rest =>
      obtain ⟨_, flowId, flowName, _⟩ := Fiber.registered_of_forFlow created
      have attempt := starts.choose_spec.2.2.2
      refine rest.lawful (serializes _ _ offered) faithful ?_ starts.left ⟨flowId, flowName⟩
      rw [attempt]
      exact proper
  | @resumed draft after exec value continuation fiber left entry stints offered known restored
      resumes rest =>
      have same := serializes _ _ offered
      have attempt := resumes.choose_spec.2.2.2
      obtain ⟨_, flowId, _, image, read, _, flowName, _⟩ := Fiber.restore_ok restored
      obtain ⟨held, holds, image', read', _, flowName', _⟩ := proper.resumed value rfl
      have flowName : fiber.flowName = draft.checkpoint.flowName := by
        rw [show draft.running.checkpoint.continuation = some continuation from known] at holds
        cases holds
        rw [← same, read] at read'
        cases read'
        exact flowName.symm.trans flowName'
      refine rest.lawful same faithful ?_ resumes.left ⟨flowId, flowName⟩
      rw [attempt]
      exact proper

end Hosted

/-- What an event leads to is lawful if what it found was. -/
theorem Plan.Yields.lawful {σ : Type} {serializer : FiberSerializer}
    {offers : Identity → ExecutionContext σ → Prop} {settings : Settings} {event : Event}
    {loaded : Option Checkpoint} {stints : List Stint} {commit : Commit σ}
    (faithful : serializer.Faithful)
    (serializes : ∀ owner exec, offers owner exec → exec.serializer = serializer)
    (yields : Yields offers settings event loaded stints commit)
    (lawful : ∀ cp, loaded = some cp → cp.Lawful serializer) :
    commit.checkpoint.Lawful serializer := by
  obtain ⟨prepared, draft, prepares, course, checkpoint, _, _⟩ := yields.course
  rw [checkpoint]
  exact (course.lawful faithful serializes (prepares.proper lawful yields.live)).stamp _ _

/-- Whatever happens at a site that starts over an empty store, every checkpoint that is stored is
lawful. -/
theorem Services.lawful_of_stored {σ π : Type} (publisher : Publisher π) (recipe : Recipe σ)
    (serializer : FiberSerializer) (faithful : serializer.Faithful)
    (serializes : ∀ number owner exec, recipe number owner = .ok exec →
      exec.serializer = serializer)
    (capacity ttl : Nat) (world : σ) (published : π) (moments : List Moment) (id : FlowId)
    (cp : Checkpoint) :
    (Services.run ⟨Store.inMemory, publisher⟩ moments
      (.launch recipe (.new capacity ttl) world {} published)).2.stored.get? id = some cp →
      cp.Lawful serializer := by
  have faithful' := faithful.of_serializes serializes
  have coherent :=
    Site.launch_coherent recipe (.new capacity ttl) world (fun store => store) {} published rfl rfl
  obtain ⟨history, records⟩ := exists_records publisher faithful' coherent moments
  refine records.induction faithful' (P := fun _ loaded => ∀ cp, loaded = some cp →
    cp.Lawful serializer) ?_ coherent ?_ cp
  · intro past deed host orderly happens mine isOf lawful cp written
    cases written
    have serializes (owner : Identity) (exec : ExecutionContext σ) (gives : host.Gives owner exec) :
        exec.serializer = serializer :=
      orderly.serializer (P := (· = serializer)) serializes (.environment owner gives)
    exact (happens.lawful faithful serializes lawful).stamp _ _
  · intro cp found
    cases found

/-- An echo that listens is stored, and it is lawful. -/
theorem Services.lawful_of_stored_listening :
    let run := Services.run ⟨Store.inMemory, .collecting⟩ [.event Echo.settings Echo.begin]
      (.launch Echo.execution (.new 1 1000) () {} [])
    ∃ cp, run.2.stored.get? Echo.flow = some cp ∧ cp.status = .suspended ∧ cp.Lawful .json := by
  refine ⟨_, rfl, rfl, ?_⟩
  exact Services.lawful_of_stored .collecting Echo.execution .json FiberSerializer.json_faithful
    Echo.execution_serializer 1 1000 () [] [.event Echo.settings Echo.begin] Echo.flow _ rfl

end DurableFlow
