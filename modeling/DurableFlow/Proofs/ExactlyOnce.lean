import DurableFlow.Proofs.Continuations
import DurableFlow.Proofs.Delivery
import DurableFlow.Proofs.Primitives
import DurableFlow.Samples.Duet

/-! # Every item is delivered once

Over any run the items that leave a session are the accepted ones, each once and in the order of
their numbers. Each of them is told to the flow logic at the stint that removes it, unless the wait
overlooks it. What is told without being removed repeats the stint before, which failed.
-/

namespace DurableFlow

open Hosted Samples

/-- A stint repeats the last one before it: the same value, for the same continuation. -/
def Stint.Repeats (stint : Stint) (past : List Stint) : Prop :=
  ∃ last, past.getLast? = some last ∧ stint.attempt = last.attempt ∧
    stint.entered.continuation = last.entered.continuation

/-- A retry starts the flow again, or it repeats the last stint. -/
def Stint.Retraces (stint : Stint) (past : List Stint) : Prop :=
  stint.waiting.status = .retrying → stint.attempt = .start ∨ stint.Repeats past

/-- What a flow keeps for its retry is what its last stint was resumed with. -/
def Checkpoint.Remembers (cp : Checkpoint) (past : List Stint) : Prop :=
  cp.status = .retrying → ∀ value, cp.pendingResume = some value →
    ∃ last, past.getLast? = some last ∧ last.attempt = .resume value ∧
      last.entered.continuation = cp.continuation

namespace Hosted

variable {σ : Type} {exec : ExecutionContext σ} {settings : Settings}

theorem Concludes.remembers {draft after : Draft} {entry : Entry σ} {stints : List Stint}
    {fiber : Fiber σ} (concludes : Concludes exec settings draft entry stints after fiber)
    {first : Stint} (entered : first.entered = draft.checkpoint)
    (attempt : first.attempt = entry.attempt) (past : List Stint) :
    after.checkpoint.Remembers (past ++ first :: stints) := by
  induction concludes generalizing first past with
  | @done draft after entry applied =>
      intro retrying value pending
      obtain ⟨kept, same⟩ := (Draft.applyOutcome_ok applied).of_retrying retrying
      refine ⟨first, by simp, ?_, by rw [entered, same]⟩
      rw [kept] at pending
      rw [attempt]
      cases resumed : entry.attempt with
      | start =>
          rw [resumed] at pending
          cases pending
      | resume given =>
          rw [resumed] at pending
          cases pending
          rfl
  | again outcome parks answered resumes rest ih =>
      rw [List.append_cons]
      exact ih rfl resumes.choose_spec.2.2.2.symm _

theorem Concludes.suspended {draft after : Draft} {entry : Entry σ} {stints : List Stint}
    {fiber : Fiber σ} (concludes : Concludes exec settings draft entry stints after fiber) :
    ∀ stint ∈ stints, stint.waiting.status = .suspended := by
  induction concludes with
  | done applied =>
      intro stint member
      cases member
  | again outcome parks answered resumes rest ih =>
      intro stint member
      rcases List.mem_cons.1 member with rfl | member
      · rw [Entry.resumed, parks.rest]
      · exact ih stint member

end Hosted

namespace Handler.Prepares

variable {flowId : FlowId} {config : Config} {now : Timestamp} {payload : EventPayload}
variable {loaded : Option Checkpoint} {prepared : Prepared} {serializer : FiberSerializer}
variable {past : List Stint}

theorem remembers (prepares : Prepares flowId config now payload loaded prepared)
    (skips : prepared.decision = .skip)
    (remembers : ∀ cp, loaded = some cp → cp.Remembers past) :
    prepared.draft.checkpoint.Remembers past := by
  cases prepares with
  | kept | early | counted =>
      have remembers := remembers _ rfl
      exact remembers
  | failed failed =>
      obtain ⟨_, _, _, rest⟩ := Draft.fail_ok failed
      intro retrying
      rw [rest] at retrying
      cases retrying
  | _ => cases skips

theorem retraces (prepares : Prepares flowId config now payload loaded prepared)
    (lawful : ∀ cp, loaded = some cp → cp.Lawful serializer)
    (remembers : ∀ cp, loaded = some cp → cp.Remembers past) {stint : Stint}
    (begins : stint.waiting = waiting payload loaded prepared)
    (entered : stint.entered = prepared.draft.running.checkpoint)
    (follows : stint.Follows prepared.decision) : stint.Retraces past := by
  intro retrying
  rw [begins] at retrying
  cases prepares with
  | kept | early | counted | failed => cases follows
  | started | restarted => exact .inl follows.1
  | @answered id number item cp after session value found isOpen unseen taken =>
      obtain ⟨awaited, deadline, sessions, wait, answer, rfl⟩ := Checkpoint.takeReady?_some taken
      simp only [waiting, found] at retrying
      have waits : cp.waitingFor = .sessions awaited deadline := wait
      exact absurd retrying ((lawful cp rfl).not_retrying fun due => by simp [waits])
  | awake wait late first => exact absurd retrying first
  | again wait late again pending =>
      obtain ⟨last, recent, attempt, continuation⟩ := remembers _ rfl again _ pending
      refine .inr ⟨last, recent, follows.1.trans attempt.symm, ?_⟩
      rw [entered, continuation]
      rfl
  | timedOut wait late listed =>
      exact absurd retrying ((lawful _ rfl).not_retrying fun due => by simp [wait])
  | confirmed wait sum enough =>
      exact absurd retrying ((lawful _ rfl).not_retrying fun due => by simp [wait])

end Handler.Prepares

/-- Every stint retraces what was there before it. -/
def Retraced (past stints : List Stint) : Prop :=
  ∀ earlier stint later, stints = earlier ++ stint :: later → stint.Retraces (past ++ earlier)

namespace Retraced

variable {past stints more : List Stint}

theorem nil : Retraced past [] := by
  intro earlier stint later split
  cases earlier <;> cases split

theorem cons {first : Stint} (retraces : first.Retraces past)
    (rest : ∀ stint ∈ stints, stint.waiting.status = .suspended) :
    Retraced past (first :: stints) := by
  intro earlier stint later split
  cases earlier with
  | nil =>
      cases split
      rwa [List.append_nil]
  | cons other earlier =>
      cases split
      intro retrying
      rw [rest stint (by simp)] at retrying
      cases retrying

theorem append (before : Retraced [] past) (after : Retraced past stints) :
    Retraced [] (past ++ stints) := by
  intro earlier stint later split
  rcases List.append_eq_append_iff.1 split with ⟨between, rfl, rest⟩ | ⟨between, rest, followed⟩
  · exact after between stint later rest
  · cases between with
    | nil =>
        rw [List.append_nil] at rest
        subst rest
        have retraces := after [] stint later followed.symm
        rwa [List.append_nil] at retraces
    | cons other between =>
        cases followed
        exact before earlier stint between rest

end Retraced

namespace Hosted

variable {σ : Type} {serializer : FiberSerializer}

/-- What an event leads to repeats nothing but the last stint before it. -/
theorem Course.retraced {offers : Identity → ExecutionContext σ → Prop} {settings : Settings}
    {flowId : FlowId} {payload : EventPayload} {loaded : Option Checkpoint} {prepared : Prepared}
    {stints past : List Stint} {after : Draft} {suspended : Option (Suspended σ)}
    (serializes : ∀ owner exec, offers owner exec → exec.serializer = serializer)
    (prepares : Handler.Prepares flowId settings.config settings.now payload loaded prepared)
    (course : Course offers settings (Handler.waiting payload loaded prepared) prepared stints after
      suspended)
    (lawful : ∀ cp, loaded = some cp → cp.Lawful serializer)
    (live : ∀ cp, loaded = some cp → cp.isTerminal = false)
    (remembers : ∀ cp, loaded = some cp → cp.Remembers past) :
    Retraced past stints ∧ after.checkpoint.Remembers (past ++ stints) := by
  have proper := prepares.proper lawful live
  generalize waits : Handler.waiting payload loaded prepared = waiting at course
  cases course with
  | skipped =>
      rw [List.append_nil]
      exact ⟨.nil, prepares.remembers rfl remembers⟩
  | unregistered offered unknown applied =>
      refine ⟨.nil, fun retrying value pending => ?_⟩
      rw [(applied.of_retrying retrying).1] at pending
      cases pending
  | started offered created starts rest =>
      have attempt := starts.choose_spec.2.2.2
      exact ⟨.cons (prepares.retraces lawful remembers waits.symm rfl ⟨rfl, rfl⟩) rest.suspended,
        rest.remembers rfl attempt.symm past⟩
  | resumed offered known restored resumes rest =>
      have heard := heeded_of_restored (serializes _ _ offered) proper known restored
      have attempt := resumes.choose_spec.2.2.2
      exact ⟨.cons (prepares.retraces lawful remembers waits.symm rfl ⟨rfl, heard⟩) rest.suspended,
        rest.remembers rfl attempt.symm past⟩

end Hosted

/-- How the items of a session have fared by the time a flow has a checkpoint. -/
structure Delivery {σ : Type} (serializer : FiberSerializer) (id : SessionId)
    (history : List (Deed σ)) (stored : Option Checkpoint) : Prop where
  lawful : ∀ cp, stored = some cp → cp.Lawful serializer
  accounts : (Intake.stored stored id).Accounts
    (history.flatMap (·.event.payload.accepted id))
    ((history.flatMap (·.stints)).flatMap (·.removed id))
  delivers : ∀ stint ∈ history.flatMap (·.stints), stint.Delivers id
  retraced : Retraced [] (history.flatMap (·.stints))
  remembers : ∀ cp, stored = some cp → cp.Remembers (history.flatMap (·.stints))

namespace Delivery

variable {σ : Type} {serializer : FiberSerializer} {id : SessionId}

theorem initial : Delivery (σ := σ) serializer id [] none where
  lawful _ found := by cases found
  accounts := .initial
  delivers _ member := by cases member
  retraced := .nil
  remembers _ found := by cases found

/-- Every committed event keeps the items of a session in order. -/
theorem deed {history : List (Deed σ)} {deed : Deed σ} {host : Host σ}
    (faithful : serializer.Faithful)
    (serializes : ∀ owner exec, host.Gives owner exec → exec.serializer = serializer)
    (delivery : Delivery serializer id history deed.loaded) (happens : deed.Happens host) :
    Delivery serializer id (history ++ [deed]) (some deed.written) := by
  obtain ⟨prepared, draft, prepares, course, checkpoint, _, _⟩ := happens.course
  have delivered := course.delivered serializes prepares delivery.lawful happens.live id
  obtain ⟨retraced, remembers⟩ :=
    course.retraced serializes prepares delivery.lawful happens.live delivery.remembers
  have sessions : deed.written.sessions = draft.checkpoint.sessions := by
    rw [Deed.written, Commit.written, checkpoint]
  constructor
  · rintro cp ⟨⟩
    exact (happens.lawful faithful serializes delivery.lawful).stamp _ _
  · have accounts := (prepares.accounts delivery.accounts).takes delivered.takes
    simp only [List.flatMap_append, List.flatMap_singleton, Intake.stored, Option.map_some,
      Option.getD_some, sessions]
    exact accounts
  · intro stint member
    rw [List.flatMap_append, List.flatMap_singleton, List.mem_append] at member
    exact member.elim (delivery.delivers stint) (delivered.each stint)
  · rw [List.flatMap_append, List.flatMap_singleton]
    exact delivery.retraced.append retraced
  · rintro cp ⟨⟩
    rw [List.flatMap_append, List.flatMap_singleton, Deed.written, Commit.written, checkpoint]
    exact remembers

end Delivery

/-- Over any run that starts over an empty store, the items that leave a session are those that were
accepted, each once and in the order of their numbers. An item is told to the flow logic at the stint
that removes it just if the wait does not overlook it; a payload is told at no other stint but one
that repeats the stint before. -/
theorem Services.delivers_in_order {σ π : Type} (publisher : Publisher π) (recipe : Recipe σ)
    (serializer : FiberSerializer) (faithful : serializer.Faithful)
    (serializes : ∀ number owner exec, recipe number owner = .ok exec →
      exec.serializer = serializer)
    (capacity ttl : Nat) (world : σ) (published : π) (moments : List Moment) (flow : FlowId)
    (id : SessionId) :
    let services : Services Store π := ⟨Store.inMemory, publisher⟩
    let site := Site.launch recipe (.new capacity ttl) world {} published
    (∃ history, services.Records site moments history) ∧
      ∀ history, services.Records site moments history →
        let deeds := history.filter (·.event.flowId = flow)
        let stints := deeds.flatMap (·.stints)
        Intake.Accounts (deeds.flatMap (·.event.payload.accepted id))
            (stints.flatMap (·.removed id))
            (Intake.stored ((services.run moments site).2.stored.get? flow) id) ∧
          ∀ earlier stint later, stints = earlier ++ stint :: later →
            stint.Delivers id ∧ stint.Retraces earlier := by
  intro services site
  have faithful' := faithful.of_serializes serializes
  have coherent :=
    Site.launch_coherent recipe (.new capacity ttl) world (fun store => store) {} published rfl rfl
  refine ⟨exists_records publisher faithful' coherent moments, fun history records => ?_⟩
  have delivery : Delivery serializer id (history.filter (·.event.flowId = flow))
      ((services.run moments site).2.stored.get? flow) := by
    refine records.induction faithful' (P := Delivery serializer id) ?_ coherent .initial
    intro past deed host orderly happens mine isOf delivery
    refine delivery.deed faithful (fun owner exec gives => ?_) happens
    exact orderly.serializer (P := (· = serializer)) serializes (.environment owner gives)
  refine ⟨delivery.accounts, fun earlier stint later split => ⟨?_, ?_⟩⟩
  · exact delivery.delivers stint (by rw [split]; simp)
  · have retraces := delivery.retraced earlier stint later split
    rwa [List.nil_append] at retraces

/-- An echo that is told of a second item before the first has just the first taken off. -/
theorem Services.delivers_first_of_two :
    let moments : List Moment := [.event Echo.settings Echo.begin,
      .event Echo.settings (Echo.say 2 .close),
      .event Echo.settings (Echo.say 1 (.data [104, 105]))]
    ∃ history, Services.Records ⟨Store.inMemory, .collecting⟩
        (.launch Echo.execution (.new 1 1000) () {} []) moments history ∧
      let stints := (history.filter (·.event.flowId = Echo.flow)).flatMap (·.stints)
      (stints.flatMap (·.removed Echo.session)).map Prod.fst = [1] ∧
        ∀ stint ∈ stints, stint.Delivers Echo.session := by
  intro moments
  obtain ⟨⟨history, records⟩, whole⟩ := Services.delivers_in_order .collecting Echo.execution .json
    FiberSerializer.json_faithful Echo.execution_serializer 1 1000 () [] moments Echo.flow Echo.session
  obtain ⟨accounts, delivers⟩ := whole history records
  have next : (Intake.stored ((Services.run ⟨Store.inMemory, .collecting⟩ moments
      (.launch Echo.execution (.new 1 1000) () {} [])).2.stored.get? Echo.flow) Echo.session).next =
      2 := by decide +kernel
  refine ⟨history, records, ?_, fun stint member => ?_⟩
  · exact accounts.numbers.trans (congrArg (fun next => List.range' 1 (next - 1)) next)
  · obtain ⟨earlier, later, split⟩ := List.append_of_mem member
    exact (delivers earlier stint later split).1

namespace Samples.Duet

open Stateful

theorem keepsToPrimitives : duet.KeepsToPrimitives := by
  intro input logic known ctx world
  cases input with
  | start args =>
      cases known
      refine ⟨.refl, ?_⟩
      rintro _ _ ⟨⟩
      exact ⟨ctx, .refl, .forceCheckpoint, .refl⟩
  | resume state value =>
      cases known
      cases value with
      | messages => exact ⟨.refl, fun _ _ impossible => by cases impossible⟩
      | wakeup | confirmed | sessionFailed =>
          simp only [run_bind, Logic.run_context, Logic.run_ofFlow]
          cases built : ctx.receive (ctx.initiator.toList ++ ctx.initiator.toList) with
          | error error => exact ⟨.refl, fun _ _ impossible => by cases impossible⟩
          | ok request =>
              refine ⟨.refl, ?_⟩
              rintro _ _ ⟨⟩
              exact ⟨ctx, .refl, .receive built, .refl⟩

end Samples.Duet

/-- A duet keeps to the primitives, and two items that were acknowledged have left its session. But what
it was ever told is the second one: its wait overlooks the first. -/
theorem Services.overlooks_first_of_two :
    let moments : List Moment := [.event Echo.settings Duet.begin,
      .event Echo.settings (Echo.say 1 (.data [104])),
      .event Echo.settings (Echo.say 2 (.data [105])), .event Echo.settings Duet.wake]
    let site := (Services.run ⟨Store.inMemory, .collecting⟩ moments
      (.launch Duet.execution (.new 1 1000) () {} [])).2
    duet.KeepsToPrimitives ∧
      (∀ number ∈ [1, 2], .sessionAck Echo.flow Echo.session number ∈ site.published) ∧
      (Intake.stored (site.stored.get? Echo.flow) Echo.session).next = 3 ∧
      (site.stored.get? Echo.flow).bind (·.result) = some [105] :=
  ⟨Duet.keepsToPrimitives, by decide +kernel, by decide +kernel, by decide +kernel⟩

end DurableFlow
