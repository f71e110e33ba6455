import DurableFlow.Proofs.Lawful

/-! # What becomes of the items of a session

Items leave a session in the order of their numbers, each once, and only items that were accepted:
`Intake.Accounts`. What leaves a session when flow logic is entered is what the logic is told of it,
unless the wait overlooks an item: `Stint.Delivers`.
-/

namespace DurableFlow

open Hosted

/-- What a session has taken in, what was taken off it, and what is left add up. -/
structure Intake.Accounts (accepted removed : List (Nat × Item)) (intake : Intake) : Prop where
  sound : intake.Sound
  numbers : removed.map Prod.fst = List.range' 1 (intake.next - 1)
  accepted_iff : ∀ n item, (n, item) ∈ accepted ↔
    (n, item) ∈ removed ∨ intake.pending.get? n = some item
  once : (accepted.map Prod.fst).Nodup

namespace Intake.Accounts

variable {accepted removed : List (Nat × Item)} {intake after : Intake}

theorem initial : Accounts [] [] initial where
  sound := sound_initial
  numbers := rfl
  accepted_iff n item := by
    have none : Intake.initial.pending.get? n = none := rfl
    simp [none]
  once := List.nodup_nil

theorem keep (accounts : Accounts accepted removed intake) {number : Nat} (item : Item)
    (le : intake.next ≤ number) (absent : intake.pending.get? number = none) :
    Accounts (accepted ++ [(number, item)]) removed
      ⟨intake.next, intake.pending.insert number item⟩ where
  sound := by
    refine ⟨accounts.sound.one_le, fun n held found => ?_⟩
    by_cases here : n = number
    · subst here
      exact le
    · rw [SortedMap.get?_insert_of_ne _ _ here] at found
      exact accounts.sound.next_le n held found
  numbers := accounts.numbers
  accepted_iff n held := by
    rw [List.mem_append, accounts.accepted_iff, List.mem_singleton]
    by_cases here : n = number
    · subst here
      have fresh : (n, held) ∉ removed := by
        intro gone
        have : n ∈ removed.map Prod.fst := List.mem_map_of_mem gone
        rw [accounts.numbers, List.mem_range'_1] at this
        omega
      simp [absent, fresh, SortedMap.get?_insert_self, eq_comm]
    · simp [here, SortedMap.get?_insert_of_ne _ _ here]
  once := by
    rw [List.map_append, List.nodup_append]
    refine ⟨accounts.once, by simp, ?_⟩
    intro n old m new same
    subst same
    simp only [List.map_cons, List.map_nil, List.mem_singleton] at new
    subst new
    obtain ⟨⟨n, held⟩, member, rfl⟩ := List.mem_map.1 old
    rcases (accounts.accepted_iff _ _).1 member with gone | pending
    · have : n ∈ removed.map Prod.fst := List.mem_map_of_mem gone
      rw [accounts.numbers, List.mem_range'_1] at this
      simp only at le
      omega
    · rw [absent] at pending
      cases pending

theorem takes (accounts : Accounts accepted removed intake) {items : List (Nat × Item)}
    (takes : intake.Takes items after) : Accounts accepted (removed ++ items) after where
  sound := takes.sound accounts.sound
  numbers := by
    have one_le := accounts.sound.one_le
    rw [List.map_append, accounts.numbers, takes.numbers, takes.next_eq]
    obtain ⟨gone, next⟩ : ∃ gone, intake.next = 1 + gone := ⟨intake.next - 1, by omega⟩
    rw [next, Nat.add_sub_cancel_left, List.range'_append_1, Nat.add_assoc,
      Nat.add_sub_cancel_left]
  accepted_iff n item := by
    rw [accounts.accepted_iff, takes.get?_iff, List.mem_append, or_assoc]
  once := accounts.once

end Intake.Accounts

namespace Stint

/-- The items that left a session when the logic was entered. -/
def removed (stint : Stint) (id : SessionId) : List (Nat × Item) :=
  (Intake.find stint.waiting.sessions id).removed (Intake.find stint.entered.sessions id)

/-- What the logic was told of a session. -/
def told (stint : Stint) (id : SessionId) : List Item :=
  (stint.heard.map (·.delivers id)).getD []

/-- The wait that was answered names a session twice and overlooks an item of it. -/
def Overlooks (stint : Stint) (id : SessionId) : Prop :=
  ∃ value, stint.attempt = .resume value ∧
    stint.waiting.waitingFor.Overlooks value id (Intake.find stint.waiting.sessions id)

/-- What leaves a session is told, just if the wait overlooks nothing of it; and unless the stint
repeats one that failed, no payload is told that does not leave its session. -/
structure Delivers (stint : Stint) (id : SessionId) : Prop where
  heard : stint.heard = stint.attempt.value?
  takes : (Intake.find stint.waiting.sessions id).Takes (stint.removed id)
    (Intake.find stint.entered.sessions id)
  told_iff : ((stint.removed id).map Prod.snd).Sublist (stint.told id) ↔ ¬ stint.Overlooks id
  removed_of_told : stint.waiting.status ≠ .retrying → ∀ payload,
    .data payload ∈ stint.told id → .data payload ∈ (stint.removed id).map Prod.snd

theorem removed_eq {stint : Stint} {id : SessionId} {items : List (Nat × Item)}
    (sound : (Intake.find stint.waiting.sessions id).Sound)
    (takes : (Intake.find stint.waiting.sessions id).Takes items
      (Intake.find stint.entered.sessions id)) : stint.removed id = items :=
  takes.removed_eq sound

namespace Delivers

variable {stint : Stint} {id : SessionId}

theorem of_unchanged (sound : (Intake.find stint.waiting.sessions id).Sound)
    (heard : stint.heard = stint.attempt.value?)
    (same : stint.entered.sessions = stint.waiting.sessions)
    (attends : ∀ value, stint.attempt = .resume value →
      ¬ stint.waiting.waitingFor.Overlooks value id (Intake.find stint.waiting.sessions id))
    (silent : stint.waiting.status ≠ .retrying → ∀ payload, .data payload ∉ stint.told id) :
    stint.Delivers id := by
  have takes : (Intake.find stint.waiting.sessions id).Takes []
      (Intake.find stint.entered.sessions id) := by
    rw [same]
    exact .none
  have removed := stint.removed_eq sound takes
  refine ⟨heard, by rw [removed]; exact takes, ?_, fun first payload told => ?_⟩
  · rw [removed]
    refine iff_of_true (List.nil_sublist _) ?_
    rintro ⟨value, attempt, overlooks⟩
    exact attends value attempt overlooks
  · exact absurd told (silent first payload)

theorem of_answer {awaited : List SessionId} {deadline : Option Timestamp} {value : Resumed}
    (sound : (Intake.find stint.waiting.sessions id).Sound)
    (wait : stint.waiting.waitingFor = .sessions awaited deadline)
    (attempt : stint.attempt = .resume value) (heard : stint.heard = some value)
    (answer : Checkpoint.Answer stint.waiting.sessions awaited value stint.entered.sessions) :
    stint.Delivers id := by
  obtain ⟨items, takes, told, given⟩ := answer.takes deadline id
  have removed := stint.removed_eq sound takes
  have same : stint.told id = value.delivers id := by rw [Stint.told, heard]; rfl
  refine ⟨by rw [heard, attempt]; rfl, by rw [removed]; exact takes, ?_, fun _ => ?_⟩
  · rw [removed, same, told, Overlooks, wait, attempt]
    constructor
    · rintro attends ⟨_, again, overlooks⟩
      cases again
      exact attends overlooks
    · exact fun attends overlooks => attends ⟨value, rfl, overlooks⟩
  · rw [removed, same]
    exact given

end Delivers

end Stint

theorem SessionsServed.find_eq {before after : SortedMap SessionId Session}
    (served : SessionsServed before after) (id : SessionId) :
    Intake.find after id = Intake.find before id := by
  unfold Intake.find
  cases found : before.get? id with
  | some session =>
      obtain ⟨session', found', kept⟩ := served.old id session found
      rw [found']
      simp only [Option.map_some, Option.getD_some, Session.intake, kept.nextReceive, kept.pending]
  | none =>
      cases found' : after.get? id with
      | none => rfl
      | some session =>
          have kept := served.new id session found found'
          simp only [Option.map_some, Option.getD_some, Session.intake, kept.nextReceive,
            kept.pending]
          rfl

theorem SessionsSound.find {sessions : SortedMap SessionId Session} (sound : SessionsSound sessions)
    (id : SessionId) : (Intake.find sessions id).Sound := by
  unfold Intake.find
  cases found : sessions.get? id with
  | none => exact Intake.sound_initial
  | some session => exact (sound id session found).intake

theorem Draft.Applied.find_eq {draft after : Draft} {attempt : Attempt} {outcome : FiberOutcome}
    (applied : draft.Applied attempt outcome (after, .done)) (id : SessionId) :
    Intake.find after.checkpoint.sessions id = Intake.find draft.checkpoint.sessions id := by
  generalize result : (after, Next.done) = r at applied
  cases applied with
  | suspended parks =>
      cases Draft.eq_of_answerWait_done result.symm
      exact parks.sessions.find_eq id
  | completed served finished rest | failed served finished rest =>
      cases result
      rw [rest]
      exact served.find_eq id
  | retried retryable rest =>
      cases result
      rw [rest]

/-- What happens to a session between two checkpoints of its flow. -/
structure Delivered (id : SessionId) (before : Intake) (stints : List Stint) (after : Intake) : Prop where
  takes : before.Takes (stints.flatMap (·.removed id)) after
  each : ∀ stint ∈ stints, stint.Delivers id

theorem Delivered.cons {id : SessionId} {stint : Stint} {stints : List Stint} {after : Intake}
    (delivers : stint.Delivers id)
    (rest : Delivered id (Intake.find stint.entered.sessions id) stints after) :
    Delivered id (Intake.find stint.waiting.sessions id) (stint :: stints) after := by
  refine ⟨?_, ?_⟩
  · rw [List.flatMap_cons]
    exact delivers.takes.trans rest.takes
  · intro other member
    rcases List.mem_cons.1 member with rfl | member
    · exact delivers
    · exact rest.each other member

theorem Hosted.Concludes.delivered {σ : Type} {exec : ExecutionContext σ} {settings : Settings}
    {draft after : Draft} {entry : Entry σ} {stints : List Stint} {source fiber : Fiber σ}
    {id : SessionId} (concludes : Concludes exec settings draft entry stints after fiber)
    (left : source.Left exec entry.outcome entry.fiber)
    (sound : (Intake.find draft.checkpoint.sessions id).Sound) :
    Delivered id (Intake.find draft.checkpoint.sessions id) stints
      (Intake.find after.checkpoint.sessions id) := by
  induction concludes generalizing source with
  | done applied =>
      rw [(Draft.applyOutcome_ok applied).find_eq id]
      exact ⟨.none, fun _ member => by cases member⟩
  | @again draft parked taken after entry next value request continuation stints fiber outcome parks
      answered resumes rest ih =>
      rw [outcome] at left
      obtain ⟨sessions, ended, rfl⟩ := Draft.answered_of_answerWait answered
      rw [← parks.sessions.find_eq id] at sound ⊢
      have heard : entry.fiber.heeded value = some value := by
        have kind := ended.answer?_eq
        rw [parks.answer] at kind
        rw [Fiber.heeded, left.keeps.2.2.2, kind, if_pos rfl]
      have delivers : Stint.Delivers (next.resumed parked.checkpoint
          (Draft.running { parked with checkpoint := { parked.checkpoint with sessions } }) value
          entry.fiber) id := by
        cases ended with
        | confirmed wait =>
            refine .of_unchanged sound heard rfl ?_ fun _ payload told => ?_
            · rintro _ same ⟨_, _, _, _, messages, _⟩
              cases same
              cases messages
            · rw [Stint.told, Entry.resumed, heard] at told
              cases told
        | taken wait answer => exact .of_answer sound wait rfl heard answer
      exact .cons delivers (ih resumes.left (delivers.takes.sound sound))

/-- A stint that follows a decision. -/
def Stint.Follows (stint : Stint) : Decision → Prop
  | .start _ => stint.attempt = .start ∧ stint.heard = none
  | .resume value => stint.attempt = .resume value ∧ stint.heard = some value
  | .skip => False

/-- The inbound side of a session of a flow, be the flow stored or not. -/
def Intake.stored (loaded : Option Checkpoint) (id : SessionId) : Intake :=
  (loaded.map fun cp => find cp.sessions id).getD initial

theorem Intake.stored_of_get? {cp : Checkpoint} {id : SessionId} {session : Session}
    (found : cp.sessions.get? id = some session) : stored (some cp) id = session.intake := by
  rw [stored, Option.map_some, Option.getD_some, find, found]
  rfl

/-- What an event adds to the items of a session once it is committed. -/
def EventPayload.accepted (payload : EventPayload) (id : SessionId) : List (Nat × Item) :=
  match payload with
  | .session other number item => if other = id then [(number, item)] else []
  | _ => []

namespace Handler.Prepares

variable {flowId : FlowId} {config : Config} {now : Timestamp} {payload : EventPayload}
variable {loaded : Option Checkpoint} {prepared : Prepared} {serializer : FiberSerializer}

theorem waiting_eq (prepares : Prepares flowId config now payload loaded prepared)
    (unresumed : ∀ value, prepared.decision ≠ .resume value) :
    waiting payload loaded prepared = prepared.draft.checkpoint := by
  cases prepares with
  | kept found isOpen unseen waits => simp only [waiting, found]
  | answered => exact absurd rfl (unresumed _)
  | _ => rfl

theorem heard_eq {prepared : Prepared} {stint : Stint} (follows : stint.Follows prepared.decision) :
    stint.heard = stint.attempt.value? := by
  cases decision : prepared.decision with
  | start args | resume value =>
      rw [decision] at follows
      rw [follows.1, follows.2]
      rfl
  | skip =>
      rw [decision] at follows
      cases follows

theorem delivers_of_unchanged {prepared : Prepared} {stint : Stint} {id : SessionId}
    (sound : SessionsSound prepared.draft.checkpoint.sessions)
    (begins : stint.waiting = prepared.draft.checkpoint)
    (entered : stint.entered = prepared.draft.running.checkpoint)
    (follows : stint.Follows prepared.decision)
    (plain : ∀ value, prepared.decision = .resume value →
      (∀ intake, ¬ prepared.draft.checkpoint.waitingFor.Overlooks value id intake) ∧
        (prepared.draft.checkpoint.status ≠ .retrying → ∀ payload,
          .data payload ∉ value.delivers id)) : stint.Delivers id := by
  rw [← begins] at plain sound
  refine .of_unchanged (sound.find id) (heard_eq follows) (by rw [entered, begins]; rfl) ?_ ?_
  · intro value attempt
    cases decision : prepared.decision with
    | start args =>
        rw [decision] at follows
        rw [follows.1] at attempt
        cases attempt
    | resume given =>
        rw [decision] at follows
        rw [follows.1] at attempt
        cases attempt
        exact (plain value decision).1 _
    | skip =>
        rw [decision] at follows
        cases follows
  · intro first payload
    cases decision : prepared.decision with
    | start args =>
        rw [decision] at follows
        simp [Stint.told, follows.2]
    | resume given =>
        rw [decision] at follows
        simpa [Stint.told, follows.2] using (plain given decision).2 first payload
    | skip =>
        rw [decision] at follows
        cases follows

/-- The first stint of an event delivers what leaves the sessions then. -/
theorem delivers (prepares : Prepares flowId config now payload loaded prepared)
    (lawful : ∀ cp, loaded = some cp → cp.Lawful serializer) (proper : prepared.Proper serializer)
    {stint : Stint} (begins : stint.waiting = waiting payload loaded prepared)
    (entered : stint.entered = prepared.draft.running.checkpoint)
    (follows : stint.Follows prepared.decision) (id : SessionId) : stint.Delivers id := by
  cases prepares with
  | started | restarted =>
      exact delivers_of_unchanged proper.sessions begins entered follows fun _ resumed => by
        cases resumed
  | @answered other number item cp after session value found isOpen unseen taken =>
      obtain ⟨awaited, deadline, sessions, wait, answer, rfl⟩ := Checkpoint.takeReady?_some taken
      simp only [waiting, found] at begins
      have sound := (lawful cp rfl).sessions.keep item found unseen
      have sound : (Intake.find stint.waiting.sessions id).Sound := by
        rw [begins]
        exact sound.find id
      refine .of_answer sound (by rw [begins]; exact wait) follows.1 follows.2 ?_
      rw [begins, entered]
      exact answer
  | kept | early | counted | failed => cases follows
  | awake | timedOut | confirmed =>
      -- Neither a wake-up nor a failed session nor a count carries messages.
      refine delivers_of_unchanged proper.sessions begins entered follows fun _ resumed => ?_
      cases resumed
      refine ⟨?_, fun _ _ told => ?_⟩
      · rintro intake ⟨_, _, _, _, messages, _⟩
        cases messages
      · cases told
  | again wait late retrying pending =>
      refine delivers_of_unchanged proper.sessions begins entered follows fun _ resumed => ?_
      cases resumed
      refine ⟨?_, fun first => absurd retrying first⟩
      rintro intake ⟨_, _, _, sessions, _⟩
      cases wait.symm.trans sessions

/-- An event adds the item it brings to what its session has taken in. -/
theorem accounts (prepares : Prepares flowId config now payload loaded prepared) {id : SessionId}
    {accepted removed : List (Nat × Item)}
    (accounts : (Intake.stored loaded id).Accounts accepted removed) :
    (Intake.find (waiting payload loaded prepared).sessions id).Accounts
      (accepted ++ payload.accepted id) removed := by
  have kept {other : SessionId} {number : Nat} {item : Item} {cp : Checkpoint} {session : Session}
      (found : cp.sessions.get? other = some session) (unseen : session.hasSeen number = false)
      (accounts : (Intake.stored (some cp) id).Accounts accepted removed) :
      (Intake.find (keep cp other session number item).sessions id).Accounts
        (accepted ++ (EventPayload.session other number item).accepted id) removed := by
    by_cases here : other = id
    · subst here
      rw [Intake.stored_of_get? found] at accounts
      simp only [Session.hasSeen, Bool.or_eq_false_iff, decide_eq_false_iff_not, Nat.not_lt] at unseen
      have absent : session.pending.get? number = none := by
        simpa [SortedMap.contains] using unseen.2
      rw [EventPayload.accepted, if_pos rfl, keep, Checkpoint.putSession, Intake.find_insert_self]
      exact accounts.keep item unseen.1 absent
    · rw [EventPayload.accepted, if_neg here, List.append_nil, keep, Checkpoint.putSession,
        Intake.find_insert_of_ne _ _ (Ne.symm here)]
      exact accounts
  cases prepares with
  | started served rest =>
      simp only [EventPayload.accepted, waiting, List.append_nil, served.find_eq id]
      exact accounts
  | kept found isOpen unseen waits =>
      simp only [waiting, found]
      exact kept found unseen accounts
  | answered found isOpen unseen taken =>
      simp only [waiting, found]
      exact kept found unseen accounts
  | failed failed =>
      obtain ⟨sessions, served, _, rest⟩ := Draft.fail_ok failed
      simp only [EventPayload.accepted, waiting, List.append_nil, rest, served.find_eq id]
      exact accounts
  | _ =>
      simp only [EventPayload.accepted, List.append_nil]
      exact accounts

end Handler.Prepares

namespace Hosted

variable {σ : Type} {exec : ExecutionContext σ} {serializer : FiberSerializer}

theorem heeded_of_restored {cp : Checkpoint} {value : Resumed} {continuation : Bytes}
    {fiber : Fiber σ} (same : exec.serializer = serializer)
    (entered : cp.Entered serializer (.resume value)) (known : cp.continuation = some continuation)
    (restored : Fiber.restore exec cp.flowId continuation = .ok fiber) :
    fiber.heeded value = some value := by
  obtain ⟨_, _, _, image, read, _, _, parked⟩ := Fiber.restore_ok restored
  obtain ⟨held, holds, image', read', _, _, kind⟩ := entered.resumed value rfl
  rw [known] at holds
  cases holds
  rw [← same, read] at read'
  cases read'
  rw [Fiber.heeded, parked, Option.map_some, if_pos]
  exact congrArg some kind

theorem Course.delivered {offers : Identity → ExecutionContext σ → Prop} {settings : Settings}
    {flowId : FlowId} {payload : EventPayload} {loaded : Option Checkpoint} {prepared : Prepared}
    {stints : List Stint} {after : Draft} {suspended : Option (Suspended σ)}
    (serializes : ∀ owner exec, offers owner exec → exec.serializer = serializer)
    (prepares : Handler.Prepares flowId settings.config settings.now payload loaded prepared)
    (course : Course offers settings (Handler.waiting payload loaded prepared) prepared stints after
      suspended)
    (lawful : ∀ cp, loaded = some cp → cp.Lawful serializer)
    (live : ∀ cp, loaded = some cp → cp.isTerminal = false) (id : SessionId) :
    Delivered id (Intake.find (Handler.waiting payload loaded prepared).sessions id) stints
      (Intake.find after.checkpoint.sessions id) := by
  have proper := prepares.proper lawful live
  generalize waits : Handler.waiting payload loaded prepared = waiting at course ⊢
  cases course with
  | skipped =>
      have unchanged := prepares.waiting_eq fun _ resumed => by cases resumed
      rw [← waits, unchanged]
      exact ⟨.none, fun _ member => by cases member⟩
  | unregistered offered unknown applied =>
      have unchanged := prepares.waiting_eq fun _ resumed => by cases resumed
      rw [← waits, unchanged, applied.find_eq id]
      exact ⟨.none, fun _ member => by cases member⟩
  | @started draft after exec args fiber left entry stints offered created starts rest =>
      have delivers : Stint.Delivers (entry.started waiting draft.running) id :=
        prepares.delivers lawful proper waits.symm rfl ⟨rfl, rfl⟩ id
      exact .cons delivers (rest.delivered starts.left (proper.sessions.find id))
  | @resumed draft after exec value continuation fiber left entry stints offered known restored
      resumes rest =>
      have entered : draft.running.checkpoint.Entered serializer (.resume value) := proper
      have heard := heeded_of_restored (serializes _ _ offered) entered known restored
      have delivers : Stint.Delivers (entry.resumed waiting draft.running value fiber) id :=
        prepares.delivers lawful proper waits.symm rfl ⟨rfl, heard⟩ id
      exact .cons delivers (rest.delivered resumes.left (entered.sessions.find id))

end Hosted

end DurableFlow
