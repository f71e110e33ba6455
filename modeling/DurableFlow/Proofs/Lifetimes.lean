import DurableFlow.Proofs.Dependability
import DurableFlow.Proofs.Endings
import DurableFlow.Proofs.Fates
import DurableFlow.Proofs.Partings

/-! # The lives of sessions

From one commit to the next a session takes in what its event brings, items are consumed, and it fares
as the records say: `Commit.Tells`. So after all writes of a flow a session stands as they have
recorded, `Session.Stands`, and once it has ended it stays as it is.
-/

namespace DurableFlow

open Stateful Hosted Samples

variable {σ δ : Type}

section Entrances

variable {strict : Prop} {recipe : Recipe σ} {host : Host σ} {settings : Settings}
  {prepared : Prepared}

theorem Prepared.Reaches.fated (courteous : recipe.Offers (·.Courteous strict))
    (stocked : host.Stocked recipe fun _ entry => entry.fiber.logic.Courteous strict)
    (tidy : Tidy prepared.draft.checkpoint.flowId prepared.draft.checkpoint.sessions)
    {entrance : Entrance σ} (reached : prepared.Reaches settings host entrance) (id : SessionId) :
    prepared.draft.Emits (Fated id) entrance.draft := by
  induction reached with
  | started _ _ moved | woken _ _ moved => exact (Draft.Tends.setStatus moved).fated id
  | again reached ran applied moved ih =>
      have holds := reached.parts courteous stocked tidy
      have parting := (Entrance.calls ran).1.parting holds.courteous holds.tidy
      have applied := Draft.applyOutcome_fated strict parting applied id
      exact (ih.fated applied).fated ((Draft.Tends.setStatus moved).fated id)

theorem Prepared.Ends.fated (courteous : recipe.Offers (·.Courteous strict))
    (stocked : host.Stocked recipe fun _ entry => entry.fiber.logic.Courteous strict)
    (tidy : Tidy prepared.draft.checkpoint.flowId prepared.draft.checkpoint.sessions)
    {after : Draft} {left : Option (Suspended σ)}
    (ends : prepared.Ends settings host (.ok (after, left))) (id : SessionId) :
    prepared.draft.Emits (Fated id) after := by
  cases ends with
  | skipped => exact (Draft.Tends.of_checkpoint rfl rfl).fated id
  | unknown _ moved applied =>
      have applied := Draft.applyOutcome_fated strict (fun succeeds => absurd rfl (succeeds _)) applied id
      exact ((Draft.Tends.setStatus moved).fated id).fated applied
  | concluded reached ran applied =>
      have holds := reached.parts courteous stocked tidy
      have parting := (Entrance.calls ran).1.parting holds.courteous holds.tidy
      exact (reached.fated courteous stocked tidy id).fated
        (Draft.applyOutcome_fated strict parting applied id)

end Entrances

namespace Handler

variable {flowId : FlowId} {payload : EventPayload} {config : Config} {now : Timestamp}
  {loaded : Option Checkpoint} {prepared : Prepared}

/-- Before any flow logic runs, a session fares as the records say, and as the items do that are
consumed. -/
theorem prepare_fares (h : prepare flowId payload config now loaded = .ok prepared)
    (isOf : Checkpoint.IsOf loaded flowId) (id : SessionId) : ∃ items,
      (Intake.find (waiting payload loaded prepared).sessions id).Takes items
        (Intake.find prepared.draft.checkpoint.sessions id) ∧
      (SessionStatus.stored loaded id).Fares (Record.endings flowId id prepared.draft.records)
        (items.map Prod.snd) (SessionStatus.find prepared.draft.checkpoint.sessions id) := by
  have readies := prepare_readies h
  -- An item that is kept changes no status.
  have kept {other : SessionId} {number : Nat} {item : Item} {cp : Checkpoint} {session : Session}
      (found : cp.sessions.get? other = some session) :
      SessionStatus.find (keep cp other session number item).sessions id =
        SessionStatus.stored (some cp) id := by
    rw [keep, Draft.find_putSession]
    split
    next here => exact here ▸ (SessionStatus.find_of_get? found).symm
    next => rfl
  cases prepare_prepares h with
  | @started _ cp served rest =>
      refine ⟨[], .none, ?_⟩
      have opened : SessionStatus.find cp.sessions id = .open := by
        cases readies with
        | opened sessions =>
            by_contra ended
            obtain ⟨session, found, same⟩ := SessionStatus.known_of_ended ended
            rw [← same, (sessions id session found).1] at ended
            exact ended rfl
      simp only [opened]
      exact .stays
  | kept found isOpen unseen waits =>
      simp only [waiting, found, kept found]
      exact ⟨[], .none, .stays⟩
  | answered found isOpen unseen taken =>
      obtain ⟨_, _, sessions, _, answer, rfl⟩ := Checkpoint.takeReady?_some taken
      obtain ⟨items, takes, fares⟩ := Checkpoint.Consumed.of_answer answer id
      rw [kept found] at fares
      simp only [waiting, found]
      exact ⟨items, takes, fares⟩
  | failed failed =>
      have does := Draft.fail_does failed
      have fated : Draft.Emits (Fated id) _ _ := does.fated_of_rest fun _ => rfl
      obtain ⟨more, records, ⟨items, takes, fares⟩, _⟩ := fated.records
      have same : Intake.stored (some _) id = Intake.stored (some _) id := does.served.find_eq id
      rw [same] at takes
      cases takes.unique .none
      rw [records, ← isOf _ rfl]
      exact ⟨[], .none, fares⟩
  | early | awake | again | restarted | timedOut | counted | confirmed => exact ⟨[], .none, .stays⟩

theorem prepare_knows (h : prepare flowId payload config now loaded = .ok prepared) (id : SessionId)
    (known : Checkpoint.Knows loaded id) : Checkpoint.Knows (some prepared.draft.checkpoint) id := by
  have readies := prepare_readies h
  generalize prepared.draft = draft at readies ⊢
  cases readies with
  | opened =>
      obtain ⟨_, impossible⟩ := known
      cases impossible
  | received received silent =>
      rw [Checkpoint.knows_iff] at known ⊢
      exact (received.contains id).trans known
  | gaveUp does =>
      rw [Checkpoint.knows_iff] at known ⊢
      rw [does.contains, known, Bool.true_or]

end Handler

/-- What a commit does to a session of its flow: it adds the item of its event, it consumes items in
order, and the session fares as the records say. -/
structure Commit.Tells (event : Event) (found : Option Checkpoint) (commit : Commit σ)
    (id : SessionId) : Prop where
  fares : ∀ {accepted removed}, (Intake.stored found id).Accounts accepted removed → ∃ items,
    (Intake.stored (some commit.written) id).Accounts (accepted ++ event.payload.accepted id)
        (removed ++ items) ∧
      (SessionStatus.stored found id).Fares (Record.endings event.flowId id commit.records)
        (items.map Prod.snd) (SessionStatus.stored (some commit.written) id)
  knows : Checkpoint.Knows found id → Checkpoint.Knows (some commit.written) id

theorem Plan.Opens.tells {settings : Settings} {event : Event} {found : Option Checkpoint}
    {prepared : Prepared} (opens : Opens settings event found prepared)
    (isOf : Checkpoint.IsOf found event.flowId) {after : Draft} {left : Option (Suspended σ)}
    {id : SessionId} (fated : prepared.draft.Emits (Fated id) after) :
    (Plan.close settings found prepared (after, left)).Tells event found id := by
  have prepares := Handler.prepare_prepares opens.prepares
  obtain ⟨first, takes, fares⟩ := Handler.prepare_fares opens.prepares isOf id
  obtain ⟨more, records, ⟨items, takes', fares'⟩, knows⟩ := fated.records
  rw [prepares.flowId_eq isOf] at fares'
  refine ⟨fun accounts => ⟨first ++ items, ?_, ?_⟩, fun known => ?_⟩
  · exact (prepares.accounts accounts).takes (takes.trans takes')
  · simp only [Plan.close, records, Record.endings_append, List.map_append]
    exact fares.trans fares'
  · exact knows (Handler.prepare_knows opens.prepares id known)

theorem Handler.Prepares.finished {flowId : FlowId} {payload : EventPayload} {config : Config}
    {now : Timestamp} {loaded : Option Checkpoint} {draft : Draft}
    (prepares : Prepares flowId config now payload loaded ⟨draft, .skip⟩)
    (live : ∀ cp, loaded = some cp → cp.isTerminal = false) (terminal : draft.checkpoint.isTerminal) :
    ∀ id session, draft.checkpoint.sessions.get? id = some session → session.isOpen = false := by
  cases prepares with
  | failed failed =>
      obtain ⟨_, _, finished, rest⟩ := Draft.fail_ok failed
      rw [rest]
      exact finished
  | @kept _ _ _ cp | @early cp | @counted cp =>
      have live : cp.isTerminal = false := live cp rfl
      rw [show cp.isTerminal = true from terminal] at live
      cases live

theorem Draft.Applied.finished {draft after : Draft} {attempt : Attempt} {outcome : FiberOutcome}
    (applied : draft.Applied attempt outcome (after, .done)) (terminal : after.checkpoint.isTerminal) :
    ∀ id session, after.checkpoint.sessions.get? id = some session → session.isOpen = false := by
  generalize result : (after, Next.done) = r at applied
  cases applied with
  | suspended parks =>
      cases Draft.eq_of_answerWait_done result.symm
      rw [parks.rest] at terminal
      cases terminal
  | completed _ finished rest | failed _ finished rest =>
      cases result
      rw [rest]
      exact finished
  | retried _ rest =>
      cases result
      rw [rest] at terminal
      cases terminal

theorem Plan.Leads.finished {settings : Settings} {event : Event} {found : Option Checkpoint}
    {commit : Commit σ} (leads : Leads settings event found commit)
    (terminal : commit.written.isTerminal) : ∀ id session,
      commit.written.sessions.get? id = some session → session.isOpen = false := by
  obtain ⟨prepared, draft, prepares, settles, checkpoint, _⟩ := leads.course
  have goal : draft.checkpoint.isTerminal → ∀ id session,
      draft.checkpoint.sessions.get? id = some session → session.isOpen = false := by
    cases settles with
    | skipped => exact prepares.finished leads.live
    | ran enters settles =>
        obtain ⟨_, _, _, _, _, applied⟩ := settles.induction (P := fun _ _ => True)
          (fun _ _ _ _ _ _ _ _ => trivial) trivial
        exact (Draft.applyOutcome_ok applied).finished
  rw [Commit.written, checkpoint] at terminal ⊢
  exact goal terminal

theorem EventPayload.eq_of_accepted {payload : EventPayload} {id : SessionId} {number : Nat}
    {item : Item} (member : (number, item) ∈ payload.accepted id) :
    payload = .session id number item := by
  cases payload with
  | session other n held =>
      simp only [accepted] at member
      split at member
      next here =>
        cases List.mem_singleton.1 member
        rw [here]
      next => cases member
  | startFlow | wakeup | confirmation | failure => cases member

/-- How a session stands after the writes of its flow: it is open, it was closed and that was recorded
once, it was given up and that was recorded once, or the close of its counterparty was accepted and has
been consumed. Nothing else was recorded of its end. -/
inductive Session.Stands (flow : FlowId) (id : SessionId) (writes : List Write) (session : Session) :
    Prop where
  | goesOn (status : session.status = .open)
      (silent : Record.endings flow id (writes.flatMap (·.records)) = []) : Stands flow id writes session
  | closed (status : session.status = .closed)
      (once : Record.endings flow id (writes.flatMap (·.records)) = [.closed]) :
      Stands flow id writes session
  | errored (status : session.status = .errored)
      (once : Record.endings flow id (writes.flatMap (·.records)) = [.errored]) :
      Stands flow id writes session
  | closedByPeer {write : Write} {number : Nat} (status : session.status = .closedByPeer)
      (silent : Record.endings flow id (writes.flatMap (·.records)) = [])
      (accepted : write ∈ writes ∧ write.event.payload = .session id number .close)
      (consumed : number < session.nextReceive) : Stands flow id writes session

/-- A later state of the sessions in which a session is still known, and has the status that it had if
that was not open. -/
def Checkpoint.Lasts (id : SessionId) (before after : Checkpoint) : Prop :=
  ∀ session, before.sessions.get? id = some session →
    ∃ session', after.sessions.get? id = some session' ∧
      (session.status ≠ .open → session'.status = session.status)

theorem Checkpoint.Lasts.trans {id : SessionId} {a b c : Checkpoint} (ab : Lasts id a b)
    (bc : Lasts id b c) : Lasts id a c := by
  intro session found
  obtain ⟨session', found', stays⟩ := ab session found
  obtain ⟨session'', found'', stays'⟩ := bc session' found'
  refine ⟨session'', found'', fun ended => ?_⟩
  have same := stays ended
  exact (stays' (same ▸ ended)).trans same

theorem Commit.Tells.lasts {event : Event} {cp : Checkpoint} {commit : Commit σ} {id : SessionId}
    (tells : commit.Tells event (some cp) id) {accepted removed : List (Nat × Item)}
    (accounts : (Intake.stored (some cp) id).Accounts accepted removed) :
    cp.Lasts id commit.written := by
  intro session found
  obtain ⟨session', found'⟩ := tells.knows ⟨session, found⟩
  refine ⟨session', found', fun ended => ?_⟩
  obtain ⟨_, _, fares⟩ := tells.fares accounts
  have before : SessionStatus.stored (some cp) id = session.status := SessionStatus.find_of_get? found
  have after : SessionStatus.stored (some commit.written) id = session'.status :=
    SessionStatus.find_of_get? found'
  rw [before, after] at fares
  exact fares.eq_of_ended ended

namespace Samples.Echo

theorem execution_offers {P : Flow Unit → Prop} (holds : P echo) : Recipe.Offers execution P :=
  .of_single (fun _ _ _ made => by cases made; rfl) holds

/-- The other end of an echo closes the session before it says anything. -/
def rebuff : List (Fleet.Move Unit Unit) :=
  [.submit () settings begin, .advance 0, .advance 0, .advance 0, .advance 0,
    .submit () settings (say 1 .close), .advance 1, .advance 1, .advance 1, .advance 1]

theorem rebuff_startsTidy (dispatcher : Unit) (given : Settings) (event : Event)
    (member : .submit dispatcher given event ∈ rebuff) : event.StartsTidy := by
  intro request initiator payload initiated number named
  simp only [rebuff, List.mem_cons, Fleet.Move.submit.injEq, reduceCtorEq, false_or,
    List.not_mem_nil, or_false] at member
  rcases member with ⟨_, _, rfl⟩ | ⟨_, _, rfl⟩
  · cases payload
    cases initiated
    exact absurd named (Thanks.session_foreign number)
  · cases payload

end Samples.Echo

namespace Fleet

variable {π : Type} {recipes : δ → Recipe σ}

namespace Law

/-- Whatever is planned tells how the sessions of its flow fare. -/
def telling (recipes : δ → Recipe σ) : Law σ δ :=
  (parting False recipes).also fun _ _ event found commit => ∀ id, commit.Tells event found id

theorem telling_kept (courteous : ∀ dispatcher, (recipes dispatcher).Offers (·.Courteous False)) :
    (telling recipes : Law σ δ).Kept := by
  refine (parting_kept courteous).also ?_
  intro writes dispatcher event found settings commit host after starts stocked line past ran id
  have isOf := line.isOf parting_led past
  obtain ⟨prepared, followed, opens, ends, rfl⟩ := Plan.ofEvent_followed ran
  have tidy := (opens.farewell False isOf starts (line.tidy past)).2
  rw [← (Handler.prepare_prepares opens.prepares).flowId_eq isOf] at tidy
  exact opens.tells isOf (ends.fated (courteous dispatcher) stocked tidy id)

namespace Line

variable {flow : FlowId} {writes : List Write}

theorem fares (line : (telling recipes : Law σ δ).Line flow writes) (id : SessionId) :
    ∃ removed, (Intake.stored (Write.last? writes) id).Accounts
        (writes.flatMap (·.event.payload.accepted id)) removed ∧
      SessionStatus.Fares .open (Record.endings flow id (writes.flatMap (·.records)))
        (removed.map Prod.snd) (SessionStatus.stored (Write.last? writes) id) := by
  induction line with
  | nil => exact ⟨[], .initial, .stays⟩
  | write line mine allowed planned ih =>
      subst mine
      obtain ⟨removed, accounts, fares⟩ := ih
      obtain ⟨items, accounts, fares'⟩ := (planned.2 id).fares accounts
      simp only [List.flatMap_append, List.flatMap_cons, List.flatMap_nil, List.append_nil]
      rw [Write.last?, List.getLast?_concat, Option.map_some]
      refine ⟨removed ++ items, accounts, ?_⟩
      rw [Record.endings_append, List.map_append]
      exact fares.trans fares'

/-- A session that has ended stays as it is over all later writes. -/
theorem lasts (line : (telling recipes : Law σ δ).Line flow writes) (id : SessionId) :
    writes.Pairwise fun earlier later => earlier.checkpoint.Lasts id later.checkpoint := by
  induction line with
  | nil => exact .nil
  | @write writes _ _ _ _ _ line mine allowed planned ih =>
      refine List.pairwise_append.2 ⟨ih, List.pairwise_singleton .., fun write member other here => ?_⟩
      rw [List.mem_singleton.1 here]
      obtain ⟨_, accounts, _⟩ := line.fares id
      have tells := planned.2 id
      -- What lasts up to the last write lasts up to the next one.
      rcases List.eq_nil_or_concat writes with rfl | ⟨init, last, rfl⟩
      · cases member
      · rw [List.concat_eq_append, Write.last?, List.getLast?_concat, Option.map_some] at accounts tells
        rw [List.concat_eq_append] at member ih
        have next := tells.lasts accounts
        rcases List.mem_append.1 member with before | now
        · exact ((List.pairwise_append.1 ih).2.2 write before last List.mem_cons_self).trans next
        · rw [List.mem_singleton.1 now]
          exact next

/-- A session of the last checkpoint of a flow stands as the writes have recorded. -/
theorem stands (line : (telling recipes : Law σ δ).Line flow writes) {cp : Checkpoint}
    (last : Write.last? writes = some cp) {id : SessionId} {session : Session}
    (found : cp.sessions.get? id = some session) : session.Stands flow id writes := by
  obtain ⟨removed, accounts, fares⟩ := line.fares id
  have status : SessionStatus.stored (Write.last? writes) id = session.status := by
    rw [last]
    exact SessionStatus.find_of_get? found
  rw [status] at fares
  rw [last, Intake.stored_of_get? found] at accounts
  generalize recorded : Record.endings flow id (writes.flatMap (·.records)) = endings at fares
  generalize gone : removed.map Prod.snd = items at fares
  generalize stands : session.status = standing at fares
  cases fares with
  | stays => exact .goesOn stands recorded
  | ended own =>
      rcases own with rfl | rfl
      · exact .closed stands recorded
      · exact .errored stands recorded
  | lost consumed =>
      rw [← gone] at consumed
      obtain ⟨⟨number, item⟩, taken, rfl⟩ := List.mem_map.1 consumed
      have member := (accounts.accepted_iff number .close).2 (.inl taken)
      obtain ⟨write, written, accepts⟩ := List.mem_flatMap.1 member
      have passed : number ∈ removed.map Prod.fst := List.mem_map_of_mem taken
      rw [accounts.numbers, List.mem_range'_1] at passed
      refine .closedByPeer stands recorded ⟨written, EventPayload.eq_of_accepted accepts⟩ ?_
      have one_le := accounts.sound.one_le
      simp only [Session.intake] at passed one_le
      omega

theorem finished {law : Law σ δ} (led : law.Led) (line : law.Line flow writes) {cp : Checkpoint}
    (last : Write.last? writes = some cp) (terminal : cp.isTerminal) {id : SessionId}
    {session : Session} (found : cp.sessions.get? id = some session) : session.status ≠ .open := by
  cases line with
  | nil => cases last
  | write line mine allowed planned =>
      rw [Write.last?, List.getLast?_concat, Option.map_some, Option.some.injEq] at last
      subst last
      have shut := (led planned).finished terminal id session found
      simpa [Session.isOpen] using shut

end Line

end Law

omit σ recipes in
theorem endings_ofFlow {writes : List Write}
    (mine : ∀ write ∈ writes, ∀ record ∈ write.records, record.flowId = write.event.flowId)
    (flow : FlowId) (id : SessionId) : Record.endings flow id (writes.flatMap (·.records)) =
      Record.endings flow id ((Write.ofFlow writes flow).flatMap (·.records)) := by
  induction writes with
  | nil => rfl
  | cons write rest ih =>
      have ih := ih fun other member => mine other (List.mem_cons_of_mem _ member)
      rw [List.flatMap_cons, Record.endings_append, ih]
      by_cases here : write.event.flowId = flow
      · simp [Write.ofFlow, here, Record.endings_append]
      · have silent : Record.endings flow id write.records = [] := by
          refine List.filterMap_eq_nil_iff.2 fun record member => ?_
          have differs : record.flowId ≠ flow := (mine write List.mem_cons_self record member) ▸ here
          cases record <;> simp_all [Record.ending?, Record.flowId]
        simp [Write.ofFlow, here, silent]

/-- However the work of any number of dispatchers interleaves, breaks off and starts again: if flow
logic keeps to the primitives, and is not started through a session with a name that it gives to
another one, then a session that is known stays known, and has one status for good once it is not open.
How it stands is what the writes of its flow have recorded, once and in one way, and nothing else is
published of its end. In the checkpoint of a flow that is over no session is open. -/
theorem sessions_end_once [DecidableEq δ] (publishers : δ → Publisher π) (recipes : δ → Recipe σ)
    (primitives : ∀ dispatcher, (recipes dispatcher).Offers (·.KeepsToPrimitives))
    (capacity ttl : δ → Nat) (world : δ → σ) (published : π) (moves : List (Move σ δ))
    (starts : ∀ dispatcher settings event, .submit dispatcher settings event ∈ moves →
      event.StartsTidy) (flow : FlowId) (id : SessionId) :
    let hosts dispatcher :=
      Host.fresh (recipes dispatcher) (capacity dispatcher) (ttl dispatcher) (world dispatcher)
    let start := launch hosts published
    let fleet := start.run publishers moves
    let writes := Write.ofFlow fleet.writes flow
    (writes.Pairwise fun earlier later => earlier.checkpoint.Lasts id later.checkpoint) ∧
    (∀ cp session, fleet.stored.get? flow = some cp → cp.sessions.get? id = some session →
      session.Stands flow id writes ∧ (cp.isTerminal → session.status ≠ .open)) ∧
    (Record.endings flow id ((start.handed publishers moves).flatMap (·.records))).Subperm
      (Record.endings flow id (writes.flatMap (·.records))) := by
  intro hosts start fleet writes
  have courteous : ∀ dispatcher, (recipes dispatcher).Offers (·.Courteous False) := by
    intro dispatcher number owner exec name flow built known
    exact ⟨primitives dispatcher number owner exec name flow built known, False.elim⟩
  have kept := Law.telling_kept courteous
  have launched : (Law.telling recipes).Sound start :=
    Law.sound_launch hosts published fun dispatcher => Host.Stocked.fresh _ _ _ _
  have sound := Law.sound_of_run kept publishers launched moves starts
  have line := sound.lines flow
  refine ⟨line.lasts id, fun cp session stored found => ?_, ?_⟩
  · rw [sound.stored] at stored
    exact ⟨line.stands stored found, fun terminal => line.finished kept.leads stored terminal found⟩
  · have mine : ∀ write ∈ fleet.writes, ∀ record ∈ write.records,
        record.flowId = write.event.flowId := by
      intro write member
      have among : write ∈ Write.ofFlow fleet.writes write.event.flowId :=
        List.mem_filter.2 ⟨member, by simp⟩
      exact ((sound.lines _).announced kept.leads write among).2
    obtain ⟨some, same, within⟩ := (logged_run publishers hosts published moves).subperm
    rw [← endings_ofFlow mine]
    exact ⟨_, same.filterMap _, within.filterMap _⟩

/-- An echo that is rebuffed fails, and says nothing of its session. -/
theorem sessions_end_once_of_rebuff :
    let fleet := (launch (fun _ => Host.fresh Echo.execution 1 1000 ()) []).run
      (fun _ => .collecting) Echo.rebuff
    ∃ cp session, fleet.stored.get? Echo.flow = some cp ∧ cp.status = .failed ∧
      cp.sessions.get? Echo.session = some session ∧ session.status = .closedByPeer ∧
      session.Stands Echo.flow Echo.session (Write.ofFlow fleet.writes Echo.flow) := by
  intro fleet
  have ends := sessions_end_once (fun _ => .collecting) (fun _ => Echo.execution)
    (fun _ => Echo.execution_offers Echo.keepsToPrimitives) (fun _ => 1) (fun _ => 1000) (fun _ => ())
    [] Echo.rebuff Echo.rebuff_startsTidy Echo.flow Echo.session
  have ended : (fleet.stored.get? Echo.flow).any fun cp => cp.status = .failed &&
      (cp.sessions.get? Echo.session).any (·.status = .closedByPeer) := by decide +kernel
  obtain ⟨cp, stored, ended⟩ := (Option.any_eq_true _ _).1 ended
  obtain ⟨failed, ended⟩ := (Bool.and_eq_true_iff ..).1 ended
  obtain ⟨session, found, lost⟩ := (Option.any_eq_true _ _).1 ended
  exact ⟨cp, session, stored, of_decide_eq_true failed, found, of_decide_eq_true lost,
    (ends.2.1 cp session stored found).1⟩

end Fleet

end DurableFlow
