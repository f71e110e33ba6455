import DurableFlow.Proofs.Resolution
import DurableFlow.Proofs.Turns
import DurableFlow.Proofs.Writes

/-! # A dispatcher of its own for a flow

The writes of a flow are `Serial` if a single dispatcher would have written the same, had it been
given just the events of those writes, one after the other, over an empty store. A write that was
planned on the last checkpoint of its flow keeps them so: `Serial.write`.
-/

namespace DurableFlow

open Stateful

/-- What becomes of an event: its result, the checkpoint of its flow after it, and what was
published. -/
structure Account where
  result : Except Stop ProcessingOutcome
  stored : Option Checkpoint
  records : List Record

/-- What became of the event of a write. -/
def Write.account (write : Write) : Account :=
  ⟨.ok (.committed write.event.flowId write.checkpoint.version write.checkpoint.status),
    some write.checkpoint, write.records⟩

/-- Handle an event on a single dispatcher, taking down what becomes of it. -/
def recount (settings : Settings) (event : Event) (site : Site Unit Store (List Record)) :
    Account × Site Unit Store (List Record) :=
  let (result, site) :=
    (Services.handle ⟨Store.inMemory, .collecting⟩ settings event).run.run { site with published := [] }
  (⟨result, site.stored.get? event.flowId, site.published⟩, site)

/-- Handle events one after the other on a single dispatcher. -/
def replay : List (Settings × Event) → Site Unit Store (List Record) →
    List Account × Site Unit Store (List Record)
  | [], site => ([], site)
  | (settings, event) :: rest, site =>
    let (account, site) := recount settings event site
    let (accounts, site) := replay rest site
    (account :: accounts, site)

theorem replay_concat (events : List (Settings × Event)) (settings : Settings) (event : Event)
    (site : Site Unit Store (List Record)) :
    replay (events ++ [(settings, event)]) site =
      ((replay events site).1 ++ [(recount settings event (replay events site).2).1],
        (recount settings event (replay events site).2).2) := by
  induction events generalizing site with
  | nil => rfl
  | cons first rest ih => simp only [List.cons_append, replay, ih]

/-- A recipe by which every identity has a context of the given code. -/
def Recipe.ofCode {σ : Type} (code : Identity → Code σ) : Recipe σ :=
  fun number owner => .ok ⟨number, owner, (code owner).registry, (code owner).serializer⟩

/-- A dispatcher of its own, over an empty store. -/
def Site.alone (code : Identity → Code Unit) : Site Unit Store (List Record) :=
  .launch (.ofCode code) .disabled () {} []

theorem Site.alone_resolves (code : Identity → Code Unit) : (alone code).host.Resolves code where
  factory number owner exec made := by
    cases made
    rfl
  contexts owner exec known := by cases known
  cache := rfl

theorem Site.alone_ready (code : Identity → Code Unit) : (alone code).host.Ready :=
  ⟨fun _ _ => ⟨_, rfl⟩, rfl⟩

/-- A commit that a host with the given code has planned on a checkpoint. -/
def Commit.PlannedOn (code : Identity → Code Unit) (settings : Settings) (event : Event)
    (found : Option Checkpoint) (commit : Commit Unit) : Prop :=
  ∃ host after, Host.Resolves code host ∧
    (Plan.ofEvent settings event found).run.run host = (.ok (.commit commit), after)

theorem Commit.PlannedOn.leads {code : Identity → Code Unit} {settings : Settings} {event : Event}
    {found : Option Checkpoint} {commit : Commit Unit}
    (planned : commit.PlannedOn code settings event found) :
    Plan.Leads settings event found commit := by
  obtain ⟨host, after, _, ran⟩ := planned
  exact Plan.ofEvent_leads ran

/-- The writes of a flow are what a single dispatcher would have written. -/
structure Serial (code : Identity → Code Unit) (flow : FlowId) (writes : List Write) : Prop where
  mine : ∀ write ∈ writes, write.event.flowId = flow ∧ write.checkpoint.flowId = flow
  versions : writes.map (·.checkpoint.version) = List.range' 1 writes.length
  replays : ∃ site, replay (writes.map fun write => (write.settings, write.event)) (.alone code) =
      (writes.map Write.account, site) ∧
    site.host.Resolves code ∧ site.host.Ready ∧ site.stored.get? flow = Write.last? writes

/-- What one host has planned, a dispatcher of its own plans and commits as well. -/
theorem recount_of_plan {code : Identity → Code Unit} {site : Site Unit Store (List Record)}
    (resolves : site.host.Resolves code) (ready : site.host.Ready) {settings : Settings}
    {event : Event} {commit : Commit Unit}
    (planned : commit.PlannedOn code settings event (site.stored.get? event.flowId))
    (flowId : commit.checkpoint.flowId = event.flowId)
    (admitted : site.stored.admits event.flowId commit.expected) :
    ∃ host : Host Unit, host.Resolves code ∧ host.Ready ∧
      recount settings event site =
        (⟨.ok (.committed event.flowId commit.written.version commit.written.status),
          some commit.written, commit.records⟩,
          ⟨host, site.stored.insert event.flowId commit.written, commit.records⟩) := by
  obtain ⟨host, after, planner, ran⟩ := planned
  obtain ⟨plan, later, replayed, same⟩ := Plan.ofEvent_resolves planner resolves ready ran
  cases plan with
  | discard reason => cases same
  | commit again =>
      simp only [Plan.bare, Plan.commit.injEq, Commit.bare, Commit.mk.injEq] at same
      obtain ⟨checkpoint, expected, records, _, _⟩ := same
      have kept := Plan.ofEvent_keeps_code resolves settings event (site.stored.get? event.flowId)
      have still := Plan.ofEvent_keeps_ready ready resolves.cache settings event
        (site.stored.get? event.flowId)
      rw [replayed] at kept still
      refine ⟨later, kept, still, ?_⟩
      have bare : again.settleCache (commit.expected + 1) settings.instant later.cache = later.cache := by
        rw [kept.cache, Commit.settleCache_disabled]
      simp only [recount, Services.run_handle, Store.inMemory_load, replayed, Services.run_commit,
        Store.inMemory_save, checkpoint, expected, flowId, Store.save, if_pos admitted, bare, records,
        Services.run_publish]
      cases empty : commit.records with
      | nil => simp [SortedMap.get?_insert_self, Except.map, Commit.written, flowId]
      | cons record rest =>
          simp [SortedMap.get?_insert_self, Except.map, Publisher.collecting,
            Commit.written, flowId]

namespace Serial

variable {code : Identity → Code Unit} {flow : FlowId} {writes : List Write}

theorem nil : Serial code flow [] where
  mine _ member := by cases member
  versions := rfl
  replays := ⟨_, rfl, Site.alone_resolves code, Site.alone_ready code, rfl⟩

theorem isOf_past (serial : Serial code flow writes) {found : Option Checkpoint}
    (past : Write.Past writes found) : Checkpoint.IsOf found flow := by
  rintro cp rfl
  rcases past with none | ⟨write, member, same⟩
  · cases none
  · cases same
    exact (serial.mine write member).2

/-- A write that was planned on the last checkpoint of its flow extends the run of a dispatcher of
its own by one event. -/
theorem write (serial : Serial code flow writes) (ticket : Nat) {settings : Settings} {event : Event}
    {commit : Commit Unit} (mine : event.flowId = flow)
    (planned : commit.PlannedOn code settings event (Write.last? writes)) :
    Serial code flow (writes ++ [⟨ticket, settings, event, commit.written, commit.records⟩]) := by
  subst mine
  have leads := planned.leads
  have flowId := leads.flowId_eq (serial.isOf_past (.last writes))
  have numbered : Write.Numbered writes := serial.versions
  have expected := leads.expected.trans numbered.version_last
  obtain ⟨site, replayed, resolves, ready, stored⟩ := serial.replays
  have admitted : site.stored.admits event.flowId commit.expected := by
    rw [Store.admits, stored]
    cases last : Write.last? writes with
    | none => simp [leads.expected, last]
    | some cp => simp [leads.expected, last, leads.live cp last]
  rw [← stored] at planned
  obtain ⟨host, kept, still, recounted⟩ :=
    recount_of_plan resolves ready planned flowId admitted
  refine ⟨?_, ?_, ?_⟩
  · intro write member
    rcases List.mem_append.1 member with before | here
    · exact serial.mine write before
    · rw [List.mem_singleton] at here
      subst here
      exact ⟨rfl, flowId⟩
  · exact numbered.concat (congrArg (· + 1) expected)
  · refine ⟨⟨host, site.stored.insert event.flowId commit.written, commit.records⟩, ?_, kept, still, ?_⟩
    · simp only [List.map_append, List.map_cons, List.map_nil, replay_concat, replayed, recounted]
      rfl
    · simp [SortedMap.get?_insert_self, Write.last?]

end Serial

end DurableFlow
