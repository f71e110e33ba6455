import DurableFlow.Proofs.Turns
import DurableFlow.Proofs.Writes

/-! # Fleets of dispatchers

A fleet is any number of dispatchers over one store in memory. Every `Fleet.Move` submits an errand,
takes the next step of one, or does something to a dispatcher: a list of moves is an interleaving.
Dispatchers may keep fibers, and their flow logic may depend on a world that changes by itself. An
event that is never taken further has been aborted, and a dispatcher that is started again is another
one.

The writes of a flow form a `Line`: each was planned on the one before. What is to hold of plans,
hosts and results is a `Law`; one that is kept by every step holds after every run, `Law.sound_of_run`.
-/

namespace DurableFlow

/-- An event that a dispatcher of a fleet handles. -/
structure Errand (σ δ : Type) where
  dispatcher : δ
  settings : Settings
  event : Event
  stage : Stage σ

/-- Dispatchers over one store. An errand is known by its place. -/
structure Fleet (σ δ π : Type) where
  hosts : δ → Host σ
  stored : Store
  published : π
  errands : List (Errand σ δ)
  /-- All that was written so far. -/
  writes : List Write

/-- What has been written if an errand has moved on to a stage. -/
def Errand.writes {σ δ : Type} (errand : Errand σ δ) (ticket : Nat) (next : Stage σ) : List Write :=
  match errand.stage, next with
  | .planned _, .written commit version =>
    [⟨ticket, errand.settings, errand.event, { commit.checkpoint with version }, commit.records⟩]
  | _, _ => []

namespace Fleet

/-- Something that happens in a fleet. -/
inductive Move (σ δ : Type) where
  | submit (dispatcher : δ) (settings : Settings) (event : Event)
  /-- The next step of an errand. -/
  | advance (ticket : Nat)
  /-- An errand breaks off because the store fails. -/
  | abort (ticket : Nat) (error : StoreError)
  /-- An identity goes into maintenance; its kept fibers go too if the provider has the cache
  attached. -/
  | beginMaintenance (dispatcher : δ) (owner : Identity) (attached : Bool)
  | endMaintenance (dispatcher : δ) (owner : Identity)
  /-- The world of a dispatcher changes by itself. -/
  | change (dispatcher : δ) (world : σ)

variable {σ δ π : Type} [DecidableEq δ]

/-- The hosts, one of them replaced. -/
def withHost (fleet : Fleet σ δ π) (dispatcher : δ) (host : Host σ) : δ → Host σ :=
  fun other => if other = dispatcher then host else fleet.hosts other

/-- The site at which a dispatcher works. -/
def site (fleet : Fleet σ δ π) (dispatcher : δ) : Site σ Store π :=
  ⟨fleet.hosts dispatcher, fleet.stored, fleet.published⟩

omit [DecidableEq δ] in
/-- A fleet that has handled nothing yet. -/
def launch (hosts : δ → Host σ) (published : π) : Fleet σ δ π where
  hosts
  stored := {}
  published
  errands := []
  writes := []

/-- The fleet after an errand has moved on to a stage. -/
def moved (fleet : Fleet σ δ π) (ticket : Nat) (errand : Errand σ δ) (next : Stage σ)
    (site : Site σ Store π) : Fleet σ δ π where
  hosts := fleet.withHost errand.dispatcher site.host
  stored := site.stored
  published := site.published
  errands := fleet.errands.set ticket { errand with stage := next }
  writes := fleet.writes ++ errand.writes ticket next

variable (publishers : δ → Publisher π)

/-- Take the next step of an errand. -/
def advance (fleet : Fleet σ δ π) (ticket : Nat) : Fleet σ δ π :=
  match fleet.errands[ticket]? with
  | none => fleet
  | some errand =>
    let (next, site) := Services.advance ⟨Store.inMemory, publishers errand.dispatcher⟩
      errand.settings errand.event (fleet.site errand.dispatcher) errand.stage
    fleet.moved ticket errand next site

omit [DecidableEq δ] in
/-- Break an errand off. -/
def abort (fleet : Fleet σ δ π) (ticket : Nat) (error : StoreError) : Fleet σ δ π :=
  { fleet with errands := fleet.errands.modify ticket fun errand =>
      { errand with stage := .ended (.error (.error (.store error))) } }

/-- Let something happen. -/
def step (fleet : Fleet σ δ π) : Move σ δ → Fleet σ δ π
  | .submit dispatcher settings event =>
    { fleet with errands := fleet.errands ++ [⟨dispatcher, settings, event, .called⟩] }
  | .advance ticket => fleet.advance publishers ticket
  | .abort ticket error => fleet.abort ticket error
  | .beginMaintenance dispatcher owner true =>
    { fleet with
      hosts := fleet.withHost dispatcher ((fleet.hosts dispatcher).beginMaintenance owner) }
  | .beginMaintenance dispatcher owner false =>
    let host := fleet.hosts dispatcher
    { fleet with
      hosts := fleet.withHost dispatcher
        { host with environments := host.environments.beginMaintenance owner } }
  | .endMaintenance dispatcher owner =>
    { fleet with
      hosts := fleet.withHost dispatcher ((fleet.hosts dispatcher).endMaintenance owner) }
  | .change dispatcher world =>
    { fleet with
      hosts := fleet.withHost dispatcher { fleet.hosts dispatcher with world } }

/-- Let one thing happen after another. -/
def run (fleet : Fleet σ δ π) (moves : List (Move σ δ)) : Fleet σ δ π :=
  moves.foldl (step publishers) fleet

omit [DecidableEq δ] in
/-- What is to hold of the events that a fleet is given, of its hosts, of the commits that are planned
on a checkpoint, and of results. What holds of a host may depend on what was written so far. -/
structure Law (σ δ : Type) where
  event : Event → Prop
  host : List Write → δ → Host σ → Prop
  plan : δ → Settings → Event → Option Checkpoint → Commit σ → Prop
  result : Except Stop ProcessingOutcome → Prop

end Fleet

namespace Fleet.Law

variable {σ δ π : Type}

/-- The writes of a flow, each of which was planned on the one before. -/
inductive Line (law : Law σ δ) (flow : FlowId) : List Write → Prop where
  | nil : Line law flow []
  | write {writes : List Write} {dispatcher : δ} {ticket : Nat} {settings : Settings} {event : Event}
      {commit : Commit σ} (line : Line law flow writes) (mine : event.flowId = flow)
      (allowed : law.event event)
      (planned : law.plan dispatcher settings event (Write.last? writes) commit) :
      Line law flow (writes ++ [⟨ticket, settings, event, commit.written, commit.records⟩])

/-- What an event came to was planned as the law says. -/
def Permits (law : Law σ δ) (dispatcher : δ) (settings : Settings) (event : Event)
    (found : Option Checkpoint) : Except Stop (Plan σ) → Prop
  | .error stop => law.result (.error stop)
  | .ok (.discard reason) => law.result (.ok (.discarded event.flowId reason))
  | .ok (.commit commit) => law.plan dispatcher settings event found commit

/-- Results that do not come from planning. -/
inductive Outside : Except Stop ProcessingOutcome → Prop where
  | committed (id : FlowId) (version : Nat) (status : Status) : Outside (.ok (.committed id version status))
  | conflict (id : FlowId) (expected : Nat) (current : Option Nat) :
      Outside (.error (.error (.conflict id expected current)))
  | publish (id : FlowId) (error : PublishError) : Outside (.error (.error (.publish id error)))
  | store (error : StoreError) : Outside (.error (.error (.store error)))

/-- A law that allows no other plans than there can be. -/
def Led (law : Law σ δ) : Prop :=
  ∀ {dispatcher settings event found} {commit : Commit σ},
    law.plan dispatcher settings event found commit → Plan.Leads settings event found commit

/-- A law that no step of a fleet can break. -/
structure Kept (law : Law σ δ) : Prop where
  leads : law.Led
  outside : ∀ {result}, Outside result → law.result result
  append : ∀ {writes dispatcher host} (more : List Write),
    law.host writes dispatcher host → law.host (writes ++ more) dispatcher host
  change : ∀ {writes dispatcher host} (world : σ),
    law.host writes dispatcher host → law.host writes dispatcher { host with world }
  detach : ∀ {writes dispatcher host} (owner : Identity), law.host writes dispatcher host →
    law.host writes dispatcher { host with
      environments := host.environments.beginMaintenance owner }
  beginMaintenance : ∀ {writes dispatcher host} (owner : Identity),
    law.host writes dispatcher host → law.host writes dispatcher (host.beginMaintenance owner)
  endMaintenance : ∀ {writes dispatcher host} (owner : Identity),
    law.host writes dispatcher host → law.host writes dispatcher (host.endMaintenance owner)
  plans : ∀ {writes dispatcher event found} {host : Host σ} (settings : Settings), law.event event →
    law.host writes dispatcher host → law.Line event.flowId (Write.ofFlow writes event.flowId) →
    Write.Past (Write.ofFlow writes event.flowId) found →
    let run := (Plan.ofEvent settings event found).run.run host
    law.host writes dispatcher run.2 ∧ law.Permits dispatcher settings event found run.1
  settles : ∀ {writes dispatcher ticket settings event found} {commit : Commit σ} {host : Host σ},
    law.host writes dispatcher host → law.plan dispatcher settings event found commit →
    law.Line event.flowId (Write.ofFlow writes event.flowId) →
    Write.last? (Write.ofFlow writes event.flowId) = found →
    law.host (writes ++ [⟨ticket, settings, event, commit.written, commit.records⟩]) dispatcher
      { host with
        cache := commit.settleCache (commit.expected + 1) settings.instant host.cache }

namespace Line

variable {law : Law σ δ} {flow : FlowId} {writes : List Write}

/-- What every plan keeps of the last checkpoint holds of every checkpoint. -/
theorem induction {P : Checkpoint → Prop}
    (step : ∀ dispatcher settings event found commit, event.flowId = flow → law.event event →
      (∀ cp, found = some cp → P cp) → law.plan dispatcher settings event found commit →
      P commit.written)
    (line : law.Line flow writes) {found : Option Checkpoint} (past : Write.Past writes found) :
    ∀ cp, found = some cp → P cp := by
  induction line generalizing found with
  | nil =>
      rintro cp rfl
      rcases past with impossible | ⟨_, member, _⟩
      · cases impossible
      · cases member
  | @write writes _ _ _ _ commit line mine allowed planned ih =>
      rintro cp rfl
      rcases past with impossible | ⟨write, member, same⟩
      · cases impossible
      · cases same
        rcases List.mem_append.1 member with before | here
        · exact ih (.inr ⟨write, before, rfl⟩) _ rfl
        · rw [List.mem_singleton] at here
          subst here
          exact step _ _ _ _ _ mine allowed (ih (.last writes)) planned

theorem isOf (leads : law.Led) (line : law.Line flow writes) {found : Option Checkpoint}
    (past : Write.Past writes found) : Checkpoint.IsOf found flow :=
  line.induction (P := (·.flowId = flow))
    (fun _ _ _ _ _ mine _ isOf planned => by
      subst mine
      exact (leads planned).flowId_eq isOf) past

theorem numbered (leads : law.Led) (line : law.Line flow writes) : Write.Numbered writes := by
  induction line with
  | nil => rfl
  | write line mine allowed planned ih =>
      exact ih.concat (congrArg (· + 1) ((leads planned).expected.trans ih.version_last))

end Line

/-- What an errand has loaded was stored at some time, and what it plans to write was planned on such
a checkpoint. -/
def Tracks (law : Law σ δ) (writes : List Write) (errand : Errand σ δ) : Prop :=
  match errand.stage with
  | .loaded found => Write.Past (Write.ofFlow writes errand.event.flowId) found
  | .planned commit => ∃ found, Write.Past (Write.ofFlow writes errand.event.flowId) found ∧
    law.plan errand.dispatcher errand.settings errand.event found commit
  | .ended result => law.result result
  | _ => True

theorem Tracks.append {law : Law σ δ} {writes : List Write} {errand : Errand σ δ}
    (tracks : law.Tracks writes errand) (more : List Write) : law.Tracks (writes ++ more) errand := by
  unfold Tracks at tracks ⊢
  split
  next found stage =>
    rw [stage] at tracks
    exact tracks.append
  next commit stage =>
    rw [stage] at tracks
    obtain ⟨found, past, planned⟩ := tracks
    exact ⟨found, past.append, planned⟩
  next result stage =>
    rw [stage] at tracks
    exact tracks
  · trivial

/-- What holds of a fleet at any time. -/
structure Sound (law : Law σ δ) (fleet : Fleet σ δ π) : Prop where
  hosts : ∀ dispatcher, law.host fleet.writes dispatcher (fleet.hosts dispatcher)
  lines : ∀ flow, law.Line flow (Write.ofFlow fleet.writes flow)
  stored : ∀ flow, fleet.stored.get? flow = Write.last? (Write.ofFlow fleet.writes flow)
  errands : ∀ errand ∈ fleet.errands, law.event errand.event ∧ law.Tracks fleet.writes errand

namespace Sound

variable [DecidableEq δ] {law : Law σ δ} {fleet : Fleet σ δ π}

theorem withHost (sound : law.Sound fleet) {dispatcher : δ} {host : Host σ}
    (holds : law.host fleet.writes dispatcher host) :
    law.Sound { fleet with hosts := fleet.withHost dispatcher host } where
  hosts other := by
    simp only [Fleet.withHost]
    split
    next same => exact same ▸ holds
    next => exact sound.hosts other
  lines := sound.lines
  stored := sound.stored
  errands := sound.errands

omit [DecidableEq δ] in
theorem found_eq_last (leads : law.Led) (sound : law.Sound fleet) {flow : FlowId}
    {found : Option Checkpoint} (past : Write.Past (Write.ofFlow fleet.writes flow) found)
    (admitted : fleet.stored.admits flow ((found.map (·.version)).getD 0)) :
    found = Write.last? (Write.ofFlow fleet.writes flow) := by
  -- Versions tell the checkpoints of a flow apart, and only the last one is admitted.
  have numbered := (sound.lines flow).numbered leads
  refine numbered.eq_last past ?_
  rw [← numbered.version_last]
  rw [Store.admits, sound.stored] at admitted
  cases last : Write.last? (Write.ofFlow fleet.writes flow) with
  | none => simpa [last] using admitted
  | some cp =>
      simp only [last, Bool.and_eq_true, decide_eq_true_eq] at admitted
      exact admitted.1.symm

omit [DecidableEq δ] in
/-- A write that goes through was planned on the last checkpoint of its flow. -/
theorem planned_on_last (kept : law.Kept) (sound : law.Sound fleet) {errand : Errand σ δ}
    (member : errand ∈ fleet.errands) {commit : Commit σ} (stage : errand.stage = .planned commit)
    (admitted : fleet.stored.admits commit.checkpoint.flowId commit.expected) :
    commit.checkpoint.flowId = errand.event.flowId ∧
      law.plan errand.dispatcher errand.settings errand.event
        (Write.last? (Write.ofFlow fleet.writes errand.event.flowId)) commit := by
  have tracks := (sound.errands errand member).2
  rw [Tracks, stage] at tracks
  obtain ⟨found, past, planned⟩ := tracks
  have leads := kept.leads planned
  have flowId := leads.flowId_eq ((sound.lines errand.event.flowId).isOf kept.leads past)
  rw [flowId, leads.expected] at admitted
  rw [← sound.found_eq_last kept.leads past admitted]
  exact ⟨flowId, planned⟩

theorem moved_quietly (sound : law.Sound fleet) {ticket : Nat}
    {errand : Errand σ δ} {next : Stage σ} {host : Host σ} {published : π}
    (member : errand ∈ fleet.errands)
    (holds : law.host fleet.writes errand.dispatcher host)
    (tracks : law.Tracks fleet.writes { errand with stage := next }) :
    law.Sound { fleet with
      hosts := fleet.withHost errand.dispatcher host
      published
      errands := fleet.errands.set ticket { errand with stage := next } } where
  hosts := (sound.withHost holds).hosts
  lines := sound.lines
  stored := sound.stored
  errands other among := by
    rcases List.mem_or_eq_of_mem_set among with before | rfl
    · exact sound.errands other before
    · exact ⟨(sound.errands errand member).1, tracks⟩

theorem moved_written (kept : law.Kept) (sound : law.Sound fleet) (ticket : Nat)
    {errand : Errand σ δ} (member : errand ∈ fleet.errands) {commit : Commit σ}
    (stage : errand.stage = .planned commit)
    (admitted : fleet.stored.admits commit.checkpoint.flowId commit.expected) :
    law.Sound { fleet with
      hosts := fleet.withHost errand.dispatcher { fleet.hosts errand.dispatcher with
        cache := commit.settleCache (commit.expected + 1) errand.settings.instant
          (fleet.hosts errand.dispatcher).cache }
      stored := fleet.stored.insert commit.checkpoint.flowId commit.written
      errands := fleet.errands.set ticket
        { errand with stage := .written commit (commit.expected + 1) }
      writes := fleet.writes ++
        [⟨ticket, errand.settings, errand.event, commit.written, commit.records⟩] } := by
  obtain ⟨flowId, planned⟩ := sound.planned_on_last kept member stage admitted
  have allowed := (sound.errands errand member).1
  refine ⟨fun dispatcher => ?_, fun flow => ?_, fun flow => ?_, fun other among => ?_⟩
  · simp only [Fleet.withHost]
    split
    next same =>
      subst same
      exact kept.settles (sound.hosts _) planned (sound.lines _) rfl
    next => exact kept.append _ (sound.hosts dispatcher)
  · by_cases mine : errand.event.flowId = flow
    · subst mine
      simp only [Write.ofFlow, List.filter_append, List.filter_cons, List.filter_nil, decide_true,
        if_true]
      exact .write (sound.lines _) rfl allowed planned
    · simp only [Write.ofFlow, List.filter_append, List.filter_cons, List.filter_nil, mine,
        decide_false, Bool.false_eq_true, if_false, List.append_nil]
      exact sound.lines flow
  · rw [flowId]
    by_cases mine : flow = errand.event.flowId
    · subst mine
      simp [SortedMap.get?_insert_self, Write.ofFlow, Write.last?]
    · have differs : errand.event.flowId ≠ flow := fun same => mine same.symm
      simp only [SortedMap.get?_insert_of_ne _ _ mine, sound.stored, Write.ofFlow,
        List.filter_append, List.filter_cons, List.filter_nil, differs, decide_false,
        Bool.false_eq_true, if_false, List.append_nil]
  · rcases List.mem_or_eq_of_mem_set among with before | rfl
    · exact (sound.errands other before).imp_right (·.append _)
    · exact ⟨allowed, trivial⟩

theorem advance (kept : law.Kept) (sound : law.Sound fleet) (publishers : δ → Publisher π)
    (ticket : Nat) : law.Sound (fleet.advance publishers ticket) := by
  unfold Fleet.advance
  split
  · exact sound
  next errand known =>
    have member := List.mem_of_getElem? known
    obtain ⟨allowed, tracks⟩ := sound.errands errand member
    have holds := sound.hosts errand.dispatcher
    have line := sound.lines errand.event.flowId
    have advances := Services.advance_advances (publishers errand.dispatcher) errand.settings
      errand.event (fleet.site errand.dispatcher) errand.stage
    generalize Services.advance _ _ _ _ _ = after at advances
    obtain ⟨next, site⟩ := after
    have quiet {found : Option Checkpoint} {result : Except Stop (Plan σ)} {host : Host σ}
        (stage : errand.stage = .loaded found)
        (ran : (Plan.ofEvent errand.settings errand.event found).run.run
          (fleet.hosts errand.dispatcher) = (result, host)) :
        law.host fleet.writes errand.dispatcher host ∧
          law.Permits errand.dispatcher errand.settings errand.event found result := by
      rw [Tracks, stage] at tracks
      have planned := kept.plans errand.settings allowed holds line tracks
      rw [ran] at planned
      exact planned
    simp only [moved, Errand.writes]
    generalize stage : errand.stage = before at advances
    cases advances with
    | load =>
        simp only [List.append_nil]
        refine sound.moved_quietly member holds ?_
        rw [Tracks, Fleet.site, sound.stored]
        exact .last _
    | stop ran | discard ran =>
        simp only [List.append_nil]
        obtain ⟨holds, permitted⟩ := quiet stage ran
        exact sound.moved_quietly member holds permitted
    | @plan found commit host ran =>
        simp only [List.append_nil]
        obtain ⟨holds, permitted⟩ := quiet stage ran
        rw [Tracks, stage] at tracks
        exact sound.moved_quietly member holds ⟨found, tracks, permitted⟩
    | conflict =>
        simp only [List.append_nil]
        exact sound.moved_quietly member holds (kept.outside (.conflict _ _ _))
    | write admitted => exact sound.moved_written kept ticket member stage admitted
    | publish ended =>
        simp only [List.append_nil]
        refine sound.moved_quietly member holds ?_
        rcases ended with rfl | ⟨error, rfl⟩
        · exact kept.outside (.committed _ _ _)
        · exact kept.outside (.publish _ _)
    | rest =>
        simp only [List.append_nil]
        rw [Tracks, stage] at tracks
        exact sound.moved_quietly member holds tracks

omit [DecidableEq δ] in
theorem abort (kept : law.Kept) (sound : law.Sound fleet) (ticket : Nat) (error : StoreError) :
    law.Sound (fleet.abort ticket error) where
  hosts := sound.hosts
  lines := sound.lines
  stored := sound.stored
  errands errand member := by
    obtain ⟨place, known⟩ := List.mem_iff_getElem?.1 member
    rw [Fleet.abort, List.getElem?_modify] at known
    obtain ⟨old, found, same⟩ := Option.map_eq_some_iff.1 known
    have before := sound.errands old (List.mem_of_getElem? found)
    split at same
    · subst same
      exact ⟨before.1, kept.outside (.store error)⟩
    · subst same
      exact before

theorem step (kept : law.Kept) (sound : law.Sound fleet) (publishers : δ → Publisher π)
    {move : Move σ δ}
    (allowed : ∀ dispatcher settings event, move = .submit dispatcher settings event →
      law.event event) : law.Sound (fleet.step publishers move) := by
  cases move with
  | submit dispatcher settings event =>
      refine ⟨sound.hosts, sound.lines, sound.stored, fun errand member => ?_⟩
      rcases List.mem_append.1 member with before | here
      · exact sound.errands errand before
      · rw [List.mem_singleton] at here
        subst here
        exact ⟨allowed _ _ _ rfl, trivial⟩
  | advance ticket => exact sound.advance kept publishers ticket
  | abort ticket error => exact sound.abort kept ticket error
  | beginMaintenance dispatcher owner attached =>
      cases attached with
      | true => exact sound.withHost (kept.beginMaintenance owner (sound.hosts dispatcher))
      | false => exact sound.withHost (kept.detach owner (sound.hosts dispatcher))
  | endMaintenance dispatcher owner =>
      exact sound.withHost (kept.endMaintenance owner (sound.hosts dispatcher))
  | change dispatcher world => exact sound.withHost (kept.change world (sound.hosts dispatcher))

end Sound

theorem sound_launch {law : Law σ δ} (hosts : δ → Host σ) (published : π)
    (holds : ∀ dispatcher, law.host [] dispatcher (hosts dispatcher)) :
    law.Sound (launch hosts published) where
  hosts := holds
  lines _ := .nil
  stored _ := rfl
  errands _ member := by cases member

/-- A law that no step can break holds after every run of a fleet that is given events as the law
says. -/
theorem sound_of_run [DecidableEq δ] {law : Law σ δ} (kept : law.Kept)
    (publishers : δ → Publisher π) {fleet : Fleet σ δ π} (sound : law.Sound fleet)
    (moves : List (Move σ δ))
    (allowed : ∀ dispatcher settings event, .submit dispatcher settings event ∈ moves →
      law.event event) : law.Sound (fleet.run publishers moves) := by
  induction moves generalizing fleet with
  | nil => exact sound
  | cons move rest ih =>
      refine ih (sound.step kept publishers fun dispatcher settings event same => ?_)
        fun _ _ _ member => allowed _ _ _ (List.mem_cons_of_mem _ member)
      exact allowed dispatcher settings event (same ▸ List.mem_cons_self)

/-- A law that asks more of plans. -/
def also (law : Law σ δ)
    (more : δ → Settings → Event → Option Checkpoint → Commit σ → Prop) : Law σ δ :=
  { law with
    plan := fun dispatcher settings event found commit =>
      law.plan dispatcher settings event found commit ∧ more dispatcher settings event found commit }

theorem Line.of_also {law : Law σ δ}
    {more : δ → Settings → Event → Option Checkpoint → Commit σ → Prop} {flow : FlowId}
    {writes : List Write} (line : (law.also more).Line flow writes) : law.Line flow writes := by
  induction line with
  | nil => exact .nil
  | write line mine allowed planned ih => exact .write ih mine allowed planned.1

/-- A law that no step can break may ask more of plans, if its hosts plan nothing else. -/
theorem Kept.also {law : Law σ δ} (kept : law.Kept)
    {more : δ → Settings → Event → Option Checkpoint → Commit σ → Prop}
    (holds : ∀ {writes dispatcher event found settings commit} {host after : Host σ}, law.event event →
      law.host writes dispatcher host → law.Line event.flowId (Write.ofFlow writes event.flowId) →
      Write.Past (Write.ofFlow writes event.flowId) found →
      (Plan.ofEvent settings event found).run.run host = (.ok (.commit commit), after) →
      more dispatcher settings event found commit) : (law.also more).Kept where
  leads planned := kept.leads planned.1
  outside := kept.outside
  append := kept.append
  change := kept.change
  detach := kept.detach
  beginMaintenance := kept.beginMaintenance
  endMaintenance := kept.endMaintenance
  plans {_ _ event found host} settings allowed stocked line past := by
    obtain ⟨after, permits⟩ := kept.plans settings allowed stocked line.of_also past
    refine ⟨after, ?_⟩
    rcases ran : (Plan.ofEvent settings event found).run.run host with
      ⟨stop | reason | commit, left⟩
    all_goals rw [ran] at permits
    · exact permits
    · exact permits
    · exact ⟨permits, holds allowed stocked line.of_also past ran⟩
  settles stocked planned line last := kept.settles stocked planned.1 line.of_also last

/-- What planning always does, on any host and for any event. -/
def plain : Law σ δ where
  event _ := True
  host _ _ _ := True
  plan _ settings event found commit :=
    ∃ prepared draft, Plan.Arises settings event found commit prepared draft
  result _ := True

theorem plain_kept : (plain : Law σ δ).Kept where
  leads planned := by
    obtain ⟨_, _, arises⟩ := planned
    exact arises.leads
  outside _ := trivial
  append _ _ := trivial
  change _ _ := trivial
  detach _ _ := trivial
  beginMaintenance _ _ := trivial
  endMaintenance _ _ := trivial
  settles _ _ _ _ := trivial
  plans {_ _ event found host} settings _ _ _ _ := by
    refine ⟨trivial, ?_⟩
    rcases ran : (Plan.ofEvent settings event found).run.run host with
      ⟨stop | reason | commit, after⟩
    · trivial
    · trivial
    · exact Plan.ofEvent_arises ran

end Fleet.Law

end DurableFlow
