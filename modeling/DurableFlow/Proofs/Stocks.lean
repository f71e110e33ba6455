import DurableFlow.Proofs.Entrances

/-! # What a host has in stock

The contexts of a host come from its recipe, and the fibers it keeps have been put there by commits.
Planning asks for a context and takes at most a fiber out, `Host.Serves`, so a `Law` about stocked
hosts is kept if commits put in only what it allows: `Law.stocked_kept`.
-/

namespace DurableFlow

open Stateful Hosted

variable {σ : Type}

/-- A host after planning: at most a context was asked for, and no fiber was put in. -/
structure Host.Serves (before : Host σ) (owner : Identity) (after : Host σ) : Prop where
  environments : after.environments = before.environments ∨
    after.environments = (before.environments.acquire owner).2
  cache : after.cache.Within before.cache

namespace Hosted

theorem awaken_ok {exec : ExecutionContext σ} {cp : Checkpoint} {instant : Nat} {fiber : Fiber σ}
    {host after : Host σ} (h : (awaken exec cp instant).run.run host = (.ok fiber, after)) :
    (∃ entry, host.cache.entries.get? cp.flowId = some entry ∧ entry.fiber = fiber ∧
      entry.version = cp.version ∧ entry.exec.serial = exec.serial) ∨ Restores exec cp fiber := by
  rw [run_awaken] at h
  rcases taken : host.cache.take instant cp.flowId cp.version exec with ⟨_ | kept, cache⟩
  · rw [taken] at h
    simp only [revive] at h
    split at h
    next continuation held =>
      obtain ⟨restored, _⟩ := ofFiber_ok.1 h
      exact .inr ⟨continuation, held, restored⟩
    · cases h
  · rw [taken] at h
    cases h
    exact .inl (FiberCache.take_some taken)

theorem awaken_error {exec : ExecutionContext σ} {cp : Checkpoint} {instant : Nat} {stop : Stop}
    {host after : Host σ} (h : (awaken exec cp instant).run.run host = (.error stop, after))
    (fiber : Fiber σ) : ¬ Restores exec cp fiber := by
  rintro ⟨continuation, held, restored⟩
  rw [run_awaken] at h
  rcases taken : host.cache.take instant cp.flowId cp.version exec with ⟨_ | kept, cache⟩
  · rw [taken] at h
    simp only [revive, held, restored] at h
    cases h
  · rw [taken] at h
    cases h

theorem Worldly.serves {α : Type} {c : Hosted σ α} (worldly : Worldly c) {host middle : Host σ}
    {owner : Identity} (serves : host.Serves owner middle) :
    host.Serves owner (c.run.run middle).2 := by
  refine ⟨?_, ?_⟩
  · rw [worldly.environments_eq]
    exact serves.environments
  · rw [worldly.cache_eq]
    exact serves.cache

theorem follow_serves (settings : Settings) (prepared : Prepared) (host : Host σ) :
    host.Serves prepared.draft.checkpoint.owner ((follow settings prepared).run.run host).2 := by
  rcases prepared with ⟨draft, args | value | _⟩
  · rw [follow_start, run_bind, run_acquire]
    rcases acquired : host.environments.acquire draft.checkpoint.owner with ⟨error | exec, environments⟩
    all_goals
      have serves : host.Serves draft.checkpoint.owner { host with environments } :=
        ⟨.inr (by rw [acquired]), fun _ _ kept => kept⟩
    · exact serves
    · exact (Worldly.begin exec settings draft args).serves serves
  · rw [follow_resume, run_bind, run_acquire]
    rcases acquired : host.environments.acquire draft.checkpoint.owner with ⟨error | exec, environments⟩
    all_goals
      have serves : host.Serves draft.checkpoint.owner { host with environments } :=
        ⟨.inr (by rw [acquired]), fun _ _ kept => kept⟩
    · exact serves
    · simp only [mapError_ok]
      rw [run_bind, run_ofOutcome]
      cases moved : draft.setStatus .running with
      | error error => exact serves
      | ok running =>
          simp only [mapError_ok]
          rw [run_bind, run_awaken]
          have within := host.cache.within_take settings.instant running.checkpoint.version
            running.checkpoint.flowId exec
          rcases taken : host.cache.take settings.instant running.checkpoint.flowId
            running.checkpoint.version exec with ⟨_ | fiber, cache⟩
          all_goals
            rw [taken] at within
            have serves : host.Serves draft.checkpoint.owner { host with environments, cache } :=
              ⟨serves.environments, within⟩
          · have worldly := (Worldly.revive exec running.checkpoint).bind
              (Worldly.proceed exec settings running value)
            rw [← run_bind]
            exact worldly.serves serves
          · exact (Worldly.proceed exec settings running value fiber).serves serves
  · exact ⟨.inl rfl, fun _ _ kept => kept⟩

end Hosted

theorem Plan.ofEvent_serves (settings : Settings) (event : Event) (found : Option Checkpoint)
    (host : Host σ) :
    ∃ owner, host.Serves owner ((ofEvent settings event found).run.run host).2 := by
  have same : host.Serves default host := ⟨.inl rfl, fun _ _ kept => kept⟩
  unfold ofEvent
  split
  · exact ⟨_, same⟩
  · split
    · exact ⟨_, same⟩
    · exact ⟨_, same⟩
    next prepared _ =>
      refine ⟨prepared.draft.checkpoint.owner, ?_⟩
      have serves := follow_serves settings prepared host
      rw [ofPrepared, run_bind]
      rcases ran : (follow settings prepared).run.run host with ⟨stop | followed, after⟩
      · rw [ran] at serves
        exact serves
      · rw [ran] at serves
        exact serves

/-- A host whose contexts come from its recipe, and which keeps fibers as said. -/
structure Host.Stocked (recipe : Recipe σ) (keeps : FlowId → CacheEntry σ → Prop) (host : Host σ) :
    Prop where
  factory : host.environments.factory = recipe.factory
  contexts : ∀ owner exec, host.environments.contexts.get? owner = some exec →
    recipe.factory exec.serial owner = .ok exec
  cache : ∀ id entry, host.cache.entries.get? id = some entry → keeps id entry

/-- A host on which nothing has happened yet. -/
def Host.fresh (recipe : Recipe σ) (capacity ttl : Nat) (world : σ) : Host σ :=
  ⟨.new recipe.factory, .new capacity ttl, world⟩

namespace Host.Stocked

variable {recipe : Recipe σ} {keeps allows : FlowId → CacheEntry σ → Prop} {host after : Host σ}

theorem fresh (recipe : Recipe σ) (capacity ttl : Nat) (world : σ) :
    (Host.fresh recipe capacity ttl world).Stocked recipe keeps where
  factory := rfl
  contexts _ _ known := by cases known
  cache _ _ kept := by cases kept

theorem mono (stocked : host.Stocked recipe keeps) (weaker : ∀ id entry, keeps id entry → allows id entry) :
    host.Stocked recipe allows :=
  ⟨stocked.factory, stocked.contexts, fun id entry kept => weaker id entry (stocked.cache id entry kept)⟩

theorem with_cache (stocked : host.Stocked recipe keeps) {cache : FiberCache σ}
    (kept : ∀ id entry, cache.entries.get? id = some entry → allows id entry) :
    Host.Stocked recipe allows { host with cache } :=
  ⟨stocked.factory, stocked.contexts, kept⟩

theorem made (stocked : host.Stocked recipe keeps) {owner : Identity} {exec : ExecutionContext σ}
    {environments : Environments σ}
    (acquired : host.environments.acquire owner = (.ok exec, environments)) :
    recipe.factory exec.serial owner = .ok exec := by
  rcases host.environments.acquire_cases owner with
    ⟨_, same⟩ | ⟨_, known, same⟩ | ⟨_, same⟩ | ⟨_, built, same⟩
  all_goals
    rw [same] at acquired
    cases acquired
  · exact stocked.contexts owner exec known
  · rw [stocked.factory] at built
    rw [(Recipe.factory_ok built).1]
    exact built

theorem serves (stocked : host.Stocked recipe keeps) {owner : Identity}
    (serves : host.Serves owner after) : after.Stocked recipe keeps := by
  obtain ⟨environments, within⟩ := serves
  have kept : ∀ id entry, after.cache.entries.get? id = some entry → keeps id entry :=
    fun id entry kept => stocked.cache id entry (within id entry kept)
  rcases environments with same | asked
  · exact ⟨same ▸ stocked.factory, same ▸ stocked.contexts, kept⟩
  · rcases host.environments.acquire_cases owner with
      ⟨_, same⟩ | ⟨_, _, same⟩ | ⟨_, same⟩ | ⟨exec, built, same⟩
    all_goals
      rw [same] at asked
      refine ⟨by rw [asked]; exact stocked.factory, ?_, kept⟩
      rw [asked]
    · exact stocked.contexts
    · exact stocked.contexts
    · exact stocked.contexts
    · rw [stocked.factory] at built
      have serial := (Recipe.factory_ok built).1
      exact SortedMap.forall_get?_insert stocked.contexts (serial ▸ built)

theorem beginMaintenance (stocked : host.Stocked recipe keeps) (owner : Identity)
    {cache : FiberCache σ} (within : cache.Within host.cache) :
    Host.Stocked recipe keeps
      { host with environments := host.environments.beginMaintenance owner, cache } where
  factory := stocked.factory
  contexts other exec known := stocked.contexts other exec (SortedMap.get?_of_erase known)
  cache id entry kept := stocked.cache id entry (within id entry kept)

end Host.Stocked

/-- A recipe for contexts in which all flows are of one kind. -/
def Recipe.Offers (recipe : Recipe σ) (P : Flow σ → Prop) : Prop :=
  ∀ number owner exec name flow, recipe.factory number owner = .ok exec →
    exec.registry.get? name = some flow → P flow

theorem Recipe.Offers.of_single {recipe : Recipe σ} {P : Flow σ → Prop} {name : String} {flow : Flow σ}
    (single : ∀ number owner exec, recipe number owner = .ok exec →
      exec.registry = .ofList [(name, flow)]) (holds : P flow) : recipe.Offers P := by
  intro number owner exec other found built known
  obtain ⟨_, plain, made, registry, _⟩ := factory_ok built
  rw [registry, single number owner plain made] at known
  rw [SortedMap.eq_of_single known]
  exact holds

section Logic

variable {P : Flow σ → Prop} {recipe : Recipe σ} {host : Host σ} {settings : Settings}
  {prepared : Prepared}

/-- Every entrance is one into a flow of a kind, if a host has no other flows in stock. -/
theorem Prepared.Reaches.logic (offers : recipe.Offers P)
    (stocked : host.Stocked recipe fun _ entry => P entry.fiber.logic) {entrance : Entrance σ}
    (reached : prepared.Reaches settings host entrance) : P entrance.fiber.logic := by
  induction reached with
  | started decided acquired moved created =>
      obtain ⟨registered, _⟩ := Fiber.registered_of_forFlow created
      exact offers _ _ _ _ _ (stocked.made acquired) registered
  | woken decided acquired moved awake =>
      rcases awaken_ok awake with ⟨entry, kept, rfl, _⟩ | ⟨continuation, _, restored⟩
      · exact stocked.cache _ entry kept
      · obtain ⟨registered, _⟩ := Fiber.restore_ok restored
        exact offers _ _ _ _ _ (stocked.made acquired) registered
  | again reached ran applied moved ih =>
      obtain ⟨_, _, _, rfl, _⟩ := (Draft.applyOutcome_ok applied).of_resume
      obtain ⟨_, _, logic, _⟩ := (Entrance.calls ran).2.keeps
      rw [← logic] at ih
      exact ih

theorem Prepared.Ends.logic (offers : recipe.Offers P)
    (stocked : host.Stocked recipe fun _ entry => P entry.fiber.logic) {after : Draft}
    {left : Option (Suspended σ)} (ends : prepared.Ends settings host (.ok (after, left))) :
    ∀ suspended, left = some suspended → P suspended.fiber.logic := by
  intro suspended same
  cases ends with
  | skipped | unknown => cases same
  | concluded reached ran applied =>
      obtain ⟨parked, rfl⟩ := suspended?_some same
      have left := (Entrance.calls ran).2
      obtain ⟨_, _, rfl⟩ := left.state_iff.1 parked
      obtain ⟨_, _, logic, _⟩ := left.keeps
      exact logic ▸ reached.logic offers stocked

end Logic

theorem Commit.get?_settleCache {commit : Commit σ} {version instant : Nat} {cache : FiberCache σ}
    {id : FlowId} {entry : CacheEntry σ}
    (kept : (commit.settleCache version instant cache).entries.get? id = some entry) :
    cache.entries.get? id = some entry ∨
      (∃ suspended, commit.suspended = some suspended ∧ id = suspended.fiber.flowId ∧
        entry = ⟨suspended.fiber, version, commit.checkpoint.owner, suspended.exec, instant⟩) ∨
      commit.ran = false ∧ commit.checkpoint.isTerminal = false ∧ id = commit.checkpoint.flowId ∧
        ∃ old, cache.entries.get? id = some old ∧ old.version = commit.expected ∧
          entry = { old with version } := by
  unfold settleCache at kept
  simp only at kept
  split at kept
  next suspended left =>
    rcases FiberCache.get?_put kept with before | put
    · exact .inl before
    · exact .inr (.inl ⟨suspended, left, put⟩)
  next =>
    split at kept
    · exact .inl (FiberCache.within_remove _ _ _ _ kept)
    next goesOn =>
      rw [Bool.or_eq_true, not_or, Bool.not_eq_true, Bool.not_eq_true] at goesOn
      rcases FiberCache.get?_advance kept with ⟨_, before⟩ | ⟨rfl, advanced⟩
      · exact .inl before
      · exact .inr (.inr ⟨goesOn.1, goesOn.2, rfl, advanced⟩)

namespace Fleet.Law

variable {δ : Type} {recipes : δ → Recipe σ} {event : Event → Prop}
  {keeps : List Write → FlowId → CacheEntry σ → Prop}
  {plan : δ → Settings → Event → Option Checkpoint → Commit σ → Prop}
  {result : Except Stop ProcessingOutcome → Prop}

/-- A law about hosts whose contexts come from their recipes, and which keep fibers as said. -/
def stocked (recipes : δ → Recipe σ) (event : Event → Prop)
    (keeps : List Write → FlowId → CacheEntry σ → Prop)
    (plan : δ → Settings → Event → Option Checkpoint → Commit σ → Prop)
    (result : Except Stop ProcessingOutcome → Prop) : Law σ δ where
  event
  host writes dispatcher host := host.Stocked (recipes dispatcher) (keeps writes)
  plan
  result

/-- A law about stocked hosts is kept if planning obeys it, and if it allows the fiber that a commit
leaves suspended or did not run. -/
theorem stocked_kept
    (leads : ∀ {dispatcher settings event found} {commit : Commit σ},
      plan dispatcher settings event found commit → Plan.Leads settings event found commit)
    (outside : ∀ {ended}, Outside ended → result ended)
    (append : ∀ {writes id entry} (more : List Write), keeps writes id entry →
      keeps (writes ++ more) id entry)
    (plans : ∀ {writes dispatcher settings requested found} {host : Host σ}, event requested →
      host.Stocked (recipes dispatcher) (keeps writes) →
      (stocked recipes event keeps plan result).Line requested.flowId
        (Write.ofFlow writes requested.flowId) →
      Write.Past (Write.ofFlow writes requested.flowId) found →
      (stocked recipes event keeps plan result).Permits dispatcher settings requested found
        ((Plan.ofEvent settings requested found).run.run host).1)
    (suspends : ∀ {writes dispatcher ticket settings requested found} {commit : Commit σ}
      {suspended : Suspended σ}, plan dispatcher settings requested found commit →
      (stocked recipes event keeps plan result).Line requested.flowId
        (Write.ofFlow writes requested.flowId) →
      Write.last? (Write.ofFlow writes requested.flowId) = found →
      commit.suspended = some suspended →
      keeps (writes ++ [⟨ticket, settings, requested, commit.written, commit.records⟩])
        suspended.fiber.flowId ⟨suspended.fiber, commit.expected + 1, commit.checkpoint.owner,
          suspended.exec, settings.instant⟩)
    (skips : ∀ {writes dispatcher ticket settings requested found} {commit : Commit σ}
      {entry : CacheEntry σ}, plan dispatcher settings requested found commit →
      (stocked recipes event keeps plan result).Line requested.flowId
        (Write.ofFlow writes requested.flowId) →
      Write.last? (Write.ofFlow writes requested.flowId) = found →
      commit.ran = false → commit.checkpoint.isTerminal = false →
      keeps writes commit.checkpoint.flowId entry → entry.version = commit.expected →
      keeps (writes ++ [⟨ticket, settings, requested, commit.written, commit.records⟩])
        commit.checkpoint.flowId { entry with version := commit.expected + 1 }) :
    (stocked recipes event keeps plan result).Kept where
  leads := leads
  outside := outside
  append more stocked := stocked.mono fun _ _ kept => append more kept
  change _ stocked := ⟨stocked.factory, stocked.contexts, stocked.cache⟩
  detach owner stocked := stocked.beginMaintenance owner fun _ _ kept => kept
  beginMaintenance owner stocked :=
    stocked.beginMaintenance owner (FiberCache.within_evictOwner _ owner)
  endMaintenance _ stocked := ⟨stocked.factory, stocked.contexts, stocked.cache⟩
  plans {_ _ requested found host} settings allowed stocked line past := by
    obtain ⟨_, serves⟩ := Plan.ofEvent_serves settings requested found host
    exact ⟨stocked.serves serves, plans allowed stocked line past⟩
  settles {_ _ _ _ _ _ commit _} stocked planned line last := by
    refine stocked.with_cache fun id entry kept => ?_
    rcases Commit.get?_settleCache kept with before | ⟨suspended, left, rfl, rfl⟩ | skipped
    · exact append _ (stocked.cache id entry before)
    · exact suspends planned line last left
    · obtain ⟨ran, goesOn, rfl, old, known, version, rfl⟩ := skipped
      exact skips planned line last ran goesOn (stocked.cache _ old known) version

end Fleet.Law

end DurableFlow
