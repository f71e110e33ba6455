import DurableFlow.Proofs.Contexts
import DurableFlow.Proofs.Continuations
import DurableFlow.Proofs.Keeping
import DurableFlow.Samples.Echo

/-! # Keeping fibers in memory changes nothing

A kept fiber is handed out for the version of the checkpoint that it was parked at. As long as it is
then the very fiber that the checkpoint restores, `FiberCache.Coherent`, a site that keeps fibers and
one that keeps none do the same: `Services.run_uncached`.
-/

namespace DurableFlow

open Stateful Hosted Samples

variable {σ : Type}

/-- A kept fiber is not ahead of the stored checkpoint of its flow, and if it is not behind either,
the checkpoint restores it. -/
def CacheEntry.Fits (entry : CacheEntry σ) (id : FlowId) (store : Store) : Prop :=
  ∃ cp, store.get? id = some cp ∧ entry.version ≤ cp.version ∧
    (entry.version = cp.version → Restores entry.exec cp entry.fiber)

namespace FiberCache

/-- Every kept fiber fits the store. -/
def Coherent (cache : FiberCache σ) (store : Store) : Prop :=
  ∀ id entry, cache.entries.get? id = some entry → entry.Fits id store

/-- Every fiber that is kept was kept before. -/
def Within (cache before : FiberCache σ) : Prop :=
  ∀ id entry, cache.entries.get? id = some entry → before.entries.get? id = some entry

theorem Coherent.within {cache before : FiberCache σ} {store : Store} (coherent : before.Coherent store)
    (within : cache.Within before) : cache.Coherent store :=
  fun id entry kept => coherent id entry (within id entry kept)

theorem Coherent.grows {cache : FiberCache σ} {before after : Store} (coherent : cache.Coherent before)
    (grows : before.Grows after) : cache.Coherent after := by
  intro id entry kept
  obtain ⟨cp, found, le, restores⟩ := coherent id entry kept
  obtain ⟨newer, foundNewer, order⟩ := grows.kept id cp found
  refine ⟨newer, foundNewer, ?_, fun same => ?_⟩
  · rcases order with rfl | older
    · exact le
    · omega
  · rcases order with rfl | older
    · exact restores same
    · omega

theorem within_evictOwner (cache : FiberCache σ) (owner : Identity) :
    (cache.evictOwner owner).Within cache := by
  intro id entry kept
  rw [evictOwner, SortedMap.get?_filter] at kept
  exact Option.filter_eq_some_iff.1 kept |>.1

theorem within_remove (cache : FiberCache σ) (id : FlowId) : (cache.remove id).Within cache :=
  fun _ _ kept => SortedMap.get?_of_erase kept

theorem within_take (cache : FiberCache σ) (now version : Nat) (id : FlowId)
    (exec : ExecutionContext σ) : (cache.take now id version exec).2.Within cache := by
  intro other entry kept
  unfold take at kept
  split at kept
  · exact kept
  · simp only at kept
    split at kept
    · exact SortedMap.get?_of_erase kept
    · exact SortedMap.get?_of_erase kept

theorem take_some {cache after : FiberCache σ} {now version : Nat} {id : FlowId}
    {exec : ExecutionContext σ} {fiber : Fiber σ}
    (h : cache.take now id version exec = (some fiber, after)) :
    ∃ entry, cache.entries.get? id = some entry ∧ entry.fiber = fiber ∧ entry.version = version ∧
      entry.exec.serial = exec.serial := by
  obtain ⟨entry, kept, same, fits, serial, _⟩ := take_eq_some (congrArg Prod.fst h)
  exact ⟨entry, kept, same, fits, serial⟩

theorem get?_put {cache : FiberCache σ} {now version : Nat} {owner : Identity}
    {exec : ExecutionContext σ} {fiber : Fiber σ} {id : FlowId} {entry : CacheEntry σ}
    (kept : (cache.put now version owner exec fiber).entries.get? id = some entry) :
    cache.entries.get? id = some entry ∨
      id = fiber.flowId ∧ entry = ⟨fiber, version, owner, exec, now⟩ := by
  unfold put at kept
  split at kept
  · exact .inl kept
  · simp only at kept
    by_cases here : id = fiber.flowId
    · subst here
      rw [SortedMap.get?_insert_self] at kept
      exact .inr ⟨rfl, (Option.some.inj kept).symm⟩
    · rw [SortedMap.get?_insert_of_ne _ _ here] at kept
      have fresh : (cache.entries.filter fun _ entry => cache.isFresh now entry).get? id =
          some entry := by
        split at kept
        · split at kept
          · exact SortedMap.get?_of_erase kept
          · exact kept
        · exact kept
      rw [SortedMap.get?_filter] at fresh
      exact .inl (Option.filter_eq_some_iff.1 fresh |>.1)

theorem get?_advance {cache : FiberCache σ} {id other : FlowId} {source target : Nat}
    {entry : CacheEntry σ} (kept : (cache.advance id source target).entries.get? other = some entry) :
    other ≠ id ∧ cache.entries.get? other = some entry ∨
      other = id ∧ ∃ old, cache.entries.get? id = some old ∧ old.version = source ∧
        entry = { old with version := target } := by
  unfold advance at kept
  split at kept
  next none =>
    refine .inl ⟨?_, kept⟩
    rintro rfl
    rw [none] at kept
    cases kept
  next old found =>
    split at kept
    next same =>
      by_cases here : other = id
      · subst here
        rw [SortedMap.get?_insert_self] at kept
        exact .inr ⟨rfl, old, found, same, (Option.some.inj kept).symm⟩
      · rw [SortedMap.get?_insert_of_ne _ _ here] at kept
        exact .inl ⟨here, kept⟩
    next =>
      refine .inl ⟨?_, SortedMap.get?_of_erase kept⟩
      rintro rfl
      rw [remove, SortedMap.get?_erase_self] at kept
      cases kept

end FiberCache

theorem Commit.settleCache_disabled (commit : Commit σ) (version instant : Nat) :
    commit.settleCache version instant .disabled = .disabled := by
  unfold settleCache
  simp only
  split
  · rfl
  · split <;> rfl

theorem Host.Orderly.beginMaintenance {recipe : Recipe σ} {host : Host σ}
    (orderly : host.Orderly recipe) (owner : Identity) {cache : FiberCache σ}
    (within : cache.Within host.cache) :
    Host.Orderly recipe
      { host with environments := host.environments.beginMaintenance owner, cache } := by
  refine orderly.of_subset rfl (Nat.le_refl _) ?_
  rintro exec (⟨other, known⟩ | ⟨id, entry, kept, same⟩)
  · exact .environment other (SortedMap.get?_of_erase known)
  · exact .fiber id entry (within id entry kept) same

/-- The host without the fibers it keeps. -/
def Host.uncached (host : Host σ) : Host σ := { host with cache := .disabled }

namespace Hosted

variable {α β : Type} {recipe : Recipe σ} {host : Host σ}

/-- A computation that comes to the same whether the host keeps fibers or not, and that keeps no
others than before. -/
structure Alike (recipe : Recipe σ) (c : Hosted σ α) (host : Host σ) : Prop where
  uncached : c.run.run host.uncached = ((c.run.run host).1, (c.run.run host).2.uncached)
  within : (c.run.run host).2.cache.Within host.cache
  orderly : (c.run.run host).2.Orderly recipe

namespace Alike

theorem bind {c : Hosted σ α} {f : α → Hosted σ β} (first : Alike recipe c host)
    (second : ∀ a after, c.run.run host = (.ok a, after) → after.Orderly recipe →
      Alike recipe (f a) after) :
    Alike recipe (c >>= f) host := by
  obtain ⟨uncached, within, orderly⟩ := first
  rcases ran : c.run.run host with ⟨e | a, after⟩
  · rw [ran] at uncached within orderly
    refine ⟨?_, ?_, ?_⟩
    · rw [run_bind, run_bind, uncached, ran]
    · rw [run_bind, ran]
      exact within
    · rw [run_bind, ran]
      exact orderly
  · rw [ran] at uncached within orderly
    have rest := second a after ran orderly
    refine ⟨?_, ?_, ?_⟩
    · rw [run_bind, run_bind, uncached, ran]
      exact rest.uncached
    · rw [run_bind, ran]
      exact fun id entry kept => within id entry (rest.within id entry kept)
    · rw [run_bind, ran]
      exact rest.orderly

theorem of_worldly {c : Hosted σ α} (worldly : Worldly c) (orderly : host.Orderly recipe) :
    Alike recipe c host := by
  have environments := worldly.environments_eq host
  have cache := worldly.cache_eq host
  refine ⟨?_, ?_, ?_⟩
  · have same := worldly host host.environments .disabled
    rw [Host.uncached, same, Host.uncached, environments]
  · rw [cache]
    exact fun _ _ kept => kept
  · refine orderly.of_subset (by rw [environments]) (Nat.le_of_eq (by rw [environments])) ?_
    rintro exec (⟨owner, known⟩ | ⟨id, entry, kept, same⟩)
    · exact .environment owner (by rw [← environments]; exact known)
    · exact .fiber id entry (by rw [← cache]; exact kept) same

theorem acquire (owner : Identity) (orderly : host.Orderly recipe) :
    Alike recipe (Hosted.acquire owner) host := by
  refine ⟨?_, ?_, ?_⟩
  · rw [run_acquire, run_acquire]
    rfl
  · rw [run_acquire]
    exact fun _ _ kept => kept
  · rw [run_acquire]
    exact (orderly.acquire owner).1

/-- A fiber that is woken is the one that the checkpoint restores, wherever it was. -/
theorem awaken {exec : ExecutionContext σ} {cp : Checkpoint} {instant : Nat}
    (orderly : host.Orderly recipe) (used : host.InUse exec)
    (restores : ∀ entry, host.cache.entries.get? cp.flowId = some entry →
      entry.version = cp.version → Restores entry.exec cp entry.fiber) :
    Alike recipe (Hosted.awaken exec cp instant) host := by
  have within := host.cache.within_take instant cp.version cp.flowId exec
  rcases taken : host.cache.take instant cp.flowId cp.version exec with ⟨kept, cache⟩
  rw [taken] at within
  have orderly' : Host.Orderly recipe { host with cache } := by
    refine orderly.of_subset rfl (Nat.le_refl _) ?_
    rintro exec (⟨owner, known⟩ | ⟨id, entry, kept, same⟩)
    · exact .environment owner known
    · exact .fiber id entry (within id entry kept) same
  have bare : host.uncached.cache.take instant cp.flowId cp.version exec = (none, .disabled) :=
    FiberCache.take_of_none rfl
  cases kept with
  | none =>
      have revived := of_worldly (Worldly.revive exec cp) orderly'
      refine ⟨?_, ?_, ?_⟩
      · rw [run_awaken, run_awaken, taken, bare]
        exact revived.uncached
      · rw [run_awaken, taken]
        exact fun id entry kept => within id entry (revived.within id entry kept)
      · rw [run_awaken, taken]
        exact revived.orderly
  | some fiber =>
      obtain ⟨entry, kept, rfl, version, serial⟩ := FiberCache.take_some taken
      cases orderly.distinct _ _ (.fiber cp.flowId entry kept rfl) used serial
      obtain ⟨continuation, known, restored⟩ := restores entry kept version
      refine ⟨?_, ?_, ?_⟩
      · rw [run_awaken, run_awaken, taken, bare]
        simp only [revive, known, restored]
        rfl
      · rw [run_awaken, taken]
        exact within
      · rw [run_awaken, taken]
        exact orderly'

theorem follow {settings : Settings} {prepared : Prepared} (orderly : host.Orderly recipe)
    (restores : ∀ value, prepared.decision = .resume value → ∀ entry,
      host.cache.entries.get? prepared.draft.checkpoint.flowId = some entry →
      entry.version = prepared.draft.checkpoint.version →
      Restores entry.exec prepared.draft.checkpoint entry.fiber) :
    Alike recipe (Hosted.follow settings prepared) host := by
  rcases prepared with ⟨draft, args | value | _⟩
  · rw [follow_start]
    exact (acquire _ orderly).bind fun exec after _ orderly =>
      of_worldly (Worldly.begin exec settings draft args) orderly
  · rw [follow_resume]
    refine (acquire _ orderly).bind fun exec after ran orderly' => ?_
    rw [run_acquire] at ran
    obtain ⟨known, rfl⟩ := Prod.mk.inj ran
    have used : Host.InUse { host with
        environments := (host.environments.acquire draft.checkpoint.owner).2 } exec :=
      .environment _ ((orderly.acquire _).2 exec (mapError_eq_ok.1 known))
    refine (of_worldly (Worldly.of_result _) orderly').bind fun running later first _ => ?_
    obtain ⟨moved, rfl⟩ := ofOutcome_ok.1 first
    obtain ⟨_, rfl⟩ := Draft.setStatus_ok.1 moved
    have awake : Alike recipe (Hosted.awaken exec draft.running.checkpoint settings.instant) _ :=
      awaken orderly' used (restores value rfl)
    exact awake.bind fun fiber _ _ orderly =>
      of_worldly (Worldly.proceed exec settings draft.running value fiber) orderly
  · exact of_worldly (Worldly.of_result _) orderly

end Alike

end Hosted

theorem Hosted.Restores.of_same {exec : ExecutionContext σ} {cp other : Checkpoint} {fiber : Fiber σ}
    (restores : Restores exec cp fiber) (flowId : other.flowId = cp.flowId)
    (continuation : other.continuation = cp.continuation) : Restores exec other fiber := by
  unfold Restores at restores ⊢
  rw [flowId, continuation]
  exact restores

/-- Planning comes to the same whether the host keeps fibers or not. -/
theorem Plan.ofEvent_alike {recipe : Recipe σ} {host : Host σ} {store : Store} (settings : Settings)
    (event : Event) (orderly : host.Orderly recipe) (coherent : host.cache.Coherent store)
    (keyed : store.Keyed) :
    Alike recipe (ofEvent settings event (store.get? event.flowId)) host := by
  unfold ofEvent
  split
  · exact .of_worldly (Worldly.of_result _) orderly
  · split
    · exact .of_worldly (Worldly.of_result _) orderly
    · exact .of_worldly (Worldly.of_result _) orderly
    next prepared prepares =>
      have prepares := Handler.prepare_prepares prepares
      refine (Alike.follow orderly fun _ _ entry kept version => ?_).bind
        fun _ _ _ orderly => .of_worldly (Worldly.of_result _) orderly
      rw [prepares.flowId_eq (keyed _)] at kept
      obtain ⟨cp, found, _, restores⟩ := coherent _ entry kept
      rw [found] at prepares
      obtain ⟨same, continuation⟩ := prepares.keeps
      exact (restores (version.trans same.version)).of_same same.flowId continuation

theorem Plan.ofEvent_yields {recipe : Recipe σ} {host after : Host σ} {store : Store}
    {settings : Settings} {event : Event} {commit : Commit σ} (orderly : host.Orderly recipe)
    (coherent : host.cache.Coherent store) (keyed : store.Keyed)
    (h : (ofEvent settings event (store.get? event.flowId)).run.run host =
      (.ok (.commit commit), after)) :
    ∃ stints, Yields after.Gives settings event (store.get? event.flowId) stints commit := by
  have uncached := (ofEvent_alike settings event orderly coherent keyed).uncached
  rw [h] at uncached
  have offered : ∀ owner exec, host.uncached.environments.acquire owner =
      (.ok exec, after.uncached.environments) → after.Gives owner exec :=
    fun _ _ acquired => orderly.acquired acquired
  exact ofEvent_commit offered rfl (keyed _) uncached

namespace Site

variable {τ π : Type}

/-- The site without the fibers it keeps. -/
def uncached (site : Site σ τ π) : Site σ τ π := { site with host := site.host.uncached }

/-- A site whose kept fibers fit what is stored. -/
structure Coherent (recipe : Recipe σ) (view : τ → Store) (site : Site σ τ π) : Prop where
  orderly : site.host.Orderly recipe
  cache : site.host.cache.Coherent (view site.stored)
  keyed : (view site.stored).Keyed

/-- A site that has just been set up: no context is built yet. -/
def launch (recipe : Recipe σ) (cache : FiberCache σ) (world : σ) (stored : τ) (published : π) :
    Site σ τ π :=
  ⟨⟨.new recipe.factory, cache, world⟩, stored, published⟩

theorem launch_coherent (recipe : Recipe σ) (cache : FiberCache σ) (world : σ) (view : τ → Store)
    (stored : τ) (published : π) (empty : cache.entries = {}) (nothing : view stored = {}) :
    (launch recipe cache world stored published).Coherent recipe view := by
  refine ⟨.new recipe cache empty world, ?_, ?_⟩
  · intro id entry kept
    simp only [launch, empty] at kept
    cases kept
  · intro id cp found
    simp only [launch, nothing] at found
    cases found

theorem Coherent.of_eq {recipe : Recipe σ} {view : τ → Store} {site after : Site σ τ π}
    (coherent : site.Coherent recipe view) (host : after.host = site.host)
    (stored : after.stored = site.stored) : after.Coherent recipe view := by
  refine ⟨?_, ?_, ?_⟩
  · rw [host]
    exact coherent.orderly
  · rw [host, stored]
    exact coherent.cache
  · rw [stored]
    exact coherent.keyed

end Site

/-- A commit that was planned for what is stored of its flow. -/
structure Commit.Planned (commit : Commit σ) (host : Host σ) (store : Store) : Prop where
  /-- A fiber that is left suspended is the one that the checkpoint restores. -/
  suspended : ∀ parked, commit.suspended = some parked →
    (∃ owner, host.Gives owner parked.exec) ∧ Restores parked.exec commit.checkpoint parked.fiber
  /-- A checkpoint whose flow was not run keeps its continuation. -/
  skipped : commit.ran = false → commit.checkpoint.isTerminal = false →
    ∃ cp, store.get? commit.checkpoint.flowId = some cp ∧ commit.expected = cp.version ∧
      cp.flowId = commit.checkpoint.flowId ∧ commit.checkpoint.continuation = cp.continuation

namespace Commit

variable {commit : Commit σ} {recipe : Recipe σ} {host : Host σ}

theorem settleCache_inUse {store : Store} (version instant : Nat)
    (planned : commit.Planned host store) {id : FlowId}
    {entry : CacheEntry σ}
    (kept : (commit.settleCache version instant host.cache).entries.get? id = some entry) :
    host.InUse entry.exec := by
  unfold settleCache at kept
  simp only at kept
  split at kept
  next parked left =>
    rcases FiberCache.get?_put kept with old | ⟨_, rfl⟩
    · exact .fiber id entry old rfl
    · obtain ⟨⟨owner, known⟩, _⟩ := planned.suspended parked left
      exact .environment owner known
  next =>
    split at kept
    · exact .fiber id entry (FiberCache.within_remove _ _ _ _ kept) rfl
    · rcases FiberCache.get?_advance kept with ⟨_, old⟩ | ⟨rfl, old, found, _, rfl⟩
      · exact .fiber id entry old rfl
      · exact .fiber _ old found rfl

/-- Once a commit is written, the fibers that are kept then fit what is stored then. -/
theorem settleCache_coherent {store found : Store} {cache : FiberCache σ} (instant : Nat)
    (planned : commit.Planned host store)
    (coherent : cache.Coherent store) (grows : store.Grows found)
    (admits : found.admits commit.checkpoint.flowId commit.expected) :
    (commit.settleCache (commit.expected + 1) instant cache).Coherent
      (found.save commit.checkpoint commit.expected).2 := by
  have later := coherent.grows (grows.trans (.save found commit.checkpoint commit.expected))
  have written : (found.save commit.checkpoint commit.expected).2.get? commit.checkpoint.flowId =
      some commit.written := by
    rw [Store.save, if_pos admits]
    exact SortedMap.get?_insert_self ..
  intro id entry kept
  unfold settleCache at kept
  simp only at kept
  split at kept
  next parked left =>
    rcases FiberCache.get?_put kept with old | ⟨rfl, rfl⟩
    · exact later id entry old
    · obtain ⟨_, restores⟩ := planned.suspended parked left
      obtain ⟨_, _, restored⟩ := restores
      obtain ⟨_, flowId, _⟩ := Fiber.restore_ok restored
      rw [flowId]
      exact ⟨_, written, Nat.le_refl _, fun _ => (planned.suspended parked left).2⟩
  next =>
    split at kept
    · exact later id entry (FiberCache.within_remove _ _ _ _ kept)
    next goesOn =>
      rw [Bool.or_eq_true, not_or, Bool.not_eq_true, Bool.not_eq_true] at goesOn
      rcases FiberCache.get?_advance kept with ⟨_, old⟩ | ⟨rfl, old, before, current, rfl⟩
      · exact later id entry old
      · obtain ⟨cp, stored, version, flowId, continuation⟩ := planned.skipped goesOn.1 goesOn.2
        obtain ⟨known, same, _, restores⟩ := coherent _ old before
        rw [stored] at same
        cases same
        exact ⟨_, written, Nat.le_refl _, fun _ =>
          (restores (current.trans version)).of_same flowId.symm continuation⟩

end Commit

theorem Plan.Yields.planned {settings : Settings} {event : Event} {store : Store} {host : Host σ}
    {stints : List Stint} {commit : Commit σ}
    (faithful : ∀ owner exec, host.Gives owner exec → exec.serializer.Faithful)
    (keyed : store.Keyed)
    (yields : Yields host.Gives settings event (store.get? event.flowId) stints commit) :
    commit.Planned host store := by
  obtain ⟨prepared, draft, prepares, course, checkpoint, _, ran⟩ := yields.course
  constructor
  · intro parked left
    rw [left] at course
    obtain ⟨used, _, restores⟩ := course.restores faithful
    rw [checkpoint]
    exact ⟨used, restores.of_same rfl rfl⟩
  · intro skipped _
    generalize commit.suspended = left at course
    cases course with
    | skipped =>
        cases stored : store.get? event.flowId with
        | none =>
            rw [stored] at prepares
            obtain ⟨_, _, starts⟩ := prepares.starts
            cases starts
        | some cp =>
            have expected := yields.expected
            rw [stored] at prepares expected
            obtain ⟨same, continuation⟩ := prepares.keeps
            have flowId : commit.checkpoint.flowId = cp.flowId := by
              rw [checkpoint]
              exact same.flowId
            refine ⟨cp, ?_, expected, flowId.symm, by rw [checkpoint]; exact continuation⟩
            rw [flowId, keyed _ cp stored, stored]
    | unregistered | started | resumed =>
        rw [ran] at skipped
        cases skipped

namespace Services

variable {τ π : Type} {services : Services τ π} {recipe : Recipe σ} {view : τ → Store}

theorem publish_uncached (services : Services τ π) (id : FlowId) (records : List Record)
    (site : Site σ τ π) :
    (services.publish id records).run.run site.uncached =
      (((services.publish id records).run.run site).1,
        ((services.publish id records).run.run site).2.uncached) := by
  rw [run_publish, run_publish]
  split <;> rfl

theorem commit_uncached (shows : services.store.Shows view) {site : Site σ τ π}
    (coherent : site.Coherent recipe view) (settings : Settings) (id : FlowId) {commit : Commit σ}
    (planned : commit.Planned site.host (view site.stored)) :
    (services.commit settings id commit).run.run site.uncached =
        (((services.commit settings id commit).run.run site).1,
          ((services.commit settings id commit).run.run site).2.uncached) ∧
      ((services.commit settings id commit).run.run site).2.Coherent recipe view := by
  obtain ⟨found, grows, saved, written⟩ :=
    shows.save commit.checkpoint commit.expected site.stored
  have keyed := (grows.trans (.save found commit.checkpoint commit.expected)).keyed coherent.keyed
  have settled := Commit.settleCache_coherent settings.instant planned coherent.cache grows
  rcases ran : services.store.save commit.checkpoint commit.expected site.stored with ⟨result, after⟩
  have ran' : services.store.save commit.checkpoint commit.expected site.uncached.stored =
    (result, after) := ran
  rw [ran] at saved written
  rw [run_commit, run_commit, ran, ran']
  cases saved
  by_cases admits : found.admits commit.checkpoint.flowId commit.expected
  · have version : (found.save commit.checkpoint commit.expected).1 = .saved (commit.expected + 1) := by
      rw [Store.save, if_pos admits]
    let settledSite : Site σ τ π := { site with
      host := { site.host with
        cache := commit.settleCache (commit.expected + 1) settings.instant site.host.cache }
      stored := after }
    have coherent' : settledSite.Coherent recipe view := by
      refine ⟨coherent.orderly.of_subset rfl (Nat.le_refl _) ?_, ?_, ?_⟩
      · rintro exec (⟨owner, known⟩ | ⟨id, entry, kept, rfl⟩)
        · exact .environment owner known
        · exact Commit.settleCache_inUse _ _ planned kept
      · exact written ▸ settled admits
      · exact written ▸ keyed
    have same := services.publish_uncached id commit.records settledSite
    obtain ⟨host, stored⟩ := services.publish_keeps id commit.records settledSite
    have bare : commit.settleCache (commit.expected + 1) settings.instant site.uncached.host.cache =
      .disabled := commit.settleCache_disabled _ _
    simp only [version, bare]
    refine ⟨?_, coherent'.of_eq host stored⟩
    -- Both sites have come to differ in their caches only, which publishing does not look at.
    change (((services.publish id commit.records).run.run settledSite.uncached).1.map _,
      ((services.publish id commit.records).run.run settledSite.uncached).2) = _
    rw [same]
  · have refused : found.save commit.checkpoint commit.expected =
        (.conflict ((found.get? commit.checkpoint.flowId).map (·.version)), found) := by
      rw [Store.save, if_neg admits]
    rw [refused] at written ⊢
    refine ⟨rfl, coherent.orderly, ?_, ?_⟩
    · rw [written]
      exact coherent.cache.grows grows
    · rw [written]
      exact grows.keyed coherent.keyed

/-- Handling an event comes to the same whether fibers are kept or not, and the fibers that are kept
then fit what is stored then. -/
theorem handle_uncached (shows : services.store.Shows view)
    (faithful : ∀ number owner exec, recipe number owner = .ok exec → exec.serializer.Faithful)
    {site : Site σ τ π} (coherent : site.Coherent recipe view) (settings : Settings)
    (event : Event) :
    (services.handle settings event).run.run site.uncached =
        (((services.handle settings event).run.run site).1,
          ((services.handle settings event).run.run site).2.uncached) ∧
      ((services.handle settings event).run.run site).2.Coherent recipe view := by
  obtain ⟨loads, grows⟩ := shows.load event.flowId site.stored
  rcases ran : services.store.load event.flowId site.stored with ⟨result, stored⟩
  have ran' : services.store.load event.flowId site.uncached.stored = (result, stored) := ran
  rw [ran] at loads grows
  simp only at loads
  subst loads
  have keyed := grows.keyed coherent.keyed
  have alike := Plan.ofEvent_alike settings event coherent.orderly (coherent.cache.grows grows) keyed
  rw [run_handle, run_handle, ran, ran']
  rcases planned : (Plan.ofEvent settings event ((view stored).get? event.flowId)).run.run site.host
    with ⟨plan, host⟩
  obtain ⟨uncached, within, orderly⟩ := alike
  rw [planned] at uncached within orderly
  have coherent' : Site.Coherent recipe view { site with host, stored } :=
    ⟨orderly, (coherent.cache.grows grows).within within, keyed⟩
  have planned' : (Plan.ofEvent settings event ((view stored).get? event.flowId)).run.run
    site.uncached.host = (plan, host.uncached) := uncached
  simp only [planned, planned']
  rcases plan with stop | reason | commit
  · exact ⟨rfl, coherent'⟩
  · exact ⟨rfl, coherent'⟩
  · obtain ⟨stints, yields⟩ :=
      Plan.ofEvent_yields coherent.orderly (coherent.cache.grows grows) keyed planned
    have planned := yields.planned
      (fun owner exec known => orderly.serializer faithful (.environment owner known)) keyed
    exact commit_uncached shows coherent' settings event.flowId planned

theorem live_uncached (shows : services.store.Shows view)
    (faithful : ∀ number owner exec, recipe number owner = .ok exec → exec.serializer.Faithful)
    {site : Site σ τ π} (coherent : site.Coherent recipe view) (moment : Moment) :
    services.live site.uncached moment =
        ((services.live site moment).1, (services.live site moment).2.uncached) ∧
      (services.live site moment).2.Coherent recipe view := by
  cases moment with
  | event settings event =>
      obtain ⟨same, coherent⟩ := handle_uncached shows faithful coherent settings event
      refine ⟨?_, coherent⟩
      simp only [live, same]
      rfl
  | beginMaintenance owner attached =>
      cases attached with
      | true =>
          have within := site.host.cache.within_evictOwner owner
          exact ⟨rfl, coherent.orderly.beginMaintenance owner within, coherent.cache.within within,
            coherent.keyed⟩
      | false =>
          exact ⟨rfl, coherent.orderly.beginMaintenance owner fun _ _ kept => kept, coherent.cache,
            coherent.keyed⟩
  | endMaintenance owner =>
      have orderly : (site.host.endMaintenance owner).Orderly recipe := by
        refine coherent.orderly.of_subset rfl (Nat.le_refl _) ?_
        rintro exec (⟨other, known⟩ | ⟨id, entry, kept, same⟩)
        · exact .environment other known
        · exact .fiber id entry kept same
      exact ⟨rfl, orderly, coherent.cache, coherent.keyed⟩

theorem run_uncached (shows : services.store.Shows view)
    (faithful : ∀ number owner exec, recipe number owner = .ok exec → exec.serializer.Faithful)
    {site : Site σ τ π} (coherent : site.Coherent recipe view) (moments : List Moment) :
    services.run moments site.uncached =
        ((services.run moments site).1, (services.run moments site).2.uncached) ∧
      (services.run moments site).2.Coherent recipe view := by
  induction moments generalizing site with
  | nil => exact ⟨rfl, coherent⟩
  | cons moment rest ih =>
      obtain ⟨same, coherent⟩ := live_uncached shows faithful coherent moment
      obtain ⟨sameRest, coherent⟩ := ih coherent
      refine ⟨?_, coherent⟩
      simp only [run, same, sameRest]

end Services

/-- A store in memory that others write to as well. -/
structure Contended where
  stored : Store
  /-- The writes of others that are still to come, each with the version it expects to replace: one
  batch before each use of the store. -/
  writes : List (List (Checkpoint × Nat))

namespace Contended

/-- Let the next batch of writes happen. -/
def settle (contended : Contended) : Contended :=
  match contended.writes with
  | [] => contended
  | batch :: later =>
    ⟨batch.foldl (fun store (cp, expected) => (store.save cp expected).2) contended.stored, later⟩

/-- The store in memory as the engine uses it while others write to it. -/
def store : CheckpointStore Contended where
  load id contended :=
    let contended := contended.settle
    (.ok (contended.stored.get? id), contended)
  save cp expected contended :=
    let contended := contended.settle
    let (outcome, stored) := contended.stored.save cp expected
    (.ok outcome, { contended with stored })

theorem settle_grows (contended : Contended) : contended.stored.Grows contended.settle.stored := by
  unfold settle
  split
  · exact .refl _
  next batch later _ =>
    have writes (batch : List (Checkpoint × Nat)) : ∀ stored : Store, stored.Grows
        (batch.foldl (fun store (cp, expected) => (store.save cp expected).2) stored) := by
      induction batch with
      | nil => exact .refl
      | cons write rest ih => exact fun stored => (Store.Grows.save stored _ _).trans (ih _)
    exact writes batch contended.stored

theorem shows : store.Shows stored where
  load _ contended := ⟨rfl, contended.settle_grows⟩
  save _ _ contended := ⟨contended.settle.stored, contended.settle_grows, rfl, rfl⟩

end Contended

/-- Keeping fibers in memory is transparent. Two sites that differ in their caches only, started over
an empty store to which others write as well, answer every event alike, store the same checkpoints
and publish the same records, whatever the capacity and the lifetime of the cache, whenever
identities go into maintenance, and whether or not the cache is attached to their provider. -/
theorem Services.run_eq_of_disabled {π : Type} (publisher : Publisher π) (recipe : Recipe σ)
    (faithful : ∀ number owner exec, recipe number owner = .ok exec → exec.serializer.Faithful)
    (capacity ttl : Nat) (world : σ) (published : π) (writes : List (List (Checkpoint × Nat)))
    (moments : List Moment) :
    let services : Services Contended π := ⟨Contended.store, publisher⟩
    let site (cache : FiberCache σ) : Site σ Contended π :=
      .launch recipe cache world ⟨{}, writes⟩ published
    let cached := services.run moments (site (.new capacity ttl))
    let uncached := services.run moments (site .disabled)
    cached.1 = uncached.1 ∧ cached.2.stored = uncached.2.stored ∧
      cached.2.published = uncached.2.published := by
  intro services site cached uncached
  have coherent : (site (.new capacity ttl)).Coherent recipe Contended.stored :=
    Site.launch_coherent recipe _ world _ _ published rfl rfl
  obtain ⟨same, _⟩ := services.run_uncached Contended.shows faithful coherent moments
  have same : uncached = (cached.1, cached.2.uncached) := same
  rw [same]
  exact ⟨rfl, rfl, rfl⟩

/-- An echo that is kept answers like one that is restored. -/
theorem Services.run_eq_of_disabled_echo :
    let services : Services Contended (List Record) := ⟨Contended.store, .collecting⟩
    let moments : List Moment := [.event Echo.settings Echo.begin,
      .event Echo.settings (Echo.say 1 (.data [104, 105]))]
    let run (cache : FiberCache Unit) :=
      services.run moments (.launch Echo.execution cache () ⟨{}, []⟩ [])
    (run (.new 1 1000)).1 = (run .disabled).1 ∧
      ((run .disabled).2.stored.stored.get? Echo.flow).map (·.status) = some .completed := by
  intro services moments run
  have faithful := FiberSerializer.json_faithful.of_serializes Echo.execution_serializer
  exact ⟨(Services.run_eq_of_disabled .collecting Echo.execution faithful 1 1000 () [] [] moments).1,
    by decide +kernel⟩

end DurableFlow
