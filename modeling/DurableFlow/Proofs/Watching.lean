import DurableFlow.Proofs.Calls

/-! # Sites of watched flows

At a site of watched flows every event adds the calls that it makes to those that were made before,
`Services.handle_hears`. That is proved for sites that keep no fibers, and holds of all others since
keeping fibers makes no difference.
-/

namespace DurableFlow

open Stateful

variable {σ π : Type} {recipe : Recipe σ} {may : Identity → Code σ → Prop} {serializer : FiberSerializer}

/-- Contexts of identities that have code which they may have, and which all write fibers in one way
that can be read back. -/
structure Recipe.Conforms (recipe : Recipe σ) (may : Identity → Code σ → Prop)
    (serializer : FiberSerializer) : Prop where
  gives : ∀ number owner exec, recipe number owner = .ok exec → may owner exec.code
  serializes : ∀ owner code, may owner code → code.serializer = serializer
  faithful : serializer.Faithful

theorem Recipe.watched_ok {number : Nat} {owner : Identity} {exec : ExecutionContext (σ × List Call)}
    (h : recipe.watched number owner = .ok exec) :
    ∃ plain, recipe number owner = .ok plain ∧ exec = plain.watched := by
  unfold Recipe.watched at h
  cases built : recipe number owner with
  | error reason =>
      rw [built] at h
      cases h
  | ok plain =>
      rw [built] at h
      cases h
      exact ⟨plain, rfl, rfl⟩

theorem Recipe.Conforms.watched_faithful (conforms : recipe.Conforms may serializer) :
    ∀ number owner exec, recipe.watched number owner = .ok exec → exec.serializer.Faithful := by
  intro number owner exec made
  obtain ⟨plain, given, rfl⟩ := Recipe.watched_ok made
  have same : plain.serializer = serializer :=
    conforms.serializes owner plain.code (conforms.gives number owner plain given)
  change plain.serializer.Faithful
  rw [same]
  exact conforms.faithful

namespace Site

/-- The calls that were made of the flows of a site. -/
def calls {τ : Type} (site : Site (σ × List Call) τ π) : List Call := site.host.world.2

/-- A site of watched flows that keeps no fibers, over a store of lawful checkpoints. -/
structure Bare (may : Identity → Code σ → Prop) (serializer : FiberSerializer)
    (site : Site (σ × List Call) Store π) : Prop where
  provides : site.host.Provides (Code.Watched may)
  keyed : site.stored.Keyed
  lawful : ∀ id cp, site.stored.get? id = some cp → cp.Lawful serializer

/-- A site of watched flows whose kept fibers fit what is stored. -/
structure Watched (recipe : Recipe σ) (may : Identity → Code σ → Prop) (serializer : FiberSerializer)
    (site : Site (σ × List Call) Store π) : Prop where
  coherent : site.Coherent recipe.watched id
  bare : site.uncached.Bare may serializer

theorem launch_watched (conforms : recipe.Conforms may serializer) (capacity ttl : Nat) (world : σ)
    (published : π) :
    (launch recipe.watched (.new capacity ttl) (world, []) {} published).Watched recipe may
      serializer := by
  refine ⟨launch_coherent _ _ _ _ _ _ rfl rfl, ⟨fun number owner exec made => ?_, ?_, rfl⟩, ?_, ?_⟩
  · obtain ⟨_, exec', built, registry, serializer⟩ := Recipe.factory_ok made
    obtain ⟨plain, given, rfl⟩ := Recipe.watched_ok built
    refine ⟨plain.code, conforms.gives number owner plain given, ?_⟩
    rw [ExecutionContext.code, registry, serializer]
    rfl
  · intro _ _ known
    cases known
  · intro _ _ found
    cases found
  · intro _ _ found
    cases found

end Site

/-- What becomes of an event at a site of watched flows, with the calls that it makes. -/
inductive Services.Hears (publisher : Publisher π) (may : Identity → Code σ → Prop)
    (settings : Settings) (event : Event) (before : Site (σ × List Call) Store π) :
    List Call → Except Stop ProcessingOutcome → Site (σ × List Call) Store π → Prop where
  | discarded {reason : Refusal} {after : Site (σ × List Call) Store π}
      (refuses : Plan.Refuses settings event (before.stored.get? event.flowId) reason)
      (stored : after.stored = before.stored) (published : after.published = before.published) :
      Hears publisher may settings event before [] (.ok (.discarded event.flowId reason)) after
  | broken {stop : Stop} {after : Site (σ × List Call) Store π}
      (stored : after.stored = before.stored) (published : after.published = before.published) :
      Hears publisher may settings event before [] (.error stop) after
  | stopped {prepared : Prepared} {calls : List Call} {left : Option Draft} {stop : Stop}
      {after : Site (σ × List Call) Store π}
      (live : ∀ cp, before.stored.get? event.flowId = some cp → cp.isTerminal = false)
      (prepares : Handler.prepare event.flowId event.payload settings.config settings.now
        (before.stored.get? event.flowId) = .ok prepared)
      (turns : prepared.Turns may settings calls left)
      (stored : after.stored = before.stored) (published : after.published = before.published) :
      Hears publisher may settings event before calls (.error stop) after
  | committed {prepared : Prepared} {calls : List Call} {draft : Draft}
      {result : Except Stop ProcessingOutcome} {after : Site (σ × List Call) Store π}
      (live : ∀ cp, before.stored.get? event.flowId = some cp → cp.isTerminal = false)
      (prepares : Handler.prepare event.flowId event.payload settings.config settings.now
        (before.stored.get? event.flowId) = .ok prepared)
      (turns : prepared.Turns may settings calls (some draft))
      (stored : after.stored = before.stored.insert event.flowId { draft.checkpoint with
        updatedAt := settings.now
        version := before.stored.version event.flowId + 1 })
      (published : after.published = if draft.records.isEmpty then before.published
        else (publisher.publish draft.records before.published).2) :
      Hears publisher may settings event before calls result after

namespace Services

theorem handle_bare (publisher : Publisher π) (conforms : recipe.Conforms may serializer)
    {site : Site (σ × List Call) Store π} (bare : site.Bare may serializer) (settings : Settings)
    (event : Event) :
    let run := (Services.handle ⟨Store.inMemory, publisher⟩ settings event).run.run site
    run.2.Bare may serializer ∧ ∃ calls, run.2.calls = site.calls ++ calls ∧
      Hears publisher may settings event site calls run.1 run.2 := by
  obtain ⟨provides, keyed, lawful⟩ := bare
  obtain ⟨calls, grew, hears⟩ :=
    Plan.ofEvent_hears conforms.faithful conforms.serializes provides settings event (lawful event.flowId)
  have provides := Plan.ofEvent_keeps (P := Host.Provides (Code.Watched may))
    (fun _ _ provides => ⟨provides.factory, provides.contexts, provides.cache⟩)
    (fun _ owner provides => (provides.acquire owner).1) provides.cache settings event
    (site.stored.get? event.flowId) provides
  simp only [run_handle, Store.inMemory_load]
  generalize (Plan.ofEvent settings event (site.stored.get? event.flowId)).run.run site.host = planned
    at grew hears provides
  obtain ⟨plan, host⟩ := planned
  cases hears with
  | refused refuses => exact ⟨⟨provides, keyed, lawful⟩, [], grew, .discarded refuses rfl rfl⟩
  | broken => exact ⟨⟨provides, keyed, lawful⟩, [], grew, .broken rfl rfl⟩
  | stopped live prepares turns =>
      exact ⟨⟨provides, keyed, lawful⟩, calls, grew, .stopped live prepares turns rfl rfl⟩
  | @planned prepared draft _ commit live prepares turns checkpoint records expected =>
      have prepared' := Handler.prepare_prepares prepares
      have flowId : commit.checkpoint.flowId = event.flowId := by
        rw [checkpoint]
        exact turns.sameFlow.flowId.trans (prepared'.flowId_eq (keyed _))
      -- What is written, said in terms of the store that the event met.
      let next : Checkpoint := { draft.checkpoint with
        updatedAt := settings.now
        version := site.stored.version event.flowId + 1 }
      have stored : site.stored.insert commit.checkpoint.flowId commit.written =
          site.stored.insert event.flowId next := by
        rw [flowId, Commit.written, checkpoint, expected]
        rfl
      have lawful' : next.Lawful serializer :=
        (turns.lawful conforms.faithful conforms.serializes (prepared'.proper (lawful event.flowId) live)).stamp _ _
      have keyed' : Store.Keyed (site.stored.insert event.flowId next) := by
        refine SortedMap.forall_get?_insert keyed ?_
        exact turns.sameFlow.flowId.trans (prepared'.flowId_eq (keyed _))
      have kept : ∀ id cp, (site.stored.insert event.flowId next).get? id = some cp →
          cp.Lawful serializer := SortedMap.forall_get?_insert lawful lawful'
      simp only [run_commit, Store.inMemory_save]
      by_cases admits : Store.admits site.stored commit.checkpoint.flowId commit.expected
      · simp only [Store.save, if_pos admits, run_publish]
        have bare : commit.settleCache (commit.expected + 1) settings.instant host.cache =
            .disabled := by
          rw [provides.cache, commit.settleCache_disabled]
        have settled (published : π) : Site.Bare may serializer
            ⟨{ host with
              cache := commit.settleCache (commit.expected + 1) settings.instant host.cache },
              site.stored.insert commit.checkpoint.flowId commit.written, published⟩ :=
          ⟨⟨provides.factory, provides.contexts, bare⟩, stored ▸ keyed', stored ▸ kept⟩
        by_cases empty : commit.records.isEmpty
        · simp only [if_pos empty]
          exact ⟨settled _, calls, grew,
            .committed live prepares turns stored (by rw [← records, if_pos empty])⟩
        · simp only [if_neg empty]
          exact ⟨settled _, calls, grew,
            .committed live prepares turns stored (by rw [← records, if_neg empty])⟩
      · simp only [Store.save, if_neg admits]
        exact ⟨⟨provides, keyed, lawful⟩, calls, grew, .stopped live prepares turns rfl rfl⟩

theorem live_bare (publisher : Publisher π) (conforms : recipe.Conforms may serializer)
    {site : Site (σ × List Call) Store π} (bare : site.Bare may serializer) (moment : Moment) :
    (Services.live ⟨Store.inMemory, publisher⟩ site moment).2.Bare may serializer := by
  cases moment with
  | event settings event => exact (handle_bare publisher conforms bare settings event).1
  | beginMaintenance owner attached =>
      have provides : Host.Provides (Code.Watched may) { site.host with
          environments := site.host.environments.beginMaintenance owner } :=
        ⟨bare.provides.factory, fun other exec known =>
          bare.provides.contexts other exec (SortedMap.get?_of_erase known), bare.provides.cache⟩
      have evicted : site.host.cache.evictOwner owner = .disabled := by
        rw [bare.provides.cache]
        rfl
      cases attached with
      | true => exact ⟨⟨provides.factory, provides.contexts, evicted⟩, bare.keyed, bare.lawful⟩
      | false => exact ⟨provides, bare.keyed, bare.lawful⟩
  | endMaintenance owner =>
      exact ⟨⟨bare.provides.factory, bare.provides.contexts, bare.provides.cache⟩, bare.keyed,
        bare.lawful⟩

theorem live_watched (publisher : Publisher π) (conforms : recipe.Conforms may serializer)
    {site : Site (σ × List Call) Store π} (watched : site.Watched recipe may serializer)
    (moment : Moment) :
    (Services.live ⟨Store.inMemory, publisher⟩ site moment).2.Watched recipe may serializer := by
  let services : Services Store π := ⟨Store.inMemory, publisher⟩
  have shows : services.store.Shows id := Store.inMemory_shows
  obtain ⟨same, coherent⟩ := live_uncached shows conforms.watched_faithful watched.coherent moment
  have bare := live_bare publisher conforms watched.bare moment
  rw [same] at bare
  exact ⟨coherent, bare⟩

theorem run_watched (publisher : Publisher π) (conforms : recipe.Conforms may serializer)
    {site : Site (σ × List Call) Store π} (watched : site.Watched recipe may serializer)
    (moments : List Moment) :
    (Services.run ⟨Store.inMemory, publisher⟩ moments site).2.Watched recipe may serializer := by
  induction moments generalizing site with
  | nil => exact watched
  | cons moment rest ih => exact ih (live_watched publisher conforms watched moment)

/-- Handling an event at a site of watched flows adds the calls it makes to those that were made. -/
theorem handle_hears (publisher : Publisher π) (conforms : recipe.Conforms may serializer)
    {site : Site (σ × List Call) Store π} (watched : site.Watched recipe may serializer)
    (settings : Settings) (event : Event) :
    let run := (Services.handle ⟨Store.inMemory, publisher⟩ settings event).run.run site
    ∃ calls, run.2.calls = site.calls ++ calls ∧
      Hears publisher may settings event site calls run.1 run.2 := by
  let services : Services Store π := ⟨Store.inMemory, publisher⟩
  have shows : services.store.Shows id := Store.inMemory_shows
  obtain ⟨same, _⟩ := handle_uncached shows conforms.watched_faithful watched.coherent settings event
  obtain ⟨_, calls, grew, hears⟩ := handle_bare publisher conforms watched.bare settings event
  rw [same] at grew hears
  refine ⟨calls, grew, ?_⟩
  generalize (Services.handle ⟨Store.inMemory, publisher⟩ settings event).run.run site = run at hears
  obtain ⟨result, after⟩ := run
  -- Neither what is stored nor what is published depends on the kept fibers.
  cases hears with
  | discarded refuses stored published => exact .discarded refuses stored published
  | broken stored published => exact .broken stored published
  | stopped live prepares turns stored published => exact .stopped live prepares turns stored published
  | committed live prepares turns stored published => exact .committed live prepares turns stored published

theorem run_one {τ : Type} (services : Services τ π) (moment : Moment) (site : Site σ τ π) :
    (services.run [moment] site).2 = (services.live site moment).2 := rfl

theorem live_grows (publisher : Publisher π) (conforms : recipe.Conforms may serializer)
    {site : Site (σ × List Call) Store π} (watched : site.Watched recipe may serializer)
    (settings : Settings) (event : Event) {count : Nat}
    (counted : (Services.live ⟨Store.inMemory, publisher⟩ site (.event settings event)).2.calls.length =
      site.calls.length + count) :
    ∃ calls, calls.length = count ∧
      (Services.live ⟨Store.inMemory, publisher⟩ site (.event settings event)).2.calls =
        site.calls ++ calls := by
  obtain ⟨calls, grew, _⟩ := handle_hears publisher conforms watched settings event
  refine ⟨calls, ?_, grew⟩
  have added : (Services.live ⟨Store.inMemory, publisher⟩ site (.event settings event)).2.calls.length =
      (site.calls ++ calls).length := congrArg List.length grew
  rw [counted, List.length_append] at added
  exact (Nat.add_left_cancel added).symm

end Services

end DurableFlow
