import DurableFlow.Dispatcher
import DurableFlow.Proofs.Runs

/-! # The life of a site

A site handles one event after another, and in between identities go into maintenance and come back.
What happens is a list of `Moment`s. Contexts are built by a `Recipe`, and no two that were built are
the same one.
-/

namespace DurableFlow

open Stateful

/-- The checkpoint of a commit as it is stored. -/
def Commit.written {σ : Type} (commit : Commit σ) : Checkpoint :=
  { commit.checkpoint with version := commit.expected + 1 }

/-- What the contexts of identities consist of, which may change from one build to the next. -/
abbrev Recipe (σ : Type) := Nat → Identity → Except String (ExecutionContext σ)

/-- How contexts are built by a recipe: the number of the build tells them apart. -/
def Recipe.factory {σ : Type} (recipe : Recipe σ) : Recipe σ :=
  fun number owner => (recipe number owner).map fun exec => { exec with serial := number }

/-- Something that happens at a site. -/
inductive Moment where
  | event (settings : Settings) (event : Event)
  /-- An identity goes into maintenance; its kept fibers go too if the provider has the cache
  attached. -/
  | beginMaintenance (owner : Identity) (attached : Bool)
  | endMaintenance (owner : Identity)

namespace Services

variable {σ τ π : Type} (services : Services τ π)

/-- Live through a moment; the result is that of the event, if it is one. -/
def live (site : Site σ τ π) : Moment → Option (Except Stop ProcessingOutcome) × Site σ τ π
  | .event settings event =>
    let (result, site) := (services.handle settings event).run.run site
    (some result, site)
  | .beginMaintenance owner true => (none, { site with host := site.host.beginMaintenance owner })
  | .beginMaintenance owner false =>
    (none, { site with host := { site.host with
      environments := site.host.environments.beginMaintenance owner } })
  | .endMaintenance owner => (none, { site with host := site.host.endMaintenance owner })

/-- Live through one moment after another. -/
def run : List Moment → Site σ τ π → List (Option (Except Stop ProcessingOutcome)) × Site σ τ π
  | [], site => ([], site)
  | moment :: rest, site =>
    let (result, site) := services.live site moment
    let (results, site) := run rest site
    (result :: results, site)

theorem run_load (id : FlowId) (site : Site σ τ π) :
    (services.load id).run.run site =
      ((services.store.load id site.stored).1.mapError fun error => .error (.store error),
        { site with stored := (services.store.load id site.stored).2 }) := rfl

theorem run_onHost {α : Type} (c : Hosted σ α) (site : Site σ τ π) :
    (onHost c : Sited σ τ π α).run.run site =
      ((c.run.run site.host).1, { site with host := (c.run.run site.host).2 }) := rfl

theorem run_save (cp : Checkpoint) (expected : Nat) (site : Site σ τ π) :
    (services.save cp expected).run.run site =
      ((services.store.save cp expected site.stored).1.mapError fun error => .error (.store error),
        { site with stored := (services.store.save cp expected site.stored).2 }) := rfl

theorem run_publish (id : FlowId) (records : List Record) (site : Site σ τ π) :
    (services.publish id records).run.run site =
      if records.isEmpty then (.ok (), site)
      else ((services.publisher.publish records site.published).1.mapError
          fun error => .error (.publish id error),
        { site with published := (services.publisher.publish records site.published).2 }) := by
  unfold publish
  split <;> rfl

theorem publish_keeps (id : FlowId) (records : List Record) (site : Site σ τ π) :
    ((services.publish id records).run.run site).2.host = site.host ∧
      ((services.publish id records).run.run site).2.stored = site.stored := by
  rw [run_publish]
  split <;> exact ⟨rfl, rfl⟩

theorem run_commit (settings : Settings) (id : FlowId) (commit : Commit σ) (site : Site σ τ π) :
    (services.commit settings id commit).run.run site =
      match services.store.save commit.checkpoint commit.expected site.stored with
      | (.error error, stored) => (.error (.error (.store error)), { site with stored })
      | (.ok (.conflict current), stored) =>
        (.error (.error (.conflict id commit.expected current)), { site with stored })
      | (.ok (.saved version), stored) =>
        let published := (services.publish id commit.records).run.run { site with
          host := { site.host with
            cache := commit.settleCache version settings.instant site.host.cache }
          stored }
        (published.1.map fun _ => .committed id version commit.checkpoint.status, published.2) := by
  unfold Services.commit
  rw [run_bind, run_save]
  rcases services.store.save commit.checkpoint commit.expected site.stored with
    ⟨_ | version | current, stored⟩
  · rfl
  · simp only [mapError_ok]
    rw [run_bind, run_modify]
    simp only
    rw [run_bind]
    rcases (services.publish id commit.records).run.run { site with
      host := { site.host with
        cache := commit.settleCache version settings.instant site.host.cache }
      stored } with ⟨_ | _, _⟩ <;> rfl
  · rfl

theorem run_handle (settings : Settings) (event : Event) (site : Site σ τ π) :
    (services.handle settings event).run.run site =
      match services.store.load event.flowId site.stored with
      | (.error error, stored) => (.error (.error (.store error)), { site with stored })
      | (.ok loaded, stored) =>
        match (Plan.ofEvent settings event loaded).run.run site.host with
        | (.error stop, host) => (.error stop, { site with host, stored })
        | (.ok (.discard reason), host) =>
          (.ok (.discarded event.flowId reason), { site with host, stored })
        | (.ok (.commit commit), host) =>
          (services.commit settings event.flowId commit).run.run { site with host, stored } := by
  unfold Services.handle
  rw [run_bind, run_load]
  rcases services.store.load event.flowId site.stored with ⟨_ | loaded, stored⟩
  · rfl
  · simp only [mapError_ok]
    rw [run_bind, run_onHost]
    simp only
    rcases (Plan.ofEvent settings event loaded).run.run site.host with ⟨_ | _ | _, host⟩ <;> rfl

end Services

theorem Store.inMemory_load (id : FlowId) (store : Store) :
    Store.inMemory.load id store = (.ok (store.get? id), store) := rfl

theorem Store.inMemory_save (cp : Checkpoint) (expected : Nat) (store : Store) :
    Store.inMemory.save cp expected store =
      (.ok (store.save cp expected).1, (store.save cp expected).2) := rfl

/-- A store in which every checkpoint is that of the flow it is stored for. -/
def Store.Keyed (store : Store) : Prop := ∀ id, Checkpoint.IsOf (store.get? id) id

/-- What conditional writes do to a store: no checkpoint is lost, and one that is replaced is
replaced by a newer one. -/
structure Store.Grows (before after : Store) : Prop where
  kept : ∀ id cp, before.get? id = some cp → ∃ newer, after.get? id = some newer ∧
    (newer = cp ∨ cp.version < newer.version)
  keyed : before.Keyed → after.Keyed

namespace Store.Grows

theorem refl (store : Store) : store.Grows store :=
  ⟨fun _ cp found => ⟨cp, found, .inl rfl⟩, fun keyed => keyed⟩

theorem trans {a b c : Store} (ab : a.Grows b) (bc : b.Grows c) : a.Grows c where
  keyed keyed := bc.keyed (ab.keyed keyed)
  kept id cp found := by
    obtain ⟨newer, foundNewer, order⟩ := ab.kept id cp found
    obtain ⟨newest, foundNewest, order'⟩ := bc.kept id newer foundNewer
    refine ⟨newest, foundNewest, ?_⟩
    rcases order with rfl | older
    · exact order'
    · rcases order' with rfl | older'
      · exact .inr older
      · exact .inr (Nat.lt_trans older older')

/-- A conditional write replaces a checkpoint by a newer one, if it changes anything. -/
theorem save (store : Store) (cp : Checkpoint) (expected : Nat) :
    store.Grows (store.save cp expected).2 where
  kept id old found := by
    unfold Store.save
    split
    next admitted =>
      by_cases same : id = cp.flowId
      · subst same
        refine ⟨_, SortedMap.get?_insert_self .., .inr ?_⟩
        simp only [admits, found, Bool.and_eq_true, decide_eq_true_eq] at admitted
        simp only [admitted.1]
        exact Nat.lt_succ_self _
      · exact ⟨old, by simp only [SortedMap.get?_insert_of_ne _ _ same, found], .inl rfl⟩
    next => exact ⟨old, found, .inl rfl⟩
  keyed keyed id current found := by
    unfold Store.save at found
    split at found
    next =>
      by_cases same : id = cp.flowId
      · subst same
        simp only [SortedMap.get?_insert_self] at found
        cases found
        rfl
      · simp only [SortedMap.get?_insert_of_ne _ _ same] at found
        exact keyed id current found
    next => exact keyed id current found

end Store.Grows

/-- A store that behaves as one in memory to which others write too: `view` shows what it holds. -/
structure CheckpointStore.Shows {τ : Type} (store : CheckpointStore τ) (view : τ → Store) : Prop where
  load : ∀ id state, (store.load id state).1 = .ok ((view (store.load id state).2).get? id) ∧
    (view state).Grows (view (store.load id state).2)
  save : ∀ cp expected state, ∃ found : Store, (view state).Grows found ∧
    (store.save cp expected state).1 = .ok (found.save cp expected).1 ∧
    view (store.save cp expected state).2 = (found.save cp expected).2

theorem Store.inMemory_shows : Store.inMemory.Shows id where
  load _ state := ⟨rfl, .refl state⟩
  save _ _ state := ⟨state, .refl state, rfl, rfl⟩

end DurableFlow
