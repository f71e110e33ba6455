import DurableFlow.Proofs.Sites

/-! # Contexts in use

A host knows contexts in two places: those its environments keep, and those its kept fibers ran in.
All of them were built by the recipe, in different builds unless they are the same, so a serial
number stands for a context: `Host.Orderly`.
-/

namespace DurableFlow

open Stateful

variable {σ : Type}

namespace Recipe

variable {recipe : Recipe σ} {number : Nat} {owner : Identity} {exec : ExecutionContext σ}

theorem factory_ok (h : recipe.factory number owner = .ok exec) :
    exec.serial = number ∧ ∃ plain, recipe number owner = .ok plain ∧
      exec.registry = plain.registry ∧ exec.serializer = plain.serializer := by
  unfold factory at h
  cases made : recipe number owner with
  | error reason =>
      rw [made] at h
      cases h
  | ok plain =>
      rw [made] at h
      cases h
      exact ⟨rfl, plain, rfl, rfl, rfl⟩

end Recipe

namespace Environments

theorem acquire_cases (envs : Environments σ) (owner : Identity) :
    (∃ error, envs.acquire owner = (.error error, envs)) ∨
      (∃ exec, envs.contexts.get? owner = some exec ∧ envs.acquire owner = (.ok exec, envs)) ∨
      (∃ error, envs.acquire owner = (.error error, { envs with built := envs.built + 1 })) ∨
      ∃ exec, envs.factory envs.built owner = .ok exec ∧ envs.acquire owner = (.ok exec,
        { envs with
          built := envs.built + 1
          contexts := envs.contexts.insert owner exec }) := by
  unfold acquire acquireDuring
  cases valid : envs.validate owner with
  | error error => exact .inl ⟨error, rfl⟩
  | ok _ =>
      cases kept : envs.contexts.get? owner with
      | some exec => exact .inr (.inl ⟨exec, rfl, rfl⟩)
      | none =>
          cases made : envs.factory envs.built owner with
          | error reason =>
              exact .inr (.inr (.inl ⟨.construction owner reason, by simp [build, made]⟩))
          | ok exec =>
              have still : validate { envs with built := envs.built + 1 } owner = .ok () := valid
              refine .inr (.inr (.inr ⟨exec, rfl, ?_⟩))
              simp [build, made, keep, still, kept]

end Environments

namespace Host

/-- A context that an identity has or that a kept fiber ran in. -/
inductive InUse (host : Host σ) (exec : ExecutionContext σ) : Prop where
  | environment (owner : Identity) (known : host.environments.contexts.get? owner = some exec)
  | fiber (id : FlowId) (entry : CacheEntry σ) (kept : host.cache.entries.get? id = some entry)
      (same : entry.exec = exec)

/-- Every context in use comes from the recipe, and its serial number is its own. -/
structure Orderly (recipe : Recipe σ) (host : Host σ) : Prop where
  factory : host.environments.factory = recipe.factory
  made : ∀ exec, host.InUse exec → ∃ owner, recipe.factory exec.serial owner = .ok exec
  built : ∀ exec, host.InUse exec → exec.serial < host.environments.built
  distinct : ∀ a b, host.InUse a → host.InUse b → a.serial = b.serial → a = b

namespace Orderly

variable {recipe : Recipe σ} {host after : Host σ}

theorem new (recipe : Recipe σ) (cache : FiberCache σ) (empty : cache.entries = {}) (world : σ) :
    Orderly recipe ⟨.new recipe.factory, cache, world⟩ := by
  have unused : ∀ exec, ¬ InUse ⟨.new recipe.factory, cache, world⟩ exec := by
    rintro exec (⟨owner, known⟩ | ⟨id, entry, kept, _⟩)
    · cases known
    · simp only [empty] at kept
      cases kept
  exact ⟨rfl, fun exec used => absurd used (unused exec), fun exec used => absurd used (unused exec),
    fun a _ used => absurd used (unused a)⟩

theorem serializer {P : FiberSerializer → Prop} (orderly : host.Orderly recipe)
    (serializes : ∀ number owner exec, recipe number owner = .ok exec → P exec.serializer)
    {exec : ExecutionContext σ} (used : host.InUse exec) : P exec.serializer := by
  obtain ⟨owner, made⟩ := orderly.made exec used
  obtain ⟨_, plain, known, _, same⟩ := Recipe.factory_ok made
  rw [same]
  exact serializes _ _ _ known

theorem of_subset (orderly : host.Orderly recipe)
    (factory : after.environments.factory = host.environments.factory)
    (built : host.environments.built ≤ after.environments.built)
    (subset : ∀ exec, after.InUse exec → host.InUse exec) : after.Orderly recipe where
  factory := factory.trans orderly.factory
  made exec used := orderly.made exec (subset exec used)
  built exec used := Nat.lt_of_lt_of_le (orderly.built exec (subset exec used)) built
  distinct a b usedA usedB := orderly.distinct a b (subset a usedA) (subset b usedB)

theorem of_build (orderly : host.Orderly recipe) {owner : Identity} {exec : ExecutionContext σ}
    (made : host.environments.factory host.environments.built owner = .ok exec)
    (factory : after.environments.factory = host.environments.factory)
    (built : after.environments.built = host.environments.built + 1)
    (subset : ∀ other, after.InUse other → host.InUse other ∨ other = exec) :
    after.Orderly recipe := by
  rw [orderly.factory] at made
  have serial := (Recipe.factory_ok made).1
  have fresh {other : ExecutionContext σ} (used : host.InUse other) : other.serial ≠ exec.serial := by
    have := orderly.built other used
    omega
  refine ⟨factory.trans orderly.factory, ?_, ?_, ?_⟩
  · intro other used
    rcases subset other used with old | rfl
    · exact orderly.made other old
    · exact ⟨owner, serial ▸ made⟩
  · intro other used
    rcases subset other used with old | rfl
    · have := orderly.built other old
      omega
    · omega
  · intro a b usedA usedB same
    rcases subset a usedA with oldA | rfl
    · rcases subset b usedB with oldB | rfl
      · exact orderly.distinct a b oldA oldB same
      · exact absurd same (fresh oldA)
    · rcases subset b usedB with oldB | rfl
      · exact absurd same.symm (fresh oldB)
      · rfl

/-- Asking for a context leaves a host orderly, and the identity has the context that it got. -/
theorem acquire (orderly : host.Orderly recipe) (owner : Identity) :
    Orderly recipe { host with environments := (host.environments.acquire owner).2 } ∧
      ∀ exec, (host.environments.acquire owner).1 = .ok exec →
        (host.environments.acquire owner).2.contexts.get? owner = some exec := by
  rcases host.environments.acquire_cases owner with
    ⟨_, same⟩ | ⟨exec, known, same⟩ | ⟨_, same⟩ | ⟨exec, made, same⟩
  all_goals rw [same]
  · exact ⟨orderly, fun _ h => by cases h⟩
  · refine ⟨orderly, fun _ h => ?_⟩
    cases h
    exact known
  · refine ⟨orderly.of_subset rfl (Nat.le_succ _) fun _ used => ?_, fun _ h => by cases h⟩
    rcases used with ⟨owner, known⟩ | ⟨id, entry, kept, same⟩
    · exact .environment owner known
    · exact .fiber id entry kept same
  · refine ⟨orderly.of_build made rfl rfl fun other used => ?_, fun _ h => ?_⟩
    · rcases used with ⟨another, known⟩ | ⟨id, entry, kept, same⟩
      · by_cases here : another = owner
        · subst here
          rw [SortedMap.get?_insert_self] at known
          cases known
          exact .inr rfl
        · rw [SortedMap.get?_insert_of_ne _ _ here] at known
          exact .inl (.environment another known)
      · exact .inl (.fiber id entry kept same)
    · cases h
      exact SortedMap.get?_insert_self ..

theorem acquired (orderly : host.Orderly recipe) {owner : Identity} {exec : ExecutionContext σ}
    {environments : Environments σ}
    (h : host.environments.acquire owner = (.ok exec, environments)) :
    environments.contexts.get? owner = some exec := by
  have known := (orderly.acquire owner).2 exec (congrArg Prod.fst h)
  rw [h] at known
  exact known

end Orderly

/-- The context that an identity has on a host. -/
def Gives (host : Host σ) (owner : Identity) (exec : ExecutionContext σ) : Prop :=
  host.environments.contexts.get? owner = some exec

end Host

end DurableFlow
