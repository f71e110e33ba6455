import DurableFlow.Proofs.Contexts
import DurableFlow.Samples.Echo

/-! # Maintenance while contexts are built

Any number of calls for contexts are under way at a time, and maintenance begins and ends between their
steps. A call looks whether its owner is in maintenance before it looks for a kept context, and again
when it has built one, so it cannot tell if maintenance has begun and ended meanwhile. A context that
is built all through a maintenance is therefore kept afterwards, and handed out. No other context
outlives the maintenance of its owner: `Workshop.Guarded`.
-/

namespace DurableFlow

variable {σ : Type}

namespace Environments

/-- The first half of what begins maintenance: it is seen by whoever looks. -/
def mark (envs : Environments σ) (owner : Identity) : Environments σ :=
  { envs with maintenance := envs.maintenance.insert owner () }

/-- The second half: no context is kept. -/
def drop (envs : Environments σ) (owner : Identity) : Environments σ :=
  { envs with contexts := envs.contexts.erase owner }

example (envs : Environments σ) (owner : Identity) :
    envs.beginMaintenance owner = (envs.mark owner).drop owner := rfl

end Environments

/-- How far a call for the context of an identity has come. -/
inductive CallProgress (σ : Type) where
  /-- The identity is not in maintenance. -/
  | admitted
  /-- No context is kept. -/
  | missed
  /-- A context is being built, with this result in the end. -/
  | building (result : Except EnvironmentError (ExecutionContext σ))
  | ended (result : Except EnvironmentError (ExecutionContext σ))

namespace CallProgress

/-- A call begins with a look whether the identity is in maintenance. -/
def begin (envs : Environments σ) (owner : Identity) : CallProgress σ :=
  match envs.validate owner with
  | .error error => .ended (.error error)
  | .ok () => .admitted

/-- The next step of a call, and the environments after it. -/
def step (envs : Environments σ) (owner : Identity) : CallProgress σ → CallProgress σ × Environments σ
  | .admitted =>
    match envs.contexts.get? owner with
    | some kept => (.ended (.ok kept), envs)
    | none => (.missed, envs)
  | .missed => (.building (envs.build owner).1, (envs.build owner).2)
  | .building (.error error) => (.ended (.error error), envs)
  | .building (.ok exec) => (.ended (envs.keep owner exec).1, (envs.keep owner exec).2)
  | .ended result => (.ended result, envs)

variable {envs after : Environments σ} {owner : Identity} {source target : CallProgress σ}
  {exec : ExecutionContext σ}

theorem begin_of_maintenance (maintained : envs.maintenance.contains owner) :
    begin envs owner = .ended (.error (.inMaintenance owner)) := by
  simp [begin, Environments.validate, maintained]

theorem begin_cases (envs : Environments σ) (owner : Identity) :
    begin envs owner = .admitted ∨ ∃ error, begin envs owner = .ended (.error error) := by
  unfold begin
  cases envs.validate owner with
  | error error => exact .inr ⟨error, rfl⟩
  | ok _ => exact .inl rfl

/-- The steps that a call can take. -/
inductive Steps (envs : Environments σ) (owner : Identity) :
    CallProgress σ → CallProgress σ → Environments σ → Prop where
  | found {exec : ExecutionContext σ} (kept : envs.contexts.get? owner = some exec) :
      Steps envs owner .admitted (.ended (.ok exec)) envs
  | missed : Steps envs owner .admitted .missed envs
  | begun : Steps envs owner .missed (.building (envs.build owner).1) (envs.build owner).2
  | failed (error : EnvironmentError) :
      Steps envs owner (.building (.error error)) (.ended (.error error)) envs
  /-- Maintenance has begun while the context was built. -/
  | refused (exec : ExecutionContext σ) :
      Steps envs owner (.building (.ok exec)) (.ended (.error (.inMaintenance owner))) envs
  /-- Another call has been faster. -/
  | overtaken {kept : ExecutionContext σ} (exec : ExecutionContext σ)
      (known : envs.contexts.get? owner = some kept) :
      Steps envs owner (.building (.ok exec)) (.ended (.ok kept)) envs
  | added {exec : ExecutionContext σ} (free : envs.maintenance.contains owner = false) :
      Steps envs owner (.building (.ok exec)) (.ended (.ok exec))
        { envs with contexts := envs.contexts.insert owner exec }
  | stays (result : Except EnvironmentError (ExecutionContext σ)) :
      Steps envs owner (.ended result) (.ended result) envs

theorem step_steps (envs : Environments σ) (owner : Identity) (call : CallProgress σ) :
    Steps envs owner call (call.step envs owner).1 (call.step envs owner).2 := by
  cases call with
  | admitted =>
      unfold step
      cases kept : envs.contexts.get? owner with
      | none => exact .missed
      | some exec => exact .found kept
  | missed => exact .begun
  | building result =>
      cases result with
      | error error => exact .failed error
      | ok exec =>
          simp only [step, Environments.keep, Environments.validate]
          cases maintained : envs.maintenance.contains owner with
          | true => exact .refused exec
          | false =>
              cases known : envs.contexts.get? owner with
              | some kept => exact .overtaken exec known
              | none => exact .added maintained
  | ended result => exact .stays result

namespace Steps

theorem factory (steps : Steps envs owner source target after) : after.factory = envs.factory := by
  cases steps <;> rfl

theorem built_le (steps : Steps envs owner source target after) : envs.built ≤ after.built := by
  cases steps with
  | begun => exact Nat.le_succ _
  | _ => exact Nat.le_refl _

theorem maintenance (steps : Steps envs owner source target after) :
    after.maintenance = envs.maintenance := by
  cases steps <;> rfl

theorem kept (steps : Steps envs owner source target after) {other : Identity}
    (known : after.contexts.get? other = some exec) : envs.contexts.get? other = some exec ∨
      other = owner ∧ source = .building (.ok exec) ∧ envs.maintenance.contains owner = false := by
  cases steps with
  | added free =>
      by_cases same : other = owner
      · subst same
        rw [SortedMap.get?_insert_self] at known
        cases known
        exact .inr ⟨rfl, rfl, free⟩
      · rw [SortedMap.get?_insert_of_ne _ _ same] at known
        exact .inl known
  | _ => exact .inl known

theorem building (steps : Steps envs owner source (.building (.ok exec)) after) :
    envs.factory envs.built owner = .ok exec := by
  generalize same : CallProgress.building (.ok exec) = target at steps
  cases steps with
  | begun =>
      have made := CallProgress.building.inj same
      simp only [Environments.build] at made
      cases result : envs.factory envs.built owner with
      | error reason => simp [result, Except.mapError] at made
      | ok other =>
          rw [result] at made
          cases made
          rfl
  | _ => cases same

theorem ended (steps : Steps envs owner source (.ended (.ok exec)) after) :
    envs.contexts.get? owner = some exec ∨ source = .building (.ok exec) ∨
      source = .ended (.ok exec) := by
  cases steps with
  | found known | overtaken _ known => exact .inl known
  | added => exact .inr (.inl rfl)
  | stays => exact .inr (.inr rfl)

end Steps

end CallProgress

/-- A call for the context of an identity. -/
structure ContextCall (σ : Type) where
  owner : Identity
  progress : CallProgress σ

/-- Environments, and the calls for contexts so far in the order in which they began. -/
structure Workshop (σ : Type) where
  environments : Environments σ
  calls : List (ContextCall σ)

namespace Workshop

inductive Move where
  | call (owner : Identity)
  /-- The call at a place takes its next step. -/
  | advance (place : Nat)
  | mark (owner : Identity)
  | drop (owner : Identity)
  | endMaintenance (owner : Identity)
  deriving DecidableEq

def next (shop : Workshop σ) : Move → Workshop σ
  | .call owner =>
    { shop with calls := shop.calls ++ [⟨owner, .begin shop.environments owner⟩] }
  | .advance place =>
    match shop.calls[place]? with
    | none => shop
    | some ⟨owner, progress⟩ =>
      let (progress, environments) := progress.step shop.environments owner
      ⟨environments, shop.calls.set place ⟨owner, progress⟩⟩
  | .mark owner => { shop with environments := shop.environments.mark owner }
  | .drop owner => { shop with environments := shop.environments.drop owner }
  | .endMaintenance owner => { shop with environments := shop.environments.endMaintenance owner }

def run (shop : Workshop σ) (moves : List Move) : Workshop σ := moves.foldl next shop

/-- What some moves come to in a workshop that has never been used. -/
def after (recipe : Recipe σ) (moves : List Move) : Workshop σ :=
  run ⟨.new recipe.factory, []⟩ moves

variable {shop start ready target : Workshop σ} {move : Move} {moves : List Move} {owner : Identity}
  {place : Nat} {exec : ExecutionContext σ} {recipe : Recipe σ}

theorem run_append (shop : Workshop σ) (first second : List Move) :
    shop.run (first ++ second) = (shop.run first).run second := List.foldl_append ..

theorem run_cons (shop : Workshop σ) (move : Move) (moves : List Move) :
    shop.run (move :: moves) = (shop.next move).run moves := rfl

theorem after_append (recipe : Recipe σ) (first second : List Move) :
    after recipe (first ++ second) = (after recipe first).run second := run_append ..

/-- A call whose steps nothing interrupts. -/
theorem run_acquire (shop : Workshop σ) (owner : Identity) :
    shop.run [.call owner, .advance shop.calls.length, .advance shop.calls.length,
        .advance shop.calls.length] =
      ⟨(shop.environments.acquire owner).2,
        shop.calls ++ [⟨owner, .ended (shop.environments.acquire owner).1⟩]⟩ := by
  unfold Environments.acquire Environments.acquireDuring
  simp only [run, List.foldl_cons, List.foldl_nil, next, CallProgress.begin]
  cases shop.environments.validate owner with
  | error error => simp [CallProgress.step]
  | ok _ =>
      cases kept : shop.environments.contexts.get? owner with
      | some exec => simp [CallProgress.step, kept]
      | none =>
          rcases made : shop.environments.build owner with ⟨error | exec, envs⟩
          all_goals simp [CallProgress.step, kept, made]

/-- What a move leads to. -/
inductive Effect (shop : Workshop σ) : Move → Workshop σ → Prop where
  | call (owner : Identity) : Effect shop (.call owner)
      ⟨shop.environments, shop.calls ++ [⟨owner, .begin shop.environments owner⟩]⟩
  | idle (place : Nat) : Effect shop (.advance place) shop
  | step {place : Nat} {owner : Identity} {before after : CallProgress σ} {envs : Environments σ}
      (here : shop.calls[place]? = some ⟨owner, before⟩)
      (steps : before.Steps shop.environments owner after envs) :
      Effect shop (.advance place) ⟨envs, shop.calls.set place ⟨owner, after⟩⟩
  | mark (owner : Identity) : Effect shop (.mark owner) ⟨shop.environments.mark owner, shop.calls⟩
  | drop (owner : Identity) : Effect shop (.drop owner) ⟨shop.environments.drop owner, shop.calls⟩
  | endMaintenance (owner : Identity) : Effect shop (.endMaintenance owner)
      ⟨shop.environments.endMaintenance owner, shop.calls⟩

theorem effect_next (shop : Workshop σ) (move : Move) : Effect shop move (shop.next move) := by
  cases move with
  | call owner => exact .call owner
  | advance place =>
      rw [next]
      cases here : shop.calls[place]? with
      | none => exact .idle place
      | some call => exact .step here (call.progress.step_steps shop.environments call.owner)
  | mark owner => exact .mark owner
  | drop owner => exact .drop owner
  | endMaintenance owner => exact .endMaintenance owner

namespace Effect

theorem factory (effect : Effect shop move target) :
    target.environments.factory = shop.environments.factory := by
  cases effect with
  | step here steps => exact steps.factory
  | _ => rfl

theorem built_le (effect : Effect shop move target) :
    shop.environments.built ≤ target.environments.built := by
  cases effect with
  | step here steps => exact steps.built_le
  | _ => exact Nat.le_refl _

theorem calls_le (effect : Effect shop move target) : shop.calls.length ≤ target.calls.length := by
  cases effect <;> simp

theorem maintained (effect : Effect shop move target) (lasts : move ≠ .endMaintenance owner)
    (maintained : shop.environments.maintenance.contains owner) :
    target.environments.maintenance.contains owner := by
  cases effect with
  | call | idle | drop => exact maintained
  | step here steps =>
      rw [steps.maintenance]
      exact maintained
  | mark other =>
      change (shop.environments.maintenance.insert other ()).contains owner
      rw [SortedMap.contains_insert, maintained, Bool.or_true]
  | endMaintenance other =>
      have others : owner ≠ other := fun same => lasts (same ▸ rfl)
      change (shop.environments.maintenance.erase other).contains owner
      rw [SortedMap.contains, SortedMap.get?_erase_of_ne _ others]
      exact maintained

theorem kept (effect : Effect shop move target)
    (known : target.environments.contexts.get? owner = some exec) :
    shop.environments.contexts.get? owner = some exec ∨
      shop.environments.maintenance.contains owner = false ∧
        ∃ place : Nat, shop.calls[place]? = some ⟨owner, .building (.ok exec)⟩ := by
  cases effect with
  | call | idle | mark | endMaintenance => exact .inl known
  | step here steps =>
      rcases steps.kept known with before | ⟨rfl, rfl, free⟩
      · exact .inl before
      · exact .inr ⟨free, _, here⟩
  | drop other => exact .inl (SortedMap.get?_of_erase known)

theorem standing {progress : CallProgress σ} (effect : Effect shop move target)
    (here : target.calls[place]? = some ⟨owner, progress⟩) :
    shop.calls[place]? = some ⟨owner, progress⟩ ∨
      (∃ before, shop.calls[place]? = some ⟨owner, before⟩ ∧
        before.Steps shop.environments owner progress target.environments) ∨
      place = shop.calls.length ∧ progress = .begin shop.environments owner := by
  cases effect with
  | idle | mark | drop | endMaintenance => exact .inl here
  | call other =>
      rw [List.getElem?_append] at here
      split at here
      · exact .inl here
      · obtain ⟨last, same⟩ := List.getElem?_eq_some_iff.1 here
        rw [List.getElem_singleton] at same
        cases same
        rw [List.length_singleton] at last
        exact .inr (.inr ⟨by omega, rfl⟩)
  | @step other _ before after _ stands steps =>
      by_cases same : other = place
      · subst same
        rw [List.getElem?_set_self (List.getElem?_eq_some_iff.1 stands).1] at here
        cases here
        exact .inr (.inl ⟨before, stands, steps⟩)
      · rw [List.getElem?_set_ne same] at here
        exact .inl here

theorem ended {result : Except EnvironmentError (ExecutionContext σ)} (effect : Effect shop move target)
    (here : shop.calls[place]? = some ⟨owner, .ended result⟩) :
    target.calls[place]? = some ⟨owner, .ended result⟩ := by
  have inside := (List.getElem?_eq_some_iff.1 here).1
  cases effect with
  | idle | mark | drop | endMaintenance => exact here
  | call => exact (List.getElem?_append_left inside).trans here
  | @step other _ _ _ _ stands steps =>
      by_cases same : other = place
      · subst same
        rw [stands] at here
        cases here
        cases steps
        exact List.getElem?_set_self inside
      · exact (List.getElem?_set_ne same).trans here

end Effect

section Runs

theorem calls_le_run (shop : Workshop σ) (moves : List Move) :
    shop.calls.length ≤ (shop.run moves).calls.length := by
  induction moves generalizing shop with
  | nil => exact Nat.le_refl _
  | cons move moves ih => exact Nat.le_trans (effect_next shop move).calls_le (ih _)

theorem maintained_run (lasts : .endMaintenance owner ∉ moves)
    (maintained : shop.environments.maintenance.contains owner) :
    (shop.run moves).environments.maintenance.contains owner := by
  induction moves generalizing shop with
  | nil => exact maintained
  | cons move moves ih =>
      obtain ⟨other, lasts⟩ := not_or.1 (mt List.mem_cons.2 lasts)
      exact ih lasts ((effect_next shop move).maintained (Ne.symm other) maintained)

/-- In maintenance, no context comes to be kept. -/
theorem unkept_run (lasts : .endMaintenance owner ∉ moves)
    (maintained : shop.environments.maintenance.contains owner)
    (unkept : shop.environments.contexts.get? owner = none) :
    (shop.run moves).environments.contexts.get? owner = none := by
  induction moves generalizing shop with
  | nil => exact unkept
  | cons move moves ih =>
      obtain ⟨other, lasts⟩ := not_or.1 (mt List.mem_cons.2 lasts)
      have effect := effect_next shop move
      refine ih lasts (effect.maintained (Ne.symm other) maintained) ?_
      refine Option.eq_none_iff_forall_ne_some.2 fun exec known => ?_
      rcases effect.kept known with before | ⟨free, _⟩
      · rw [unkept] at before
        cases before
      · rw [maintained] at free
        cases free

theorem ended_run {result : Except EnvironmentError (ExecutionContext σ)} (moves : List Move)
    (here : shop.calls[place]? = some ⟨owner, .ended result⟩) :
    (shop.run moves).calls[place]? = some ⟨owner, .ended result⟩ := by
  induction moves generalizing shop with
  | nil => exact here
  | cons move moves ih => exact ih ((effect_next shop move).ended here)

end Runs

/-- A workshop in which `start` was the case earlier: what is being built by the recipe now was begun
since, or was being built in the same call then. -/
structure Since (recipe : Recipe σ) (start shop : Workshop σ) : Prop where
  factory : shop.environments.factory = recipe.factory
  built : start.environments.built ≤ shop.environments.built
  building : ∀ (place : Nat) owner exec,
    shop.calls[place]? = some ⟨owner, .building (.ok exec)⟩ →
      start.environments.built ≤ exec.serial ∨
        start.calls[place]? = some ⟨owner, .building (.ok exec)⟩

namespace Since

theorem refl (factory : shop.environments.factory = recipe.factory) : Since recipe shop shop :=
  ⟨factory, Nat.le_refl _, fun _ _ _ => .inr⟩

theorem next (since : Since recipe start shop) (move : Move) : Since recipe start (shop.next move) where
  factory := (effect_next shop move).factory.trans since.factory
  built := Nat.le_trans since.built (effect_next shop move).built_le
  building place owner exec here := by
    rcases (effect_next shop move).standing here with stands | ⟨before, _, steps⟩ | ⟨_, begun⟩
    · exact since.building place owner exec stands
    · have made := steps.building
      rw [since.factory] at made
      rw [(Recipe.factory_ok made).1]
      exact .inl since.built
    · rcases CallProgress.begin_cases shop.environments owner with same | ⟨error, same⟩
      all_goals
        rw [same] at begun
        cases begun

theorem run (since : Since recipe start shop) (moves : List Move) :
    Since recipe start (shop.run moves) := by
  induction moves generalizing shop with
  | nil => exact since
  | cons move moves ih => exact ih (since.next move)

theorem after (recipe : Recipe σ) (moves : List Move) :
    Since recipe ⟨.new recipe.factory, []⟩ (after recipe moves) :=
  (refl rfl).run moves

end Since

/-- A factory call of an identity for a context was under way at one time and at a later one. -/
def Spans (start ready : Workshop σ) (owner : Identity) (exec : ExecutionContext σ) : Prop :=
  ∃ place : Nat, start.calls[place]? = some ⟨owner, .building (.ok exec)⟩ ∧
    ready.calls[place]? = some ⟨owner, .building (.ok exec)⟩

/-- The factory call for a context began after maintenance did, or was under way all through it. -/
def Renewed (start ready : Workshop σ) (owner : Identity) (exec : ExecutionContext σ) : Prop :=
  start.environments.built ≤ exec.serial ∨ Spans start ready owner exec

theorem Since.renewed (first : Since recipe start ready) (since : Since recipe start shop)
    (later : Since recipe ready shop)
    (here : shop.calls[place]? = some ⟨owner, .building (.ok exec)⟩) : Renewed start ready owner exec := by
  rcases since.building place owner exec here with new | old
  · exact .inl new
  · rcases later.building place owner exec here with new | still
    · exact .inl (Nat.le_trans first.built new)
    · exact .inr ⟨place, old, still⟩

/-- After maintenance of an identity, the contexts that it has and those that later calls got. -/
structure Reopened (recipe : Recipe σ) (start ready : Workshop σ) (owner : Identity)
    (shop : Workshop σ) : Prop where
  first : Since recipe start ready
  since : Since recipe start shop
  later : Since recipe ready shop
  kept : ∀ exec, shop.environments.contexts.get? owner = some exec → Renewed start ready owner exec
  given : ∀ (place : Nat) exec, ready.calls.length ≤ place →
    shop.calls[place]? = some ⟨owner, .ended (.ok exec)⟩ → Renewed start ready owner exec

namespace Reopened

theorem next (reopened : Reopened recipe start ready owner shop) (move : Move) :
    Reopened recipe start ready owner (shop.next move) where
  first := reopened.first
  since := reopened.since.next move
  later := reopened.later.next move
  kept exec known := by
    rcases (effect_next shop move).kept known with before | ⟨_, place, here⟩
    · exact reopened.kept exec before
    · exact reopened.first.renewed reopened.since reopened.later here
  given place exec le here := by
    rcases (effect_next shop move).standing here with stands | ⟨before, stands, steps⟩ | ⟨_, begun⟩
    · exact reopened.given place exec le stands
    · rcases steps.ended with known | rfl | rfl
      · exact reopened.kept exec known
      · exact reopened.first.renewed reopened.since reopened.later stands
      · exact reopened.given place exec le stands
    · rcases CallProgress.begin_cases shop.environments owner with same | ⟨error, same⟩
      all_goals
        rw [same] at begun
        cases begun

theorem run (reopened : Reopened recipe start ready owner shop) (moves : List Move) :
    Reopened recipe start ready owner (shop.run moves) := by
  induction moves generalizing shop with
  | nil => exact reopened
  | cons move moves ih => exact ih (reopened.next move)

end Reopened

/-- Maintenance of an identity begins first among some moves, and does not end. -/
structure Maintains (owner : Identity) (moves : List Move) : Prop where
  begins : ∃ marked dropped, moves = .mark owner :: marked ++ .drop owner :: dropped
  lasts : .endMaintenance owner ∉ moves

/-- By the time when maintenance is over, no context of its owner is left. -/
theorem Maintains.reopened {during : List Move} (maintains : Maintains owner during)
    (factory : shop.environments.factory = recipe.factory) :
    Reopened recipe shop (shop.run during) owner (shop.run during) := by
  obtain ⟨⟨marked, dropped, rfl⟩, lasts⟩ := maintains
  simp only [List.cons_append, List.mem_cons, List.mem_append, not_or] at lasts
  obtain ⟨_, lastsMarked, _, lastsDropped⟩ := lasts
  let marks := (shop.next (.mark owner)).run marked
  have finished : shop.run (.mark owner :: marked ++ .drop owner :: dropped) =
      (marks.next (.drop owner)).run dropped := run_append ..
  have maintained : marks.environments.maintenance.contains owner := by
    refine maintained_run lastsMarked ?_
    change (shop.environments.maintenance.insert owner ()).contains owner
    rw [SortedMap.contains_insert, decide_eq_true rfl, Bool.true_or]
  have unkept : ((marks.next (.drop owner)).run dropped).environments.contexts.get? owner = none :=
    unkept_run lastsDropped maintained (SortedMap.get?_erase_self _ _)
  have first : Since recipe shop ((marks.next (.drop owner)).run dropped) :=
    ((((Since.refl factory).next _).run marked).next _).run dropped
  rw [finished]
  refine ⟨first, first, .refl first.factory, fun exec known => ?_, fun place exec le here => ?_⟩
  · rw [unkept] at known
    cases known
  · rw [List.getElem?_eq_none le] at here
    cases here

/-- How calls for contexts fare among some moves. -/
structure Guarded (recipe : Recipe σ) (moves : List Move) : Prop where
  /-- A call that begins in the maintenance of its owner gets no context. -/
  refused : ∀ earlier owner later, moves = earlier ++ .call owner :: later →
    (after recipe earlier).environments.maintenance.contains owner →
    (after recipe moves).calls[(after recipe earlier).calls.length]? =
      some ⟨owner, .ended (.error (.inMaintenance owner))⟩
  /-- A call that begins after it gets a context for which the factory was called since maintenance
  began, or one that was being built before maintenance began and was so still when it ended. -/
  renewed : ∀ earlier owner during reopened later exec, Maintains owner during →
    moves = earlier ++ during ++ .endMaintenance owner :: reopened ++ .call owner :: later →
    (after recipe moves).calls[(after recipe
      (earlier ++ during ++ .endMaintenance owner :: reopened)).calls.length]? =
        some ⟨owner, .ended (.ok exec)⟩ →
    Renewed (after recipe earlier) (after recipe (earlier ++ during)) owner exec

/-- However the steps of any number of calls for contexts interleave with maintenance, a call that
begins in the maintenance of its owner gets none. One that begins after it gets none which was built
before maintenance began, unless the factory call for it lasted all through maintenance. -/
theorem guarded (recipe : Recipe σ) (moves : List Move) : Guarded recipe moves where
  refused earlier owner later split maintained := by
    rw [split, after_append, run_cons]
    refine ended_run later ?_
    change ((after recipe earlier).calls ++ [_])[_]? = _
    rw [List.getElem?_concat_length, CallProgress.begin_of_maintenance maintained]
  renewed earlier owner during reopened later exec maintains split given := by
    have finished := maintains.reopened (Since.after recipe earlier).factory
    rw [← after_append] at finished
    rw [split, List.append_assoc, after_append] at given
    refine (finished.run _).given _ exec ?_ given
    rw [after_append recipe (earlier ++ during)]
    exact calls_le_run _ _

open Samples in
/-- A context whose factory call lasts all through maintenance is kept, and a call that begins after
maintenance gets it. -/
theorem outdated_after_maintenance :
    let owner : Identity := ⟨"O=Alice", "g1"⟩
    let earlier : List Move := [.call owner, .advance 0, .advance 0]
    let maintenance : List Move := [.mark owner, .drop owner, .endMaintenance owner]
    let shop := after Echo.execution (earlier ++ maintenance ++ [.advance 0, .call owner, .advance 1])
    ∃ exec, shop.calls[1]? = some ⟨owner, .ended (.ok exec)⟩ ∧
      exec.serial < (after Echo.execution earlier).environments.built :=
  ⟨_, rfl, by decide⟩

end Workshop

end DurableFlow
