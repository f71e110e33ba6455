import DurableFlow.Proofs.Caching

/-! # What a plan depends on

On hosts that keep no fibers and whose logic observes nothing but its context, what an event leads to
is settled by the checkpoint that was loaded and by what the contexts resolve to, their `Code`. Where
the contexts were built, and when, does not matter: `Plan.ofEvent_resolves`.
-/

namespace DurableFlow

open Stateful Hosted

variable {σ : Type}

/-- What an execution context resolves to: the flows by name, and how fibers are written. -/
structure Code (σ : Type) where
  registry : Registry σ
  serializer : FiberSerializer

/-- What an execution context resolves to. -/
def ExecutionContext.code (exec : ExecutionContext σ) : Code σ := ⟨exec.registry, exec.serializer⟩

/-- A host that keeps no fibers and whose contexts resolve to code that their identities may have. -/
structure Host.Provides (may : Identity → Code σ → Prop) (host : Host σ) : Prop where
  factory : ∀ number owner exec, host.environments.factory number owner = .ok exec →
    may owner exec.code
  contexts : ∀ owner exec, host.environments.contexts.get? owner = some exec → may owner exec.code
  cache : host.cache = .disabled

/-- A host that keeps no fibers and whose contexts resolve to the given code. -/
structure Host.Resolves (code : Identity → Code σ) (host : Host σ) : Prop where
  factory : ∀ number owner exec, host.environments.factory number owner = .ok exec →
    exec.code = code owner
  contexts : ∀ owner exec, host.environments.contexts.get? owner = some exec →
    exec.code = code owner
  cache : host.cache = .disabled

/-- A host on which every identity gets a context. -/
structure Host.Ready (host : Host σ) : Prop where
  factory : ∀ number owner, ∃ exec, host.environments.factory number owner = .ok exec
  maintenance : host.environments.maintenance = {}

namespace Host

variable {code : Identity → Code σ} {host : Host σ}

theorem Provides.acquire {may : Identity → Code σ → Prop} (provides : host.Provides may)
    (owner : Identity) :
    Provides may { host with environments := (host.environments.acquire owner).2 } ∧
      ∀ exec, (host.environments.acquire owner).1 = .ok exec → may owner exec.code := by
  rcases host.environments.acquire_cases owner with
    ⟨_, same⟩ | ⟨exec, known, same⟩ | ⟨_, same⟩ | ⟨exec, made, same⟩
  all_goals rw [same]
  · exact ⟨provides, fun _ h => by cases h⟩
  · refine ⟨provides, fun _ h => ?_⟩
    cases h
    exact provides.contexts owner exec known
  · exact ⟨⟨provides.factory, provides.contexts, provides.cache⟩, fun _ h => by cases h⟩
  · have known := SortedMap.forall_get?_insert
      (P := fun owner (exec : ExecutionContext σ) => may owner exec.code)
      provides.contexts (provides.factory _ _ _ made)
    refine ⟨⟨provides.factory, known, provides.cache⟩, fun _ h => ?_⟩
    cases h
    exact provides.factory _ _ _ made

theorem Resolves.acquire (resolves : host.Resolves code) (owner : Identity) :
    Resolves code { host with environments := (host.environments.acquire owner).2 } ∧
      ∀ exec, (host.environments.acquire owner).1 = .ok exec → exec.code = code owner := by
  have provides : host.Provides fun owner known => known = code owner :=
    ⟨resolves.factory, resolves.contexts, resolves.cache⟩
  obtain ⟨kept, given⟩ := provides.acquire owner
  exact ⟨⟨kept.factory, kept.contexts, kept.cache⟩, given⟩

theorem Ready.acquire (ready : host.Ready) (owner : Identity) :
    Ready { host with environments := (host.environments.acquire owner).2 } ∧
      ∃ exec, (host.environments.acquire owner).1 = .ok exec := by
  have free : host.environments.validate owner = .ok () := by
    rw [Environments.validate, ready.maintenance]
    rfl
  unfold Environments.acquire Environments.acquireDuring
  rw [free]
  cases kept : host.environments.contexts.get? owner with
  | some exec => exact ⟨ready, exec, rfl⟩
  | none =>
      obtain ⟨exec, made⟩ := ready.factory host.environments.built owner
      have still : Environments.validate
          { host.environments with built := host.environments.built + 1 } owner = .ok () := free
      simp only [Environments.build, made, mapError_ok, Environments.keep, id, still, kept]
      exact ⟨⟨ready.factory, ready.maintenance⟩, exec, rfl⟩

end Host

section Code

variable {exec other : ExecutionContext σ}

theorem ExecutionContext.eq_of_code (same : exec.code = other.code) :
    other = { exec with serial := other.serial, owner := other.owner } := by
  rcases exec with ⟨_, _, registry, serializer⟩
  rcases other with ⟨_, _, _, _⟩
  cases same
  rfl

theorem Fiber.start_eq_of_code (same : exec.code = other.code) (fiber : Fiber σ) (args : Bytes)
    (ctx : Context) (world : σ) : fiber.start exec args ctx world = fiber.start other args ctx world := by
  rw [ExecutionContext.eq_of_code same]
  rfl

theorem Fiber.resume_eq_of_code (same : exec.code = other.code) (fiber : Fiber σ) (value : Resumed)
    (ctx : Context) (world : σ) :
    fiber.resume exec value ctx world = fiber.resume other value ctx world := by
  rw [ExecutionContext.eq_of_code same]
  rfl

theorem Fiber.forFlow_eq_of_code (same : exec.code = other.code) (id : FlowId) (name : String) :
    forFlow exec id name = forFlow other id name := by
  rw [ExecutionContext.eq_of_code same]
  rfl

theorem Hosted.revive_eq_of_code (same : exec.code = other.code) (cp : Checkpoint) :
    revive exec cp = revive other cp := by
  rw [ExecutionContext.eq_of_code same]
  rfl

theorem Hosted.conclude_eq_of_code (same : exec.code = other.code) (settings : Settings) (fuel : Nat)
    (draft : Draft) (entry : Entry σ) :
    conclude exec settings fuel draft entry = conclude other settings fuel draft entry := by
  induction fuel generalizing draft entry with
  | zero => rfl
  | succ fuel ih =>
      unfold conclude
      have resumes (fiber : Fiber σ) (value : Resumed) (ctx : Context) :
          fiber.resume exec value ctx = fiber.resume other value ctx :=
        funext (fiber.resume_eq_of_code same value ctx)
      simp only [ih, resumes]

end Code

namespace Hosted

variable {α β γ : Type}

/-- Two computations whose results differ at most in their second parts. -/
def Agree (c d : Hosted σ (β × γ)) : Prop :=
  ∀ host, (c.run.run host).1.map Prod.fst = (d.run.run host).1.map Prod.fst

theorem Agree.refl (c : Hosted σ (β × γ)) : Agree c c := fun _ => rfl

theorem Agree.bind (c : Hosted σ α) {f g : α → Hosted σ (β × γ)} (agree : ∀ a, Agree (f a) (g a)) :
    Agree (c >>= f) (c >>= g) := by
  intro host
  rw [run_bind, run_bind]
  rcases c.run.run host with ⟨_ | a, after⟩
  · rfl
  · exact agree a after

/-- Run the fiber of a flow as was decided, on a host that keeps no fibers. -/
def act (exec : ExecutionContext σ) (settings : Settings) (draft : Draft) :
    Decision → Hosted σ (Draft × Option (Suspended σ))
  | .skip => return (draft, none)
  | .start args => begin exec settings draft args
  | .resume value => do
    let draft ← ofOutcome (draft.setStatus .running)
    let fiber ← revive exec draft.checkpoint
    proceed exec settings draft value fiber

theorem Worldly.act (exec : ExecutionContext σ) (settings : Settings) (draft : Draft)
    (decision : Decision) : Worldly (Hosted.act exec settings draft decision) := by
  cases decision with
  | skip => exact of_result _
  | start args => exact begin exec settings draft args
  | resume value =>
      exact bind (of_result _) fun draft => bind (revive _ _) fun fiber =>
        proceed exec settings draft value fiber

theorem follow_of_disabled {host : Host σ} (bare : host.cache = .disabled) (settings : Settings)
    (draft : Draft) {decision : Decision} (runs : decision.runs) :
    (follow settings ⟨draft, decision⟩).run.run host =
      (acquire draft.checkpoint.owner >>= fun exec => act exec settings draft decision).run.run
        host := by
  cases decision with
  | skip => cases runs
  | start args =>
      rw [follow_start]
      rfl
  | resume value =>
      rw [follow_resume, run_bind, run_bind, run_acquire]
      rcases host.environments.acquire draft.checkpoint.owner with ⟨_ | exec, environments⟩
      · rfl
      simp only [mapError_ok]
      rw [act, run_bind, run_bind, ofOutcome, run_result]
      rcases (draft.setStatus .running).mapError _ with _ | running
      · rfl
      simp only
      rw [run_bind, run_bind, run_awaken, bare]
      rfl

section Code

variable {exec other : ExecutionContext σ}

theorem begin_agree (same : exec.code = other.code) (settings : Settings) (draft : Draft)
    (args : Bytes) : Agree (begin exec settings draft args) (begin other settings draft args) := by
  refine .bind _ fun draft => ?_
  have starts (fiber : Fiber σ) (ctx : Context) : fiber.start exec args ctx = fiber.start other args ctx :=
    funext (fiber.start_eq_of_code same args ctx)
  unfold start
  simp only [Fiber.forFlow_eq_of_code same, starts, conclude_eq_of_code same]
  split
  · exact .refl _
  · exact .bind _ fun fiber => .bind _ fun entry => .bind _ fun _ => fun _ => rfl

theorem proceed_agree (same : exec.code = other.code) (settings : Settings) (draft : Draft)
    (value : Resumed) (fiber : Fiber σ) :
    Agree (proceed exec settings draft value fiber) (proceed other settings draft value fiber) := by
  have resumes (ctx : Context) : fiber.resume exec value ctx = fiber.resume other value ctx :=
    funext (fiber.resume_eq_of_code same value ctx)
  unfold proceed
  simp only [resumes, conclude_eq_of_code same]
  exact .bind _ fun entry => .bind _ fun _ => fun _ => rfl

theorem act_agree (same : exec.code = other.code) (settings : Settings) (draft : Draft)
    (decision : Decision) : Agree (act exec settings draft decision) (act other settings draft decision) := by
  cases decision with
  | skip => exact .refl _
  | start args => exact begin_agree same settings draft args
  | resume value =>
      refine .bind _ fun draft => ?_
      rw [revive_eq_of_code same]
      exact .bind _ fun fiber => proceed_agree same settings draft value fiber

end Code

theorem Worldly.result_eq {c : Hosted Unit α} (worldly : Worldly c) (host other : Host Unit) :
    (c.run.run host).1 = (c.run.run other).1 := by
  have same := congrArg (fun run => run.1) (worldly other host.environments host.cache)
  exact same

theorem follow_keeps {P : Host σ → Prop}
    (world : ∀ host world, P host → P { host with world })
    (acquires : ∀ host owner, P host →
      P { host with environments := (host.environments.acquire owner).2 })
    {host : Host σ} (bare : host.cache = .disabled) (settings : Settings) (prepared : Prepared)
    (holds : P host) : P ((follow settings prepared).run.run host).2 := by
  rcases prepared with ⟨draft, decision⟩
  have acts (exec : ExecutionContext σ) (host : Host σ) (holds : P host) :
      P ((act exec settings draft decision).run.run host).2 := by
    have worldly := Worldly.act exec settings draft decision
    have holds := world host ((act exec settings draft decision).run.run host).2.world holds
    rw [← worldly.environments_eq host, ← worldly.cache_eq host] at holds
    exact holds
  by_cases runs : decision.runs
  · rw [follow_of_disabled bare settings draft runs, run_bind, run_acquire]
    have holds := acquires host draft.checkpoint.owner holds
    rcases acquired : host.environments.acquire draft.checkpoint.owner with ⟨_ | exec, environments⟩
    all_goals rw [acquired] at holds
    · exact holds
    · exact acts exec _ holds
  · cases decision with
    | skip => exact holds
    | start | resume => exact absurd rfl runs

variable {code : Identity → Code Unit} {host other : Host Unit}

/-- Whatever one host does with a flow, another that resolves to the same code does as well. -/
theorem follow_resolves (resolves : host.Resolves code) (resolves' : other.Resolves code)
    (ready : other.Ready) {settings : Settings} {prepared : Prepared}
    {result : Draft × Option (Suspended Unit)} {after : Host Unit}
    (ran : (follow settings prepared).run.run host = (.ok result, after)) :
    ∃ suspended later,
      (follow settings prepared).run.run other = (.ok (result.1, suspended), later) := by
  rcases prepared with ⟨draft, decision⟩
  by_cases runs : decision.runs
  · rw [follow_of_disabled resolves.cache settings draft runs, run_bind_ok] at ran
    obtain ⟨exec, middle, acquired, ran⟩ := ran
    rw [run_acquire] at acquired
    have known := (resolves.acquire _).2 exec (mapError_eq_ok.1 (congrArg Prod.fst acquired))
    obtain ⟨exec', acquired'⟩ := (ready.acquire draft.checkpoint.owner).2
    have known' := (resolves'.acquire _).2 exec' acquired'
    have agree := act_agree (known.trans known'.symm) settings draft decision middle
    rw [ran, (Worldly.act exec' settings draft decision).result_eq middle _] at agree
    rw [follow_of_disabled resolves'.cache settings draft runs, run_bind, run_acquire, acquired']
    simp only [mapError_ok]
    rcases acted : (act exec' settings draft decision).run.run { other with
      environments := (other.environments.acquire draft.checkpoint.owner).2 } with
      ⟨_ | ⟨draft', suspended⟩, later⟩
    · rw [acted] at agree
      cases agree
    · rw [acted] at agree
      cases agree
      exact ⟨suspended, later, rfl⟩
  · cases decision with
    | skip =>
        cases ran
        exact ⟨none, other, rfl⟩
    | start | resume => exact absurd rfl runs

end Hosted

/-- All of a commit but the fiber, which stays on its host. -/
def Commit.bare (commit : Commit σ) : Commit σ := { commit with suspended := none }

/-- All of a plan but the fiber. -/
def Plan.bare : Plan σ → Plan σ
  | .discard reason => .discard reason
  | .commit made => .commit made.bare

namespace Plan

theorem ofEvent_keeps {P : Host σ → Prop} (world : ∀ host world, P host → P { host with world })
    (acquires : ∀ host owner, P host →
      P { host with environments := (host.environments.acquire owner).2 })
    {host : Host σ} (bare : host.cache = .disabled) (settings : Settings) (event : Event)
    (found : Option Checkpoint) (holds : P host) :
    P ((ofEvent settings event found).run.run host).2 := by
  unfold ofEvent
  split
  · exact holds
  · split
    · exact holds
    · exact holds
    next prepared prepares =>
      have kept := follow_keeps world acquires bare settings prepared holds
      rw [ofPrepared, run_bind]
      rcases followed : (Hosted.follow settings prepared).run.run host with
        ⟨_ | ⟨draft, suspended⟩, after⟩
      all_goals
        rw [followed] at kept
        exact kept

theorem ofEvent_keeps_code {code : Identity → Code σ} {host : Host σ} (resolves : host.Resolves code)
    (settings : Settings) (event : Event) (found : Option Checkpoint) :
    ((ofEvent settings event found).run.run host).2.Resolves code :=
  ofEvent_keeps (fun _ _ resolves => ⟨resolves.factory, resolves.contexts, resolves.cache⟩)
    (fun _ owner resolves => (resolves.acquire owner).1) resolves.cache settings event found resolves

theorem ofEvent_keeps_ready {host : Host σ} (ready : host.Ready) (bare : host.cache = .disabled)
    (settings : Settings) (event : Event) (found : Option Checkpoint) :
    ((ofEvent settings event found).run.run host).2.Ready :=
  ofEvent_keeps (fun _ _ ready => ⟨ready.factory, ready.maintenance⟩)
    (fun _ owner ready => (ready.acquire owner).1) bare settings event found ready

/-- A plan that one host makes is made by any other that resolves to the same code and gives every
identity its context. -/
theorem ofEvent_resolves {code : Identity → Code Unit} {host other : Host Unit}
    (resolves : host.Resolves code) (resolves' : other.Resolves code) (ready : other.Ready)
    {settings : Settings} {event : Event} {found : Option Checkpoint} {plan : Plan Unit}
    {after : Host Unit} (ran : (ofEvent settings event found).run.run host = (.ok plan, after)) :
    ∃ plan' later, (ofEvent settings event found).run.run other = (.ok plan', later) ∧
      plan'.bare = plan.bare := by
  unfold ofEvent at ran ⊢
  split at ran
  · cases ran
    exact ⟨_, _, rfl, rfl⟩
  · split at ran
    · cases ran
      exact ⟨_, _, rfl, rfl⟩
    · cases ran
    next prepared prepares =>
      rw [ofPrepared, run_bind_ok] at ran
      obtain ⟨⟨draft, suspended⟩, _, followed, ran⟩ := ran
      cases ran
      obtain ⟨suspended', later, followed'⟩ := follow_resolves resolves resolves' ready followed
      rw [ofPrepared, run_bind, followed']
      exact ⟨_, _, rfl, rfl⟩

end Plan

end DurableFlow
