import DurableFlow.Proofs.Backlogs
import DurableFlow.Proofs.Stocks
import DurableFlow.Samples.Minutes

/-! # An event is handled in finitely many rounds

Following a decision enters flow logic once, and again for as long as its waits are over at once. Each
round after the first takes an item off the backlog, so there are no more of them than items, and a
limit that lets them all pass might as well not be there. `Within` keeps the two sides of this
together: how many calls a computation makes, and from which limit on the limit does not matter.
-/

namespace DurableFlow

open Stateful

variable {σ α β : Type}

/-- A demanding flow, each run of which counts as one call at most. -/
structure Flow.Frugal (calls : σ → Nat) (flow : Flow σ) : Prop where
  demanding : flow.Demanding
  once : ∀ input logic ctx world, flow.logic? input = .ok logic →
    calls (logic.run.run (ctx, world)).2.2 ≤ calls world + 1

namespace Flow.Demanding

variable {flow : Flow σ}

theorem frugal (demanding : flow.Demanding) : flow.Frugal fun _ => 0 :=
  ⟨demanding, fun _ _ _ _ _ => Nat.zero_le _⟩

theorem watched (demanding : flow.Demanding) : flow.watched.Frugal fun world => world.2.length := by
  have plain : ∀ input logic, flow.watched.logic? input = .ok logic →
      ∃ inner : Logic σ RawStep, flow.logic? input = .ok inner ∧ logic = inner.watched input := by
    intro input logic known
    cases input with
    | start args =>
        cases known
        exact ⟨_, rfl, rfl⟩
    | resume state value =>
        simp only [Flow.logic?, Flow.watched, map_eq_ok] at known
        obtain ⟨_, ⟨inner, decoded, rfl⟩, rfl⟩ := known
        exact ⟨inner value, by simp [Flow.logic?, decoded, Except.map], rfl⟩
  refine ⟨?_, fun input logic ctx world known => ?_⟩
  · rintro draft now state request effects worked ⟨input, logic, ⟨world, calls⟩, known, ran, left⟩
    obtain ⟨inner, decoded, rfl⟩ := plain input logic known
    rw [Logic.run_watched] at ran left
    exact demanding draft now state request effects worked ⟨input, inner, world, decoded, ran, left⟩
  · obtain ⟨inner, _, rfl⟩ := plain input logic known
    obtain ⟨world, calls⟩ := world
    rw [Logic.run_watched]
    simp

end Flow.Demanding

variable {calls : σ → Nat}

namespace Fiber

variable {exec : ExecutionContext σ} {fiber : Fiber σ} {ctx : Context} {world : σ}

theorem start_calls_once (frugal : fiber.logic.Frugal calls) (args : Bytes) :
    calls (fiber.start exec args ctx world).world ≤ calls world + 1 := by
  unfold start
  split
  · exact Nat.le_succ _
  · exact frugal.once (.start args) _ ctx world rfl

theorem resume_calls_once (frugal : fiber.logic.Frugal calls) (value : Resumed) :
    calls (fiber.resume exec value ctx world).world ≤ calls world + 1 := by
  unfold resume
  split
  · exact Nat.le_succ _
  · split
    · exact Nat.le_succ _
    next parked _ =>
      simp only
      split
      · exact Nat.le_succ _
      · split
        · exact Nat.le_succ _
        next logic decoded =>
          refine frugal.once (.resume parked.state value) (logic value) ctx world ?_
          simp [Flow.logic?, decoded, Except.map]

end Fiber

namespace Entrance

variable {entrance : Entrance σ} {settings : Settings} {outcome : FiberOutcome}

theorem calls_once (frugal : entrance.fiber.logic.Frugal calls) :
    calls (entrance.run settings).world ≤ calls entrance.world + 1 := by
  rcases entrance with ⟨exec, draft, fiber, call, world⟩
  cases call with
  | start args => exact Fiber.start_calls_once frugal args
  | resume value => exact Fiber.resume_calls_once frugal value

/-- The items that wait to be consumed when a fiber is called. -/
def backlog (entrance : Entrance σ) : Nat := Checkpoint.backlog entrance.draft.checkpoint.sessions

theorem again_frugal (frugal : entrance.fiber.logic.Frugal calls)
    (ran : (entrance.run settings).result = .ok outcome) {taken running : Draft} {value : Resumed}
    (applied : entrance.apply settings outcome = .ok (taken, .resume value))
    (moved : taken.setStatus .running = .ok running) :
    (entrance.again settings running value).fiber.logic.Frugal calls ∧
      (entrance.again settings running value).backlog < entrance.backlog := by
  obtain ⟨calls, left⟩ := Entrance.calls ran
  obtain ⟨request, continuation, _, rfl, _⟩ := (Draft.applyOutcome_ok applied).of_resume
  obtain ⟨_, _, logic, _⟩ := left.keeps
  obtain ⟨_, rfl⟩ := Draft.setStatus_ok.1 moved
  have less : Checkpoint.backlog taken.checkpoint.sessions < entrance.backlog := by
    refine Draft.applyOutcome_backlog applied ?_
    rintro _ _ worked ⟨⟩ effected
    obtain ⟨state, _, suspends⟩ := calls.suspends request continuation rfl
    exact frugal.demanding entrance.draft settings.now state request _ worked suspends effected
  refine ⟨?_, less⟩
  rw [again, logic]
  exact frugal

end Entrance

namespace Hosted

/-- A computation with a limit that makes so many calls at most. From some limit on it is not stopped
by the limit, and does the same whatever the limit is. -/
structure Within (calls : σ → Nat) (enough most : Nat) (c : Nat → Hosted σ α) (host : Host σ) :
    Prop where
  most : ∀ limit, calls ((c limit).run.run host).2.world ≤ calls host.world + most
  unstopped : ∀ limit, enough ≤ limit → ((c limit).run.run host).1 ≠ .error .entryLimit
  same : ∀ limit other, enough ≤ limit → enough ≤ other →
    (c limit).run.run host = (c other).run.run host

namespace Within

variable {enough most : Nat} {host : Host σ}

theorem mono {c : Nat → Hosted σ α} {plenty all : Nat} (within : Within calls enough most c host)
    (later : enough ≤ plenty) (more : most ≤ all) : Within calls plenty all c host where
  most limit := Nat.le_trans (within.most limit) (Nat.add_le_add_left more _)
  unstopped limit fits := within.unstopped limit (Nat.le_trans later fits)
  same limit other fits fits' :=
    within.same limit other (Nat.le_trans later fits) (Nat.le_trans later fits')

theorem of_steady {c : Hosted σ α} (spends : calls (c.run.run host).2.world ≤ calls host.world + most)
    (unstopped : (c.run.run host).1 ≠ .error .entryLimit) :
    Within calls enough most (fun _ => c) host :=
  ⟨fun _ => spends, fun _ _ => unstopped, fun _ _ _ _ => rfl⟩

theorem after {first : Hosted σ α} {rest : Nat → α → Hosted σ β} {spent all : Nat}
    (spends : calls (first.run.run host).2.world ≤ calls host.world + spent)
    (unstopped : (first.run.run host).1 ≠ .error .entryLimit) (sum : spent + most ≤ all)
    (others : ∀ a middle, first.run.run host = (.ok a, middle) →
      Within calls enough most (rest · a) middle) :
    Within calls enough all (fun limit => first >>= rest limit) host := by
  rcases ran : first.run.run host with ⟨stop | a, middle⟩
  · rw [ran] at spends unstopped
    have stopped (limit : Nat) : (first >>= rest limit).run.run host = (.error stop, middle) := by
      rw [run_bind, ran]
    refine ⟨fun limit => ?_, fun limit _ => ?_, fun limit other _ _ => ?_⟩
    · rw [stopped]
      simp only at spends ⊢
      omega
    · rw [stopped]
      exact fun same => unstopped (congrArg Except.error (Except.error.inj same))
    · rw [stopped, stopped]
  · rw [ran] at spends
    have goesOn (limit : Nat) : (first >>= rest limit).run.run host =
        (rest limit a).run.run middle := by
      rw [run_bind, ran]
    obtain ⟨fits, unstopped, same⟩ := others a middle ran
    refine ⟨fun limit => ?_, fun limit within => ?_, fun limit other within within' => ?_⟩
    · have := fits limit
      rw [goesOn]
      simp only at spends
      omega
    · rw [goesOn]
      exact unstopped limit within
    · rw [goesOn, goesOn]
      exact same limit other within within'

theorem map {c : Nat → Hosted σ α} (within : Within calls enough most c host) (f : α → β) :
    Within calls enough most (fun limit => c limit >>= fun a => pure (f a)) host := by
  have left (limit : Nat) : (c limit >>= fun a => pure (f a)).run.run host =
      (((c limit).run.run host).1.map f, ((c limit).run.run host).2) := by
    rw [run_bind]
    rcases (c limit).run.run host with ⟨_ | _, _⟩ <;> rfl
  refine ⟨fun limit => ?_, fun limit fits => ?_, fun limit other fits fits' => ?_⟩
  · rw [left]
    exact within.most limit
  · rw [left]
    have unstopped := within.unstopped limit fits
    rcases ran : ((c limit).run.run host).1 with stop | a
    · rw [ran] at unstopped
      exact fun same => unstopped (congrArg Except.error (Except.error.inj same))
    · exact nofun
  · rw [left, left, within.same limit other fits fits']

theorem succ {c : Nat → Hosted σ α} (zero : ((c 0).run.run host).2 = host)
    (within : Within calls enough most (fun limit => c (limit + 1)) host) :
    Within calls (enough + 1) most c host where
  most limit := by
    cases limit with
    | zero =>
        rw [zero]
        exact Nat.le_add_right _ _
    | succ limit => exact within.most limit
  unstopped limit fits := by
    cases limit with
    | zero => cases fits
    | succ limit => exact within.unstopped limit (Nat.le_of_succ_le_succ fits)
  same limit other fits fits' := by
    cases limit with
    | zero => cases fits
    | succ limit =>
        cases other with
        | zero => cases fits'
        | succ other =>
            exact within.same limit other (Nat.le_of_succ_le_succ fits) (Nat.le_of_succ_le_succ fits')

theorem outcome {result : Except OutcomeError α} {rest : Nat → α → Hosted σ β}
    (others : ∀ a, result = .ok a → Within calls enough most (rest · a) host) :
    Within calls enough most (fun limit => ofOutcome result >>= rest limit) host := by
  have run := run_ofOutcome (σ := σ) result host
  refine .after (by rw [run]; exact Nat.le_add_right _ 0) ?_ (Nat.le_of_eq (Nat.zero_add most)) ?_
  · rw [run]
    rcases result with (_ | _) | _ <;> exact nofun
  · rintro a _ ran
    obtain ⟨written, rfl⟩ := ofOutcome_ok.1 ran
    exact others a written

theorem enter {entrance : Entrance σ} {settings : Settings} {rest : Nat → Entry σ → Hosted σ α}
    (frugal : entrance.fiber.logic.Frugal calls) (world : host.world = entrance.world)
    {call : σ → FiberRun σ} (called : call entrance.world = entrance.run settings)
    (others : ∀ outcome after, (entrance.run settings).result = .ok outcome →
      after.world = (entrance.run settings).world →
        Within calls enough most (rest · (entrance.entry settings outcome)) after) :
    Within calls enough (most + 1)
      (fun limit => Hosted.enter entrance.call.attempt call >>= rest limit) host := by
  have run := run_enter entrance.call.attempt call host
  rw [world, called] at run
  refine .after ?_ ?_ (Nat.le_of_eq (Nat.add_comm 1 most)) fun entry after ran => ?_
  · rw [run, world]
    exact Entrance.calls_once frugal
  · rw [run]
    cases (entrance.run settings).result <;> exact nofun
  · rw [run] at ran
    cases result : (entrance.run settings).result with
    | error error =>
        rw [result] at ran
        cases ran
    | ok outcome =>
        rw [result] at ran
        cases ran
        exact others outcome _ result rfl

end Within

variable {entrance : Entrance σ} {settings : Settings} {outcome : FiberOutcome} {host : Host σ}

/-- What follows the outcome of a frugal flow takes a round for each item of the backlog at most. -/
theorem conclude_within (frugal : entrance.fiber.logic.Frugal calls)
    (ran : (entrance.run settings).result = .ok outcome)
    (world : host.world = (entrance.run settings).world) :
    Within calls (entrance.backlog + 1) entrance.backlog (fun limit =>
      conclude entrance.exec settings limit entrance.draft (entrance.entry settings outcome)) host := by
  generalize size : entrance.backlog = backlog
  induction backlog using Nat.strong_induction_on generalizing entrance outcome host with
  | _ backlog ih =>
      refine .succ rfl (.outcome fun (taken, next) applied => ?_)
      cases next with
      | done => exact .of_steady (Nat.le_add_right _ _) nofun
      | resume value =>
          refine .outcome fun running moved => ?_
          obtain ⟨frugal, less⟩ := Entrance.again_frugal frugal ran applied moved
          rw [size] at less
          refine (Within.enter frugal world rfl fun outcome after ran world => ?_).mono
            (Nat.le_refl _) less
          exact (ih _ less frugal ran world rfl).mono less (Nat.le_refl _)

theorem call_within (frugal : entrance.fiber.logic.Frugal calls) (world : host.world = entrance.world)
    {call : σ → FiberRun σ} (called : call entrance.world = entrance.run settings) :
    Within calls (entrance.backlog + 1) (entrance.backlog + 1) (fun limit =>
      enter entrance.call.attempt call >>= fun entry =>
        conclude entrance.exec settings limit entrance.draft entry >>= fun left =>
          pure (left.1, suspended? entrance.exec left.2)) host :=
  .enter frugal world called fun _ _ ran world => (conclude_within frugal ran world).map _

theorem conclude_of_limit (exec : ExecutionContext σ) (settings : Settings) (entryLimit fuel : Nat)
    (draft : Draft) (entry : Entry σ) :
    conclude exec { settings with entryLimit } fuel draft entry =
      conclude exec settings fuel draft entry := by
  induction fuel generalizing draft entry with
  | zero => rfl
  | succ fuel ih => simp only [conclude, ih]

theorem start_of_created {exec : ExecutionContext σ} {draft : Draft} {fiber : Fiber σ}
    (created : Fiber.forFlow exec draft.checkpoint.flowId draft.checkpoint.flowName = .ok fiber)
    (settings : Settings) (args : Bytes) : start exec settings draft args =
      enter .start (fiber.start exec args (.ofCheckpoint draft.checkpoint settings.now)) >>=
        fun entry => conclude exec settings settings.entryLimit draft entry >>= fun left =>
          pure (left.1, suspended? exec left.2) := by
  simp only [start, created]
  rfl

theorem start_of_unknown {exec : ExecutionContext σ} {draft : Draft} {error : FiberError}
    (uncreated : Fiber.forFlow exec draft.checkpoint.flowId draft.checkpoint.flowName = .error error)
    (settings : Settings) (args : Bytes) : start exec settings draft args =
      ofOutcome (draft.applyOutcome (.failed (.unknownFlow draft.checkpoint.flowName)) .none .start
        settings.config settings.now) >>= fun left => pure (left.1, none) := by
  -- An unknown name is the only fault of making a fiber.
  have unknown : error = .unknownFlow draft.checkpoint.flowName := by
    unfold Fiber.forFlow at uncreated
    split at uncreated <;> cases uncreated
    rfl
  simp only [start, uncreated, unknown]

theorem start_within {exec : ExecutionContext σ} {draft : Draft}
    (frugal : ∀ fiber, Fiber.forFlow exec draft.checkpoint.flowId draft.checkpoint.flowName =
      .ok fiber → fiber.logic.Frugal calls) (args : Bytes) :
    let backlog := Checkpoint.backlog draft.checkpoint.sessions
    Within calls (backlog + 1) (backlog + 1)
      (fun entryLimit => start exec { settings with entryLimit } draft args) host := by
  intro backlog
  cases created : Fiber.forFlow exec draft.checkpoint.flowId draft.checkpoint.flowName with
  | error error =>
      simp only [start_of_unknown created]
      exact .outcome fun _ _ => .of_steady (Nat.le_add_right _ _) nofun
  | ok fiber =>
      simp only [start_of_created created, conclude_of_limit]
      let entrance : Entrance σ := ⟨exec, draft, fiber, .start args, host.world⟩
      have frugal : entrance.fiber.logic.Frugal calls := frugal fiber created
      exact call_within frugal rfl rfl

theorem acquire_steady (owner : Identity) (host : Host σ) :
    ((acquire owner).run.run host).2.world = host.world ∧
      ((acquire owner).run.run host).1 ≠ .error .entryLimit := by
  rw [run_acquire]
  refine ⟨rfl, ?_⟩
  cases (host.environments.acquire owner).1 <;> exact nofun

theorem awaken_steady (exec : ExecutionContext σ) (cp : Checkpoint) (instant : Nat) (host : Host σ) :
    ((awaken exec cp instant).run.run host).2.world = host.world ∧
      ((awaken exec cp instant).run.run host).1 ≠ .error .entryLimit := by
  rw [run_awaken]
  rcases host.cache.take instant cp.flowId cp.version exec with ⟨_ | fiber, cache⟩
  · unfold revive
    cases cp.continuation with
    | none => exact ⟨rfl, fun impossible => by cases impossible⟩
    | some continuation =>
        refine ⟨rfl, ?_⟩
        simp only [ofFiber, run_result]
        cases Fiber.restore exec cp.flowId continuation <;> exact fun impossible => by cases impossible
  · exact ⟨rfl, fun impossible => by cases impossible⟩

/-- What was decided about a frugal flow takes one round more than there are items. -/
theorem follow_within {recipe : Recipe σ} (offers : recipe.Offers (Flow.Frugal calls))
    (stocked : host.Stocked recipe fun _ entry => entry.fiber.logic.Frugal calls)
    (settings : Settings) (prepared : Prepared) :
    let backlog := Checkpoint.backlog prepared.draft.checkpoint.sessions
    Within calls (backlog + 1) (backlog + 1)
      (fun entryLimit => follow { settings with entryLimit } prepared) host := by
  intro backlog
  have frugal {entrance : Entrance σ} (reached : prepared.Reaches settings host entrance) :
      entrance.fiber.logic.Frugal calls := reached.logic offers stocked
  rcases prepared with ⟨draft, args | value | _⟩
  · simp only [follow_start]
    obtain ⟨world, unstopped⟩ := acquire_steady draft.checkpoint.owner host
    refine .after (by rw [world]; exact Nat.le_add_right _ 0) unstopped
      (Nat.le_of_eq (Nat.zero_add _)) fun exec after ran => .outcome fun running moved => ?_
    obtain ⟨environments, acquired, rfl⟩ := acquire_ok ran
    obtain ⟨_, rfl⟩ := Draft.setStatus_ok.1 moved
    exact start_within (fun fiber created => frugal (.started rfl acquired moved created)) args
  · simp only [follow_resume]
    obtain ⟨world, unstopped⟩ := acquire_steady draft.checkpoint.owner host
    refine .after (by rw [world]; exact Nat.le_add_right _ 0) unstopped
      (Nat.le_of_eq (Nat.zero_add _)) fun exec after ran => .outcome fun running moved => ?_
    obtain ⟨environments, acquired, rfl⟩ := acquire_ok ran
    obtain ⟨world, unstopped⟩ :=
      awaken_steady exec running.checkpoint settings.instant { host with environments }
    refine .after (by rw [world]; exact Nat.le_add_right _ 0) unstopped
      (Nat.le_of_eq (Nat.zero_add _)) fun fiber after awake => ?_
    have reached : Prepared.Reaches settings ⟨draft, .resume value⟩ host _ :=
      .woken rfl acquired moved awake
    obtain ⟨_, rfl⟩ := Draft.setStatus_ok.1 moved
    simp only [proceed, conclude_of_limit]
    exact call_within (frugal reached) rfl rfl
  · exact .of_steady (Nat.le_add_right _ _) fun impossible => by cases impossible

end Hosted

/-- An event brings an item at most, so it takes two rounds more than there were items. -/
theorem Plan.ofEvent_within {recipe : Recipe σ} {host : Host σ}
    (offers : recipe.Offers (Flow.Frugal calls))
    (stocked : host.Stocked recipe fun _ entry => entry.fiber.logic.Frugal calls)
    (settings : Settings) (event : Event) (found : Option Checkpoint) :
    let rounds := Checkpoint.backlogOf found + 2
    Hosted.Within calls rounds rounds
      (fun entryLimit => ofEvent { settings with entryLimit } event found) host := by
  intro rounds
  unfold ofEvent
  cases found.filter Checkpoint.isTerminal with
  | some cp => exact .of_steady (Nat.le_add_right _ _) nofun
  | none =>
      simp only
      cases prepares : Handler.prepare event.flowId event.payload settings.config settings.now found with
      | error error => cases error <;> exact .of_steady (Nat.le_add_right _ _) nofun
      | ok prepared =>
          have items := (Handler.prepare_prepares prepares).backlog_le
          exact ((Hosted.follow_within offers stocked settings prepared).mono (Nat.succ_le_succ items)
            (Nat.succ_le_succ items)).map fun followed =>
              Plan.commit (close settings found prepared followed)

theorem Recipe.Offers.watched {recipe : Recipe σ} {P : Flow σ → Prop} (offers : recipe.Offers P) :
    recipe.watched.Offers fun flow => ∃ plain, P plain ∧ flow = plain.watched := by
  intro number owner exec name flow made known
  unfold Recipe.factory Recipe.watched at made
  cases built : recipe number owner with
  | error reason =>
      rw [built] at made
      cases made
  | ok plain =>
      rw [built] at made
      cases made
      simp only [ExecutionContext.watched, Code.watched, SortedMap.get?_mapValues,
        Option.map_eq_some_iff] at known
      obtain ⟨inner, known, rfl⟩ := known
      exact ⟨inner, offers number owner { plain with serial := number } name inner
        (by rw [Recipe.factory, built]; rfl) known, rfl⟩

namespace Hosted

/-- If every flow in its contexts is demanding, following a decision calls flow logic once, and at
most once more for each item that waits to be consumed. A limit above that stops nothing and changes
nothing, and so it is for events, which bring one item at most. -/
theorem called_within_backlog {recipe : Recipe σ} (demanding : recipe.Offers Flow.Demanding)
    (settings : Settings) :
    (∀ (prepared : Prepared) (host : Host (σ × List Call)), (host.Stocked recipe.watched fun _ entry =>
        ∃ flow : Flow σ, flow.Demanding ∧ entry.fiber.logic = flow.watched) →
      ((follow settings prepared).run.run host).2.world.2.length ≤
        host.world.2.length + (1 + Checkpoint.backlog prepared.draft.checkpoint.sessions)) ∧
    ∀ host : Host σ, (host.Stocked recipe fun _ entry => entry.fiber.logic.Demanding) →
      (∀ prepared : Prepared,
        1 + Checkpoint.backlog prepared.draft.checkpoint.sessions ≤ settings.entryLimit →
        ((follow settings prepared).run.run host).1 ≠ .error .entryLimit ∧
        ∀ entryLimit, settings.entryLimit ≤ entryLimit →
          (follow { settings with entryLimit } prepared).run.run host =
            (follow settings prepared).run.run host) ∧
      ∀ event found, 2 + Checkpoint.backlogOf found ≤ settings.entryLimit →
        ((Plan.ofEvent settings event found).run.run host).1 ≠ .error .entryLimit ∧
        ∀ entryLimit, settings.entryLimit ≤ entryLimit →
          (Plan.ofEvent { settings with entryLimit } event found).run.run host =
            (Plan.ofEvent settings event found).run.run host := by
  refine ⟨fun prepared host stocked => ?_, fun host stocked => ?_⟩
  · have offers : recipe.watched.Offers (Flow.Frugal fun world => world.2.length) := by
      intro number owner exec name flow made known
      obtain ⟨plain, demanding, rfl⟩ := demanding.watched number owner exec name flow made known
      exact demanding.watched
    have stocked : host.Stocked recipe.watched fun _ entry =>
        entry.fiber.logic.Frugal fun world => world.2.length :=
      stocked.mono fun _ entry kept => by
        obtain ⟨flow, demanding, watched⟩ := kept
        rw [watched]
        exact demanding.watched
    rw [Nat.add_comm 1]
    exact (follow_within offers stocked settings prepared).most settings.entryLimit
  · have offers : recipe.Offers (Flow.Frugal fun _ => 0) :=
      fun _ _ _ _ _ made known => (demanding _ _ _ _ _ made known).frugal
    have stocked : host.Stocked recipe fun _ entry => entry.fiber.logic.Frugal fun _ => 0 :=
      stocked.mono fun _ _ kept => kept.frugal
    refine ⟨fun prepared enough => ?_, fun event found enough => ?_⟩
    · have within := follow_within offers stocked settings prepared
      rw [Nat.add_comm 1] at enough
      exact ⟨within.unstopped settings.entryLimit enough, fun entryLimit more =>
        within.same entryLimit settings.entryLimit (Nat.le_trans enough more) enough⟩
    · have within := Plan.ofEvent_within offers stocked settings event found
      rw [Nat.add_comm 2] at enough
      exact ⟨within.unstopped settings.entryLimit enough, fun entryLimit more =>
        within.same entryLimit settings.entryLimit (Nat.le_trans enough more) enough⟩

end Hosted

namespace Samples

theorem listen_demands {draft worked : Draft} {now : Timestamp} {heard state : Bytes}
    {request : Request} {after : Context} {left : Unit}
    (ran : (listen heard).run.run (Context.ofCheckpoint draft.checkpoint now, ()) =
      (.ok (.suspend state request), after, left))
    (effected : draft.applyEffects after.effects = .ok worked) :
    request.Demands worked.checkpoint.sessions := by
  simp only [listen, run_bind, Logic.run_context, Logic.run_ofFlow] at ran
  generalize shown : Context.ofCheckpoint draft.checkpoint now = ctx at ran
  cases received : ctx.receive ctx.initiator.toList with
  | error error =>
      rw [received] at ran
      cases ran
  | ok built =>
      rw [received] at ran
      cases ran
      subst shown
      cases effected
      obtain ⟨rfl, named, opens⟩ := Context.receive_open received
      refine ⟨named, fun id listed => ?_⟩
      obtain ⟨view, shown, isOpen⟩ := opens id listed
      simp only [Context.ofCheckpoint, SortedMap.get?_mapValues, Option.map_eq_some_iff] at shown
      obtain ⟨session, found, rfl⟩ := shown
      exact ⟨session, found, isOpen⟩

theorem minutes_demanding : minutes.Demanding := by
  rintro draft now state request effects worked ⟨input, logic, ⟨⟩, known, ran, rfl⟩ effected
  cases input with
  | start args =>
      cases known
      exact listen_demands (Prod.ext ran rfl) effected
  | resume heard value =>
      cases known
      cases value with
      | messages messages => exact listen_demands (Prod.ext ran rfl) effected
      | _ => cases ran

namespace Minutes

/-- Minutes that are to be started, with two octets and a close on their session. -/
def busy : Checkpoint :=
  let session : Session := Session.new ⟨"O=Bob", "g1"⟩
  { Checkpoint.new Echo.flow ⟨"O=Alice", "g1"⟩ "minutes" .epoch with
    startArgs := some []
    initiatedBy := some Echo.session
    sessions := .ofList [(Echo.session,
      ((session.buffer 1 (.data [7])).buffer 2 (.data [8])).buffer 3 .close)] }

/-- A host for minutes that are watched. -/
def host : Host (Unit × List Call) := .fresh (Recipe.watched execution) 1 1000 ((), [])

end Minutes

end Samples

namespace Hosted

open Samples

/-- The logic of minutes is called once, and once more for either octet and for the close. -/
theorem called_within_backlog_of_minutes :
    let run := (follow Echo.settings ⟨⟨Minutes.busy, []⟩, .start []⟩).run.run Minutes.host
    run.2.world.2.length = 4 ∧ run.2.world.2.length ≤ 0 + (1 + 3) := by
  refine ⟨by decide +kernel, ?_⟩
  have offers : Recipe.Offers Minutes.execution Flow.Demanding :=
    .of_single (fun _ _ _ made => by cases made; rfl) minutes_demanding
  exact (called_within_backlog offers Echo.settings).1 ⟨⟨Minutes.busy, []⟩, .start []⟩ Minutes.host
    (.fresh _ 1 1000 _)

end Hosted

end DurableFlow
