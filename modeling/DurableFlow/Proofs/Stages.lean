import DurableFlow.Proofs.Sites

/-! # Handling an event step by step

Handling an event takes four steps: load, plan, write, publish. Between any two of them the store may
be used by others. A `Stage` is how far an event has come, and `Services.advance` takes the next step;
four steps without a break are `Services.handle`. All that a step can come to over a store in memory is
listed in `Stage.Advances`, which what is proved of steps is read off.
-/

namespace DurableFlow

open Stateful

variable {σ τ π : Type}

/-- How far the handling of an event has come. -/
inductive Stage (σ : Type) where
  | called
  | loaded (found : Option Checkpoint)
  | planned (commit : Commit σ)
  | written (commit : Commit σ) (version : Nat)
  | ended (result : Except Stop ProcessingOutcome)

namespace Services

variable (services : Services τ π) (settings : Settings) (event : Event)

/-- Take the next step of handling an event. -/
def advance (site : Site σ τ π) : Stage σ → Stage σ × Site σ τ π
  | .called =>
    match (services.load event.flowId).run.run site with
    | (.error stop, site) => (.ended (.error stop), site)
    | (.ok found, site) => (.loaded found, site)
  | .loaded found =>
    match (onHost (Plan.ofEvent settings event found) : Sited σ τ π (Plan σ)).run.run site with
    | (.error stop, site) => (.ended (.error stop), site)
    | (.ok (.discard reason), site) => (.ended (.ok (.discarded event.flowId reason)), site)
    | (.ok (.commit commit), site) => (.planned commit, site)
  | .planned commit =>
    match (services.save commit.checkpoint commit.expected).run.run site with
    | (.error stop, site) => (.ended (.error stop), site)
    | (.ok (.conflict current), site) =>
      (.ended (.error (.error (.conflict event.flowId commit.expected current))), site)
    | (.ok (.saved version), site) =>
      (.written commit version, { site with host := { site.host with
        cache := commit.settleCache version settings.instant site.host.cache } })
  | .written commit version =>
    let (result, site) := (services.publish event.flowId commit.records).run.run site
    (.ended (result.map fun _ => .committed event.flowId version commit.checkpoint.status), site)
  | .ended result => (.ended result, site)

/-- The steps from a stage on, without a break. -/
def steps : Nat → Stage σ × Site σ τ π → Stage σ × Site σ τ π
  | 0, now => now
  | count + 1, (stage, site) => steps count (services.advance settings event site stage)

theorem steps_ended (count : Nat) (result : Except Stop ProcessingOutcome) (site : Site σ τ π) :
    services.steps settings event count (.ended result, site) = (.ended result, site) := by
  induction count with
  | zero => rfl
  | succ count ih => exact ih

/-- Four steps without a break handle an event. -/
theorem steps_handle (site : Site σ τ π) :
    services.steps settings event 4 (.called, site) =
      (.ended ((services.handle settings event).run.run site).1,
        ((services.handle settings event).run.run site).2) := by
  rw [run_handle, steps, advance, run_load]
  rcases services.store.load event.flowId site.stored with ⟨error | found, stored⟩
  · exact steps_ended ..
  simp only [mapError_ok]
  rw [steps, advance, run_onHost]
  rcases (Plan.ofEvent settings event found).run.run site.host with ⟨stop | reason | commit, host⟩
  · exact steps_ended ..
  · exact steps_ended ..
  simp only
  rw [run_commit, steps, advance, run_save]
  rcases services.store.save commit.checkpoint commit.expected stored with
    ⟨error | version | current, stored⟩
  · exact steps_ended ..
  · rfl
  · exact steps_ended ..

end Services

/-- All that a step of handling an event can be over a store in memory. -/
inductive Stage.Advances (publisher : Publisher π) (settings : Settings) (event : Event)
    (site : Site σ Store π) : Stage σ → Stage σ → Site σ Store π → Prop where
  | load : Advances publisher settings event site .called
      (.loaded (site.stored.get? event.flowId)) site
  | stop {found : Option Checkpoint} {stop : Stop} {host : Host σ}
      (ran : (Plan.ofEvent settings event found).run.run site.host = (.error stop, host)) :
      Advances publisher settings event site (.loaded found) (.ended (.error stop))
        { site with host }
  | discard {found : Option Checkpoint} {reason : Refusal} {host : Host σ}
      (ran : (Plan.ofEvent settings event found).run.run site.host = (.ok (.discard reason), host)) :
      Advances publisher settings event site (.loaded found)
        (.ended (.ok (.discarded event.flowId reason))) { site with host }
  | plan {found : Option Checkpoint} {commit : Commit σ} {host : Host σ}
      (ran : (Plan.ofEvent settings event found).run.run site.host = (.ok (.commit commit), host)) :
      Advances publisher settings event site (.loaded found) (.planned commit) { site with host }
  | conflict {commit : Commit σ} {current : Option Nat} :
      Advances publisher settings event site (.planned commit)
        (.ended (.error (.error (.conflict event.flowId commit.expected current)))) site
  | write {commit : Commit σ}
      (admitted : site.stored.admits commit.checkpoint.flowId commit.expected) :
      Advances publisher settings event site (.planned commit)
        (.written commit (commit.expected + 1)) { site with
          host := { site.host with
            cache := commit.settleCache (commit.expected + 1) settings.instant site.host.cache }
          stored := site.stored.insert commit.checkpoint.flowId commit.written }
  | publish {commit : Commit σ} {version : Nat} {result : Except Stop ProcessingOutcome}
      (ended : result = .ok (.committed event.flowId version commit.checkpoint.status) ∨
        ∃ error, result = .error (.error (.publish event.flowId error))) :
      Advances publisher settings event site (.written commit version) (.ended result) { site with
        published := if commit.records.isEmpty then site.published
          else (publisher.publish commit.records site.published).2 }
  | rest {result : Except Stop ProcessingOutcome} :
      Advances publisher settings event site (.ended result) (.ended result) site

theorem Services.advance_advances (publisher : Publisher π) (settings : Settings)
    (event : Event) (site : Site σ Store π) (stage : Stage σ) :
    stage.Advances publisher settings event site
      (advance ⟨Store.inMemory, publisher⟩ settings event site stage).1
      (advance ⟨Store.inMemory, publisher⟩ settings event site stage).2 := by
  cases stage with
  | called => exact .load
  | loaded found =>
      rw [advance, run_onHost]
      rcases ran : (Plan.ofEvent settings event found).run.run site.host with
        ⟨stop | reason | commit, host⟩
      · exact .stop ran
      · exact .discard ran
      · exact .plan ran
  | planned commit =>
      simp only [advance, run_save, Store.inMemory_save, mapError_ok]
      by_cases admitted : site.stored.admits commit.checkpoint.flowId commit.expected
      · simp only [Store.save, if_pos admitted]
        exact .write admitted
      · simp only [Store.save, if_neg admitted]
        exact .conflict
  | written commit version =>
      rw [advance, run_publish]
      have publish (result : Except PublishError Unit) : Stage.Advances publisher settings event site
          (.written commit version) (.ended ((result.mapError fun error =>
            Stop.error (.publish event.flowId error)).map fun _ =>
              .committed event.flowId version commit.checkpoint.status)) { site with
            published := if commit.records.isEmpty then site.published
              else (publisher.publish commit.records site.published).2 } := by
        refine .publish ?_
        cases result with
        | ok done => exact .inl rfl
        | error error => exact .inr ⟨error, rfl⟩
      by_cases empty : commit.records.isEmpty
      · have published := publish (.ok ())
        rw [if_pos empty] at published ⊢
        exact published
      · have published := publish (publisher.publish commit.records site.published).1
        rw [if_neg empty] at published ⊢
        exact published
  | ended result => exact .rest

end DurableFlow
