import DurableFlow.Proofs.Caching

/-! # Histories

What a site has stored is the result of its commits. A history lists them, each with the stints of
flow logic that led to it. Every run has a history, `Services.exists_records`, and what each commit
keeps is true of all that is ever stored, `Services.Records.induction`.
-/

namespace DurableFlow

open Stateful Hosted

variable {σ π : Type}

/-- An event that was committed. -/
structure Deed (σ : Type) where
  settings : Settings
  event : Event
  /-- The checkpoint that was found. -/
  loaded : Option Checkpoint
  /-- The entries into flow logic. -/
  stints : List Stint
  commit : Commit σ

namespace Deed

/-- The checkpoint that was written. -/
def written (deed : Deed σ) : Checkpoint := deed.commit.written

/-- The deed is one that its event leads to, with the contexts that a host has. -/
def Happens (deed : Deed σ) (host : Host σ) : Prop :=
  Plan.Yields host.Gives deed.settings deed.event deed.loaded deed.stints deed.commit

end Deed

namespace Services

variable {recipe : Recipe σ}

/-- Handling an event changes nothing that is stored, or writes what the event has led to. -/
theorem handle_stored (publisher : Publisher π) {site : Site σ Store π} (coherent : site.Coherent recipe id)
    (settings : Settings) (event : Event) :
    let after := ((Services.handle ⟨Store.inMemory, publisher⟩ settings event).run.run site).2
    after.stored = site.stored ∨ ∃ deed : Deed σ, deed.settings = settings ∧ deed.event = event ∧
      deed.loaded = site.stored.get? event.flowId ∧ deed.Happens after.host ∧
      after.stored = site.stored.insert event.flowId deed.written := by
  have keyed : Store.Keyed site.stored := coherent.keyed
  simp only [run_handle, Store.inMemory_load]
  rcases planned : (Plan.ofEvent settings event (site.stored.get? event.flowId)).run.run site.host
    with ⟨stop | reason | commit, host⟩
  · exact .inl rfl
  · exact .inl rfl
  · obtain ⟨stints, yields⟩ :=
      Plan.ofEvent_yields coherent.orderly coherent.cache coherent.keyed planned
    have flowId := yields.flowId_eq (keyed _)
    simp only [run_commit, Store.inMemory_save]
    by_cases admits : Store.admits site.stored commit.checkpoint.flowId commit.expected
    · simp only [Store.save, if_pos admits]
      let deed : Deed σ := ⟨settings, event, site.stored.get? event.flowId, stints, commit⟩
      let settled : Site σ Store π := { site with
        host := { host with
          cache := commit.settleCache (commit.expected + 1) settings.instant host.cache }
        stored := site.stored.insert commit.checkpoint.flowId deed.written }
      obtain ⟨kept, stored⟩ :=
        Services.publish_keeps ⟨Store.inMemory, publisher⟩ event.flowId commit.records settled
      refine .inr ⟨deed, rfl, rfl, rfl, ?_,
        stored.trans (congrArg (site.stored.insert · deed.written) flowId)⟩
      change deed.Happens ((Services.publish ⟨Store.inMemory, publisher⟩ event.flowId
        commit.records).run.run settled).2.host
      rw [kept]
      exact yields
    · simp only [Store.save, if_neg admits]
      exact .inl trivial

/-- A history of a run: every moment changes nothing that is stored, or is the next deed. -/
inductive Records (services : Services Store π) :
    Site σ Store π → List Moment → List (Deed σ) → Prop where
  | done {site : Site σ Store π} : Records services site [] []
  | quiet {site : Site σ Store π} {moment : Moment} {rest : List Moment} {history : List (Deed σ)}
      (same : (services.live site moment).2.stored = site.stored)
      (later : Records services (services.live site moment).2 rest history) :
      Records services site (moment :: rest) history
  | deed {site : Site σ Store π} {deed : Deed σ} {rest : List Moment} {history : List (Deed σ)}
      (loaded : deed.loaded = site.stored.get? deed.event.flowId)
      (happens : deed.Happens (services.live site (.event deed.settings deed.event)).2.host)
      (written : (services.live site (.event deed.settings deed.event)).2.stored =
        site.stored.insert deed.event.flowId deed.written)
      (later : Records services (services.live site (.event deed.settings deed.event)).2 rest
        history) :
      Records services site (.event deed.settings deed.event :: rest) (deed :: history)

theorem live_coherent (publisher : Publisher π)
    (faithful : ∀ number owner exec, recipe number owner = .ok exec → exec.serializer.Faithful)
    {site : Site σ Store π} (coherent : site.Coherent recipe id) (moment : Moment) :
    (Services.live ⟨Store.inMemory, publisher⟩ site moment).2.Coherent recipe id :=
  (live_uncached Store.inMemory_shows faithful coherent moment).2

theorem exists_records (publisher : Publisher π)
    (faithful : ∀ number owner exec, recipe number owner = .ok exec → exec.serializer.Faithful)
    {site : Site σ Store π} (coherent : site.Coherent recipe id) (moments : List Moment) :
    ∃ history, Records ⟨Store.inMemory, publisher⟩ site moments history := by
  induction moments generalizing site with
  | nil => exact ⟨[], .done⟩
  | cons moment rest ih =>
      obtain ⟨history, records⟩ := ih (live_coherent publisher faithful coherent moment)
      cases moment with
      | event settings event =>
          rcases handle_stored publisher coherent settings event with
            same | ⟨deed, rfl, rfl, loaded, happens, written⟩
          · exact ⟨history, .quiet same records⟩
          · exact ⟨deed :: history, .deed loaded happens written records⟩
      | beginMaintenance owner attached =>
          cases attached <;> exact ⟨history, .quiet rfl records⟩
      | endMaintenance owner => exact ⟨history, .quiet rfl records⟩

theorem Records.induction_from {publisher : Publisher π}
    (faithful : ∀ number owner exec, recipe number owner = .ok exec → exec.serializer.Faithful)
    {P : List (Deed σ) → Option Checkpoint → Prop} {flow : FlowId}
    (step : ∀ past (deed : Deed σ) (host : Host σ), host.Orderly recipe → deed.Happens host →
      deed.event.flowId = flow → Checkpoint.IsOf deed.loaded flow → P past deed.loaded →
      P (past ++ [deed]) (some deed.written))
    {site : Site σ Store π} {moments : List Moment} {history : List (Deed σ)}
    (coherent : site.Coherent recipe id)
    (records : Records ⟨Store.inMemory, publisher⟩ site moments history) {past : List (Deed σ)}
    (start : P past (site.stored.get? flow)) :
    P (past ++ history.filter (·.event.flowId = flow))
      ((Services.run ⟨Store.inMemory, publisher⟩ moments site).2.stored.get? flow) := by
  induction records generalizing past with
  | done => simpa [run] using start
  | @quiet site moment rest history same later ih =>
      refine ih (live_coherent publisher faithful coherent moment) ?_
      rw [same]
      exact start
  | @deed site deed rest history loaded happens written later ih =>
      have coherent' := live_coherent publisher faithful coherent (.event deed.settings deed.event)
      by_cases mine : deed.event.flowId = flow
      · subst mine
        have isOf : Checkpoint.IsOf deed.loaded deed.event.flowId := by
          rw [loaded]
          exact coherent.keyed _
        have next := step past deed _ coherent'.orderly happens rfl isOf (by rw [loaded]; exact start)
        rw [List.filter_cons, if_pos (by simp), List.append_cons]
        refine ih coherent' ?_
        rw [written, SortedMap.get?_insert_self]
        exact next
      · rw [List.filter_cons, if_neg (by simp [mine])]
        refine ih coherent' ?_
        rw [written, SortedMap.get?_insert_of_ne _ _ (Ne.symm mine)]
        exact start

/-- What holds of a flow before its first deed and is kept by each of its deeds holds after any
run. -/
theorem Records.induction {publisher : Publisher π}
    (faithful : ∀ number owner exec, recipe number owner = .ok exec → exec.serializer.Faithful)
    {P : List (Deed σ) → Option Checkpoint → Prop} {flow : FlowId}
    (step : ∀ past (deed : Deed σ) (host : Host σ), host.Orderly recipe → deed.Happens host →
      deed.event.flowId = flow → Checkpoint.IsOf deed.loaded flow → P past deed.loaded →
      P (past ++ [deed]) (some deed.written))
    {site : Site σ Store π} {moments : List Moment} {history : List (Deed σ)}
    (coherent : site.Coherent recipe id)
    (records : Records ⟨Store.inMemory, publisher⟩ site moments history)
    (start : P [] (site.stored.get? flow)) :
    P (history.filter (·.event.flowId = flow))
      ((Services.run ⟨Store.inMemory, publisher⟩ moments site).2.stored.get? flow) :=
  records.induction_from faithful step coherent start

end Services

end DurableFlow
