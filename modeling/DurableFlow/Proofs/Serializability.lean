import DurableFlow.Proofs.Handovers
import DurableFlow.Proofs.Replays
import DurableFlow.Samples.Echo

/-! # Interleavings are serializable

However the steps of errands interleave, the writes of every flow are those of a dispatcher of its own,
if the dispatchers keep no fibers and their contexts resolve to the same code. An errand may hold a
checkpoint that is no longer the last one, but only an errand that holds the last one can write, so the
writes of a flow are a line that a dispatcher of its own can follow. An errand that writes nothing hands
nothing over either, and one that writes hands its records over once: `Fleet.Ledger`.
-/

namespace DurableFlow

open Samples

namespace Fleet.Law

variable {δ : Type} {code : Identity → Code Unit}

/-- Dispatchers that keep no fibers and whose contexts resolve to the given code. -/
def resolving (code : Identity → Code Unit) : Law Unit δ where
  event _ := True
  host _ _ host := host.Resolves code
  plan _ settings event found commit := commit.PlannedOn code settings event found
  result _ := True

theorem resolving_kept (code : Identity → Code Unit) : (resolving code : Law Unit δ).Kept where
  leads planned := planned.leads
  outside _ := trivial
  append _ resolves := resolves
  change _ resolves := ⟨resolves.factory, resolves.contexts, resolves.cache⟩
  detach _ resolves := ⟨resolves.factory,
    fun _ _ known => resolves.contexts _ _ (SortedMap.get?_of_erase known), resolves.cache⟩
  beginMaintenance _ resolves := ⟨resolves.factory,
    fun _ _ known => resolves.contexts _ _ (SortedMap.get?_of_erase known), by
      rw [Host.beginMaintenance, resolves.cache]
      rfl⟩
  endMaintenance _ resolves := ⟨resolves.factory, resolves.contexts, resolves.cache⟩
  plans {_ _ event found host} settings _ resolves _ _ := by
    refine ⟨Plan.ofEvent_keeps_code resolves settings event found, ?_⟩
    rcases ran : (Plan.ofEvent settings event found).run.run host with
      ⟨stop | reason | commit, after⟩
    · trivial
    · trivial
    · exact ⟨host, after, resolves, ran⟩
  settles resolves _ _ _ := ⟨resolves.factory, resolves.contexts, by
    simp only [resolves.cache, Commit.settleCache_disabled]⟩

theorem Line.serial {flow : FlowId} {writes : List Write}
    (line : (resolving code : Law Unit δ).Line flow writes) : Serial code flow writes := by
  induction line with
  | nil => exact .nil
  | write line mine allowed planned ih => exact ih.write _ mine planned

end Fleet.Law

namespace Errand

variable {σ δ : Type}

/-- Nothing was written and nothing was handed over under a ticket. -/
structure Silent (writes : List Write) (handed : List (Handover δ)) (ticket : Nat) : Prop where
  writes : ∀ write ∈ writes, write.ticket ≠ ticket
  handed : Handover.batches handed ticket = []

/-- A write of an errand. -/
structure Wrote (writes : List Write) (ticket : Nat) (errand : Errand σ δ) (write : Write) : Prop where
  member : write ∈ writes
  ticket : write.ticket = ticket
  settings : write.settings = errand.settings
  event : write.event = errand.event

/-- What an errand has contributed: nothing, or one write, and then its records once it has ended. -/
inductive Contributes (moves : List (Fleet.Move σ δ)) (writes : List Write)
    (handed : List (Handover δ)) (ticket : Nat) (errand : Errand σ δ) : Prop where
  | nothing (silent : Silent writes handed ticket) (uncommitted : errand.stage.isCommitted = false)
  | written {write : Write} {commit : Commit σ} (wrote : errand.Wrote writes ticket write)
      (stage : errand.stage = .written commit write.checkpoint.version)
      (status : commit.checkpoint.status = write.checkpoint.status)
      (records : commit.records = write.records)
      (unpublished : Handover.batches handed ticket = [])
  | published {write : Write} {result : Except Stop ProcessingOutcome}
      (wrote : errand.Wrote writes ticket write) (stage : errand.stage = .ended result)
      (ended : result = .ok (.committed errand.event.flowId write.checkpoint.version
          write.checkpoint.status) ∨
        ∃ error, result = .error (.error (.publish errand.event.flowId error)))
      (published : Handover.batches handed ticket = write.batches)
  /-- It was told to break off after it had written. -/
  | brokenOff {write : Write} (aborted : ∃ error, .abort ticket error ∈ moves)
      (wrote : errand.Wrote writes ticket write)
      (stage : ∃ error, errand.stage = .ended (.error (.error (.store error))))
      (handed : Handover.batches handed ticket = [] ∨
        Handover.batches handed ticket = write.batches)

section Contributes

variable {moves : List (Fleet.Move σ δ)} {writes more : List Write}
  {handed further : List (Handover δ)} {ticket : Nat} {errand : Errand σ δ} {next : Stage σ}

theorem Wrote.mono {stage : Stage σ} {write : Write} (wrote : errand.Wrote writes ticket write)
    (grows : writes ⊆ more) : Wrote more ticket { errand with stage } write :=
  ⟨grows wrote.member, wrote.ticket, wrote.settings, wrote.event⟩

theorem Silent.append (silent : Silent writes handed ticket)
    (others : ∀ write ∈ more, write.ticket ≠ ticket)
    (unrelated : ∀ handover ∈ further, handover.ticket ≠ ticket) :
    Silent (writes ++ more) (handed ++ further) ticket :=
  ⟨fun write member => (List.mem_append.1 member).elim (silent.writes write) (others write),
    (Handover.batches_append_of_ne unrelated).trans silent.handed⟩

theorem Contributes.append (contributes : errand.Contributes moves writes handed ticket)
    (others : ∀ write ∈ more, write.ticket ≠ ticket)
    (unrelated : ∀ handover ∈ further, handover.ticket ≠ ticket) :
    errand.Contributes moves (writes ++ more) (handed ++ further) ticket := by
  have same : Handover.batches (handed ++ further) ticket = Handover.batches handed ticket :=
    Handover.batches_append_of_ne unrelated
  have grows := List.subset_append_left writes more
  cases contributes with
  | nothing silent uncommitted => exact .nothing (silent.append others unrelated) uncommitted
  | written wrote stage status records unpublished =>
      exact .written (wrote.mono grows) stage status records (same.trans unpublished)
  | published wrote stage ended published =>
      exact .published (wrote.mono grows) stage ended (same.trans published)
  | brokenOff aborted wrote stage batches =>
      exact .brokenOff aborted (wrote.mono grows) stage (same.symm ▸ batches)

theorem Contributes.proceed (contributes : errand.Contributes moves writes handed ticket)
    (quiet : errand.stage.Quiet next)
    (stays : errand.stage.isCommitted → next = errand.stage ∨ ∃ error,
      .abort ticket error ∈ moves ∧ next = .ended (.error (.error (.store error)))) :
    Contributes moves writes handed ticket { errand with stage := next } := by
  have same := List.Subset.refl writes
  cases contributes with
  | nothing silent uncommitted =>
      refine .nothing silent (Bool.eq_false_iff.2 fun committed => ?_)
      rw [quiet.committed committed] at uncommitted
      cases uncommitted
  | written wrote stage status records unpublished =>
      rcases stays (by rw [stage]; rfl) with rfl | ⟨error, aborted, rfl⟩
      · exact .written wrote stage status records unpublished
      · exact .brokenOff ⟨error, aborted⟩ (wrote.mono same) ⟨error, rfl⟩ (.inl unpublished)
  | published wrote stage ended published =>
      rcases stays (by rcases ended with rfl | ⟨_, rfl⟩ <;> rw [stage] <;> rfl) with
        rfl | ⟨error, aborted, rfl⟩
      · exact .published wrote stage ended published
      · exact .brokenOff ⟨error, aborted⟩ (wrote.mono same) ⟨error, rfl⟩ (.inr published)
  | brokenOff aborted wrote stage batches =>
      obtain ⟨error, stage⟩ := stage
      rw [stage] at quiet
      cases quiet with
      | goesOn further => cases next <;> simp [Stage.progress] at further
      | breaksOff | rests => exact .brokenOff aborted (wrote.mono same) ⟨_, rfl⟩ batches

theorem Contributes.write (contributes : errand.Contributes moves writes handed ticket)
    {commit : Commit σ} (stage : errand.stage = .planned commit) :
    (∀ write ∈ writes, write.ticket ≠ ticket) ∧
      Contributes moves
        (writes ++ [⟨ticket, errand.settings, errand.event, commit.written, commit.records⟩]) handed
        ticket { errand with stage := .written commit (commit.expected + 1) } := by
  cases contributes with
  | nothing silent =>
      exact ⟨silent.writes, .written
        ⟨List.mem_append_right _ List.mem_cons_self, rfl, rfl, rfl⟩ rfl rfl rfl silent.handed⟩
  | written wrote other | published wrote other =>
      rw [stage] at other
      cases other
  | brokenOff _ _ other =>
      obtain ⟨_, other⟩ := other
      rw [stage] at other
      cases other

theorem Contributes.publish (contributes : errand.Contributes moves writes handed ticket)
    {commit : Commit σ} {version : Nat} (stage : errand.stage = .written commit version)
    {result : Except Stop ProcessingOutcome}
    (ended : result = .ok (.committed errand.event.flowId version commit.checkpoint.status) ∨
      ∃ error, result = .error (.error (.publish errand.event.flowId error))) :
    Contributes moves writes (handed ++ errand.handed ticket) ticket
      { errand with stage := .ended result } := by
  cases contributes with
  | nothing silent uncommitted =>
      rw [stage] at uncommitted
      cases uncommitted
  | @written write _ wrote other status records unpublished =>
      rw [stage] at other
      cases other
      refine .published (wrote.mono (List.Subset.refl _)) rfl (by rwa [← status]) ?_
      rw [Handover.batches] at unpublished
      simp only [Handover.batches, List.filter_append, List.map_append, unpublished,
        List.nil_append, Errand.handed, stage, Write.batches, records]
      cases write.records.isEmpty <;> simp
  | published wrote other =>
      rw [stage] at other
      cases other
  | brokenOff _ _ other =>
      obtain ⟨_, other⟩ := other
      rw [stage] at other
      cases other

end Contributes

end Errand

namespace Fleet

variable {σ δ π : Type}

/-- Who has written and handed over what, after the moves that were made. -/
structure Ledger (moves : List (Move σ δ)) (log : List (Handover δ)) (fleet : Fleet σ δ π) :
    Prop where
  /-- No errand writes twice. -/
  tickets : (fleet.writes.map (·.ticket)).Nodup
  /-- A write has the settings and the event of its errand. -/
  written : ∀ write ∈ fleet.writes, ∃ errand, fleet.errands[write.ticket]? = some errand ∧
    write.settings = errand.settings ∧ write.event = errand.event
  /-- An errand that has ended has written once and handed its records over, or done neither, unless
  it was told to break off. -/
  contributes : ∀ ticket (errand : Errand σ δ), fleet.errands[ticket]? = some errand →
    errand.Contributes moves fleet.writes log ticket
  /-- Nothing is handed over but for an errand. -/
  handed : ∀ handover ∈ log, handover.ticket < fleet.errands.length

namespace Ledger

variable {fleet after : Fleet σ δ π} {moves : List (Move σ δ)} {log handed : List (Handover δ)}
  {more : List Write}

theorem launch (moves : List (Move σ δ)) (hosts : δ → Host σ) (published : π) :
    (Fleet.launch hosts published).Ledger moves [] where
  tickets := List.nodup_nil
  written _ member := by cases member
  contributes _ _ known := by cases known
  handed _ member := by cases member

theorem submits (ledger : fleet.Ledger moves log) {errand : Errand σ δ}
    (called : errand.stage = .called) (moved : after.errands = fleet.errands ++ [errand])
    (same : after.writes = fleet.writes) : after.Ledger moves log where
  tickets := same ▸ ledger.tickets
  written write member := by
    rw [same] at member
    obtain ⟨other, known, wrote⟩ := ledger.written write member
    have inside := (List.getElem?_eq_some_iff.1 known).1
    exact ⟨other, by rw [moved, List.getElem?_append_left inside, known], wrote⟩
  contributes ticket other known := by
    rw [moved, List.getElem?_append] at known
    rw [same]
    split at known
    next => exact ledger.contributes ticket other known
    next fresh =>
      -- Neither a write nor a handover can have a ticket that was not given out yet.
      rw [List.mem_singleton.1 (List.mem_of_getElem? known)]
      refine .nothing ⟨fun write member here => fresh ?_, ?_⟩ (by rw [called]; rfl)
      · obtain ⟨_, known, _⟩ := ledger.written write member
        exact here ▸ (List.getElem?_eq_some_iff.1 known).1
      · refine List.map_eq_nil_iff.2 (List.filter_eq_nil_iff.2 fun handover member here => fresh ?_)
        exact of_decide_eq_true here ▸ ledger.handed handover member
  handed handover member := by
    rw [moved, List.length_append]
    exact Nat.lt_add_right _ (ledger.handed handover member)

/-- An errand moves on, and what is written and handed over meanwhile is its own. -/
theorem proceeds (ledger : fleet.Ledger moves log) {ticket : Nat} {errand : Errand σ δ}
    {next : Stage σ} (known : fleet.errands[ticket]? = some errand)
    (moved : after.errands = fleet.errands.set ticket { errand with stage := next })
    (written : after.writes = fleet.writes ++ more)
    (own : ∀ write ∈ more,
      write.ticket = ticket ∧ write.settings = errand.settings ∧ write.event = errand.event)
    (ours : ∀ handover ∈ handed, handover.ticket = ticket)
    (tickets : ((fleet.writes ++ more).map (·.ticket)).Nodup)
    (contributes : Errand.Contributes moves (fleet.writes ++ more) (log ++ handed) ticket
      { errand with stage := next }) : after.Ledger moves (log ++ handed) where
  tickets := written ▸ tickets
  written write member := by
    rw [written] at member
    rw [moved, get?_set known]
    rcases List.mem_append.1 member with before | now
    · obtain ⟨other, found, wrote⟩ := ledger.written write before
      split
      next here =>
        subst here
        cases known.symm.trans found
        exact ⟨_, rfl, wrote⟩
      next => exact ⟨other, found, wrote⟩
    · obtain ⟨here, wrote⟩ := own write now
      exact ⟨_, if_pos here.symm, wrote⟩
  contributes place other found := by
    rw [moved, get?_set known] at found
    rw [written]
    split at found
    next here =>
      subst here
      cases found
      exact contributes
    next elsewhere =>
      refine (ledger.contributes place other found).append (fun write now => ?_) fun handover now => ?_
      · rw [(own write now).1]
        exact elsewhere
      · rw [ours handover now]
        exact elsewhere
  handed handover member := by
    rw [moved, List.length_set]
    rcases List.mem_append.1 member with before | now
    · exact ledger.handed handover before
    · rw [ours handover now]
      exact (List.getElem?_eq_some_iff.1 known).1

theorem step (ledger : fleet.Ledger moves log) {move : Move σ δ} (among : move ∈ moves)
    {errands : List (Errand σ δ)} (steps : fleet.Steps move errands more handed)
    (moved : after.errands = errands) (written : after.writes = fleet.writes ++ more) :
    after.Ledger moves (log ++ handed) := by
  cases steps with
  | rests =>
      rw [List.append_nil] at written ⊢
      refine ⟨?_, ?_, ?_, ?_⟩
      all_goals simp only [moved, written]
      · exact ledger.tickets
      · exact ledger.written
      · exact ledger.contributes
      · exact ledger.handed
  | submits called =>
      rw [List.append_nil] at written ⊢
      exact ledger.submits called moved written
  | @moves ticket errand next known quiet stays =>
      refine ledger.proceeds known moved written (fun _ now => by cases now)
        (fun _ now => by cases now) (by simpa using ledger.tickets) ?_
      rw [List.append_nil, List.append_nil]
      refine (ledger.contributes ticket errand known).proceed quiet fun committed => ?_
      rcases stays committed with same | ⟨error, rfl, broken⟩
      · exact .inl same
      · exact .inr ⟨error, among, broken⟩
  | @writes ticket errand commit known stage admitted =>
      obtain ⟨fresh, contributes⟩ := (ledger.contributes ticket errand known).write stage
      refine ledger.proceeds known moved written (fun write now => ?_) (fun _ now => by cases now)
        ?_ (by rwa [List.append_nil])
      · rw [List.mem_singleton.1 now]
        exact ⟨rfl, rfl, rfl⟩
      · rw [List.map_append, List.nodup_append]
        refine ⟨ledger.tickets, List.nodup_singleton _, fun _ old _ new same => ?_⟩
        obtain ⟨write, member, rfl⟩ := List.mem_map.1 old
        rw [List.map_singleton, List.mem_singleton] at new
        exact fresh write member (same.trans new)
  | @publishes ticket errand commit version result known stage ended =>
      refine ledger.proceeds known moved written (fun _ now => by cases now)
        (fun handover now => (Errand.of_handed stage now).1) (by simpa using ledger.tickets) ?_
      rw [List.append_nil]
      exact (ledger.contributes ticket errand known).publish stage ended

end Ledger

/-- A fleet that keeps no fibers and has handled nothing yet, in which every dispatcher has its own
contexts. -/
def launchBare (recipes : δ → Recipe Unit) (published : π) : Fleet Unit δ π :=
  launch (fun dispatcher => ⟨.new (recipes dispatcher).factory, .disabled, ()⟩) published

/-- The interleaving has come to what a dispatcher of its own for every flow would have come to. -/
structure Serializable (code : Identity → Code Unit) (publishers : δ → Publisher π) (initial : π)
    (moves : List (Move Unit δ)) (log : List (Handover δ)) (fleet : Fleet Unit δ π) : Prop
    extends fleet.Ledger moves log where
  /-- The writes of a flow have the versions from one on. -/
  versions : ∀ flow, let writes := Write.ofFlow fleet.writes flow
    writes.map (·.checkpoint.version) = List.range' 1 writes.length
  /-- A single dispatcher that is given the events of the writes of a flow, in their order, has the
  same results, stores the same checkpoints and publishes the same records. -/
  replayed : ∀ flow, let writes := Write.ofFlow fleet.writes flow
    (replay (writes.map fun write => (write.settings, write.event)) (.alone code)).1 =
      writes.map Write.account
  /-- The last write of a flow is what is stored. -/
  stored : ∀ flow, fleet.stored.get? flow = Write.last? (Write.ofFlow fleet.writes flow)
  /-- The publishers have been handed just what was handed over. -/
  published : fleet.published = log.foldl (Handover.deliver publishers) initial

variable [DecidableEq δ]

theorem ledger_run (publishers : δ → Publisher π) (hosts : δ → Host σ) (published : π)
    (moves : List (Move σ δ)) :
    ((Fleet.launch hosts published).run publishers moves).Ledger moves
      ((Fleet.launch hosts published).handed publishers moves) := by
  refine run_handed publishers (P := fun fleet log => fleet.Ledger moves log) moves []
    (fun fleet log move among ledger => ?_) (.launch moves hosts published)
  obtain ⟨more, written, steps, _⟩ := step_steps publishers fleet move
  exact ledger.step among steps rfl written

/-- Dispatchers that share a store are serializable, however their steps interleave: flow by flow,
they have written and published what a single dispatcher would have that is given the committed
events only, in the order of their versions. -/
theorem serializable_of_run (code : Identity → Code Unit) (recipes : δ → Recipe Unit)
    (resolves : ∀ dispatcher number owner exec, recipes dispatcher number owner = .ok exec →
      exec.code = code owner)
    (publishers : δ → Publisher π) (initial : π) (moves : List (Move Unit δ)) :
    ((launchBare recipes initial).run publishers moves).Serializable code publishers initial moves
      ((launchBare recipes initial).handed publishers moves) := by
  have launched : (Law.resolving code).Sound (launchBare recipes initial) := by
    refine Law.sound_launch _ _ fun dispatcher => ⟨fun number owner exec made => ?_,
      fun _ _ known => (by cases known), rfl⟩
    obtain ⟨_, plain, known, registry, serializer⟩ := Recipe.factory_ok made
    rw [← resolves dispatcher number owner plain known, ExecutionContext.code, registry, serializer]
    rfl
  have sound := Law.sound_of_run (Law.resolving_kept code) publishers launched moves
    fun _ _ _ _ => trivial
  exact {
    toLedger := ledger_run publishers _ initial moves
    versions := fun flow => (sound.lines flow).serial.versions
    replayed := fun flow => by
      obtain ⟨site, same, _⟩ := (sound.lines flow).serial.replays
      exact congrArg Prod.fst same
    stored := sound.stored
    published := published_run publishers _ moves }

/-- Two dispatchers start the same echo, and the second one is late. -/
theorem serializable_of_late_start :
    let moves : List (Move Unit Bool) := [.submit false Echo.settings Echo.begin,
      .submit true Echo.settings Echo.begin, .advance 0, .advance 1, .advance 0, .advance 1,
      .advance 0, .advance 1, .advance 0]
    let start := launchBare (fun _ : Bool => Echo.execution) []
    let fleet := start.run (fun _ => .collecting) moves
    fleet.Serializable (fun _ => ⟨.ofList [("echo", echo)], .json⟩) (fun _ => .collecting) [] moves
        (start.handed (fun _ => .collecting) moves) ∧
      fleet.writes.map (·.ticket) = [0] := by
  intro moves start fleet
  refine ⟨serializable_of_run _ (fun _ => Echo.execution) ?_ _ [] moves, by decide +kernel⟩
  rintro dispatcher number owner exec ⟨⟩
  rfl

end Fleet

end DurableFlow
