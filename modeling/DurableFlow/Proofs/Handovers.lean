import Mathlib.Data.List.Flatten
import Mathlib.Data.List.Perm.Subperm
import DurableFlow.Proofs.Fleets

/-! # What a fleet hands over

Step by step a fleet writes checkpoints and hands the records of what was written over to publishers:
`Fleet.Steps` lists all that a move can do to the errands, and every fact about batches is read off
this list. A batch is handed over after its write and by the errand that wrote it, once at most:
`Fleet.Logged`.
-/

namespace DurableFlow

variable {σ δ π : Type}

/-- Whether the checkpoint of an errand has been written, be its records handed over or not. -/
def Stage.isCommitted : Stage σ → Bool
  | .written _ _ => true
  | .ended (.ok (.committed _ _ _)) => true
  | .ended (.error (.error (.publish _ _))) => true
  | _ => false

theorem Stage.isCommitted_of_stop {stop : Stop}
    (unpublished : ∀ id error, stop ≠ .error (.publish id error)) :
    (Stage.ended (.error stop) : Stage σ).isCommitted = false := by
  unfold isCommitted
  split
  next same => cases same
  next same => cases same
  next id error same =>
    cases same
    exact absurd rfl (unpublished id error)
  · rfl

/-- How far an errand has come. -/
def Stage.progress : Stage σ → Nat
  | .called => 0
  | .loaded _ => 1
  | .planned _ => 2
  | .written _ _ => 3
  | .ended _ => 4

/-- The ways in which an errand moves on without a write: it gets further, it breaks off, or it has
ended before. -/
inductive Stage.Quiet : Stage σ → Stage σ → Prop where
  | goesOn {before after : Stage σ} (further : before.progress < after.progress)
      (uncommitted : after.isCommitted = false) : Quiet before after
  | breaksOff {before : Stage σ} {error : StoreError} :
      Quiet before (.ended (.error (.error (.store error))))
  | rests {result : Except Stop ProcessingOutcome} : Quiet (.ended result) (.ended result)

namespace Stage.Quiet

variable {before after : Stage σ}

theorem unwritten (quiet : before.Quiet after) (commit : Commit σ) (version : Nat) :
    after ≠ .written commit version := by
  rintro rfl
  cases quiet with
  | goesOn further uncommitted => cases uncommitted

theorem committed (quiet : before.Quiet after) (committed : after.isCommitted) :
    before.isCommitted := by
  cases quiet with
  | goesOn further uncommitted =>
      rw [uncommitted] at committed
      cases committed
  | breaksOff => cases committed
  | rests => exact committed

theorem ends (quiet : before.Quiet after) (planned : 2 ≤ before.progress) :
    ∃ result, after = .ended result := by
  cases quiet with
  | goesOn further uncommitted =>
      cases after with
      | called | loaded | planned =>
          have early := Nat.lt_of_le_of_lt planned further
          simp [progress] at early
      | written => cases uncommitted
      | ended result => exact ⟨result, rfl⟩
  | breaksOff | rests => exact ⟨_, rfl⟩

theorem ended (quiet : before.Quiet after) {result : Except Stop ProcessingOutcome}
    (done : before = .ended result) : ∃ result, after = .ended result :=
  quiet.ends (by simp [done, progress])

end Stage.Quiet

/-- What is handed over as an errand moves on. -/
def Errand.handed (errand : Errand σ δ) (ticket : Nat) : List (Handover δ) :=
  match errand.stage with
  | .written commit _ =>
    if commit.records.isEmpty then [] else [⟨errand.dispatcher, ticket, commit.records⟩]
  | _ => []

theorem Errand.handed_of_unwritten {errand : Errand σ δ}
    (unwritten : ∀ commit version, errand.stage ≠ .written commit version) (ticket : Nat) :
    errand.handed ticket = [] := by
  unfold handed
  split
  next commit version stage => exact absurd stage (unwritten commit version)
  · rfl

theorem Errand.of_handed {errand : Errand σ δ} {ticket : Nat} {handover : Handover δ}
    {commit : Commit σ} {version : Nat} (stage : errand.stage = .written commit version)
    (member : handover ∈ errand.handed ticket) :
    handover.ticket = ticket ∧ handover.records = commit.records := by
  rw [handed, stage] at member
  simp only at member
  split at member
  · cases member
  · rw [List.mem_singleton] at member
    rw [member]
    exact ⟨rfl, rfl⟩

namespace Fleet

/-- What is handed over in a move. -/
def handover (fleet : Fleet σ δ π) : Move σ δ → List (Handover δ)
  | .advance ticket =>
    match fleet.errands[ticket]? with
    | some errand => errand.handed ticket
    | none => []
  | _ => []

/-- All that a move can do to the errands of a fleet, with what is written and handed over then. -/
inductive Steps (fleet : Fleet σ δ π) (move : Move σ δ) :
    List (Errand σ δ) → List Write → List (Handover δ) → Prop where
  | rests : Steps fleet move fleet.errands [] []
  | submits {errand : Errand σ δ} (called : errand.stage = .called) :
      Steps fleet move (fleet.errands ++ [errand]) [] []
  /-- An errand that has written stays as it is, unless it is told to break off. -/
  | moves {ticket : Nat} {errand : Errand σ δ} {next : Stage σ}
      (known : fleet.errands[ticket]? = some errand) (quiet : errand.stage.Quiet next)
      (stays : errand.stage.isCommitted → next = errand.stage ∨ ∃ error,
        move = .abort ticket error ∧ next = .ended (.error (.error (.store error)))) :
      Steps fleet move (fleet.errands.set ticket { errand with stage := next }) [] []
  | writes {ticket : Nat} {errand : Errand σ δ} {commit : Commit σ}
      (known : fleet.errands[ticket]? = some errand) (stage : errand.stage = .planned commit)
      (admitted : fleet.stored.admits commit.checkpoint.flowId commit.expected) :
      Steps fleet move
        (fleet.errands.set ticket { errand with stage := .written commit (commit.expected + 1) })
        [⟨ticket, errand.settings, errand.event, commit.written, commit.records⟩] []
  | publishes {ticket : Nat} {errand : Errand σ δ} {commit : Commit σ} {version : Nat}
      {result : Except Stop ProcessingOutcome}
      (known : fleet.errands[ticket]? = some errand) (stage : errand.stage = .written commit version)
      (ended : result =
          .ok (.committed errand.event.flowId version commit.checkpoint.status) ∨
        ∃ error, result = .error (.error (.publish errand.event.flowId error))) :
      Steps fleet move (fleet.errands.set ticket { errand with stage := .ended result }) []
        (errand.handed ticket)

variable [DecidableEq δ] (publishers : δ → Publisher π)

/-- What is handed over in one move after another. -/
def handed (fleet : Fleet σ δ π) : List (Move σ δ) → List (Handover δ)
  | [] => []
  | move :: rest => fleet.handover move ++ (fleet.step publishers move).handed rest

theorem advance_steps (fleet : Fleet σ δ π) (ticket : Nat) :
    ∃ more, (fleet.advance publishers ticket).writes = fleet.writes ++ more ∧
      fleet.Steps (.advance ticket) (fleet.advance publishers ticket).errands more
        (fleet.handover (.advance ticket)) ∧
      (fleet.advance publishers ticket).published =
        (fleet.handover (.advance ticket)).foldl (Handover.deliver publishers) fleet.published := by
  cases known : fleet.errands[ticket]? with
  | none =>
      simp only [advance, handover, known]
      exact ⟨[], (List.append_nil _).symm, .rests, rfl⟩
  | some errand =>
      have advances := Services.advance_advances (publishers errand.dispatcher) errand.settings
        errand.event (fleet.site errand.dispatcher) errand.stage
      simp only [advance, handover, known]
      generalize Services.advance _ _ _ _ _ = after at advances
      obtain ⟨next, site⟩ := after
      simp only [moved, Errand.writes]
      refine ⟨_, rfl, ?_⟩
      generalize stage : errand.stage = before at advances
      have quiet {next : Stage σ} (further : before.progress < next.progress)
          (uncommitted : next.isCommitted = false) : errand.stage.Quiet next :=
        .goesOn (stage ▸ further) uncommitted
      have early {P : Prop} (uncommitted : before.isCommitted = false)
          (committed : errand.stage.isCommitted) : P := by
        rw [stage, uncommitted] at committed
        cases committed
      have silent (unwritten : ∀ commit version, before ≠ .written commit version) :
          errand.handed ticket = [] :=
        Errand.handed_of_unwritten (fun commit version => stage ▸ unwritten commit version) ticket
      cases advances with
      | load | discard | plan | conflict =>
          rw [silent fun _ _ same => by cases same]
          exact ⟨.moves known (quiet (by simp [Stage.progress]) rfl) (early rfl), rfl⟩
      | stop ran =>
          rw [silent fun _ _ same => by cases same]
          -- Planning publishes nothing, so it does not fail to publish either.
          refine ⟨.moves known (quiet (by simp [Stage.progress]) ?_) (early rfl), rfl⟩
          exact Stage.isCommitted_of_stop (Plan.unpublished_of_stop ran)
      | write admitted =>
          rw [silent fun _ _ same => by cases same]
          exact ⟨.writes known stage admitted, rfl⟩
      | @publish commit version result ended =>
          refine ⟨.publishes known stage ended, ?_⟩
          cases empty : commit.records.isEmpty <;>
            simp [Errand.handed, stage, empty, Handover.deliver, Fleet.site]
      | rest =>
          rw [silent fun _ _ same => by cases same]
          exact ⟨.moves known (stage ▸ .rests) fun _ => .inl stage.symm, rfl⟩

theorem step_steps (fleet : Fleet σ δ π) (move : Move σ δ) :
    ∃ more, (fleet.step publishers move).writes = fleet.writes ++ more ∧
      fleet.Steps move (fleet.step publishers move).errands more (fleet.handover move) ∧
      (fleet.step publishers move).published =
        (fleet.handover move).foldl (Handover.deliver publishers) fleet.published := by
  cases move with
  | submit dispatcher settings event => exact ⟨[], (List.append_nil _).symm, .submits rfl, rfl⟩
  | advance ticket => exact advance_steps publishers fleet ticket
  | abort ticket error =>
      refine ⟨[], (List.append_nil _).symm, ?_, rfl⟩
      simp only [step, abort, List.modify_eq_set_getElem?]
      cases known : fleet.errands[ticket]? with
      | none => exact .rests
      | some errand => exact .moves known .breaksOff fun _ => .inr ⟨error, rfl, rfl⟩
  | beginMaintenance dispatcher owner attached =>
      cases attached <;> exact ⟨[], (List.append_nil _).symm, .rests, rfl⟩
  | endMaintenance dispatcher owner => exact ⟨[], (List.append_nil _).symm, .rests, rfl⟩
  | change dispatcher world => exact ⟨[], (List.append_nil _).symm, .rests, rfl⟩

theorem run_append (fleet : Fleet σ δ π) (moves later : List (Move σ δ)) :
    fleet.run publishers (moves ++ later) = (fleet.run publishers moves).run publishers later :=
  List.foldl_append

/-- What every move keeps, of a fleet and of all that was handed over so far, a run keeps. -/
theorem run_handed {P : Fleet σ δ π → List (Handover δ) → Prop} (moves : List (Move σ δ))
    (log : List (Handover δ)) (step : ∀ fleet log, ∀ move ∈ moves, P fleet log →
      P (fleet.step publishers move) (log ++ fleet.handover move))
    {fleet : Fleet σ δ π} (start : P fleet log) :
    P (fleet.run publishers moves) (log ++ fleet.handed publishers moves) := by
  induction moves generalizing fleet log with
  | nil =>
      rw [handed, List.append_nil]
      exact start
  | cons move rest ih =>
      rw [handed, ← List.append_assoc]
      refine ih _ (fun fleet log later member => step fleet log later (List.mem_cons_of_mem _ member)) ?_
      exact step fleet log move List.mem_cons_self start

theorem writes_run (fleet : Fleet σ δ π) (moves : List (Move σ δ)) :
    ∃ more, (fleet.run publishers moves).writes = fleet.writes ++ more := by
  refine run_handed publishers (P := fun after _ => ∃ more, after.writes = fleet.writes ++ more)
    moves [] (fun after _ move _ ⟨more, grown⟩ => ?_) ⟨[], (List.append_nil _).symm⟩
  obtain ⟨further, written, _⟩ := step_steps publishers after move
  exact ⟨more ++ further, by rw [written, grown, List.append_assoc]⟩

/-- What the publishers have come to is what they have been handed. -/
theorem published_run (fleet : Fleet σ δ π) (moves : List (Move σ δ)) :
    (fleet.run publishers moves).published =
      (fleet.handed publishers moves).foldl (Handover.deliver publishers) fleet.published := by
  have delivered := run_handed publishers
    (P := fun after log => after.published = log.foldl (Handover.deliver publishers) fleet.published)
    moves [] (fun after log move _ held => ?_) rfl
  · simpa using delivered
  · obtain ⟨_, _, _, published⟩ := step_steps publishers after move
    rw [published, held, List.foldl_append]

omit [DecidableEq δ] in
/-- What was handed over was written before, by the errand of the same ticket, which has ended; and an
errand that has just written has handed nothing over yet. -/
structure Logged (fleet : Fleet σ δ π) (log : List (Handover δ)) : Prop where
  awaits : ∀ ticket errand commit version, fleet.errands[ticket]? = some errand →
    errand.stage = .written commit version →
      (∃ write ∈ fleet.writes, write.ticket = ticket ∧ write.event = errand.event ∧
        write.records = commit.records) ∧ ∀ handover ∈ log, handover.ticket ≠ ticket
  wrote : ∀ handover ∈ log, (∃ errand result, fleet.errands[handover.ticket]? = some errand ∧
    errand.stage = .ended result) ∧
      ∃ write ∈ fleet.writes, write.ticket = handover.ticket ∧ write.records = handover.records
  once : (log.map (·.ticket)).Nodup

omit [DecidableEq δ] in
theorem get?_set {errands : List (Errand σ δ)} {ticket : Nat} {errand : Errand σ δ}
    (known : errands[ticket]? = some errand) (other : Errand σ δ) (place : Nat) :
    (errands.set ticket other)[place]? = if ticket = place then some other else errands[place]? := by
  obtain ⟨inside, _⟩ := List.getElem?_eq_some_iff.1 known
  rw [List.getElem?_set]
  simp only [inside, if_true]

namespace Logged

variable {fleet after : Fleet σ δ π} {log handed : List (Handover δ)} {errands : List (Errand σ δ)}
  {more : List Write}

omit [DecidableEq δ] in
theorem launch (hosts : δ → Host σ) (published : π) : (Fleet.launch hosts published).Logged [] where
  awaits _ _ _ _ known := by cases known
  wrote _ member := by cases member
  once := List.nodup_nil

omit [DecidableEq δ] in
theorem moves (logged : fleet.Logged log) {ticket : Nat} {errand : Errand σ δ} {next : Stage σ}
    (known : fleet.errands[ticket]? = some errand) (quiet : errand.stage.Quiet next)
    (moved : after.errands = fleet.errands.set ticket { errand with stage := next })
    (same : after.writes = fleet.writes) : after.Logged log where
  awaits place other commit version found stage := by
    rw [moved, get?_set known] at found
    rw [same]
    split at found
    · cases found
      exact absurd stage (quiet.unwritten commit version)
    · exact logged.awaits place other commit version found stage
  wrote handover member := by
    obtain ⟨⟨other, result, found, stage⟩, wrote⟩ := logged.wrote handover member
    rw [moved, get?_set known, same]
    refine ⟨?_, wrote⟩
    split
    next here =>
      subst here
      rw [known] at found
      cases found
      obtain ⟨result, ended⟩ := quiet.ended stage
      exact ⟨_, result, rfl, ended⟩
    next => exact ⟨other, result, found, stage⟩
  once := logged.once

omit [DecidableEq δ] in
theorem unhanded (logged : fleet.Logged log) {ticket : Nat} {errand : Errand σ δ}
    (known : fleet.errands[ticket]? = some errand) (going : ∀ result, errand.stage ≠ .ended result) :
    ∀ handover ∈ log, handover.ticket ≠ ticket := by
  rintro handover member rfl
  obtain ⟨⟨other, result, found, ended⟩, _⟩ := logged.wrote handover member
  rw [known] at found
  cases found
  exact going result ended

omit [DecidableEq δ] in
theorem submits (logged : fleet.Logged log) {errand : Errand σ δ} (called : errand.stage = .called)
    (moved : after.errands = fleet.errands ++ [errand]) (same : after.writes = fleet.writes) :
    after.Logged log where
  awaits place other commit version found stage := by
    rw [moved, List.getElem?_append] at found
    rw [same]
    split at found
    · exact logged.awaits place other commit version found stage
    · rw [List.mem_singleton.1 (List.mem_of_getElem? found), called] at stage
      cases stage
  wrote handover member := by
    obtain ⟨⟨other, result, found, stage⟩, wrote⟩ := logged.wrote handover member
    obtain ⟨inside, _⟩ := List.getElem?_eq_some_iff.1 found
    rw [moved, same, List.getElem?_append_left inside]
    exact ⟨⟨other, result, found, stage⟩, wrote⟩
  once := logged.once

omit [DecidableEq δ] in
theorem writes (logged : fleet.Logged log) {errand : Errand σ δ} {commit : Commit σ} {version : Nat}
    {write : Write} (known : fleet.errands[write.ticket]? = some errand)
    (stage : errand.stage = .planned commit)
    (moved : after.errands =
      fleet.errands.set write.ticket { errand with stage := .written commit version })
    (written : after.writes = fleet.writes ++ [write]) (event : write.event = errand.event)
    (records : write.records = commit.records) : after.Logged log := by
  have unhanded := logged.unhanded known fun result ended => by
    rw [stage] at ended
    cases ended
  refine ⟨fun place other again version found ready => ?_, fun handover member => ?_, logged.once⟩
  · rw [moved, get?_set known] at found
    rw [written]
    split at found
    next here =>
      subst here
      cases found
      cases ready
      exact ⟨⟨write, List.mem_append_right _ List.mem_cons_self, rfl, event, records⟩, unhanded⟩
    next =>
      obtain ⟨⟨earlier, member, wrote⟩, apart⟩ := logged.awaits place other again version found ready
      exact ⟨⟨earlier, List.mem_append_left _ member, wrote⟩, apart⟩
  · obtain ⟨ended, earlier, among, wrote⟩ := logged.wrote handover member
    rw [moved, get?_set known, if_neg (unhanded handover member).symm, written]
    exact ⟨ended, earlier, List.mem_append_left _ among, wrote⟩

omit [DecidableEq δ] in
theorem publishes (logged : fleet.Logged log) {ticket : Nat} {errand : Errand σ δ} {commit : Commit σ}
    {version : Nat} {result : Except Stop ProcessingOutcome}
    (known : fleet.errands[ticket]? = some errand) (stage : errand.stage = .written commit version)
    (moved : after.errands = fleet.errands.set ticket { errand with stage := .ended result })
    (same : after.writes = fleet.writes) : after.Logged (log ++ errand.handed ticket) := by
  obtain ⟨wrote, apart⟩ := logged.awaits ticket errand commit version known stage
  have batch (handover : Handover δ) (member : handover ∈ errand.handed ticket) :=
    Errand.of_handed stage member
  refine ⟨fun place other commit version found again => ?_, fun handover member => ?_, ?_⟩
  · rw [moved, get?_set known] at found
    rw [same]
    split at found
    · cases found
      cases again
    next elsewhere =>
      obtain ⟨wrote, apart⟩ := logged.awaits place other commit version found again
      refine ⟨wrote, fun handover member => ?_⟩
      rcases List.mem_append.1 member with before | now
      · exact apart handover before
      · rw [(batch handover now).1]
        exact elsewhere
  · rw [moved, get?_set known, same]
    rcases List.mem_append.1 member with before | now
    · obtain ⟨ended, wrote⟩ := logged.wrote handover before
      rw [if_neg fun here => apart handover before here.symm]
      exact ⟨ended, wrote⟩
    · obtain ⟨here, records⟩ := batch handover now
      rw [if_pos here.symm, here, records]
      obtain ⟨write, among, ticket, _, records⟩ := wrote
      exact ⟨⟨_, _, rfl, rfl⟩, write, among, ticket, records⟩
  · rw [List.map_append, List.nodup_append]
    refine ⟨logged.once, ?_, fun first before second now same => ?_⟩
    · unfold Errand.handed
      rw [stage]
      simp only
      split <;> simp
    · obtain ⟨handover, among, rfl⟩ := List.mem_map.1 before
      obtain ⟨other, here, rfl⟩ := List.mem_map.1 now
      exact apart handover among (same.trans (batch other here).1)

omit [DecidableEq δ] in
theorem step (logged : fleet.Logged log) {move : Move σ δ}
    (steps : fleet.Steps move errands more handed)
    (moved : after.errands = errands) (written : after.writes = fleet.writes ++ more) :
    after.Logged (log ++ handed) := by
  cases steps with
  | rests =>
      rw [List.append_nil] at written ⊢
      refine ⟨?_, ?_, logged.once⟩
      · rw [moved, written]
        exact logged.awaits
      · rw [moved, written]
        exact logged.wrote
  | submits called =>
      rw [List.append_nil] at written ⊢
      exact logged.submits called moved written
  | moves known quiet =>
      rw [List.append_nil] at written ⊢
      exact logged.moves known quiet moved written
  | writes known stage admitted =>
      rw [List.append_nil]
      exact logged.writes known stage moved written rfl rfl
  | publishes known stage =>
      rw [List.append_nil] at written
      exact logged.publishes known stage moved written

omit [DecidableEq δ] in
/-- Of what was written, nothing is handed over twice. -/
theorem subperm (logged : fleet.Logged log) :
    (log.flatMap (·.records)).Subperm (fleet.writes.flatMap (·.records)) := by
  have each : ∀ {some : List (Handover δ)}, some ⊆ log → ∃ writes ⊆ fleet.writes,
      writes.map (·.ticket) = some.map (·.ticket) ∧
        writes.flatMap (·.records) = some.flatMap (·.records) := by
    intro some among
    induction some with
    | nil => exact ⟨[], by simp, rfl, rfl⟩
    | cons handover rest ih =>
        obtain ⟨writes, within, tickets, records⟩ :=
          ih fun other member => among (List.mem_cons_of_mem _ member)
        obtain ⟨_, write, member, ticket, batch⟩ := logged.wrote handover (among List.mem_cons_self)
        refine ⟨write :: writes, List.cons_subset.2 ⟨member, within⟩, ?_, ?_⟩
        · rw [List.map_cons, List.map_cons, ticket, tickets]
        · rw [List.flatMap_cons, List.flatMap_cons, batch, records]
  obtain ⟨writes, within, tickets, records⟩ := each (List.Subset.refl log)
  have once : writes.Nodup := .of_map (·.ticket) (tickets ▸ logged.once)
  obtain ⟨others, same, among⟩ := once.subperm within
  rw [← records]
  exact ⟨_, same.flatMap_right _, among.flatMap _⟩

end Logged

theorem logged_run (hosts : δ → Host σ) (published : π) (moves : List (Move σ δ)) :
    ((launch hosts published).run publishers moves).Logged
      ((launch hosts published).handed publishers moves) := by
  refine run_handed publishers (P := Logged) moves [] (fun fleet log move _ logged => ?_)
    (.launch hosts published)
  obtain ⟨more, written, steps, _⟩ := step_steps publishers fleet move
  exact logged.step steps rfl written

end Fleet

end DurableFlow
