import DurableFlow.Proofs.Provenance
import DurableFlow.Proofs.Stocks
import DurableFlow.Proofs.Tallies

/-! # The trials of the flows of a fleet

What flow logic comes to for an errand is settled when it plans: `Fleet.tried` gathers it over a run.
Only what was written counts, so the trials of a flow are those of its writes. Each of them was planned
on the one before and goes on with its count, `Fleet.Tried`.
-/

namespace DurableFlow

variable {σ δ π : Type}

/-- What flow logic comes to when an errand takes its next step on a host. -/
def Errand.outcomes (errand : Errand σ δ) (host : Host σ) : List FiberOutcome :=
  match errand.stage with
  | .loaded found => Plan.outcomes errand.settings errand.event found host
  | _ => []

/-- An errand under a configuration, and what flow logic has come to for it: nothing before it plans,
and the outcomes that its plan meets after that. -/
structure Errand.Tried (config : Config) (writes : List Write) (outcomes : List FiberOutcome)
    (errand : Errand σ δ) : Prop where
  config : errand.settings.config = config
  fresh : errand.stage.progress ≤ 1 → outcomes = []
  planned : ∀ commit, errand.stage = .planned commit →
    ∃ found, Write.Past (Write.ofFlow writes errand.event.flowId) found ∧
      Plan.Leads errand.settings errand.event found commit ∧
      commit.Meets errand.settings errand.event found outcomes

theorem Errand.Tried.append {config : Config} {writes : List Write} {outcomes : List FiberOutcome}
    {errand : Errand σ δ} (tried : errand.Tried config writes outcomes) (more : List Write) :
    errand.Tried config (writes ++ more) outcomes where
  config := tried.config
  fresh := tried.fresh
  planned commit stage := by
    obtain ⟨found, past, holds⟩ := tried.planned commit stage
    exact ⟨found, past.append, holds⟩

theorem Errand.Tried.past {config : Config} {writes : List Write} {outcomes : List FiberOutcome}
    {errand : Errand σ δ} (steady : errand.settings.config = config)
    (late : 3 ≤ errand.stage.progress) : errand.Tried config writes outcomes where
  config := steady
  fresh early := by omega
  planned commit stage := by
    rw [stage] at late
    simp [Stage.progress] at late

namespace Write

/-- What flow logic has come to for a write, given what it has come to for each errand. -/
def trials (log : Nat → List FiberOutcome) (write : Write) : List Trial :=
  write.settings.trials (log write.ticket)

/-- Writes under a configuration, each of which was planned on the one before and meets what flow logic
has come to for it. -/
def Chained (σ : Type) (config : Config) (log : Nat → List FiberOutcome) (writes : List Write) : Prop :=
  ∀ earlier write later, writes = earlier ++ write :: later → write.settings.config = config ∧
    ∃ commit : Commit σ, write.checkpoint = commit.written ∧
      commit.Meets write.settings write.event (last? earlier) (log write.ticket)

namespace Chained

variable {config : Config} {log log' : Nat → List FiberOutcome} {writes earlier later : List Write}
  {write : Write}

theorem nil : Chained σ config log [] := by
  intro earlier _ _ listed
  cases earlier <;> cases listed

theorem congr (chained : Chained σ config log writes)
    (same : ∀ write ∈ writes, log' write.ticket = log write.ticket) : Chained σ config log' writes := by
  intro earlier write later listed
  rw [same write (listed ▸ List.mem_append_right _ List.mem_cons_self)]
  exact chained earlier write later listed

theorem concat (chained : Chained σ config log writes) (steady : write.settings.config = config)
    {commit : Commit σ} (written : write.checkpoint = commit.written)
    (meets : commit.Meets write.settings write.event (last? writes) (log write.ticket)) :
    Chained σ config log (writes ++ [write]) := by
  intro earlier other later listed
  rcases List.eq_nil_or_concat later with rfl | ⟨init, last, rfl⟩
  · obtain ⟨rfl, new⟩ := List.append_inj' listed rfl
    cases new
    exact ⟨steady, commit, written, meets⟩
  · rw [List.concat_eq_append, ← List.cons_append, ← List.append_assoc] at listed
    exact chained earlier other init (List.append_inj' listed rfl).1

theorem counts_on (chained : Chained σ config log (earlier ++ write :: later))
    (before : ∀ cp, last? earlier = some cp → cp.Tallies config (earlier.flatMap (trials log))) :
    write.checkpoint.Tallies config ((earlier ++ [write]).flatMap (trials log)) ∧
      ∀ init last rest, write.trials log = init ++ last :: rest → last.isRetryable →
        rest = [] ∧ write.checkpoint.Spends config (earlier.flatMap (trials log) ++ init) := by
  obtain ⟨rfl, commit, written, meets⟩ := chained earlier write later rfl
  rw [written, List.flatMap_append, List.flatMap_singleton]
  refine meets.tallies before fun none => ?_
  have first : earlier = [] := by simpa [last?] using none
  rw [first]
  rfl

/-- Every checkpoint that was written tallies with the trials up to it. -/
theorem tallies (chained : Chained σ config log (earlier ++ later)) :
    ∀ cp, last? earlier = some cp → cp.Tallies config (earlier.flatMap (trials log)) := by
  induction earlier using List.reverseRecOn generalizing later with
  | nil =>
      intro cp impossible
      cases impossible
  | append_singleton earlier write ih =>
      rw [List.append_assoc] at chained
      intro cp last
      rw [last?, List.getLast?_concat, Option.map_some, Option.some.injEq] at last
      rw [← last]
      exact (chained.counts_on (ih chained)).1

end Chained

end Write

namespace Fleet

/-- What flow logic comes to for an errand in a move. -/
def tries (fleet : Fleet σ δ π) (ticket : Nat) : Move σ δ → List FiberOutcome
  | .advance other =>
    if other = ticket then
      match fleet.errands[ticket]? with
      | some errand => errand.outcomes (fleet.hosts errand.dispatcher)
      | none => []
    else []
  | _ => []

/-- The errands of a fleet, and the writes of each flow, with what flow logic has come to for them. -/
structure Tried (config : Config) (log : Nat → List FiberOutcome) (fleet : Fleet σ δ π) : Prop where
  errands : ∀ ticket (errand : Errand σ δ), fleet.errands[ticket]? = some errand →
    errand.Tried config fleet.writes (log ticket)
  unknown : ∀ ticket, fleet.errands[ticket]? = none → log ticket = []
  lines : ∀ flow, Write.Chained σ config log (Write.ofFlow fleet.writes flow)

variable [DecidableEq δ] (publishers : δ → Publisher π)

/-- What flow logic comes to for an errand in one move after another. -/
def tried (fleet : Fleet σ δ π) (ticket : Nat) : List (Move σ δ) → List FiberOutcome
  | [] => []
  | move :: rest => fleet.tries ticket move ++ (fleet.step publishers move).tried ticket rest

/-- What every move keeps, of a fleet and of what flow logic has come to so far, a run keeps. -/
theorem run_tried {P : Fleet σ δ π → (Nat → List FiberOutcome) → Prop} (moves : List (Move σ δ))
    (log : Nat → List FiberOutcome) (step : ∀ fleet log, ∀ move ∈ moves, P fleet log →
      P (fleet.step publishers move) fun ticket => log ticket ++ fleet.tries ticket move)
    {fleet : Fleet σ δ π} (start : P fleet log) :
    P (fleet.run publishers moves) fun ticket => log ticket ++ fleet.tried publishers ticket moves := by
  induction moves generalizing fleet log with
  | nil =>
      simp only [tried, List.append_nil]
      exact start
  | cons move rest ih =>
      simp only [tried, ← List.append_assoc]
      refine ih _ (fun fleet log later member => step fleet log later (List.mem_cons_of_mem _ member)) ?_
      exact step fleet log move List.mem_cons_self start

namespace Tried

variable {config : Config} {log : Nat → List FiberOutcome} {fleet after : Fleet σ δ π}

omit [DecidableEq δ]

theorem rests (tried : fleet.Tried config log) (same : after.errands = fleet.errands)
    (unwritten : after.writes = fleet.writes) : after.Tried config log where
  errands := by
    rw [same, unwritten]
    exact tried.errands
  unknown := by
    rw [same]
    exact tried.unknown
  lines := by
    rw [unwritten]
    exact tried.lines

theorem moves (tried : fleet.Tried config log) {ticket : Nat} {errand : Errand σ δ} {next : Stage σ}
    {more : List Write} {log' : Nat → List FiberOutcome}
    (known : fleet.errands[ticket]? = some errand)
    (others : ∀ other, other ≠ ticket → log' other = log other)
    (moved : after.errands = fleet.errands.set ticket { errand with stage := next })
    (written : after.writes = fleet.writes ++ more)
    (holds : Errand.Tried config after.writes (log' ticket) { errand with stage := next })
    (lines : ∀ flow, Write.Chained σ config log' (Write.ofFlow after.writes flow)) :
    after.Tried config log' where
  errands other errand' found := by
    rw [moved, get?_set known] at found
    split at found
    next here =>
      subst here
      cases found
      exact holds
    next elsewhere =>
      rw [others other (Ne.symm elsewhere), written]
      exact (tried.errands other errand' found).append more
  unknown other missing := by
    rw [moved, get?_set known] at missing
    split at missing
    · cases missing
    next elsewhere =>
      rw [others other (Ne.symm elsewhere)]
      exact tried.unknown other missing
  lines := lines

/-- A write that has gone through was planned on the last one of its flow. -/
theorem lines_concat (tried : fleet.Tried config log) (sound : Law.plain.Sound fleet) {ticket : Nat}
    {errand : Errand σ δ} {commit : Commit σ} (known : fleet.errands[ticket]? = some errand)
    (stage : errand.stage = .planned commit)
    (admitted : fleet.stored.admits commit.checkpoint.flowId commit.expected) (flow : FlowId) :
    Write.Chained σ config log (Write.ofFlow (fleet.writes ++
      [⟨ticket, errand.settings, errand.event, commit.written, commit.records⟩]) flow) := by
  rw [Write.ofFlow, List.filter_append, List.filter_cons]
  split
  next mine =>
    have mine : errand.event.flowId = flow := by simpa using mine
    subst mine
    have holds := tried.errands ticket errand known
    obtain ⟨found, past, leads, meets⟩ := holds.planned commit stage
    have isOf := (sound.lines errand.event.flowId).isOf Law.plain_kept.leads past
    rw [leads.flowId_eq isOf, leads.expected] at admitted
    rw [sound.found_eq_last Law.plain_kept.leads past admitted] at meets
    exact (tried.lines errand.event.flowId).concat holds.config rfl meets
  next =>
    rw [List.filter_nil, List.append_nil]
    exact tried.lines flow

theorem of_loaded (tried : fleet.Tried config log) (settled : fleet.Settled) {ticket : Nat}
    {errand : Errand σ δ} {found : Option Checkpoint} (known : fleet.errands[ticket]? = some errand)
    (stage : errand.stage = .loaded found) :
    log ticket = [] ∧ ∀ write ∈ fleet.writes, write.ticket ≠ ticket := by
  refine ⟨(tried.errands ticket errand known).fresh (by simp [stage, Stage.progress]), ?_⟩
  rintro write wrote rfl
  obtain ⟨_, known', done⟩ := settled write wrote
  cases known.symm.trans known'
  rw [stage] at done
  simp [Stage.progress] at done

theorem lines_of_loaded (tried : fleet.Tried config log) (settled : fleet.Settled) {ticket : Nat}
    {errand : Errand σ δ} {found : Option Checkpoint} (known : fleet.errands[ticket]? = some errand)
    (stage : errand.stage = .loaded found) {log' : Nat → List FiberOutcome}
    (others : ∀ other, other ≠ ticket → log' other = log other) (flow : FlowId) :
    Write.Chained σ config log' (Write.ofFlow fleet.writes flow) :=
  (tried.lines flow).congr fun write listed =>
    others _ ((tried.of_loaded settled known stage).2 write (List.mem_of_mem_filter listed))

variable [DecidableEq δ] (publishers : δ → Publisher π)

theorem advance (tried : fleet.Tried config log) (sound : Law.plain.Sound fleet)
    (settled : fleet.Settled) (ticket : Nat) :
    (fleet.advance publishers ticket).Tried config fun other =>
      log other ++ fleet.tries other (.advance ticket) := by
  have others (other : Nat) (elsewhere : other ≠ ticket) :
      log other ++ fleet.tries other (.advance ticket) = log other := by
    rw [tries, if_neg (Ne.symm elsewhere), List.append_nil]
  -- Flow logic is tried in planning only: every other step leaves the log as it is.
  have unloaded (idle : fleet.tries ticket (.advance ticket) = []) :
      (fun other => log other ++ fleet.tries other (.advance ticket)) = log := by
    funext other
    by_cases here : other = ticket
    · rw [here, idle, List.append_nil]
    · exact others other here
  cases known : fleet.errands[ticket]? with
  | none =>
      rw [unloaded (by simp [tries, known])]
      simp only [Fleet.advance, known]
      exact tried
  | some errand =>
      have holds := tried.errands ticket errand known
      have member := List.mem_of_getElem? known
      have here : fleet.tries ticket (.advance ticket) =
          errand.outcomes (fleet.hosts errand.dispatcher) := by simp [tries, known]
      have advances := Services.advance_advances (publishers errand.dispatcher) errand.settings
        errand.event (fleet.site errand.dispatcher) errand.stage
      simp only [Fleet.advance, known]
      generalize Services.advance _ _ _ _ _ = after at advances
      obtain ⟨next, site⟩ := after
      rw [Errand.outcomes] at here
      simp only [moved, Errand.writes]
      generalize stage : errand.stage = before at advances here
      cases advances with
      | load =>
          rw [unloaded here]
          refine tried.moves known (fun _ _ => rfl) rfl rfl
            ⟨holds.config, fun _ => holds.fresh (by simp [stage, Stage.progress]), by rintro _ ⟨⟩⟩ ?_
          simp only [List.append_nil]
          exact tried.lines
      | stop | discard =>
          refine tried.moves known others rfl rfl (.past holds.config (Nat.le_succ 3)) ?_
          simp only [List.append_nil]
          exact tried.lines_of_loaded settled known stage others
      | @plan found commit host ran =>
          refine tried.moves known others rfl rfl
            ⟨holds.config, fun early => by simp [Stage.progress] at early, ?_⟩ ?_
          · rintro _ ⟨⟩
            have tracks := (sound.errands errand member).2
            rw [Law.Tracks, stage] at tracks
            rw [(tried.of_loaded settled known stage).1, here, List.append_nil]
            exact ⟨found, tracks, Plan.ofEvent_leads ran, Plan.ofEvent_meets ran⟩
          · simp only [List.append_nil]
            exact tried.lines_of_loaded settled known stage others
      | conflict | publish | rest =>
          rw [unloaded here]
          refine tried.moves known (fun _ _ => rfl) rfl rfl (.past holds.config (Nat.le_succ 3)) ?_
          simp only [List.append_nil]
          exact tried.lines
      | write admitted =>
          rw [unloaded here]
          exact tried.moves known (fun _ _ => rfl) rfl rfl (.past holds.config (Nat.le_refl 3))
            (tried.lines_concat sound known stage admitted)

theorem step (tried : fleet.Tried config log) (sound : Law.plain.Sound fleet)
    (settled : fleet.Settled) {move : Move σ δ}
    (steady : ∀ dispatcher settings event, move = .submit dispatcher settings event →
      settings.config = config) :
    (fleet.step publishers move).Tried config fun ticket => log ticket ++ fleet.tries ticket move := by
  have idle (idle : ∀ ticket, fleet.tries ticket move = []) :
      (fun ticket => log ticket ++ fleet.tries ticket move) = log := by
    funext ticket
    rw [idle, List.append_nil]
  cases move with
  | advance ticket => exact tried.advance publishers sound settled ticket
  | submit dispatcher settings event =>
      rw [idle fun _ => rfl]
      refine ⟨fun ticket errand known => ?_, fun ticket missing => ?_, tried.lines⟩
      · rw [Fleet.step, List.getElem?_append] at known
        split at known
        · exact tried.errands ticket errand known
        next beyond =>
          rw [List.mem_singleton.1 (List.mem_of_getElem? known)]
          have missing := List.getElem?_eq_none (Nat.not_lt.1 beyond)
          exact ⟨steady _ _ _ rfl, fun _ => tried.unknown ticket missing, by rintro _ ⟨⟩⟩
      · rw [Fleet.step, List.getElem?_append] at missing
        split at missing
        · exact tried.unknown ticket missing
        next beyond => exact tried.unknown ticket (List.getElem?_eq_none (Nat.not_lt.1 beyond))
  | abort ticket error =>
      rw [idle fun _ => rfl]
      simp only [Fleet.step, abort, List.modify_eq_set_getElem?]
      cases known : fleet.errands[ticket]? with
      | none => exact tried.rests rfl rfl
      | some errand =>
          refine tried.moves known (fun _ _ => rfl) rfl (List.append_nil _).symm
            (.past (tried.errands ticket errand known).config (Nat.le_succ 3)) tried.lines
  | beginMaintenance dispatcher owner attached =>
      rw [idle fun _ => rfl]
      cases attached <;> exact tried.rests rfl rfl
  | endMaintenance dispatcher owner =>
      rw [idle fun _ => rfl]
      exact tried.rests rfl rfl
  | change dispatcher world =>
      rw [idle fun _ => rfl]
      exact tried.rests rfl rfl

omit [DecidableEq δ] in
theorem launch (config : Config) (hosts : δ → Host σ) (published : π) :
    (Fleet.launch hosts published).Tried config fun _ => [] where
  errands _ _ known := by cases known
  unknown _ _ := rfl
  lines _ := .nil

end Tried

theorem tried_run {config : Config} (hosts : δ → Host σ) (published : π) (moves : List (Move σ δ))
    (steady : ∀ dispatcher settings event, .submit dispatcher settings event ∈ moves →
      settings.config = config) :
    ((launch hosts published).run publishers moves).Tried config fun ticket =>
      (launch hosts published).tried publishers ticket moves := by
  have tried := run_tried publishers
    (P := fun fleet log => fleet.Tried config log ∧ Law.plain.Sound fleet ∧ fleet.Settled)
    moves (fun _ => []) (fun fleet log move member ⟨tried, sound, settled⟩ => ?_)
    ⟨.launch config hosts published, Law.sound_launch hosts published fun _ => trivial,
      fun _ impossible => by cases impossible⟩
  · exact tried.1
  · obtain ⟨_, written, steps, _⟩ := step_steps publishers fleet move
    refine ⟨tried.step publishers sound settled fun dispatcher settings event same => ?_,
      sound.step Law.plain_kept publishers fun _ _ _ _ => trivial, settled.step steps rfl written⟩
    exact steady dispatcher settings event (same ▸ member)

/-- However the work of any number of dispatchers under one configuration interleaves, breaks off and
starts again: a flow counts the retryable failures in a row with which its trials end, so that each
suspension begins anew. If it waits for its retry, there was a failure, the count is within the budget,
and the delay is that of the count from the last failure on. A retryable failure fails the flow if the
budget was spent on failures directly before it, and else is retried. Nothing changes the count of a
flow that waits for its retry but the wake-up that is due. -/
theorem failures_counted {config : Config} (hosts : δ → Host σ) (published : π)
    (moves : List (Move σ δ)) (steady : ∀ dispatcher settings event,
      .submit dispatcher settings event ∈ moves → settings.config = config) :
    let fleet := (launch hosts published).run publishers moves
    let trials := Write.trials fun ticket => (launch hosts published).tried publishers ticket moves
    ∀ flow, fleet.stored.get? flow = Write.last? (Write.ofFlow fleet.writes flow) ∧
      ∀ earlier write later, Write.ofFlow fleet.writes flow = earlier ++ write :: later →
        write.checkpoint.Tallies config ((earlier ++ [write]).flatMap trials) ∧
        (∀ init last rest, trials write = init ++ last :: rest → last.isRetryable →
          rest = [] ∧ write.checkpoint.Spends config (earlier.flatMap trials ++ init)) ∧
        ∀ cp, Write.last? earlier = some cp → cp.status = .retrying →
          (trials write = [] ∧ write.checkpoint.retryCount = cp.retryCount) ∨
            write.event.Retries cp write.settings.now := by
  intro fleet trials flow
  have tried := tried_run publishers hosts published moves steady
  have sound := Law.sound_of_run Law.plain_kept publishers
    (Law.sound_launch hosts published fun _ => trivial) moves fun _ _ _ _ => trivial
  refine ⟨sound.stored flow, fun earlier write later listed => ?_⟩
  have chained := tried.lines flow
  rw [listed] at chained
  obtain ⟨tallies, spends⟩ := chained.counts_on chained.tallies
  refine ⟨tallies, spends, fun cp last retrying => ?_⟩
  obtain ⟨_, _, due, _, _, _, delayed⟩ := (chained.tallies cp last).retrying retrying
  obtain ⟨_, commit, written, meets⟩ := chained earlier write later rfl
  rw [last] at meets
  rcases meets.waits retrying ⟨due, delayed⟩ with ⟨idle, same⟩ | retries
  · rw [written]
    exact .inl ⟨by simp [trials, Write.trials, Settings.trials, idle], same⟩
  · exact .inr retries

end Fleet

namespace Samples.Knock

/-- A knock is asked while the service is busy, and the session is closed before the retry. -/
def knocking : List (Fleet.Move Nat Unit) :=
  [.submit () Echo.settings Echo.begin, .advance 0, .advance 0, .advance 0, .advance 0,
    .submit () Echo.settings asked, .advance 1, .advance 1, .advance 1, .advance 1,
    .submit () Echo.settings (Echo.say 2 .close), .advance 2, .advance 2, .advance 2, .advance 2]

theorem knocking_steady (dispatcher : Unit) (settings : Settings) (event : Event)
    (member : .submit dispatcher settings event ∈ knocking) : settings.config = .default := by
  simp only [knocking, List.mem_cons, Fleet.Move.submit.injEq, reduceCtorEq, false_or,
    List.not_mem_nil, or_false] at member
  rcases member with ⟨_, rfl, _⟩ | ⟨_, rfl, _⟩ | ⟨_, rfl, _⟩ <;> rfl

end Samples.Knock

namespace Fleet

open Samples

/-- A knock that has found the service busy has failed once in a row, also after the session has been
closed. -/
theorem failures_counted_of_knock :
    let launched := launch (fun _ : Unit => Host.fresh Knock.execution 1 1000 1) []
    let fleet := launched.run (fun _ => .collecting) Knock.knocking
    let trials := Write.trials fun ticket => launched.tried (fun _ => .collecting) ticket Knock.knocking
    ∃ cp due, fleet.stored.get? Echo.flow = some cp ∧ cp.status = .retrying ∧
      cp.waitingFor = .wakeup due ∧
      Trial.failuresInRow ((Write.ofFlow fleet.writes Echo.flow).flatMap trials) = 1 := by
  intro launched fleet trials
  obtain ⟨stored, counted⟩ := failures_counted (fun _ => .collecting)
    (fun _ => Host.fresh Knock.execution 1 1000 1) [] Knock.knocking Knock.knocking_steady Echo.flow
  have known : (fleet.stored.get? Echo.flow).map (fun cp => (cp.status, cp.retryCount)) =
      some (.retrying, 1) := by decide +kernel
  obtain ⟨cp, found, same⟩ := Option.map_eq_some_iff.1 known
  obtain ⟨status, count⟩ := Prod.mk.inj same
  rcases List.eq_nil_or_concat (Write.ofFlow fleet.writes Echo.flow) with none | ⟨earlier, write, listed⟩
  · rw [found, none] at stored
    cases stored
  · rw [List.concat_eq_append] at listed
    obtain ⟨tallies, _⟩ := counted earlier write [] listed
    have last : write.checkpoint = cp := by
      rw [found, listed, Write.last?, List.getLast?_concat] at stored
      exact (Option.some.inj stored).symm
    rw [last, ← listed] at tallies
    obtain ⟨_, _, due, _, _, _, delayed⟩ := tallies.retrying status
    have live : cp.isTerminal = false := by rw [Checkpoint.isTerminal, status]; rfl
    exact ⟨cp, due, found, status, delayed, (tallies.count live).symm.trans count⟩

end Fleet

end DurableFlow
