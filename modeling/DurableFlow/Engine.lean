import DurableFlow.Dispatcher
import DurableFlow.Scheduler.Run

/-! # The engine

The engine puts events on the lanes of their flows and handles them there. It has the clocks, the
configuration and the site that events are handled at, and keeps the results by ticket. The size of
the pool follows the configuration.
-/

namespace DurableFlow

/-- An event on its way, with the ticket under which its result is kept. -/
structure Ticketed where
  ticket : Nat
  event : Event
  deriving DecidableEq

/-- What becomes of an event, or why it could not be handled. -/
abbrev ProcessingResult := Except ProcessingError ProcessingOutcome

/-- What handling events changes: the site, and the results by ticket. -/
structure Ledger (σ τ π : Type) where
  site : Site σ τ π
  results : SortedMap Nat ProcessingResult

structure Engine (σ τ π : Type) where
  scheduler : Scheduler Ticketed
  source : ConfigSource
  /-- The time that events are stamped with. -/
  now : Timestamp
  /-- The clock that kept fibers expire by, in milliseconds. -/
  instant : Nat
  /-- How often one event may enter flow logic. -/
  entryLimit : Nat
  ledger : Ledger σ τ π
  nextTicket : Nat

namespace Engine

variable {σ τ π : Type}

def new (config : Config) (now : Timestamp) (entryLimit : Nat) (site : Site σ τ π) :
    Engine σ τ π where
  scheduler := .new config.poolSize
  source := .new config
  now
  instant := 0
  entryLimit
  ledger := ⟨site, {}⟩
  nextTicket := 0

def site (engine : Engine σ τ π) : Site σ τ π := engine.ledger.site

def modifySite (change : Site σ τ π → Site σ τ π) (engine : Engine σ τ π) : Engine σ τ π :=
  { engine with ledger := { engine.ledger with site := change engine.ledger.site } }

/-- What holds for an event that is handled now. -/
def settings (engine : Engine σ τ π) : Settings :=
  ⟨engine.source.current, engine.now, engine.instant, engine.entryLimit⟩

/-- Handle an event and keep its result. An event whose handling breaks off has no result. -/
def work (services : Services τ π) (settings : Settings) (job : Ticketed)
    (ledger : Ledger σ τ π) : Progress Ticketed × Ledger σ τ π :=
  let (result, site) := (services.handle settings job.event).run.run ledger.site
  match result with
  | .ok outcome => (.done, ⟨site, ledger.results.insert job.ticket (.ok outcome)⟩)
  | .error (.error error) => (.done, ⟨site, ledger.results.insert job.ticket (.error error)⟩)
  | .error _ => (.crashed, { ledger with site })

/-- Put an event on the lane of its flow; the ticket for its result. -/
def submit (engine : Engine σ τ π) (event : Event) :
    Except SchedulerError Nat × Engine σ τ π :=
  match engine.scheduler.submit event.flowId ⟨engine.nextTicket, event⟩ with
  | .error error => (.error error, engine)
  | .ok scheduler =>
    (.ok engine.nextTicket, { engine with scheduler, nextTicket := engine.nextTicket + 1 })

def submitAll (engine : Engine σ τ π) : List Event →
    List (Except SchedulerError Nat) × Engine σ τ π
  | [] => ([], engine)
  | event :: rest =>
    let (ticket, engine) := engine.submit event
    let (tickets, engine) := engine.submitAll rest
    (ticket :: tickets, engine)

/-- Handle events that are on lanes for one round. -/
def runRound (services : Services τ π) (engine : Engine σ τ π) : Engine σ τ π :=
  let (scheduler, ledger) :=
    engine.scheduler.runRound (work services engine.settings) engine.ledger
  { engine with scheduler, ledger }

def settle (services : Services τ π) (engine : Engine σ τ π) : Engine σ τ π :=
  let (scheduler, ledger) :=
    engine.scheduler.settle (work services engine.settings) engine.ledger
  { engine with scheduler, ledger }

def result (engine : Engine σ τ π) : Except SchedulerError Nat → ProcessingResult
  | .error error => .error (.scheduler error)
  | .ok ticket => (engine.ledger.results.get? ticket).getD (.error (.scheduler .cancelled))

/-- Handle events that all come before the first of them is handled. -/
def processAll (services : Services τ π) (engine : Engine σ τ π) (events : List Event) :
    List ProcessingResult × Engine σ τ π :=
  let (tickets, engine) := engine.submitAll events
  let engine := engine.settle services
  (tickets.map engine.result, engine)

def process (services : Services τ π) (engine : Engine σ τ π) (event : Event) :
    ProcessingResult × Engine σ τ π :=
  let (ticket, engine) := engine.submit event
  let engine := engine.settle services
  (engine.result ticket, engine)

def configure (engine : Engine σ τ π) (config : Config) : Engine σ τ π :=
  { engine with
    source := engine.source.update config
    scheduler := engine.scheduler.resize config.poolSize }

/-- Accept no more events, and handle those that were accepted. -/
def shutdown (services : Services τ π) (engine : Engine σ τ π) : Engine σ τ π :=
  { engine with scheduler := engine.scheduler.shutdown }.settle services

/-- Accept no more events, and drop those that were accepted. -/
def halt (engine : Engine σ τ π) : Engine σ τ π :=
  { engine with scheduler := engine.scheduler.halt }

end Engine

end DurableFlow
