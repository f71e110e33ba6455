import DurableFlow.Engine

/-! # Working off a stream of events

A worker puts events on the lanes of their flows in the order in which they arrive, until the
stream ends or it is told to stop. It never waits for a flow before it takes the next event, but
after a number of events it lets the lanes go on for a round. In the end it shuts the engine down,
so that everything that was accepted is handled.
-/

namespace DurableFlow

/-- What a worker is told before it begins. -/
inductive StopSignal where
  | none
  | goOn
  | stop
  /-- Nobody is left who could tell it anything. -/
  | abandoned
  deriving DecidableEq, Repr

def StopSignal.stops : StopSignal → Bool
  | .none => false
  | .goOn => false
  | .stop => true
  | .abandoned => true

/-- The number of things that a worker takes note of in one turn. -/
def Worker.turnLimit : Nat := 128

/-- What a worker has taken note of before the first event: the signal, if there is one. -/
def StopSignal.noted : StopSignal → Nat
  | .goOn => 1
  | _ => 0

/-- Put events on the lanes of their flows in order, `left` of them before the next round. -/
def Engine.submitInTurns {σ τ π : Type} (services : Services τ π) (engine : Engine σ τ π) :
    Nat → List Event → Engine σ τ π
  | _, [] => engine
  | 0, event :: rest =>
    let engine := engine.runRound services
    (engine.submit event).2.submitInTurns services (Worker.turnLimit - 1) rest
  | left + 1, event :: rest => (engine.submit event).2.submitInTurns services left rest

/-- Work off a stream of events that has an end. -/
def Engine.workOff {σ τ π : Type} (services : Services τ π) (engine : Engine σ τ π)
    (signal : StopSignal) (events : List Event) : Engine σ τ π :=
  if signal.stops then engine.shutdown services
  else
    (engine.submitInTurns services (Worker.turnLimit - signal.noted) events).shutdown services

end DurableFlow
