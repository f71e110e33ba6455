import DurableFlow.Event

/-! # An inbox with limited room

Events that become due go to an inbox, which has room for some of them. The others wait, in the
order in which they came, until the receiver has emptied the inbox. Nothing is lost before the inbox
is closed.
-/

namespace DurableFlow

/-- The way of events to one receiver. -/
structure Inbox where
  room : Nat
  /-- Events that were not received yet, the oldest first. -/
  events : List Event := []
  isOpen : Bool := true

namespace Inbox

/-- Let events in, or let them wait until there is room. A closed inbox drops them. -/
def put (inbox : Inbox) (events : List Event) : Inbox :=
  if inbox.isOpen then { inbox with events := inbox.events ++ events } else inbox

/-- Empty the inbox: the events that were in it, and what has waited in their place. -/
def take (inbox : Inbox) : List Event × Inbox :=
  (inbox.events.take inbox.room, { inbox with events := inbox.events.drop inbox.room })

/-- Receive nothing any more. What is on its way is lost. -/
def close (inbox : Inbox) : Inbox := { inbox with events := [], isOpen := false }

/-- What was put into an open inbox is taken out of it in order or still there. -/
theorem take_put (inbox : Inbox) (events : List Event) :
    (inbox.put events).take.1 ++ (inbox.put events).take.2.events =
      if inbox.isOpen then inbox.events ++ events else inbox.events := by
  cases h : inbox.isOpen <;> simp [put, take, h]

end Inbox

end DurableFlow
