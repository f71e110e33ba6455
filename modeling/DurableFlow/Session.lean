import DurableFlow.Bytes
import DurableFlow.Identity
import DurableFlow.SortedMap

/-! # Sessions

A session connects a flow with a counterparty. Items carry sequence numbers that start at one in
either direction. An inbound item is kept until every item before it has been consumed, so a flow
receives items in order however they arrive.
-/

namespace DurableFlow

/-- The name of a session, unique within its flow. -/
structure SessionId where
  text : String
  deriving DecidableEq, Repr, Inhabited

namespace SessionId

instance : Ord SessionId := ⟨compareOn (·.text)⟩

instance : Std.TransOrd SessionId :=
  inferInstanceAs (Std.TransCmp (compareOn (fun id : SessionId => id.text)))

instance : Std.LawfulEqOrd SessionId where
  compare_self {a} := @Std.ReflCmp.compare_self _ compare _ a.text
  eq_of_compare {a b} h := by
    have : a.text = b.text := @Std.LawfulEqCmp.eq_of_compare _ compare _ _ _ h
    cases a
    cases b
    simp_all

end SessionId

/-- Whether a session still delivers, and if not, who ended it. -/
inductive SessionStatus where
  | open
  | closed
  | closedByPeer
  /-- Given up because this flow failed. -/
  | errored
  deriving DecidableEq, Repr, Inhabited

inductive Item where
  | data (payload : Bytes)
  | close
  deriving DecidableEq, Repr, Inhabited

structure Session where
  counterparty : Identity
  status : SessionStatus
  /-- The number of the next outbound item. -/
  nextSend : Nat
  /-- The number of the next inbound item to be consumed. -/
  nextReceive : Nat
  /-- Inbound items that wait to be consumed, by number. -/
  pending : SortedMap Nat Item
  deriving DecidableEq

namespace Session

def new (counterparty : Identity) : Session :=
  { counterparty, status := .open, nextSend := 1, nextReceive := 1, pending := {} }

def isOpen (session : Session) : Bool := session.status = .open

def reserve (session : Session) : Nat × Session :=
  (session.nextSend, { session with nextSend := session.nextSend + 1 })

/-- Whether the inbound item with a number was buffered or consumed before. -/
def hasSeen (session : Session) (number : Nat) : Bool :=
  number < session.nextReceive || session.pending.contains number

/-- Keep an inbound item until its turn. -/
def buffer (session : Session) (number : Nat) (item : Item) : Session :=
  { session with pending := session.pending.insert number item }

def next? (session : Session) : Option Item := session.pending.get? session.nextReceive

/-- Take the next item in order. Taking the counterparty's close ends the session. -/
def consume? (session : Session) : Option (Item × Session) :=
  session.next?.map fun item =>
    (item, { session with
      status := match item with
        | .close => .closedByPeer
        | .data _ => session.status
      nextReceive := session.nextReceive + 1
      pending := session.pending.erase session.nextReceive })

end Session

end DurableFlow
