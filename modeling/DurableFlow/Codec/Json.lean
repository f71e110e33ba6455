import DurableFlow.Codec
import DurableFlow.Json.Printer
import DurableFlow.Json.Reader
import DurableFlow.Wire.Basic

/-! # Codecs that write JSON

Each codec here is a document form and a reader of documents. The name of the type is given where
the codec is used.
-/

namespace DurableFlow

namespace Codec

variable {α : Type}

def json (typeName : String) (toJson : α → Json) (ofJson? : Json → Option α) : Codec α where
  typeName
  write value := .ok (toJson value).print
  read bytes :=
    match (Json.parse? bytes).bind ofJson? with
    | some value => .ok value
    | none => .error ""

/-- No information, written as null. -/
def unit (typeName : String) : Codec Unit :=
  json typeName (fun _ => .null) fun
    | .null => some ()
    | _ => none

def bool (typeName : String) : Codec Bool := json typeName .bool Json.bool?

def nat (typeName : String) (bound : Nat) : Codec Nat := json typeName Json.nat (Json.nat? bound)

def int64 (typeName : String) : Codec Int :=
  json typeName (fun n => .number (.int n)) Json.int64?

def text (typeName : String) : Codec String := json typeName .text Json.text?

def nats (typeName : String) (bound : Nat) : Codec (List Nat) :=
  json typeName (fun ns => .array (ns.map Json.nat)) (Json.list? (Json.nat? bound))

def tally (typeName : String) (bound totalBound : Nat) : Codec (Nat × Nat × Nat) :=
  json typeName (fun (a, b, c) => .array [.nat a, .nat b, .nat c]) fun
    | .array [a, b, c] =>
      return (← a.nat? bound, ← b.nat? bound, ← c.nat? totalBound)
    | _ => none

def identity (typeName : String) : Codec Identity := json typeName Identity.toJson Identity.ofJson?

def value (typeName : String) : Codec Json := json typeName id Json.normal?

def values (typeName : String) : Codec (List Json) :=
  json typeName .array (Json.list? Json.normal?)

def valueLists (typeName : String) : Codec (List Json × List Json) :=
  json typeName (fun (a, b) => .array [.array a, .array b]) fun
    | .array [a, b] => return (← a.list? Json.normal?, ← b.list? Json.normal?)
    | _ => none

/-- A relation between pairs and numbers. Only the empty one has a document, since the names in an
object are texts. -/
abbrev Relation := List ((UInt8 × UInt8) × UInt8)

def relation (typeName : String) : Codec Relation where
  typeName
  write
    | [] => .ok (Json.object []).print
    | _ => .error ""
  read bytes :=
    match Json.parse? bytes with
    | some (.object []) => .ok []
    | _ => .error ""

end Codec

end DurableFlow
