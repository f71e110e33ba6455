import DurableFlow.Json

/-! # Taking documents apart

A record is written as an object and may also be given as an array of its fields in order. A
variant is named by a tag, which stands among the fields of the variant or beside its content.
Names that a record does not have are passed over.

A tagged variant has to be read as a whole before its tag is known. What is read from such a held
document is slightly more liberal about the names of variants, which is what the parameter `held`
of some readers says.
-/

namespace DurableFlow

namespace Json

/-- A field of a record as it was found. -/
inductive Slot where
  | given (value : Json)
  /-- The object has no such name. -/
  | missing
  /-- The array is too short. -/
  | cut

namespace Slot

variable {α : Type}

def required (read : Json → Option α) : Slot → Option α
  | .given value => read value
  | _ => none

/-- A field that an object may leave out. -/
def optional (read : Json → Option α) : Slot → Option (Option α)
  | .given .null => some none
  | .given value => (read value).map some
  | .missing => some none
  | .cut => none

/-- A field that may be left out altogether, with its value in that case. -/
def withDefault (default : α) (read : Json → Option α) : Slot → Option α
  | .given value => read value
  | _ => some default

end Slot

/-- The member of an object with a name, which may occur once. -/
def member? (members : Members) (name : String) : Option Slot :=
  match members.filter (·.1.text = name) with
  | [] => some .missing
  | [(_, value)] => some (.given value)
  | _ => none

/-- The fields of a record in the order of their names. -/
def fields? (names : List String) : Json → Option (List Slot)
  | .object members =>
    if members.all fun m => names.contains m.1.text || m.2.passable then names.mapM (member? members)
    else none
  | .array items =>
    if items.length ≤ names.length then
      some (items.map .given ++ List.replicate (names.length - items.length) .cut)
    else none
  | _ => none

/-- The fields of a record that is never given as an array. -/
def namedFields? (names : List String) : Json → Option (List Slot)
  | .object members => fields? names (.object members)
  | _ => none

/-- The name of a variant without content. It may also stand as the only member of an object. -/
def choice? (held : Bool) : Json → Option String
  | .text name => some name
  | .object [(name, .null)] => some name.text
  | .object [(name, .object [])] => if held then some name.text else none
  | _ => none

/-- The tag and the fields of a document whose tag stands among the fields. -/
def tagged? (doc : Json) : Option (Json × Json) :=
  if !doc.readable then none
  else match doc with
    | .object members =>
      match members.filter (·.1.text = "type") with
      | [(_, tag)] => some (tag, .object (members.filter (·.1.text ≠ "type")))
      | _ => none
    | .array (tag :: rest) => some (tag, .array rest)
    | _ => none

/-- The variant that a tag names. In a held document the tag may be its number in the list. -/
def variant? (held : Bool) (names : List String) : Json → Option String
  | .text name => some name
  | .number (.int n) => if held ∧ 0 ≤ n then names[n.toNat]? else none
  | _ => none

/-- Whether the fields beside the tag fit a variant without content. -/
def isUnit : Json → Bool
  | .object _ => true
  | .array [] => true
  | _ => false

def text? : Json → Option String
  | .text value => some value
  | _ => none

def bool? : Json → Option Bool
  | .bool value => some value
  | _ => none

def nat? (bound : Nat) : Json → Option Nat
  | .number (.int n) => if 0 ≤ n ∧ n ≤ bound then some n.toNat else none
  | _ => none

def int64? : Json → Option Int
  | .number (.int n) => if n < Nat.pow 2 63 then some n else none
  | _ => none

/-- A double; an integer stands for the double nearest to it. -/
def float? : Json → Option Float
  | .number (.int n) =>
    let magnitude := (UInt64.ofNat n.natAbs).toFloat
    some (if n < 0 then -magnitude else magnitude)
  | .number (.float x) => some x
  | _ => none

def max32 : Nat := Nat.pow 2 32 - 1

def max64 : Nat := Nat.pow 2 64 - 1

def list? {α : Type} (read : Json → Option α) : Json → Option (List α)
  | .array items => items.mapM read
  | _ => none

/-- Octets: an array of their values, or a string. -/
def bytes? : Json → Option Bytes
  | .text value => some (Bytes.ofText value)
  | .octets bytes _ => some bytes
  | .array items => items.mapM fun item => (item.nat? 255).map UInt8.ofNat
  | _ => none

def map? {κ α : Type} [Ord κ] [Std.TransOrd κ] [Std.LawfulEqOrd κ] (readKey : Name → Option κ)
    (read : Json → Option α) : Json → Option (SortedMap κ α)
  | .object members => do
    let entries ← members.mapM fun (name, value) => do
      return (← readKey name, ← read value)
    return .ofList entries
  | _ => none

end Json

end DurableFlow
