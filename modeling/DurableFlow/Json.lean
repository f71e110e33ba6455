import DurableFlow.Decimal.Numeral
import DurableFlow.SortedMap

/-! # JSON documents

A document keeps what its text said: members in written order, repetitions included. Some text is
well formed and yet denotes no value: a number too large for a double, a string with a lone
surrogate or with octets that are not UTF-8, nesting deeper than the limit. Such parts stay in the
document as leaves that may be passed over but not read, because whether they matter is for the
reader of the document to say. A document without such leaves is `readable`; its free-form value
is its `normal?` form.

A name in an object may stand for a number. It then has to be written as it is, so a numeral that
was spelled with escapes keeps a mark of it.
-/

namespace DurableFlow

open Decimal (Number)

structure Json.Name where
  text : String
  /-- Whether it is a numeral that was written with escapes. -/
  disguised : Bool := false
  deriving DecidableEq, Repr, Inhabited

instance : Coe String Json.Name := ⟨fun text => { text }⟩

inductive Json where
  | null
  | bool (value : Bool)
  | number (value : Number)
  | text (value : String)
  | array (items : List Json)
  /-- Members in written order; a name may occur more than once. -/
  | object (members : List (Json.Name × Json))
  /-- A string that denotes octets but no text. With a raw control character in it, it may not
  even be passed over. -/
  | octets (bytes : Bytes) (passable : Bool)
  /-- A part that denotes nothing at all. -/
  | unreadable (passable : Bool)
  deriving Inhabited

namespace Json

abbrev Members := List (Name × Json)

/-- The entries of a map as the members of an object. -/
def ofMap (entries : SortedMap String Json) : Json :=
  .object (entries.entries.map fun (name, value) => (name, value))

def nat (n : Nat) : Json := .number (.int n)

/-- Octets as a document: the array of their values. -/
def ofBytes (bytes : Bytes) : Json := .array (bytes.map fun b => .nat b.toNat)

/-- An optional part as a document, `null` standing for its absence. -/
def ofOption {α : Type} (write : α → Json) : Option α → Json
  | none => .null
  | some a => write a

mutual

/-- Whether every part of the document denotes a value. -/
def readable : Json → Bool
  | .array items => readableItems items
  | .object members => readableMembers members
  | .octets _ _ => false
  | .unreadable _ => false
  | _ => true

def readableItems : List Json → Bool
  | [] => true
  | item :: rest => item.readable && readableItems rest

def readableMembers : List (Name × Json) → Bool
  | [] => true
  | (_, value) :: rest => value.readable && readableMembers rest

end

mutual

/-- Whether the document may be passed over unread. -/
def passable : Json → Bool
  | .array items => passableItems items
  | .object members => passableMembers members
  | .octets _ passable => passable
  | .unreadable passable => passable
  | _ => true

def passableItems : List Json → Bool
  | [] => true
  | item :: rest => item.passable && passableItems rest

def passableMembers : List (Name × Json) → Bool
  | [] => true
  | (_, value) :: rest => value.passable && passableMembers rest

end

mutual

/-- The free-form value: members sorted by name, the last of several with one name kept. -/
def normal? : Json → Option Json
  | .array items => return .array (← normalItems? items)
  | .object members => return .ofMap (← normalMembers? members)
  | .octets _ _ => none
  | .unreadable _ => none
  | plain => some plain

def normalItems? : List Json → Option (List Json)
  | [] => some []
  | item :: rest => do
    let value ← item.normal?
    return value :: (← normalItems? rest)

/-- The free-form values of all members; an earlier member does not replace a later one. -/
def normalMembers? : List (Name × Json) → Option (SortedMap String Json)
  | [] => some {}
  | (name, item) :: rest => do
    let value ← item.normal?
    let later ← normalMembers? rest
    return if later.contains name.text then later else later.insert name.text value

end

end Json

end DurableFlow
