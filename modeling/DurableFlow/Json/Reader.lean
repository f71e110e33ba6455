import DurableFlow.Json

/-! # Reading JSON

Reading takes one octet at a time. A scan cuts the octets into tokens, and a stack of the arrays
and objects that are still open puts the tokens together. A number, a string or a container that
denotes no value becomes an unreadable leaf instead of an error; text that is not well formed has no
document.
-/

namespace DurableFlow.Json

open Decimal (Number Numeral)

/-- A string of the text: what it denotes, and whether it is written without escapes. -/
structure Spelled where
  value : Json
  literal : Bool

/-- What stands for a name where there is none yet. -/
def Spelled.absent : Spelled := ⟨.null, true⟩

inductive Token where
  | arrayOpen
  | arrayClose
  | objectOpen
  | objectClose
  | colon
  | comma
  | leaf (value : Json)
  | string (s : Spelled)

structure Quote where
  /-- The octets so far, last first. -/
  octets : Bytes
  /-- A high surrogate that waits for its low one. -/
  lead : Option Nat
  /-- Whether no lone surrogate has been met. -/
  paired : Bool
  /-- Whether no raw control character has been met. -/
  printable : Bool
  /-- Whether no escape has been met. -/
  literal : Bool

namespace Quote

def start : Quote := ⟨[], none, true, true, true⟩

/-- The octets of a code point in the UTF-8 scheme, which is applied to surrogates as well. -/
def encode (n : Nat) : Bytes :=
  if n < 0x80 then [UInt8.ofNat n]
  else if n < 0x800 then [UInt8.ofNat (0xc0 + n / 64), UInt8.ofNat (0x80 + n % 64)]
  else if n < 0x10000 then
    [UInt8.ofNat (0xe0 + n / 4096), UInt8.ofNat (0x80 + n / 64 % 64), UInt8.ofNat (0x80 + n % 64)]
  else
    [UInt8.ofNat (0xf0 + n / 262144), UInt8.ofNat (0x80 + n / 4096 % 64),
      UInt8.ofNat (0x80 + n / 64 % 64), UInt8.ofNat (0x80 + n % 64)]

def add (q : Quote) (n : Nat) : Quote := { q with octets := (encode n).reverse ++ q.octets }

/-- A high surrogate that got no partner stands alone. -/
def settle (q : Quote) : Quote :=
  match q.lead with
  | none => q
  | some n => { q.add n with lead := none, paired := false }

/-- Add an octet as it stands. -/
def push (q : Quote) (b : UInt8) : Quote :=
  let q := q.settle
  { q with octets := b :: q.octets, printable := q.printable && 0x20 ≤ b }

/-- Add a UTF-16 unit given by its number; a high surrogate waits for the next unit. -/
def pushUnit (q : Quote) (n : Nat) : Quote :=
  if 0xdc00 ≤ n ∧ n ≤ 0xdfff then
    match q.lead with
    | some high => { q.add (0x10000 + (high - 0xd800) * 1024 + (n - 0xdc00)) with lead := none }
    | none => { q.add n with paired := false }
  else if 0xd800 ≤ n ∧ n ≤ 0xdbff then { q.settle with lead := some n }
  else q.settle.add n

/-- The string that was read: it denotes a text if it can. -/
def finish (q : Quote) : Spelled :=
  let q := q.settle
  let bytes := q.octets.reverse
  let text := if q.paired && q.printable then Bytes.text? bytes else none
  match text with
  | some s => ⟨.text s, q.literal⟩
  | none => ⟨.octets bytes q.printable, q.literal⟩

end Quote

/-- What the octets read so far have left open. -/
inductive Scan where
  | between
  /-- Letters of a literal, last first. -/
  | word (letters : Bytes)
  /-- Octets of a number, last first. -/
  | digits (octets : Bytes)
  | quote (q : Quote)
  /-- After a backslash. -/
  | escape (q : Quote)
  /-- Inside the four digits of a numbered unit. -/
  | unit (q : Quote) (missing : Nat) (value : Nat)

def isBlank (b : UInt8) : Bool := b = 0x20 || b = 0x09 || b = 0x0a || b = 0x0d

def isNumeric (b : UInt8) : Bool :=
  Decimal.isDigit b || b = '-'.toUInt8 || b = '+'.toUInt8 || b = '.'.toUInt8 ||
    b = 'e'.toUInt8 || b = 'E'.toUInt8

def isLetter (b : UInt8) : Bool := 'a'.toUInt8 ≤ b && b ≤ 'z'.toUInt8

def literal? (letters : Bytes) : Option Json :=
  if letters = Bytes.ofText "null" then some .null
  else if letters = Bytes.ofText "true" then some (.bool true)
  else if letters = Bytes.ofText "false" then some (.bool false)
  else none

/-- The number with the given octets; one too large for a double is unreadable. -/
def numberOf? (octets : Bytes) : Option Json := do
  let numeral ← Numeral.ofBytes? octets
  return match numeral.number? with
    | some n => .number n
    | none => .unreadable true

/-- The token that ends where a new one begins, if any was open. A string cannot end so. -/
def Scan.close? : Scan → Option (List Token)
  | .between => some []
  | .word letters => return [.leaf (← literal? letters.reverse)]
  | .digits ds => return [.leaf (← numberOf? ds.reverse)]
  | .quote _ => none
  | .escape _ => none
  | .unit _ _ _ => none

/-- What an octet outside of any token starts: a token of its own or the next scan. -/
def begin? (b : UInt8) : Option (List Token × Scan) :=
  if isBlank b then some ([], .between)
  else if b = '['.toUInt8 then some ([.arrayOpen], .between)
  else if b = ']'.toUInt8 then some ([.arrayClose], .between)
  else if b = '\x7b'.toUInt8 then some ([.objectOpen], .between)
  else if b = '\x7d'.toUInt8 then some ([.objectClose], .between)
  else if b = ':'.toUInt8 then some ([.colon], .between)
  else if b = ','.toUInt8 then some ([.comma], .between)
  else if b = '"'.toUInt8 then some ([], .quote .start)
  else if b = '-'.toUInt8 || Decimal.isDigit b then some ([], .digits [b])
  else if isLetter b then some ([], .word [b])
  else none

/-- The string after a one-letter escape. -/
def escaped? (q : Quote) (b : UInt8) : Option Scan :=
  if b = 'u'.toUInt8 then some (.unit q 4 0)
  else
    let q := q.settle
    if b = '"'.toUInt8 || b = '\\'.toUInt8 || b = '/'.toUInt8 then some (.quote (q.add b.toNat))
    else if b = 'b'.toUInt8 then some (.quote (q.add 0x08))
    else if b = 'f'.toUInt8 then some (.quote (q.add 0x0c))
    else if b = 'n'.toUInt8 then some (.quote (q.add 0x0a))
    else if b = 'r'.toUInt8 then some (.quote (q.add 0x0d))
    else if b = 't'.toUInt8 then some (.quote (q.add 0x09))
    else none

/-- Read one octet: the tokens it completes and what is open afterwards. -/
def Scan.step? (scan : Scan) (b : UInt8) : Option (List Token × Scan) :=
  match scan with
  | .between => begin? b
  | .word letters =>
    if isLetter b then some ([], .word (b :: letters))
    else do
      let done ← scan.close?
      let (tokens, next) ← begin? b
      return (done ++ tokens, next)
  | .digits ds =>
    if isNumeric b then some ([], .digits (b :: ds))
    else do
      let done ← scan.close?
      let (tokens, next) ← begin? b
      return (done ++ tokens, next)
  | .quote q =>
    if b = '"'.toUInt8 then some ([.string q.finish], .between)
    else if b = '\\'.toUInt8 then some ([], .escape { q with literal := false })
    else some ([], .quote (q.push b))
  | .escape q => return ([], ← escaped? q b)
  | .unit q missing value => do
    let digit ← hexDigit? (Char.ofNat b.toNat)
    let value := 16 * value + digit
    return ([], if missing ≤ 1 then .quote (q.pushUnit value) else .unit q (missing - 1) value)

/-- An array or object that is still open, its parts last first. -/
inductive Frame where
  | array (items : List Json)
  /-- An object and its last name, whose value may still be awaited. A name that is no text makes
  the object unreadable. -/
  | object (members : List (Spelled × Json)) (name : Spelled)

/-- What may come next. -/
inductive Expected where
  | value
  /-- A first item, or the end of the array. -/
  | firstItem
  | name
  /-- A first name, or the end of the object. -/
  | firstName
  | colon
  /-- A comma, or the end of the container. -/
  | separator
  /-- Nothing more: the document is complete. -/
  | nothing (document : Json)

/-- An unfinished reading: the open containers, innermost first. -/
structure Reading where
  frames : List Frame
  expected : Expected

def maxDepth : Nat := 127

/-- The name that a string is, unless it is no text. -/
def Spelled.name? (s : Spelled) : Option Name :=
  match s.value with
  | .text name => some ⟨name, !s.literal && name.toList.all Char.isDigit⟩
  | _ => none

/-- The members of an object, unless a name is no text. -/
def members? (parts : List (Spelled × Json)) : Option Members :=
  parts.mapM fun (name, value) => name.name?.map fun name => (name, value)

/-- The document that a closed container at a given depth stands for. -/
def Frame.document (frame : Frame) (depth : Nat) : Json :=
  match frame with
  | .array items =>
    if depth ≤ maxDepth then .array items.reverse
    else .unreadable (passableItems items)
  | .object parts _ =>
    match (if depth ≤ maxDepth then members? parts.reverse else none) with
    | some members => .object members
    | none => .unreadable (parts.all fun part => part.1.value.passable && part.2.passable)

/-- Add a complete value to the innermost container. -/
def Reading.complete (value : Json) : List Frame → Reading
  | [] => ⟨[], .nothing value⟩
  | .array items :: outer => ⟨.array (value :: items) :: outer, .separator⟩
  | .object parts name :: outer => ⟨.object ((name, value) :: parts) name :: outer, .separator⟩

def Reading.closeFrame (frame : Frame) (outer : List Frame) : Reading :=
  .complete (frame.document (outer.length + 1)) outer

def Reading.step? (r : Reading) (token : Token) : Option Reading :=
  match r.expected, token, r.frames with
  | .value, .leaf value, frames => some (.complete value frames)
  | .value, .string s, frames => some (.complete s.value frames)
  | .value, .arrayOpen, frames => some ⟨.array [] :: frames, .firstItem⟩
  | .value, .objectOpen, frames => some ⟨.object [] .absent :: frames, .firstName⟩
  | .firstItem, .leaf value, frames => some (.complete value frames)
  | .firstItem, .string s, frames => some (.complete s.value frames)
  | .firstItem, .arrayOpen, frames => some ⟨.array [] :: frames, .firstItem⟩
  | .firstItem, .objectOpen, frames => some ⟨.object [] .absent :: frames, .firstName⟩
  | .firstItem, .arrayClose, frame :: outer => some (.closeFrame frame outer)
  | .name, .string name, .object parts _ :: outer =>
    some ⟨.object parts name :: outer, .colon⟩
  | .firstName, .string name, .object parts _ :: outer =>
    some ⟨.object parts name :: outer, .colon⟩
  | .firstName, .objectClose, frame :: outer => some (.closeFrame frame outer)
  | .colon, .colon, frames => some ⟨frames, .value⟩
  | .separator, .comma, .array items :: outer => some ⟨.array items :: outer, .value⟩
  | .separator, .comma, .object parts name :: outer => some ⟨.object parts name :: outer, .name⟩
  | .separator, .arrayClose, .array items :: outer => some (.closeFrame (.array items) outer)
  | .separator, .objectClose, .object parts name :: outer =>
    some (.closeFrame (.object parts name) outer)
  | _, _, _ => none

def Reading.feed? (r : Reading) : List Token → Option Reading
  | [] => some r
  | token :: rest => (r.step? token).bind fun next => next.feed? rest

def Reading.document? (r : Reading) : Option Json :=
  match r.expected with
  | .nothing document => some document
  | _ => none

def Reading.run? (scan : Scan) (r : Reading) : Bytes → Option Json
  | [] => do
    let done ← scan.close?
    let last ← r.feed? done
    last.document?
  | b :: rest =>
    match scan.step? b with
    | none => none
    | some (done, next) =>
      match r.feed? done with
      | none => none
      | some r => run? next r rest

def parse? (bytes : Bytes) : Option Json := Reading.run? .between ⟨[], .value⟩ bytes

end DurableFlow.Json
