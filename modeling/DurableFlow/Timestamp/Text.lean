import DurableFlow.Decimal
import DurableFlow.Timestamp

/-! # Times as text

Times are written in the form of RFC 3339 with the zone `Z` and with no, three, six or nine digits
of the second's fraction, the fewest that lose nothing. Reading is more generous: fields may be
short, blanks may stand before them, the two halves may be joined by a `T` of either case or a
blank, a zone offset is taken into account, and a fraction is cut after nine digits.
-/

namespace DurableFlow.Timestamp

/-- A year; one outside of 0 to 9999 has a sign and at least four digits. -/
def yearText (year : Int) : String :=
  if 0 ≤ year ∧ year ≤ 9999 then Decimal.padded 4 year.toNat
  else (if year < 0 then "-" else "+") ++ Decimal.padded 4 year.natAbs

def fractionText (nano : Nat) : String :=
  if nano = 0 then ""
  else if nano % 1000000 = 0 then "." ++ Decimal.padded 3 (nano / 1000000)
  else if nano % 1000 = 0 then "." ++ Decimal.padded 6 (nano / 1000)
  else "." ++ Decimal.padded 9 nano

/-- The text of a time. A leap second is written as second 60. -/
def text (t : Timestamp) : String :=
  let date := Date.ofDayNumber (t.second / secondsPerDay)
  let ofDay := (t.second % secondsPerDay).toNat
  let isLeap := nanosPerSecond ≤ t.nano
  let second := if isLeap then ofDay % 60 + 1 else ofDay % 60
  let nano := if isLeap then t.nano - nanosPerSecond else t.nano
  yearText date.year ++ "-" ++ Decimal.padded 2 date.month ++ "-" ++ Decimal.padded 2 date.day ++
    "T" ++ Decimal.padded 2 (ofDay / 3600) ++ ":" ++ Decimal.padded 2 (ofDay / 60 % 60) ++ ":" ++
    Decimal.padded 2 second ++ fractionText nano ++ "Z"

def isSpace (c : Char) : Bool :=
  let n := c.toNat
  (0x09 ≤ n && n ≤ 0x0d) || n = 0x20 || n = 0x85 || n = 0xa0 || n = 0x1680 ||
    (0x2000 ≤ n && n ≤ 0x200a) || n = 0x2028 || n = 0x2029 || n = 0x202f || n = 0x205f ||
    n = 0x3000

def skipSpace (cs : List Char) : List Char := cs.dropWhile isSpace

def isDigit (c : Char) : Bool := '0' ≤ c && c ≤ '9'

def number (ds : List Char) : Nat := ds.foldl (fun n c => 10 * n + (c.toNat - '0'.toNat)) 0

/-- At least one and at most `width` digits. -/
def digits? (width : Nat) (cs : List Char) : Option (List Char × List Char) :=
  let ds := (cs.take width).takeWhile isDigit
  if ds.isEmpty then none else some (ds, cs.drop ds.length)

/-- A number of one or two digits within bounds, after white space. -/
def field? (low high : Nat) (cs : List Char) : Option (Nat × List Char) := do
  let (ds, rest) ← digits? 2 (skipSpace cs)
  let n := number ds
  if low ≤ n ∧ n ≤ high then some (n, rest) else none

/-- A year after white space: up to four digits, or a sign and any number of them. -/
def year? (cs : List Char) : Option (Int × List Char) :=
  match skipSpace cs with
  | '-' :: rest => do
    let (ds, rest) ← digits? rest.length rest
    return (-(number ds : Int), rest)
  | '+' :: rest => do
    let (ds, rest) ← digits? rest.length rest
    return (number ds, rest)
  | rest => do
    let (ds, rest) ← digits? 4 rest
    return (number ds, rest)

def separator? (c : Char) (cs : List Char) : Option (List Char) :=
  match skipSpace cs with
  | first :: rest => if first = c then some rest else none
  | [] => none

def fraction? : List Char → Option (Nat × List Char)
  | '.' :: rest => do
    let (ds, rest) ← digits? 9 rest
    return (number ds * Nat.pow 10 (9 - ds.length), rest.dropWhile isDigit)
  | rest => some (0, rest)

/-- Two digits of a zone offset. -/
def pair? : List Char → Option (Nat × List Char)
  | a :: b :: rest => if isDigit a && isDigit b then some (number [a, b], rest) else none
  | _ => none

/-- Hours and minutes of a zone offset, in seconds. -/
def offset? (cs : List Char) : Option (Int × List Char) := do
  let (hours, rest) ← pair? cs
  let (minutes, rest) ← pair? (rest.dropWhile fun c => c = ':' || isSpace c)
  if minutes < 60 ∧ hours < 24 then some (hours * 3600 + minutes * 60, rest) else none

/-- A time zone: how many seconds its clocks are ahead. -/
def zone? (cs : List Char) : Option (Int × List Char) :=
  if (cs.take 3).map Char.toUpper = ['U', 'T', 'C'] then some (0, cs.drop 3)
  else match cs with
    | 'Z' :: rest => some (0, rest)
    | 'z' :: rest => some (0, rest)
    | '+' :: rest => offset? rest
    | '-' :: rest => (offset? rest).map fun (seconds, rest) => (-seconds, rest)
    | '\u2212' :: rest => (offset? rest).map fun (seconds, rest) => (-seconds, rest)
    | _ => none

/-- The time that a text names. Both the local date and the time in UTC have to be in range. -/
def ofText? (text : String) : Option Timestamp := do
  let (year, cs) ← year? text.toList
  let cs ← separator? '-' cs
  let (month, cs) ← field? 1 12 cs
  let cs ← separator? '-' cs
  let (day, cs) ← field? 1 31 cs
  let cs ← match cs with
    | 'T' :: rest => some rest
    | 't' :: rest => some rest
    | ' ' :: rest => some rest
    | _ => none
  let (hour, cs) ← field? 0 23 cs
  let cs ← separator? ':' cs
  let (minute, cs) ← field? 0 59 cs
  let cs ← separator? ':' cs
  let (second, cs) ← field? 0 60 cs
  let (nano, cs) ← fraction? cs
  let (ahead, cs) ← zone? (skipSpace cs)
  let date : Date := ⟨year, month, day⟩
  if (skipSpace cs).isEmpty ∧ date.isValid then
    let isLeap := second = 60
    of? (date.dayNumber * secondsPerDay + hour * 3600 + minute * 60 + (min second 59 : Nat) - ahead)
      (if isLeap then nano + nanosPerSecond else nano)
  else none

end DurableFlow.Timestamp
