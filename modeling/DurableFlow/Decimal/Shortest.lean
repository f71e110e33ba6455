import DurableFlow.Decimal

/-! # The shortest decimal of a double

A finite positive double is `m * 2 ^ q`, and every real number close enough to it rounds back to
it. Among the decimals in that interval the shortest ones are found by trying, for one digit, two
digits and so on, the two neighbours of the double on the decimal grid with that many digits.
-/

namespace DurableFlow.Decimal.Shortest

/-- A finite positive double with the interval of numbers that round to it, all as multiples of
`2 ^ exponent`. -/
structure Interval where
  low : Nat
  middle : Nat
  high : Nat
  exponent : Int
  /-- Whether the ends themselves round to the double. -/
  closed : Bool

/-- The interval of a double given by its bits without the sign. The gap below a power of two is
half as wide as the gap above it. -/
def Interval.ofBits (bits : Nat) : Interval :=
  let field := bits / Nat.pow 2 52
  let stored := bits % Nat.pow 2 52
  let m := if field = 0 then stored else stored + Nat.pow 2 52
  let q : Int := (max field 1 : Nat) - 1075
  let below := if stored = 0 ∧ 1 < field then 1 else 2
  ⟨4 * m - below, 4 * m, 4 * m + 2, q - 2, m % 2 = 0⟩

/-- Compare `a * 2 ^ e` with `c * 10 ^ d`. -/
def compareScaled (a : Nat) (e : Int) (c : Nat) (d : Int) : Ordering :=
  compare (a * Nat.pow 2 e.toNat * Nat.pow 10 (-d).toNat)
    (c * Nat.pow 10 d.toNat * Nat.pow 2 (-e).toNat)

/-- Whether `c * 10 ^ d` rounds to the double of the interval. -/
def Interval.holds (i : Interval) (c : Nat) (d : Int) : Bool :=
  let below := compareScaled i.low i.exponent c d
  let above := compareScaled i.high i.exponent c d
  (below = .lt || (i.closed && below = .eq)) && (above = .gt || (i.closed && above = .eq))

/-- The largest `c` with `c * 10 ^ d` not above the double. -/
def Interval.floor (i : Interval) (d : Int) : Nat :=
  (i.middle * Nat.pow 2 i.exponent.toNat * Nat.pow 10 (-d).toNat) /
    (Nat.pow 10 d.toNat * Nat.pow 2 (-i.exponent).toNat)

/-- The number of digits before the point; for a double below one, minus the number of zeros that
follow the point. -/
def Interval.magnitude (i : Interval) : Int :=
  let whole := i.floor 0
  if 0 < whole then (Nat.toDigits 10 whole).length
  else
    let zeros := ((List.range 400).find? fun j => 0 < i.floor (-(j + 1 : Nat))).getD 400
    0 - zeros

/-- The neighbour on the grid of `10 ^ d` that rounds to the double; of two the nearer one, and of
two equally near ones the even one. -/
def Interval.neighbour? (i : Interval) (d : Int) : Option Nat :=
  let c := i.floor d
  match i.holds c d, i.holds (c + 1) d with
  | true, true =>
    match compareScaled (2 * i.middle) i.exponent (2 * c + 1) d with
    | .lt => some c
    | .gt => some (c + 1)
    | .eq => some (if c % 2 = 0 then c else c + 1)
  | true, false => some c
  | false, true => some (c + 1)
  | false, false => none

/-- Move the trailing zeros of a coefficient into the exponent; at most `count` of them. -/
def trim : Nat → Nat → Int → Nat × Int
  | 0, c, d => (c, d)
  | count + 1, c, d => if c ≠ 0 ∧ c % 10 = 0 then trim count (c / 10) (d + 1) else (c, d)

/-- The coefficient and exponent of the shortest decimal of a finite positive double. -/
def ofBits (bits : Nat) : Nat × Int :=
  let i := Interval.ofBits bits
  let p := i.magnitude
  let found := (List.range 17).findSome? fun k =>
    let d := p - (k + 1 : Nat)
    (i.neighbour? d).map (·, d)
  let (c, d) := found.getD (i.floor (p - 17), p - 17)
  trim 20 c d

end DurableFlow.Decimal.Shortest
