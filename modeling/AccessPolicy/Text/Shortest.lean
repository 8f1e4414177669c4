/-
The shortest decimal number that reads back as a given double. All arithmetic is on natural numbers:
a double is `mantissa * 2 ^ power`, and the real numbers that round to it form an interval around it,
whose ends belong to it when the mantissa is even. The grids of the powers of ten are tried from the
coarse to the fine, and the first grid with a point in the interval has the shortest number.
-/

namespace AccessPolicy.Text.Shortest

/-- A finite double that is not zero. `narrowBelow` marks the first double of a binade, whose lower
neighbour is only half as far away. -/
structure Binary where
  mantissa : Nat
  power : Int
  narrowBelow : Bool

inductive Class
  | nan
  | infinite (negative : Bool)
  | zero (negative : Bool)
  | finite (negative : Bool) (binary : Binary)

def classify (x : Float) : Class :=
  let bits := x.toBits.toNat
  let negative := bits / Nat.pow 2 63 = 1
  let exponent : Nat := bits / Nat.pow 2 52 % Nat.pow 2 11
  let fraction : Nat := bits % Nat.pow 2 52
  if exponent = 2047 then
    if fraction = 0 then .infinite negative else .nan
  else if exponent = 0 then
    if fraction = 0 then .zero negative
    else .finite negative { mantissa := fraction, power := -1074, narrowBelow := false }
  else .finite negative
    { mantissa := Nat.pow 2 52 + fraction
      power := (exponent : Int) - 1075
      narrowBelow := fraction = 0 && 1 < exponent }

/-- The value and the two ends of its interval, as multiples of `1 / denominator`. -/
structure Interval where
  low : Nat
  value : Nat
  high : Nat
  denominator : Nat
  closed : Bool

def Binary.interval (b : Binary) : Interval :=
  let quarter := b.power - 2
  let scale := Nat.pow 2 quarter.toNat
  { low := (4 * b.mantissa - if b.narrowBelow then 1 else 2) * scale
    value := 4 * b.mantissa * scale
    high := (4 * b.mantissa + 2) * scale
    denominator := Nat.pow 2 (-quarter).toNat
    closed := b.mantissa % 2 = 0 }

inductive Tie
  | up
  | even
  deriving DecidableEq, Repr

/-- The point of the grid of `10 ^ exponent` that lies in the interval, the nearer one of two. -/
def Interval.gridPoint? (i : Interval) (tie : Tie) (exponent : Int) : Option Nat :=
  let unit := Nat.pow 10 exponent.toNat * i.denominator
  let scale := Nat.pow 10 (-exponent).toNat
  let below := i.value * scale / unit
  let above := below + 1
  let inside (point : Nat) : Bool :=
    if i.closed then i.low * scale ≤ point * unit && point * unit ≤ i.high * scale
    else i.low * scale < point * unit && point * unit < i.high * scale
  let belowDistance := i.value * scale - below * unit
  let aboveDistance := above * unit - i.value * scale
  match 0 < below && inside below, inside above with
  | false, false => none
  | true, false => some below
  | false, true => some above
  | true, true =>
    if belowDistance < aboveDistance then some below
    else if aboveDistance < belowDistance then some above
    else match tie with
      | .up => some above
      | .even => some (if below % 2 = 0 then below else above)

structure Digits where
  digits : List Char
  leading : Int

/-- Tries `count` grids, from the one of `10 ^ exponent` to finer ones. -/
def search (i : Interval) (tie : Tie) : (count : Nat) → (exponent : Int) → Digits
  | 0, exponent => { digits := ['0'], leading := exponent }
  | count + 1, exponent =>
    match i.gridPoint? tie exponent with
    | none => search i tie count (exponent - 1)
    | some point =>
      let digits := Nat.toDigits 10 point
      { digits, leading := exponent + digits.length - 1 }

/-- The first grid tried is coarser than the number, and the last one finer than the least double. -/
def Binary.digits (b : Binary) (tie : Tie) : Digits :=
  let interval := b.interval
  let start := (Nat.toDigits 10 (interval.value / interval.denominator)).length
  search interval tie (start + 330) start

end AccessPolicy.Text.Shortest
