/-
Decimal numerals: the digits of natural numbers and integers, the reader of an optionally signed
integer, and decimal numbers with a point and an exponent. A decimal number is kept exact until it
is rounded to the nearest double.
-/

namespace AccessPolicy.Text

def isDigit (c : Char) : Bool := '0' ≤ c && c ≤ '9'

def digitValue (c : Char) : Nat := c.toNat - '0'.toNat

def digitsValue (digits : List Char) : Nat :=
  digits.foldl (fun value digit => 10 * value + digitValue digit) 0

def natural (n : Nat) : String := String.ofList (Nat.toDigits 10 n)

def integer : Int → String
  | .ofNat n => natural n
  | .negSucc n => "-" ++ natural (n + 1)

def hexadecimal (n : Nat) : String := String.ofList (Nat.toDigits 16 n)

/-- At least one digit and nothing else. -/
def readNatural? (text : List Char) : Option Nat :=
  if text.isEmpty || !text.all isDigit then none else some (digitsValue text)

def readInteger? : List Char → Option Int
  | '-' :: rest => (readNatural? rest).map fun n => -(n : Int)
  | '+' :: rest => (readNatural? rest).map fun n => (n : Int)
  | text => (readNatural? text).map fun n => (n : Int)

/-- The number `coefficient * 10 ^ exponent`, with the sign kept apart for the sake of zero. -/
structure Decimal where
  negative : Bool
  coefficient : Nat
  exponent : Int
  deriving DecidableEq, Repr

namespace Decimal

/-- The exponents that a double can tell apart end far inside these bounds, so that no power of ten
larger than a few hundred digits is ever formed. -/
def magnitude (d : Decimal) : Float :=
  let size := (Nat.toDigits 10 d.coefficient).length + d.exponent
  if d.coefficient = 0 || size < -330 then 0.0
  else if size > 310 then 1.0 / 0.0
  else match d.exponent with
    | .ofNat e => Float.ofScientific d.coefficient false e
    | .negSucc e => Float.ofScientific d.coefficient true (e + 1)

def toFloat (d : Decimal) : Float :=
  if d.negative then -d.magnitude else d.magnitude

def readExponent? : List Char → Option Int
  | [] => some 0
  | mark :: rest => if mark = 'e' || mark = 'E' then readInteger? rest else none

def readUnsigned? (negative : Bool) (text : List Char) : Option Decimal :=
  let whole := text.takeWhile isDigit
  let (fraction, rest) := match text.dropWhile isDigit with
    | '.' :: rest => (rest.takeWhile isDigit, rest.dropWhile isDigit)
    | rest => ([], rest)
  if whole.isEmpty && fraction.isEmpty then none
  else (readExponent? rest).map fun exponent =>
    { negative
      coefficient := digitsValue (whole ++ fraction)
      exponent := exponent - fraction.length }

end Decimal

def namedFloat? (text : List Char) : Option Float :=
  let name := text.map Char.toLower
  if name = "inf".toList || name = "infinity".toList then some (1.0 / 0.0)
  else if name = "nan".toList then some (0.0 / 0.0)
  else none

def readUnsignedFloat? (negative : Bool) (text : List Char) : Option Float :=
  match namedFloat? text with
  | some x => some (if negative then -x else x)
  | none => (Decimal.readUnsigned? negative text).map Decimal.toFloat

def readFloat? (text : String) : Option Float :=
  match text.toList with
  | '-' :: rest => readUnsignedFloat? true rest
  | '+' :: rest => readUnsignedFloat? false rest
  | rest => readUnsignedFloat? false rest

end AccessPolicy.Text
