/-
The written forms of doubles. Each form is a record of decisions over the shortest digits: which
numbers are written with the point in its place, whether a whole number keeps a fraction, and how
ties between two shortest numbers go.
-/

import AccessPolicy.Text.Shortest
import AccessPolicy.Text.Numeral

namespace AccessPolicy.Text

structure FloatForm where
  /-- The first and the last leading place of a number that is written without exponent; `none`
  writes every number so. -/
  positional : Option (Int × Int)
  wholeFraction : Bool
  tie : Shortest.Tie

namespace FloatForm

/-- What a log or a trace shows of a value. -/
def debug : FloatForm := { positional := some (-4, 15), wholeFraction := true, tie := .up }

/-- A number of a JSON text. -/
def json : FloatForm := { positional := some (-5, 15), wholeFraction := true, tie := .even }

/-- A number read for a setting that holds text. -/
def plain : FloatForm := { positional := none, wholeFraction := false, tie := .up }

def zeros (count : Nat) : List Char := List.replicate count '0'

def pointed (form : FloatForm) (d : Shortest.Digits) : List Char :=
  if d.leading < 0 then '0' :: '.' :: zeros (-d.leading - 1).toNat ++ d.digits
  else
    let places := d.leading.toNat + 1
    let whole := d.digits.take places ++ zeros (places - d.digits.length)
    match d.digits.drop places with
    | [] => if form.wholeFraction then whole ++ ['.', '0'] else whole
    | fraction => whole ++ '.' :: fraction

def scientific (d : Shortest.Digits) : List Char :=
  let exponent := 'e' :: (integer d.leading).toList
  match d.digits with
  | [] => exponent
  | [digit] => digit :: exponent
  | digit :: rest => digit :: '.' :: rest ++ exponent

def finite (form : FloatForm) (binary : Shortest.Binary) : List Char :=
  let d := binary.digits form.tie
  match form.positional with
  | none => form.pointed d
  | some (first, last) =>
    if first ≤ d.leading && d.leading ≤ last then form.pointed d else scientific d

def sign (negative : Bool) : List Char := if negative then ['-'] else []

def write (form : FloatForm) (x : Float) : String :=
  String.ofList <| match Shortest.classify x with
    | .nan => ['N', 'a', 'N']
    | .infinite negative => sign negative ++ ['i', 'n', 'f']
    | .zero negative => sign negative ++ if form.wholeFraction then ['0', '.', '0'] else ['0']
    | .finite negative binary => sign negative ++ form.finite binary

end FloatForm

end AccessPolicy.Text
