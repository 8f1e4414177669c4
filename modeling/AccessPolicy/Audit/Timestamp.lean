/-
Timestamps: moments in universal time, to the nanosecond, in the calendar of RFC 3339. A timestamp is
read with any offset and written without, with as many groups of three fraction digits as it needs.
A leap second is the second 60 of its minute.
-/

import AccessPolicy.Text.Numeral
import AccessPolicy.Text.WhiteSpace

namespace AccessPolicy

/-- `days` are counted from the first of January 1970; `second` counts within the day. The leap
second at the end of a minute belongs to the second before it and adds a whole second of
nanoseconds. -/
structure Timestamp where
  days : Int
  second : Nat
  nanosecond : Nat
  deriving DecidableEq, Repr

namespace Timestamp

/-! ### Calendar -/

def isLeapYear (year : Int) : Bool :=
  year % 4 = 0 && (year % 100 ≠ 0 || year % 400 = 0)

def monthLength (year : Int) (month : Nat) : Nat :=
  match month with
  | 2 => if isLeapYear year then 29 else 28
  | 4 => 30
  | 6 => 30
  | 9 => 30
  | 11 => 30
  | _ => 31

/-- Days from the first of March of the year 0 to the first of March of a year. -/
def daysBeforeYear (year : Int) : Int :=
  365 * year + year.fdiv 4 - year.fdiv 100 + year.fdiv 400

/-- Years are counted from March, so that the leap day is the last of its year. -/
def daysOfDate (year : Int) (month day : Nat) : Int :=
  let (year, shifted) := if month < 3 then (year - 1, month + 9) else (year, month - 3)
  daysBeforeYear year + ((153 * shifted + 2) / 5 : Nat) + ((day : Int) - 1) - 719468

structure Date where
  year : Int
  month : Nat
  day : Nat
  deriving DecidableEq, Repr

def dateOfDays (days : Int) : Date :=
  let days := days + 719468
  let era := days.fdiv 146097
  let dayOfEra := (days - era * 146097).toNat
  let yearOfEra := (dayOfEra - dayOfEra / 1460 + dayOfEra / 36524 - dayOfEra / 146096) / 365
  let dayOfYear := dayOfEra - (365 * yearOfEra + yearOfEra / 4 - yearOfEra / 100)
  let shifted := (5 * dayOfYear + 2) / 153
  let day := dayOfYear - (153 * shifted + 2) / 5 + 1
  let month := if shifted < 10 then shifted + 3 else shifted - 9
  let year : Int := (yearOfEra : Int) + era * 400
  { year := if month < 3 then year + 1 else year, month, day }

/-! ### Writing -/

def padded (width n : Nat) : String :=
  let digits := Nat.toDigits 10 n
  String.ofList (List.replicate (width - digits.length) '0' ++ digits)

def writeYear (year : Int) : String :=
  if 0 ≤ year && year ≤ 9999 then padded 4 year.toNat
  else (if year < 0 then "-" else "+") ++ padded 4 year.natAbs

def writeFraction (nanosecond : Nat) : String :=
  if nanosecond = 0 then ""
  else if nanosecond % 1000000 = 0 then "." ++ padded 3 (nanosecond / 1000000)
  else if nanosecond % 1000 = 0 then "." ++ padded 6 (nanosecond / 1000)
  else "." ++ padded 9 nanosecond

def write (t : Timestamp) : String :=
  let date := dateOfDays t.days
  let leap := 1000000000 ≤ t.nanosecond
  let second := t.second % 60 + if leap then 1 else 0
  writeYear date.year ++ "-" ++ padded 2 date.month ++ "-" ++ padded 2 date.day ++ "T"
    ++ padded 2 (t.second / 3600) ++ ":" ++ padded 2 (t.second / 60 % 60) ++ ":"
    ++ padded 2 second ++ writeFraction (t.nanosecond % 1000000000) ++ "Z"

/-! ### Reading -/

inductive Fault
  | tooShort
  | invalid
  | outOfRange
  | impossible
  | trailing
  deriving DecidableEq, Repr

def Fault.message : Fault → String
  | .tooShort => "premature end of input"
  | .invalid => "input contains invalid characters"
  | .outOfRange => "input is out of range"
  | .impossible => "no possible date and time matching input"
  | .trailing => "trailing input"

def readNumber (most : Nat) (text : List Char) : Except Fault (Nat × List Char) :=
  let digits := (text.take most).takeWhile Text.isDigit
  match text, digits with
  | [], _ => .error .tooShort
  | _ :: _, [] => .error .invalid
  | _ :: _, _ :: _ => .ok (Text.digitsValue digits, text.drop digits.length)

def readLiteral (literal : Char) : List Char → Except Fault (List Char)
  | [] => .error .tooShort
  | c :: rest => if c = literal then .ok rest else .error .invalid

def readYear (text : List Char) : Except Fault (Int × List Char) :=
  match Text.skipWhiteSpace text with
  | '-' :: rest => (readNumber rest.length rest).map fun (year, rest) => (-(year : Int), rest)
  | '+' :: rest => (readNumber rest.length rest).map fun (year, rest) => ((year : Int), rest)
  | rest => (readNumber 4 rest).map fun (year, rest) => ((year : Int), rest)

def readPart (least most : Nat) (text : List Char) : Except Fault (Nat × List Char) := do
  let (part, rest) ← readNumber 2 (Text.skipWhiteSpace text)
  if part < least || most < part then .error .outOfRange
  return (part, rest)

/-- Digits behind the ninth count nothing. -/
def readFraction : List Char → Except Fault (Nat × List Char)
  | '.' :: rest => do
    let (value, behind) ← readNumber 9 rest
    let places := rest.length - behind.length
    return (value * Nat.pow 10 (9 - places), behind.dropWhile Text.isDigit)
  | rest => .ok (0, rest)

def readSeparator : List Char → Except Fault (List Char)
  | [] => .error .tooShort
  | c :: rest => if c = 't' || c = 'T' || c = ' ' then .ok rest else .error .invalid

def readTwoDigits : List Char → Except Fault (Nat × List Char)
  | a :: b :: rest =>
    if Text.isDigit a && Text.isDigit b then .ok (Text.digitsValue [a, b], rest)
    else .error .invalid
  | _ => .error .tooShort

/-- The seconds that local time is ahead of universal time. -/
def readOffset (text : List Char) : Except Fault (Int × List Char) :=
  let signed (negative : Bool) (rest : List Char) : Except Fault (Int × List Char) := do
    let (hours, rest) ← readTwoDigits rest
    let rest := rest.dropWhile fun c => c = ':' || Text.isWhiteSpace c
    let (minutes, rest) ← readTwoDigits rest
    if 59 < minutes then .error .outOfRange
    let seconds : Int := (hours * 3600 + minutes * 60 : Nat)
    return (if negative then -seconds else seconds, rest)
  match text with
  | [] => .error .tooShort
  | c :: rest =>
    if c = '+' then signed false rest
    else if c = '-' || c = '\u2212' then signed true rest
    else if c = 'z' || c = 'Z' then .ok (0, rest)
    else if ((c :: rest).take 3).map Char.toLower = ['u', 't', 'c'] then .ok (0, rest.drop 2)
    else .error .invalid

def ofLocal (date : Date) (hour minute second nanosecond : Nat) (offset : Int) : Timestamp :=
  let leap := second = 60
  let clock : Int := (hour * 3600 + minute * 60 + if leap then 59 else second : Nat)
  let seconds := clock - offset
  { days := daysOfDate date.year date.month date.day + seconds.fdiv 86400
    second := (seconds.fmod 86400).toNat
    nanosecond := nanosecond + if leap then 1000000000 else 0 }

def hasYear (year : Int) : Bool := -262143 ≤ year && year ≤ 262142

def read (text : String) : Except Fault Timestamp := do
  let (year, rest) ← readYear text.toList
  let rest ← readLiteral '-' (Text.skipWhiteSpace rest)
  let (month, rest) ← readPart 1 12 rest
  let rest ← readLiteral '-' (Text.skipWhiteSpace rest)
  let (day, rest) ← readPart 1 31 rest
  let rest ← readSeparator rest
  let (hour, rest) ← readPart 0 23 rest
  let rest ← readLiteral ':' (Text.skipWhiteSpace rest)
  let (minute, rest) ← readPart 0 59 rest
  let rest ← readLiteral ':' (Text.skipWhiteSpace rest)
  let (second, rest) ← readPart 0 60 rest
  let (nanosecond, rest) ← readFraction rest
  let (offset, rest) ← readOffset (Text.skipWhiteSpace rest)
  if !(Text.skipWhiteSpace rest).isEmpty then .error .trailing
  if 86400 ≤ offset.natAbs then .error .outOfRange
  if monthLength year month < day then .error .outOfRange
  if !hasYear year then .error .outOfRange
  let moment := ofLocal { year, month, day } hour minute second nanosecond offset
  -- The offset can carry the last hours of the calendar out of it.
  if !hasYear (dateOfDays moment.days).year then .error .impossible
  return moment

end Timestamp

end AccessPolicy
