/-
The tokens of a JSON text. A token that breaks off carries its fault, and the list of tokens ends
with it: what comes after is never looked at. A place in the text is the number of characters that
are left there.
-/

import AccessPolicy.Json.Value
import AccessPolicy.Text.Numeral

namespace AccessPolicy.Json

inductive Fault
  | endInList
  | endInObject
  | endInText
  | endInValue
  | expectedColon
  | expectedListEnd
  | expectedObjectEnd
  | expectedWord
  | expectedValue
  | invalidEscape
  | invalidNumber
  | numberOutOfRange
  | controlCharacter
  | nameNotText
  | loneSurrogate
  | brokenSurrogatePair
  | trailingComma
  | trailingCharacters
  | tooDeep
  deriving DecidableEq, Repr

/-- A fault and its place: `left` characters are left behind it, and it lies on the next one of them
when `ahead` is set. -/
structure Failure where
  fault : Fault
  left : Nat
  ahead : Bool

inductive Token
  | listOpen
  | listClose
  | objectOpen
  | objectClose
  | comma
  | colon
  | scalar (value : Json)
  | text (value : String)
  | broken (failure : Failure)
  | brokenText (failure : Failure)
  | stray

structure Scanned where
  token : Token
  length : Nat

def Scanned.fail (fault : Fault) (rest : List Char) (ahead : Bool) : Scanned :=
  { token := .broken { fault, left := rest.length, ahead }, length := rest.length }

/-! ### Words -/

def scanWord (value : Json) (length : Nat) : (word rest : List Char) → Scanned
  | [], _ => { token := .scalar value, length }
  | _ :: _, [] => .fail .endInValue [] false
  | expected :: word, c :: rest =>
    if c = expected then scanWord value length word rest else .fail .expectedWord rest false

/-! ### Numbers -/

/-- The leading digits whose value fits a word of 64 bits, and how many digits follow them. -/
def fitting (significand : Nat) : List Char → Nat × Nat
  | [] => (significand, 0)
  | digit :: digits =>
    let next := 10 * significand + Text.digitValue digit
    if next < UInt64.size then fitting next digits else (significand, digits.length + 1)

def tenTo (exponent : Nat) : Float := Float.ofScientific 1 false exponent

/-- Scales in double arithmetic; an exponent too low for one step takes up to `steps` more.
Nothing is left where the number grows out of the doubles. -/
def scale (steps : Nat) (value : Float) (exponent : Int) : Option Float :=
  if 308 < exponent then (if value == 0.0 then some value else none)
  else if 0 ≤ exponent then
    let scaled := value * tenTo exponent.toNat
    if scaled.isInf then none else some scaled
  else if -308 ≤ exponent then some (value / tenTo (-exponent).toNat)
  else match steps with
    | 0 => some 0.0
    | steps + 1 => scale steps (value / tenTo 308) (exponent + 308)

/-- A numeral cut into its parts. A digit that no longer fits into the 64-bit significand counts by
its place if it stands before the point and not at all behind it. -/
structure Numeral where
  negative : Bool
  whole : List Char
  fraction : Option (List Char)
  exponent : Option Int

def Numeral.value? (n : Numeral) : Option Json :=
  let (significand, dropped) := fitting 0 n.whole
  if n.fraction.isNone && n.exponent.isNone && dropped = 0 then
    if !n.negative then some (.integer significand)
    else if significand = 0 || UInt64.size / 2 < significand then
      some (.real (-(UInt64.ofNat significand).toFloat))
    else some (.integer (-(significand : Int)))
  else
    let fraction := n.fraction.getD []
    let (significand, cut) := if dropped = 0 then fitting significand fraction
      else (significand, fraction.length)
    let exponent := n.exponent.getD 0 + dropped - (fraction.length - cut : Nat)
    (scale 4 (UInt64.ofNat significand).toFloat exponent).map fun x =>
      .real (if n.negative then -x else x)

def scanNumeral (n : Numeral) (length : Nat) (rest : List Char) : Scanned :=
  match n.value? with
  | some value => { token := .scalar value, length }
  | none => .fail .numberOutOfRange rest false

def scanExponent (n : Numeral) (length : Nat) (rest : List Char) : Scanned :=
  let (negative, signLength, rest) := match rest with
    | '-' :: rest => (true, 1, rest)
    | '+' :: rest => (false, 1, rest)
    | rest => (false, 0, rest)
  let digits := rest.takeWhile Text.isDigit
  match digits, rest with
  | [], [] => .fail .endInValue [] false
  | [], _ :: rest => .fail .invalidNumber rest false
  | _ :: _, _ =>
    let exponent : Int := Text.digitsValue digits
    scanNumeral { n with exponent := some (if negative then -exponent else exponent) }
      (length + signLength + digits.length) (rest.drop digits.length)

def scanTail (n : Numeral) (length : Nat) : List Char → Scanned
  | 'e' :: rest => scanExponent n (length + 1) rest
  | 'E' :: rest => scanExponent n (length + 1) rest
  | rest => scanNumeral n length rest

def scanFraction (n : Numeral) (length : Nat) : List Char → Scanned
  | '.' :: rest =>
    let digits := rest.takeWhile Text.isDigit
    match digits, rest with
    | [], [] => .fail .endInValue [] true
    | [], _ :: _ => .fail .invalidNumber rest true
    | _ :: _, _ =>
      scanTail { n with fraction := some digits } (length + 1 + digits.length)
        (rest.drop digits.length)
  | rest => scanTail n length rest

def scanNumber (negative : Bool) (length : Nat) : List Char → Scanned
  | [] => .fail .endInValue [] false
  | c :: rest =>
    let digits := (c :: rest).takeWhile Text.isDigit
    if digits.isEmpty then .fail .invalidNumber rest false
    else if c = '0' && 1 < digits.length then .fail .invalidNumber rest true
    else scanFraction { negative, whole := digits, fraction := none, exponent := none }
      (length + digits.length) ((c :: rest).drop digits.length)

/-! ### Texts -/

def hexValue? (c : Char) : Option Nat :=
  if Text.isDigit c then some (Text.digitValue c)
  else if 'a' ≤ c && c ≤ 'f' then some (c.toNat - 'a'.toNat + 10)
  else if 'A' ≤ c && c ≤ 'F' then some (c.toNat - 'A'.toNat + 10)
  else none

def readUnit (rest : List Char) : Except Failure Nat :=
  match rest with
  | a :: b :: c :: d :: rest =>
    match [a, b, c, d].mapM hexValue? with
    | some digits => .ok (digits.foldl (fun unit digit => 16 * unit + digit) 0)
    | none => .error { fault := .invalidEscape, left := rest.length, ahead := false }
  | _ => .error { fault := .endInText, left := 0, ahead := false }

/-- The character of an escape and the number of characters that the escape takes behind its `u`.
A leading surrogate needs a trailing one right behind it. -/
def readUnitPair (rest : List Char) : Except Failure (Char × Nat) := do
  let fail {α : Type} (fault : Fault) (rest : List Char) : Except Failure α :=
    .error { fault, left := rest.length, ahead := false }
  let leading ← readUnit rest
  if 0xdc00 ≤ leading && leading ≤ 0xdfff then fail .loneSurrogate (rest.drop 4)
  else if leading < 0xd800 || 0xdbff < leading then .ok (Char.ofNat leading, 4)
  else match rest.drop 4 with
    | [] => fail .endInText []
    | '\\' :: [] => fail .endInText []
    | '\\' :: 'u' :: more =>
      let trailing ← readUnit more
      if trailing < 0xdc00 || 0xdfff < trailing then fail .loneSurrogate (more.drop 4)
      else .ok (Char.ofNat ((leading - 0xd800) * 0x400 + (trailing - 0xdc00) + 0x10000), 10)
    | '\\' :: _ :: more => fail .brokenSurrogatePair more
    | _ :: more => fail .brokenSurrogatePair more

def readEscape : List Char → Except Failure (Char × Nat)
  | [] => .error { fault := .endInText, left := 0, ahead := false }
  | 'u' :: rest => (readUnitPair rest).map fun (c, length) => (c, length + 1)
  | c :: rest =>
    match c with
    | '"' => .ok ('"', 1)
    | '\\' => .ok ('\\', 1)
    | '/' => .ok ('/', 1)
    | 'b' => .ok ('\x08', 1)
    | 'f' => .ok ('\x0c', 1)
    | 'n' => .ok ('\n', 1)
    | 'r' => .ok ('\r', 1)
    | 't' => .ok ('\t', 1)
    | _ => .error { fault := .invalidEscape, left := rest.length, ahead := false }

def readText (rest : List Char) : Except Failure (List Char × Nat) :=
  match rest with
  | [] => .error { fault := .endInText, left := 0, ahead := false }
  | '"' :: _ => .ok ([], 1)
  | '\\' :: rest => do
    let (c, length) ← readEscape rest
    let (chars, more) ← readText (rest.drop length)
    .ok (c :: chars, more + length + 1)
  | c :: rest =>
    if c.toNat < 0x20 then .error { fault := .controlCharacter, left := rest.length, ahead := false }
    else do
      let (chars, more) ← readText rest
      .ok (c :: chars, more + 1)
termination_by rest.length

def scanText (rest : List Char) : Scanned :=
  match readText rest with
  | .ok (chars, length) => { token := .text (String.ofList chars), length }
  | .error failure => { token := .brokenText failure, length := rest.length }

/-! ### Tokens -/

def scan (c : Char) (rest : List Char) : Scanned :=
  match c with
  | '[' => { token := .listOpen, length := 0 }
  | ']' => { token := .listClose, length := 0 }
  | '\x7b' => { token := .objectOpen, length := 0 }
  | '\x7d' => { token := .objectClose, length := 0 }
  | ',' => { token := .comma, length := 0 }
  | ':' => { token := .colon, length := 0 }
  | '"' => scanText rest
  | 'n' => scanWord .null 3 "ull".toList rest
  | 't' => scanWord (.bool true) 3 "rue".toList rest
  | 'f' => scanWord (.bool false) 4 "alse".toList rest
  | '-' => scanNumber true 0 rest
  | c =>
    if Text.isDigit c then
      let scanned := scanNumber false 0 (c :: rest)
      { scanned with length := scanned.length - 1 }
    else { token := .stray, length := rest.length }

def isBlank (c : Char) : Bool := c = ' ' || c = '\n' || c = '\t' || c = '\r'

def tokens : List Char → List (Token × Nat)
  | [] => []
  | c :: rest =>
    if isBlank c then tokens rest
    else
      let scanned := scan c rest
      (scanned.token, rest.length + 1) :: tokens (rest.drop scanned.length)
termination_by text => text.length

end AccessPolicy.Json
