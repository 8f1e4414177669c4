/-
The scalars of YAML. A plain scalar is a null, a truth value or a number if it reads as one, and else
a text; a quoted one is always a text. A line end inside a scalar folds to a blank, and the empty
lines behind it stay.
-/

import AccessPolicy.Json.Token
import AccessPolicy.Settings.Setting

namespace AccessPolicy.Yaml

def isBlank (c : Char) : Bool := c = ' ' || c = '\t'

def skipBlanks (text : List Char) : List Char := text.dropWhile isBlank

def trimEnd (text : List Char) : List Char := (text.reverse.dropWhile isBlank).reverse

/-! ### Plain scalars -/

def word64? (value : Int) : Option Setting :=
  (Setting.word? value).map .integer

def radixInteger? (radix : Nat) (word : List Char) : Option Setting := do
  let values ← word.mapM Json.hexValue?
  if values.isEmpty || values.any fun value => radix ≤ value then none
  else word64? (values.foldl (fun n (value : Nat) => radix * n + value) 0)

def integer? : List Char → Option Setting
  | '0' :: 'x' :: word => radixInteger? 16 word
  | '0' :: 'o' :: word => radixInteger? 8 word
  | word => (Text.readInteger? word).bind word64?

def infinityNames : List String := [".inf", ".Inf", ".INF", "+.inf", "+.Inf", "+.INF"]

def minusInfinityNames : List String := ["-.inf", "-.Inf", "-.INF"]

def nanNames : List String := [".nan", ".NaN", ".NAN"]

def float? (word : String) : Option Setting :=
  if word ∈ infinityNames then some (.float (1.0 / 0.0))
  else if word ∈ minusInfinityNames then some (.float (-1.0 / 0.0))
  else if word ∈ nanNames then some (.float (0.0 / 0.0))
  else (Text.readFloat? word).map .float

def plain (word : String) : Setting :=
  if word = "" || word = "~" || word = "null" then .absent
  else if word = "true" then .bool true
  else if word = "false" then .bool false
  else ((integer? word.toList).or (float? word)).getD (.text word)

/-! ### Folding -/

def isEmptyLine (line : List Char) : Bool := (skipBlanks line).isEmpty

/-- `ends` empty lines stand in front of the next line. -/
def joint (ends : Nat) : List Char := if ends = 0 then [' '] else List.replicate ends '\n'

def foldBehind (ends : Nat) : List (List Char) → List Char
  | [] => []
  | line :: lines =>
    if isEmptyLine line then foldBehind (ends + 1) lines
    else joint ends ++ line ++ foldBehind 0 lines

/-- Joins lines: one line end is a blank, and each empty line is a line end. -/
def foldLines : List (List Char) → List Char
  | [] => []
  | line :: lines => line ++ foldBehind 0 lines

def splitLines (text : List Char) : List (List Char) :=
  text.foldr (fun c lines =>
    match c, lines with
    | '\n', lines => [] :: lines
    | c, [] => [[c]]
    | c, line :: lines => (c :: line) :: lines) [[]]

/-! ### Quoted scalars -/

def codeEscape? (length : Nat) (rest : List Char) : Option (Char × List Char) := do
  let digits ← (rest.take length).mapM Json.hexValue?
  let code := digits.foldl (fun n (digit : Nat) => 16 * n + digit) 0
  if digits.length < length || !code.isValidChar then none
  else return (Char.ofNat code, rest.drop length)

def escape? : List Char → Option (Char × List Char)
  | '0' :: rest => some ('\x00', rest)
  | 'a' :: rest => some ('\x07', rest)
  | 'b' :: rest => some ('\x08', rest)
  | 't' :: rest => some ('\t', rest)
  | '\t' :: rest => some ('\t', rest)
  | 'n' :: rest => some ('\n', rest)
  | 'v' :: rest => some ('\x0b', rest)
  | 'f' :: rest => some ('\x0c', rest)
  | 'r' :: rest => some ('\r', rest)
  | 'e' :: rest => some ('\x1b', rest)
  | ' ' :: rest => some (' ', rest)
  | '"' :: rest => some ('"', rest)
  | '/' :: rest => some ('/', rest)
  | '\\' :: rest => some ('\\', rest)
  | 'N' :: rest => some ('\u0085', rest)
  | '_' :: rest => some ('\u00a0', rest)
  | 'L' :: rest => some ('\u2028', rest)
  | 'P' :: rest => some ('\u2029', rest)
  | 'x' :: rest => codeEscape? 2 rest
  | 'u' :: rest => codeEscape? 4 rest
  | 'U' :: rest => codeEscape? 8 rest
  | _ => none

/-- Folds the line ends in front of some text: the blanks around them go, one line end is a blank,
and of several the first goes. -/
def foldEnds (text : List Char) : List Char × List Char :=
  let ends := text.takeWhile fun c => isBlank c || c = '\n'
  let count := (ends.filter fun c => c = '\n').length
  (joint (count - 1), text.drop ends.length)

def endsLine (text : List Char) : Bool :=
  match skipBlanks text with
  | '\n' :: _ => true
  | _ => false

def doubleQuoted? (fuel : Nat) (text : List Char) : Option (List Char × List Char) :=
  match fuel, text with
  | 0, _ => none
  | _, [] => none
  | _ + 1, '"' :: rest => some ([], rest)
  | fuel + 1, '\\' :: '\n' :: rest => doubleQuoted? fuel (rest.dropWhile isBlank)
  | fuel + 1, '\\' :: rest => do
    let (c, rest) ← escape? rest
    let (chars, rest) ← doubleQuoted? fuel rest
    return (c :: chars, rest)
  | fuel + 1, c :: rest => do
    if endsLine (c :: rest) then
      let (folded, rest) := foldEnds (c :: rest)
      let (chars, rest) ← doubleQuoted? fuel rest
      return (folded ++ chars, rest)
    else
      let (chars, rest) ← doubleQuoted? fuel rest
      return (c :: chars, rest)

/-- A quote is written twice; nothing else is escaped. -/
def singleQuoted? (fuel : Nat) (text : List Char) : Option (List Char × List Char) :=
  match fuel, text with
  | 0, _ => none
  | _, [] => none
  | fuel + 1, '\'' :: '\'' :: rest => do
    let (chars, rest) ← singleQuoted? fuel rest
    return ('\'' :: chars, rest)
  | _ + 1, '\'' :: rest => some ([], rest)
  | fuel + 1, c :: rest => do
    if endsLine (c :: rest) then
      let (folded, rest) := foldEnds (c :: rest)
      let (chars, rest) ← singleQuoted? fuel rest
      return (folded ++ chars, rest)
    else
      let (chars, rest) ← singleQuoted? fuel rest
      return (c :: chars, rest)

def quoted? (text : List Char) : Option (String × List Char) :=
  let read := match text with
    | '"' :: rest => doubleQuoted? (rest.length + 1) rest
    | '\'' :: rest => singleQuoted? (rest.length + 1) rest
    | _ => none
  read.map fun (chars, rest) => (String.ofList chars, rest)

def startsQuoted (text : List Char) : Bool :=
  match text with
  | '"' :: _ => true
  | '\'' :: _ => true
  | _ => false

end AccessPolicy.Yaml
