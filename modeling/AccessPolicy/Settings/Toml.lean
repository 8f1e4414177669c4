/-
Settings in TOML: tables under headers, dotted keys, quoted texts on one line or several, numbers in
four bases, moments, lists and inline tables. A moment stands for its text. A text that breaks the
grammar, or defines a key twice, is no TOML at all.
-/

import AccessPolicy.Audit.Timestamp
import AccessPolicy.Json.Token
import AccessPolicy.Settings.Setting

namespace AccessPolicy.Toml

abbrev Reader (α : Type) : Type := List Char → Option (α × List Char)

def isBlank (c : Char) : Bool := c = ' ' || c = '\t'

def skipBlanks (text : List Char) : List Char := text.dropWhile isBlank

def isLineEnd : List Char → Bool
  | [] => true
  | '\n' :: _ => true
  | '\r' :: '\n' :: _ => true
  | _ => false

/-- A control character other than the tab has no place in a line. -/
def isControl (c : Char) : Bool := (c.toNat < 0x20 && c ≠ '\t') || c.toNat = 0x7f

def skipComment (text : List Char) : List Char :=
  match skipBlanks text with
  | '#' :: rest => rest.dropWhile fun c => !isControl c
  | rest => rest

def endLine? (text : List Char) : Option (List Char) :=
  match skipComment text with
  | [] => some []
  | '\n' :: rest => some rest
  | '\r' :: '\n' :: rest => some rest
  | _ => none

/-- Goes over blanks, comments and line ends; `fuel` bounds the number of lines. -/
def skipLines (fuel : Nat) (text : List Char) : List Char :=
  match fuel, skipComment text with
  | fuel + 1, '\n' :: rest => skipLines fuel rest
  | fuel + 1, '\r' :: '\n' :: rest => skipLines fuel rest
  | _, rest => rest

/-! ### Texts -/

def hexValue (digits : List Char) : Option Nat :=
  (digits.mapM Json.hexValue?).map fun values => values.foldl (fun n digit => 16 * n + digit) 0

def charOfCode? (code : Nat) : Option Char :=
  if code.isValidChar then some (Char.ofNat code) else none

def codeEscape? (length : Nat) (rest : List Char) : Option (Char × List Char) := do
  let digits := rest.take length
  if digits.length < length then none
  else return (← charOfCode? (← hexValue digits), rest.drop length)

def escape? : Reader Char
  | 'b' :: rest => some ('\x08', rest)
  | 't' :: rest => some ('\t', rest)
  | 'n' :: rest => some ('\n', rest)
  | 'f' :: rest => some ('\x0c', rest)
  | 'r' :: rest => some ('\r', rest)
  | '"' :: rest => some ('"', rest)
  | '\\' :: rest => some ('\\', rest)
  | 'u' :: rest => codeEscape? 4 rest
  | 'U' :: rest => codeEscape? 8 rest
  | _ => none

structure Quotation where
  mark : Char
  escapes : Bool
  lines : Bool

/-- The end of a text over several lines may touch up to two more of its marks. -/
def closing? (q : Quotation) (text : List Char) : Option (List Char × List Char) :=
  let marks := (text.takeWhile fun c => c = q.mark).length
  if q.lines then
    if 3 ≤ marks && marks ≤ 5 then some (List.replicate (marks - 3) q.mark, text.drop marks)
    else none
  else if 1 ≤ marks then some ([], text.drop 1)
  else none

/-- A backslash at the end of a line takes the blanks and lines behind it away. -/
def skipFolded (text : List Char) : List Char :=
  text.dropWhile fun c => isBlank c || c = '\n' || c = '\r'

def quotedRest? (q : Quotation) (fuel : Nat) (text : List Char) : Option (List Char × List Char) :=
  match fuel with
  | 0 => none
  | fuel + 1 =>
    match closing? q text, text with
    | some found, _ => some found
    | none, [] => none
    | none, c :: rest => do
      if c = '\\' && q.escapes then
        if q.lines && isLineEnd (skipBlanks rest) then quotedRest? q fuel (skipFolded rest)
        else
          let (c, rest) ← escape? rest
          let (chars, rest) ← quotedRest? q fuel rest
          return (c :: chars, rest)
      else if q.lines && c = '\r' && rest.head? = some '\n' then quotedRest? q fuel rest
      else if isControl c && !(q.lines && c = '\n') then none
      else
        let (chars, rest) ← quotedRest? q fuel rest
        return (c :: chars, rest)

def quoted? (q : Quotation) (text : List Char) : Option (String × List Char) :=
  (quotedRest? q (text.length + 1) text).map fun (chars, rest) => (String.ofList chars, rest)

/-- A line end right behind the opening marks is not part of the text. -/
def dropLineEnd : List Char → List Char
  | '\n' :: rest => rest
  | '\r' :: '\n' :: rest => rest
  | rest => rest

def text? : Reader String
  | '"' :: '"' :: '"' :: rest =>
    quoted? { mark := '"', escapes := true, lines := true } (dropLineEnd rest)
  | '\'' :: '\'' :: '\'' :: rest =>
    quoted? { mark := '\'', escapes := false, lines := true } (dropLineEnd rest)
  | '"' :: rest => quoted? { mark := '"', escapes := true, lines := false } rest
  | '\'' :: rest => quoted? { mark := '\'', escapes := false, lines := false } rest
  | _ => none

/-! ### Keys -/

def isBare (c : Char) : Bool := c.isAlphanum || c = '_' || c = '-'

def simpleKey? (text : List Char) : Option (String × List Char) :=
  match text with
  | '"' :: rest => quoted? { mark := '"', escapes := true, lines := false } rest
  | '\'' :: rest => quoted? { mark := '\'', escapes := false, lines := false } rest
  | _ =>
    let name := text.takeWhile isBare
    if name.isEmpty then none else some (String.ofList name, text.drop name.length)

def keyParts? (fuel : Nat) (text : List Char) : Option (List String × List Char) := do
  let (part, rest) ← simpleKey? (skipBlanks text)
  match fuel, skipBlanks rest with
  | fuel + 1, '.' :: rest => do
    let (parts, rest) ← keyParts? fuel rest
    return (part :: parts, rest)
  | _, rest => return ([part], rest)

def key? (text : List Char) : Option (List String × List Char) := keyParts? text.length text

/-! ### Numbers -/

/-- Digits with single underscores between them, without the underscores. -/
def digits? (isDigit : Char → Bool) : List Char → Option (List Char)
  | [] => none
  | [c] => if isDigit c then some [c] else none
  | c :: '_' :: rest => if isDigit c then (digits? isDigit rest).map (c :: ·) else none
  | c :: rest => if isDigit c then (digits? isDigit rest).map (c :: ·) else none

def radixInteger? (radix : Nat) (word : List Char) : Option Setting := do
  let isDigit (c : Char) : Bool :=
    match Json.hexValue? c with
    | some value => value < radix
    | none => false
  let digits ← digits? isDigit word
  let value := digits.foldl (fun n digit => radix * n + (Json.hexValue? digit).getD 0) 0
  (Setting.word? value).map .integer

def splitSign : List Char → Bool × List Char
  | '-' :: rest => (true, rest)
  | '+' :: rest => (false, rest)
  | rest => (false, rest)

def hasLeadingZero : List Char → Bool
  | '0' :: _ :: _ => true
  | _ => false

def wholeDigits? (word : List Char) : Option (List Char) := do
  let digits ← digits? Text.isDigit word
  if hasLeadingZero digits then none else some digits

def decimalInteger? (word : List Char) : Option Setting := do
  let (negative, word) := splitSign word
  let value := Text.digitsValue (← wholeDigits? word)
  let value : Int := if negative then -(value : Int) else value
  (Setting.word? value).map .integer

def exponent? : List Char → Option Int
  | [] => some 0
  | _ :: word => do
    let (negative, word) := splitSign word
    let value := Text.digitsValue (← digits? Text.isDigit word)
    return if negative then -(value : Int) else value

def decimalFloat? (word : List Char) : Option Setting := do
  let (negative, word) := splitSign word
  let isMark (c : Char) : Bool := c = 'e' || c = 'E'
  if !word.any fun c => c = '.' || isMark c then none
  let mantissa := word.takeWhile fun c => !isMark c
  let exponent ← exponent? (word.dropWhile fun c => !isMark c)
  let whole ← wholeDigits? (mantissa.takeWhile fun c => c ≠ '.')
  let fraction ← match mantissa.dropWhile fun c => c ≠ '.' with
    | [] => some []
    | _ :: digits => digits? Text.isDigit digits
  let decimal : Text.Decimal :=
    { negative
      coefficient := Text.digitsValue (whole ++ fraction)
      exponent := exponent - fraction.length }
  return .float decimal.toFloat

def namedFloat? (word : List Char) : Option Setting :=
  let (negative, word) := splitSign word
  let signed (x : Float) : Option Setting := some (.float (if negative then -x else x))
  if word = "inf".toList then signed (1.0 / 0.0)
  else if word = "nan".toList then signed (0.0 / 0.0)
  else none

def number? : List Char → Option Setting
  | '0' :: 'x' :: word => radixInteger? 16 word
  | '0' :: 'o' :: word => radixInteger? 8 word
  | '0' :: 'b' :: word => radixInteger? 2 word
  | word =>
    (namedFloat? word).or <| (decimalInteger? word).or (decimalFloat? word)

/-! ### Moments -/

def pair? : Reader Nat
  | a :: b :: rest =>
    if Text.isDigit a && Text.isDigit b then some (Text.digitsValue [a, b], rest) else none
  | _ => none

def expect? (c : Char) : Reader Unit
  | d :: rest => if c = d then some ((), rest) else none
  | [] => none

def date? (text : List Char) : Option (String × List Char) := do
  let (century, rest) ← pair? text
  let (year, rest) ← pair? rest
  let ((), rest) ← expect? '-' rest
  let (month, rest) ← pair? rest
  let ((), rest) ← expect? '-' rest
  let (day, rest) ← pair? rest
  if month < 1 || 12 < month || day < 1
      || Timestamp.monthLength (century * 100 + year : Nat) month < day then none
  else
    return (Timestamp.padded 4 (century * 100 + year) ++ "-" ++ Timestamp.padded 2 month ++ "-"
      ++ Timestamp.padded 2 day, rest)

/-- A fraction of nine digits without the zeros at its end. -/
def fractionText (digits : List Char) : String :=
  let kept := ((digits.take 9).reverse.dropWhile fun c => c = '0').reverse
  if kept.isEmpty then "" else "." ++ String.ofList kept

def time? (text : List Char) : Option (String × List Char) := do
  let (hour, rest) ← pair? text
  let ((), rest) ← expect? ':' rest
  let (minute, rest) ← pair? rest
  let ((), rest) ← expect? ':' rest
  let (second, rest) ← pair? rest
  if 24 < hour || 59 < minute || 60 < second then none
  else
    let clock := Timestamp.padded 2 hour ++ ":" ++ Timestamp.padded 2 minute ++ ":"
      ++ Timestamp.padded 2 second
    match rest with
    | '.' :: rest =>
      let digits := rest.takeWhile Text.isDigit
      if digits.isEmpty then none
      else some (clock ++ fractionText digits, rest.drop digits.length)
    | rest => some (clock, rest)

def offset? : List Char → Option (String × List Char)
  | [] => some ("", [])
  | c :: rest =>
    if c = 'Z' || c = 'z' then some ("Z", rest)
    else if c = '+' || c = '-' then do
      let (hour, rest) ← pair? rest
      let ((), rest) ← expect? ':' rest
      let (minute, rest) ← pair? rest
      return (String.singleton c ++ Timestamp.padded 2 hour ++ ":" ++ Timestamp.padded 2 minute,
        rest)
    else none

def moment? (word : List Char) : Option Setting :=
  let whole : String × List Char → Option Setting
    | (text, []) => some (.text text)
    | _ => none
  match date? word with
  | none => (time? word).bind whole
  | some (date, []) => some (.text date)
  | some (date, c :: rest) => do
    if c ≠ 'T' && c ≠ 't' && c ≠ ' ' then none
    else
      let (time, rest) ← time? rest
      let (offset, rest) ← offset? rest
      whole (date ++ "T" ++ time ++ offset, rest)

/-! ### Values -/

def isWordChar (c : Char) : Bool := isBare c || c = '+' || c = '.' || c = ':'

/-- A word, and the time behind a date and a single blank. -/
def word (text : List Char) : List Char × List Char :=
  let first := text.takeWhile isWordChar
  let rest := text.drop first.length
  match date? first, rest with
  | some (_, []), ' ' :: more =>
    match pair? more with
    | some _ => (first ++ ' ' :: more.takeWhile isWordChar, more.dropWhile isWordChar)
    | none => (first, rest)
  | _, _ => (first, rest)

def scalar? (text : List Char) : Option (Setting × List Char) :=
  match text? text with
  | some (value, rest) => some (.text value, rest)
  | none =>
    let (word, rest) := word text
    if word = "true".toList then some (.bool true, rest)
    else if word = "false".toList then some (.bool false, rest)
    else ((number? word).or (moment? word)).map fun value => (value, rest)

/-- Puts a value at the end of a path of keys. A key is never defined twice. -/
def define? (value : Setting) : List String → List (String × Setting) →
    Option (List (String × Setting))
  | [], _ => none
  | [name], entries =>
    if (entries.lookup name).isSome then none else some (Setting.putEntry name value entries)
  | name :: path, entries =>
    match entries.lookup name with
    | none => (define? value path []).map fun inner => Setting.putEntry name (.table inner) entries
    | some (.table inner) =>
      (define? value path inner).map fun inner => Setting.putEntry name (.table inner) entries
    | some _ => none

mutual

/-- A value; `fuel` bounds how many values and separators there are. -/
def value? (fuel : Nat) (text : List Char) : Option (Setting × List Char) :=
  match fuel, text with
  | 0, _ => none
  | fuel + 1, '[' :: rest =>
    (items? fuel rest).map fun (items, rest) => (.list items, rest)
  | fuel + 1, '\x7b' :: rest =>
    match skipBlanks rest with
    | '\x7d' :: rest => some (.table [], rest)
    | rest => (pairs? fuel [] rest).map fun (entries, rest) => (.table entries, rest)
  | _ + 1, text => scalar? text

def items? (fuel : Nat) (text : List Char) : Option (List Setting × List Char) :=
  match fuel, skipLines text.length text with
  | 0, _ => none
  | _ + 1, ']' :: rest => some ([], rest)
  | fuel + 1, text => do
    let (item, rest) ← value? fuel text
    match skipLines rest.length rest with
    | ',' :: rest =>
      let (items, rest) ← items? fuel rest
      return (item :: items, rest)
    | ']' :: rest => return ([item], rest)
    | _ => none

def pairs? (fuel : Nat) (entries : List (String × Setting)) (text : List Char) :
    Option (List (String × Setting) × List Char) :=
  match fuel with
  | 0 => none
  | fuel + 1 => do
    let (path, rest) ← key? text
    let ((), rest) ← expect? '=' rest
    let (value, rest) ← value? fuel (skipBlanks rest)
    let entries ← define? value path entries
    match skipBlanks rest with
    | ',' :: rest => pairs? fuel entries rest
    | '\x7d' :: rest => return (entries, rest)
    | _ => none

end

/-! ### Documents -/

/-- A document up to some line: its root, the path of the table that keys go to, and the paths that
have had a header. -/
structure Document where
  root : List (String × Setting) := []
  table : List String := []
  headers : List (List String) := []

/-- Changes the table at a path, which may lead through the last tables of lists. -/
def atTable? (change : List (String × Setting) → Option (List (String × Setting))) :
    List String → List (String × Setting) → Option (List (String × Setting))
  | [], entries => change entries
  | name :: path, entries =>
    let put (value : Setting) : List (String × Setting) := Setting.putEntry name value entries
    match entries.lookup name with
    | none => (atTable? change path []).map fun inner => put (.table inner)
    | some (.table inner) => (atTable? change path inner).map fun inner => put (.table inner)
    | some (.list items) =>
      match items.getLast? with
      | some (.table inner) =>
        (atTable? change path inner).map fun inner => put (.list (items.dropLast ++ [.table inner]))
      | _ => none
    | some _ => none

namespace Document

def openTable? (document : Document) (path : List String) : Option Document := do
  if path ∈ document.headers then none
  else
    let root ← atTable? some path document.root
    match (document.root.lookup (path.headD "")), path with
    | some (.list _), [_] => none
    | _, _ => return { root, table := path, headers := path :: document.headers }

/-- Adds a table to a list of tables. Headers below the list start anew with it. -/
def openItem? (document : Document) (path : List String) : Option Document := do
  let last ← path.getLast?
  let change (entries : List (String × Setting)) : Option (List (String × Setting)) :=
    match entries.lookup last with
    | none => some (Setting.putEntry last (.list [.table []]) entries)
    | some (.list items) => some (Setting.putEntry last (.list (items ++ [.table []])) entries)
    | some _ => none
  let root ← atTable? change path.dropLast document.root
  return { root, table := path,
           headers := document.headers.filter fun header => !path.isPrefixOf header }

def header? (document : Document) (text : List Char) : Option (Document × List Char) :=
  match text with
  | '[' :: rest => do
    let (path, rest) ← key? rest
    let ((), rest) ← expect? ']' rest
    let ((), rest) ← expect? ']' rest
    return (← document.openItem? path, rest)
  | rest => do
    let (path, rest) ← key? rest
    let ((), rest) ← expect? ']' rest
    return (← document.openTable? path, rest)

def keyLine? (document : Document) (text : List Char) : Option (Document × List Char) := do
  let (path, rest) ← key? text
  let ((), rest) ← expect? '=' rest
  let (value, rest) ← value? (2 * rest.length + 1) (skipBlanks rest)
  let root ← atTable? (define? value path) document.table document.root
  return ({ document with root }, rest)

def lines? (fuel : Nat) (document : Document) (text : List Char) : Option Document :=
  match fuel, skipBlanks text with
  | _, [] => some document
  | 0, _ :: _ => none
  | fuel + 1, text => do
    let (document, rest) ← match text with
      | '[' :: rest => document.header? rest
      | c :: _ =>
        if c = '#' || isLineEnd text then some (document, text) else document.keyLine? text
      | [] => some (document, [])
    document.lines? fuel (← endLine? rest)

end Document

def read? (text : String) : Option Setting :=
  (Document.lines? (text.length + 1) {} text.toList).map fun document => .table document.root

end AccessPolicy.Toml
