/-
Flow collections of YAML: lists in square brackets and tables in curly ones, which may go over several
lines.
-/

import AccessPolicy.Settings.Yaml.Scalar

namespace AccessPolicy.Yaml

def skipSpace (fuel : Nat) (text : List Char) : List Char :=
  match fuel, text.dropWhile fun c => isBlank c || c = '\n' with
  | fuel + 1, '#' :: rest => skipSpace fuel (rest.dropWhile fun c => c ≠ '\n')
  | _, rest => rest

def isFlowMark (c : Char) : Bool :=
  c = ',' || c = '[' || c = ']' || c = '\x7b' || c = '\x7d'

def endsKey (inFlow : Bool) (behind : List Char) : Bool :=
  match behind with
  | [] => true
  | c :: _ => isBlank c || c = '\n' || (inFlow && isFlowMark c)

/-- A plain scalar on one line: it ends where a comment, a value or, inside a collection, a mark
starts. -/
def plainChars (inFlow : Bool) : List Char → List Char
  | [] => []
  | c :: rest =>
    if c = '\n' || (inFlow && isFlowMark c) || (c = ':' && endsKey inFlow rest) then []
    else if isBlank c && rest.head? = some '#' then []
    else c :: plainChars inFlow rest

def isIndicator (c : Char) : Bool :=
  isFlowMark c || c = '#' || c = '&' || c = '*' || c = '!' || c = '|' || c = '>' || c = '\''
    || c = '"' || c = '%' || c = '@' || c.toNat = 0x60

def startsPlain (inFlow : Bool) : List Char → Bool
  | [] => false
  | c :: rest =>
    if c = '-' || c = '?' || c = ':' then !endsKey inFlow rest else !isIndicator c

def plainWord? (inFlow : Bool) (text : List Char) : Option (String × List Char) :=
  if startsPlain inFlow text then
    let chars := plainChars inFlow text
    some (String.ofList (trimEnd chars), text.drop chars.length)
  else none

/-- The name that a key stands for: a number is shown in its own form. -/
def keyName (word : String) : String :=
  match plain word with
  | .integer value => Text.integer value.toInt
  | _ => word

def scalar? (inFlow : Bool) (text : List Char) : Option (Setting × List Char) :=
  if startsQuoted text then (quoted? text).map fun (value, rest) => (.text value, rest)
  else (plainWord? inFlow text).map fun (word, rest) => (plain word, rest)

def key? (inFlow : Bool) (text : List Char) : Option (String × List Char) :=
  if startsQuoted text then quoted? text
  else (plainWord? inFlow text).map fun (word, rest) => (keyName word, rest)

mutual

def flowNode? (fuel : Nat) (text : List Char) : Option (Setting × List Char) :=
  match fuel, text with
  | 0, _ => none
  | fuel + 1, '[' :: rest => (flowItems? fuel rest).map fun (items, rest) => (.list items, rest)
  | fuel + 1, '\x7b' :: rest =>
    (flowEntries? fuel [] rest).map fun (entries, rest) => (.table entries, rest)
  | _ + 1, text => scalar? true text

/-- An item of a list may be a pair, which is a table of one entry. -/
def flowItems? (fuel : Nat) (text : List Char) : Option (List Setting × List Char) :=
  match fuel, skipSpace text.length text with
  | 0, _ => none
  | _ + 1, ']' :: rest => some ([], rest)
  | fuel + 1, text => do
    let (item, rest) ← flowNode? fuel text
    let (item, rest) ← match skipSpace rest.length rest with
      | ':' :: behind => do
        let (name, _) ← key? true text
        let (value, rest) ← flowValue? fuel behind
        pure (Setting.table [(name, value)], rest)
      | rest => pure (item, rest)
    match skipSpace rest.length rest with
    | ',' :: rest =>
      let (items, rest) ← flowItems? fuel rest
      return (item :: items, rest)
    | ']' :: rest => return ([item], rest)
    | _ => none

def flowEntries? (fuel : Nat) (entries : List (String × Setting)) (text : List Char) :
    Option (List (String × Setting) × List Char) :=
  match fuel, skipSpace text.length text with
  | 0, _ => none
  | _ + 1, '\x7d' :: rest => some (entries, rest)
  | fuel + 1, text => do
    let (name, rest) ← key? true text
    let (value, rest) ← match skipSpace rest.length rest with
      | ':' :: behind => flowValue? fuel behind
      | rest => pure (.absent, rest)
    let entries := Setting.putEntry name value entries
    match skipSpace rest.length rest with
    | ',' :: rest => flowEntries? fuel entries rest
    | '\x7d' :: rest => return (entries, rest)
    | _ => none

def flowValue? (fuel : Nat) (text : List Char) : Option (Setting × List Char) :=
  match fuel, skipSpace text.length text with
  | 0, _ => none
  | _ + 1, [] => none
  | fuel + 1, c :: rest =>
    if c = ',' || c = ']' || c = '\x7d' then some (.absent, c :: rest)
    else flowNode? fuel (c :: rest)

end

def flow? (text : List Char) : Option (Setting × List Char) := flowNode? (2 * text.length + 1) text

end AccessPolicy.Yaml
