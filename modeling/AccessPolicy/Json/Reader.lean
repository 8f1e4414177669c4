/-
The reader of JSON texts: an automaton over tokens with a stack of the lists and objects that are
still open. A failure names the line and the column, counted in bytes, where the text stops being
JSON.
-/

import AccessPolicy.Json.Token

namespace AccessPolicy.Json

/-- A list or an object that is open, its entries last first; an object waits for the value of
`name`. -/
inductive Open
  | list (items : List Json)
  | object (fields : List (String × Json)) (name : String)

inductive Expect
  | value (outer : List Open)
  | listStart (outer : List Open)
  | item (items : List Json) (outer : List Open)
  | listNext (items : List Json) (outer : List Open)
  | objectStart (outer : List Open)
  | field (fields : List (String × Json)) (outer : List Open)
  | objectNext (fields : List (String × Json)) (outer : List Open)
  | colon (fields : List (String × Json)) (name : String) (outer : List Open)
  | finished (value : Json)

def settle (value : Json) : List Open → Expect
  | [] => .finished value
  | .list items :: outer => .listNext (value :: items) outer
  | .object fields name :: outer => .objectNext ((name, value) :: fields) outer

/-- As many lists and objects may be open at a time. -/
def depthLimit : Nat := 127

def startValue (outer : List Open) (token : Token) (left : Nat) : Except Failure Expect :=
  let ahead (fault : Fault) : Except Failure Expect := .error { fault, left, ahead := true }
  match token with
  | .scalar value => .ok (settle value outer)
  | .text value => .ok (settle (.text value) outer)
  | .listOpen => if outer.length < depthLimit then .ok (.listStart outer) else ahead .tooDeep
  | .objectOpen => if outer.length < depthLimit then .ok (.objectStart outer) else ahead .tooDeep
  | .broken failure => .error failure
  | .brokenText failure => .error failure
  | _ => ahead .expectedValue

def startField (fields : List (String × Json)) (outer : List Open) (token : Token) (left : Nat) :
    Except Failure Expect :=
  match token with
  | .text name => .ok (.colon fields name outer)
  | .brokenText failure => .error failure
  | _ => .error { fault := .nameNotText, left, ahead := true }

def step (expect : Expect) (token : Token) (left : Nat) : Except Failure Expect :=
  let ahead (fault : Fault) : Except Failure Expect := .error { fault, left, ahead := true }
  match expect, token with
  | .value outer, token => startValue outer token left
  | .listStart outer, .listClose => .ok (settle (.array []) outer)
  | .listStart outer, token => startValue (.list [] :: outer) token left
  | .item _ _, .listClose => ahead .trailingComma
  | .item items outer, token => startValue (.list items :: outer) token left
  | .listNext items outer, .listClose => .ok (settle (.array items.reverse) outer)
  | .listNext items outer, .comma => .ok (.item items outer)
  | .listNext _ _, _ => ahead .expectedListEnd
  | .objectStart outer, .objectClose => .ok (settle (.object []) outer)
  | .objectStart outer, token => startField [] outer token left
  | .field _ _, .objectClose => ahead .trailingComma
  | .field fields outer, token => startField fields outer token left
  | .objectNext fields outer, .objectClose =>
    .ok (settle (.object (sortFields fields.reverse)) outer)
  | .objectNext fields outer, .comma => .ok (.field fields outer)
  | .objectNext _ _, _ => ahead .expectedObjectEnd
  | .colon fields name outer, .colon => .ok (.value (.object fields name :: outer))
  | .colon _ _ _, _ => ahead .expectedColon
  | .finished _, _ => ahead .trailingCharacters

def finish (expect : Expect) : Except Failure Json :=
  let fail (fault : Fault) : Except Failure Json := .error { fault, left := 0, ahead := true }
  match expect with
  | .finished value => .ok value
  | .value _ => fail .endInValue
  | .item _ _ => fail .endInValue
  | .field _ _ => fail .endInValue
  | .listStart _ => fail .endInList
  | .listNext _ _ => fail .endInList
  | .objectStart _ => fail .endInObject
  | .objectNext _ _ => fail .endInObject
  | .colon _ _ _ => fail .endInObject

def run (expect : Expect) : List (Token × Nat) → Except Failure Json
  | [] => finish expect
  | (token, left) :: rest =>
    match step expect token left with
    | .error failure => .error failure
    | .ok next => run next rest

/-! ### Messages -/

def Fault.message : Fault → String
  | .endInList => "EOF while parsing a list"
  | .endInObject => "EOF while parsing an object"
  | .endInText => "EOF while parsing a string"
  | .endInValue => "EOF while parsing a value"
  | .expectedColon => "expected `:`"
  | .expectedListEnd => "expected `,` or `]`"
  | .expectedObjectEnd => "expected `,` or `\x7d`"
  | .expectedWord => "expected ident"
  | .expectedValue => "expected value"
  | .invalidEscape => "invalid escape"
  | .invalidNumber => "invalid number"
  | .numberOutOfRange => "number out of range"
  | .controlCharacter => "control character (\\u0000-\\u001F) found while parsing a string"
  | .nameNotText => "key must be a string"
  | .loneSurrogate => "lone leading surrogate in hex escape"
  | .brokenSurrogatePair => "unexpected end of hex escape"
  | .trailingComma => "trailing comma"
  | .trailingCharacters => "trailing characters"
  | .tooDeep => "recursion limit exceeded"

structure Position where
  line : Nat
  column : Nat

def Position.past (p : Position) (c : Char) : Position :=
  if c = '\n' then { line := p.line + 1, column := 0 }
  else { p with column := p.column + c.utf8Size }

/-- The place of a failure in its text. Of the character ahead only the first byte counts. -/
def Failure.position (failure : Failure) (text : List Char) : Position :=
  let read := text.length - failure.left
  let here := (text.take read).foldl Position.past { line := 1, column := 0 }
  match failure.ahead, text.drop read with
  | true, c :: _ => here.past (if c = '\n' then c else ' ')
  | _, _ => here

def Failure.message (failure : Failure) (text : List Char) : String :=
  let position := failure.position text
  failure.fault.message ++ " at line " ++ Text.natural position.line
    ++ " column " ++ Text.natural position.column

def read (text : String) : Except String Json :=
  match run (.value []) (tokens text.toList) with
  | .ok value => .ok value
  | .error failure => .error (failure.message text.toList)

end AccessPolicy.Json
