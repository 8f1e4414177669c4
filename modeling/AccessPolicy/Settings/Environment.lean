/-
Settings from the environment. A variable counts when its name, in lower case, starts with the prefix
of the engine; two underscores separate the parts of the path behind it. Its value is the first of a
truth value, an integer and a double that its text can be read as, or else the text.
-/

import AccessPolicy.Settings.Setting

namespace AccessPolicy.Environment

def variablePrefix : String := "POLICY_ENGINE"

def namePrefix : List Char := (Text.lower variablePrefix).toList ++ ['_']

def splitPath : List Char → List (List Char)
  | [] => [[]]
  | '_' :: '_' :: rest => [] :: splitPath rest
  | '.' :: rest => [] :: splitPath rest
  | c :: rest =>
    match splitPath rest with
    | [] => [[c]]
    | part :: parts => (c :: part) :: parts

def isPathChar (c : Char) : Bool := c.isAlphanum || c = '_' || c = '-' || c = ' '

/-- A name whose parts are not all words is a path of one part, which no setting goes by. -/
def pathOf (name : List Char) : List String :=
  let parts := splitPath name
  if parts.all fun part => !part.isEmpty && part.all isPathChar then parts.map String.ofList
  else [String.ofList name]

def path? (name : String) : Option (List String) :=
  let name := (Text.lower name).toList
  if namePrefix.isPrefixOf name then some (pathOf (name.drop namePrefix.length)) else none

def readBool? (text : String) : Option Bool :=
  let word := Text.lower text
  if word = "true" then some true else if word = "false" then some false else none

def readInteger? (text : String) : Option Int64 :=
  match Text.readInteger? text.toList with
  | some value => Setting.word? value
  | none => none

def readValue (text : String) : Setting :=
  match readBool? text, readInteger? text, Text.readFloat? text with
  | some value, _, _ => .bool value
  | none, some value, _ => .integer value
  | none, none, some value => .float value
  | none, none, none => .text text

def layers (environment : List (String × String)) : List Setting :=
  environment.filterMap fun entry => (path? entry.1).map (readValue entry.2).atPath

end AccessPolicy.Environment
