/-
What a source of settings holds, and how sources are laid over each other. A table is merged into
what lies below it, entry by entry; anything else takes its place.
-/

import AccessPolicy.Json.Value
import AccessPolicy.Text.FloatText
import AccessPolicy.Text.LowerCase
import AccessPolicy.Attribute.Debug

namespace AccessPolicy

inductive Setting
  | absent
  | bool (value : Bool)
  | integer (value : Int64)
  | float (value : Float)
  | text (value : String)
  | list (items : List Setting)
  | table (entries : List (String × Setting))
  deriving Inhabited

namespace Setting

def entries : Setting → List (String × Setting)
  | .table entries => entries
  | _ => []

def putEntry (name : String) (value : Setting) :
    List (String × Setting) → List (String × Setting)
  | [] => [(name, value)]
  | entry :: rest =>
    if entry.1 = name then (name, value) :: rest else entry :: putEntry name value rest

mutual

def onto : Setting → Option Setting → Setting
  | .table entries, below => entriesOnto entries below
  | .absent, _ => .absent
  | .bool value, _ => .bool value
  | .integer value, _ => .integer value
  | .float value, _ => .float value
  | .text value, _ => .text value
  | .list items, _ => .list items

/-- What is no table gives way to one at the first entry. -/
def entriesOnto : List (String × Setting) → Option Setting → Setting
  | [], below => below.getD (.table [])
  | (name, value) :: rest, below =>
    let current := (below.getD (.table [])).entries
    entriesOnto rest (some (.table (putEntry name (value.onto (current.lookup name)) current)))

end

def layered (layers : List Setting) : Setting :=
  layers.foldl (fun below layer => layer.onto (some below)) (.table [])

def atPath (value : Setting) : List String → Setting
  | [] => value
  | name :: path => .table [(name, atPath value path)]

/-! ### Conversions -/

/-- Every scalar has a text; a number has the plain one. -/
def text? : Setting → Option String
  | .text value => some value
  | .bool value => some (showBool value)
  | .integer value => some (Text.integer value.toInt)
  | .float value => some (Text.FloatForm.plain.write value)
  | _ => none

def truthWords : List String := ["1", "true", "on", "yes"]

def falsehoodWords : List String := ["0", "false", "off", "no"]

/-- A number is true unless it is zero. -/
def bool? : Setting → Option Bool
  | .bool value => some value
  | .integer value => some (value != 0)
  | .float value => some (value != 0.0)
  | .text value =>
    let word := Text.lower value
    if word ∈ truthWords then some true
    else if word ∈ falsehoodWords then some false
    else none
  | _ => none

def word? (value : Int) : Option Int64 :=
  if Int64.minValue.toInt ≤ value && value ≤ Int64.maxValue.toInt then some (Int64.ofInt value)
  else none

/-! ### JSON -/

def ofInteger (value : Int) : Setting :=
  match word? value with
  | some word => .integer word
  | none => .float (Float.ofInt value)

mutual

def ofJson : Json → Setting
  | .null => .absent
  | .bool value => .bool value
  | .integer value => ofInteger value
  | .real value => .float value
  | .text value => .text value
  | .array items => .list (ofItems items)
  | .object fields => .table (ofFields fields)

def ofItems : List Json → List Setting
  | [] => []
  | item :: items => ofJson item :: ofItems items

def ofFields : List (String × Json) → List (String × Setting)
  | [] => []
  | (name, value) :: fields => (name, ofJson value) :: ofFields fields

end

end Setting

end AccessPolicy
