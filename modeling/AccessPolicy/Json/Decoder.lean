/-
Typed data out of JSON values. A decoder accepts the values that stand for data of its type and says
of any other what is wrong with it. A record is an object with its fields, or a list of them in the
order of their declaration; a unit variant is its name, or an object that maps its name to null.
-/

import AccessPolicy.Json.Value
import AccessPolicy.Text.FloatText
import AccessPolicy.Text.Quoted

namespace AccessPolicy.Json

inductive Mismatch
  | type (found : Json) (expected : String)
  | value (found : Json) (expected : String)
  | length (found : Nat) (expected : String)
  | variant (found : String) (known : List String)
  | missing (field : String)
  | refused (message : String)

/-- The kind of a value, with the value itself where it is small. -/
def describe : Json → String
  | .null => "null"
  | .bool true => "boolean `true`"
  | .bool false => "boolean `false`"
  | .integer value => "integer `" ++ Text.integer value ++ "`"
  | .real value => "floating point `" ++ Text.FloatForm.json.write value ++ "`"
  | .text value => "string " ++ Text.quote value
  | .array _ => "sequence"
  | .object _ => "map"

def showName (name : String) : String := "`" ++ name ++ "`"

def showAlternatives : List String → String
  | [] => "there are no variants"
  | [only] => "expected " ++ showName only
  | [first, second] => "expected " ++ showName first ++ " or " ++ showName second
  | names => "expected one of " ++ String.intercalate ", " (names.map showName)

def Mismatch.message : Mismatch → String
  | .type found expected => "invalid type: " ++ found.describe ++ ", expected " ++ expected
  | .value found expected => "invalid value: " ++ found.describe ++ ", expected " ++ expected
  | .length found expected =>
    "invalid length " ++ Text.natural found ++ ", expected " ++ expected
  | .variant found known =>
    "unknown variant " ++ showName found ++ ", " ++ showAlternatives known
  | .missing field => "missing field " ++ showName field
  | .refused message => message

abbrev Decoder (α : Type) : Type := Json → Except Mismatch α

namespace Decoder

def text : Decoder String
  | .text value => .ok value
  | other => .error (.type other "a string")

def bool : Decoder Bool
  | .bool value => .ok value
  | other => .error (.type other "a boolean")

def word64 : Decoder UInt64
  | .integer value =>
    if 0 ≤ value && value < UInt64.size then .ok (UInt64.ofNat value.toNat)
    else .error (.value (.integer value) "u64")
  | other => .error (.type other "u64")

/-- An integer stands for the nearest double. -/
def float : Decoder Float
  | .real value => .ok value
  | .integer value => .ok (Float.ofInt value)
  | other => .error (.type other "f64")

def entries {α : Type} (item : Decoder α) : Decoder (List (String × α))
  | .object fields => fields.mapM fun field => (item field.2).map fun value => (field.1, value)
  | other => .error (.type other "a map")

def parsed {α : Type} (expected : String) (read : String → Except String α) : Decoder α
  | .text value => (read value).mapError .refused
  | other => .error (.type other expected)

/-! ### Unit variants -/

def variantNamed {α : Type} (variants : List (String × α)) (name : String) : Except Mismatch α :=
  match variants.lookup name with
  | some value => .ok value
  | none => .error (.variant name (variants.map Prod.fst))

def variant {α : Type} (variants : List (String × α)) : Decoder α
  | .text name => variantNamed variants name
  | .object [(name, content)] =>
    match variantNamed variants name, content with
    | .error mismatch, _ => .error mismatch
    | .ok value, .null => .ok value
    | .ok _, content => .error (.type content "unit")
  | .object fields => .error (.value (.object fields) "map with a single key")
  | other => .error (.type other "string or map")

end Decoder

/-! ### Records -/

/-- A field of a record: how its value adds to what has been read of the record so far. -/
structure Slot (σ : Type) where
  name : String
  put : σ → Decoder σ

structure Shape (σ : Type) where
  /-- What a value of another kind should have been. -/
  name : String
  fields : List (Slot σ)
  /-- Whether a list has to hold every field. -/
  full : Bool := true
  /-- What a list that is too long should have been. -/
  bounds : String := "fewer elements in array"

namespace Shape

variable {σ : Type}

def putNamed (shape : Shape σ) (state : σ) (entry : String × Json) : Except Mismatch σ :=
  match shape.fields.find? fun field => field.name = entry.1 with
  | some field => field.put state entry.2
  | none => .ok state

def countText (n : Nat) : String :=
  Text.natural n ++ if n = 1 then " element" else " elements"

def putItems (shape : Shape σ) (total : Nat) :
    List (Slot σ) → List Json → σ → Except Mismatch σ
  | [], [], state => .ok state
  | [], _ :: _, _ => .error (.length total shape.bounds)
  | _ :: _, [], state =>
    if shape.full then
      .error (.length total (shape.name ++ " with " ++ countText shape.fields.length))
    else .ok state
  | field :: fields, item :: items, state => do
    putItems shape total fields items (← field.put state item)

def read (shape : Shape σ) (state : σ) : Decoder σ
  | .object entries => entries.foldlM shape.putNamed state
  | .array items => shape.putItems items.length shape.fields items state
  | other => .error (.type other shape.name)

end Shape

def require {α : Type} (field : String) : Option α → Except Mismatch α
  | some value => .ok value
  | none => .error (.missing field)

end AccessPolicy.Json
