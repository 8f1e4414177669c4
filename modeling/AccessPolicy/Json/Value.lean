/-
JSON values. Integers and doubles are kept apart, as the readers of typed data tell them apart, and an
object keeps its fields in a list: the reader puts them into the order of their names, and a writer
of typed data puts them into the order in which the type declares them.
-/

namespace AccessPolicy

inductive Json
  | null
  | bool (value : Bool)
  | integer (value : Int)
  | real (value : Float)
  | text (value : String)
  | array (items : List Json)
  | object (fields : List (String × Json))
  deriving Inhabited

namespace Json

/-- Puts a field at its place among fields in ascending order of names; a field of that name makes
room for it. -/
def insertField (name : String) (value : Json) :
    List (String × Json) → List (String × Json)
  | [] => [(name, value)]
  | field :: fields =>
    if name = field.1 then (name, value) :: fields
    else if name < field.1 then (name, value) :: field :: fields
    else field :: insertField name value fields

def sortFields (fields : List (String × Json)) : List (String × Json) :=
  fields.foldl (fun sorted field => insertField field.1 field.2 sorted) []

def field? (name : String) : Json → Option Json
  | .object fields => fields.lookup name
  | _ => none

end Json

end AccessPolicy
