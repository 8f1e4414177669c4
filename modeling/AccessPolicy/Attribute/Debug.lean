/-
How a trace shows attribute values. Every text that comes from outside is quoted, at any depth, so
that no value can end the line it stands on.
-/

import AccessPolicy.Attribute.Kind
import AccessPolicy.Text.FloatText
import AccessPolicy.Text.Quoted

namespace AccessPolicy

def showBool (b : Bool) : String := if b then "true" else "false"

def showOption {α : Type} (show? : α → String) : Option α → String
  | none => "None"
  | some datum => "Some(" ++ show? datum ++ ")"

def showItems (items : List String) : String := String.intercalate ", " items

def showList {α : Type} (showItem : α → String) (items : List α) : String :=
  "[" ++ showItems (items.map showItem) ++ "]"

def showFields (name : String) (fields : List (String × String)) : String :=
  name ++ " \x7b " ++ showItems (fields.map fun field => field.1 ++ ": " ++ field.2) ++ " \x7d"

def Subject.debug (s : Subject) : String :=
  showFields "Subject"
    [("id", Text.quote s.id), ("age", Text.natural s.age.toNat),
      ("roles", showList Text.quote s.roles), ("unit", showOption Text.quote s.unit)]

def Level.debug : Level → String
  | .low => "Low"
  | .high value => "High(" ++ Text.integer value.toInt ++ ")"
  | .range first last =>
    showFields "Range" [("from", Text.integer first.toInt), ("to", Text.integer last.toInt)]

def Kind.debug : (kind : Kind) → kind.Datum → String
  | .text, datum => Text.quote datum
  | .int64, datum => Text.integer (Int64.toInt datum)
  | .word64, datum => Text.natural (UInt64.toNat datum)
  | .size, datum => Text.natural (UInt64.toNat datum)
  | .word32, datum => Text.natural (UInt32.toNat datum)
  | .bool, datum => showBool datum
  | .float, datum => Text.FloatForm.debug.write datum
  | .char, datum => Text.quoteChar datum
  | .unit, _ => "()"
  | .subject, datum => Subject.debug datum
  | .level, datum => Level.debug datum
  | .option held, datum => showOption held.debug datum
  | .list item, datum => showList item.debug datum
  | .pair first second, datum =>
    "(" ++ first.debug datum.1 ++ ", " ++ second.debug datum.2 ++ ")"
  | .map value, datum =>
    "\x7b" ++ showItems (datum.map fun entry => Text.quote entry.1 ++ ": " ++ value.debug entry.2)
      ++ "\x7d"

def Value.debug (value : Value) : String := value.kind.debug value.datum

end AccessPolicy
