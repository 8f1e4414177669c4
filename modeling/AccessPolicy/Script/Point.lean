/-
Scripts of information points. A script names the key of its point first, so that an empty name fails
before anything else is looked at.
-/

import AccessPolicy.Script.Expression

namespace AccessPolicy

inductive PointScript
  | constant (key : String) (value : Value)
  | function (key : String) (kind : Kind) (body : Expression)

namespace PointScript

/-- The program of a function point. A value of another kind is no value of its key. -/
def ofKind {kind : Kind} (key : Key kind) (program : Program Value) : Program kind.Datum :=
  program.handle fun outcome => .done (key.read outcome)

def make : PointScript → Except Error InformationPoint
  | .constant name value => do
    let key : Key value.kind ← Key.make name
    return (key.withValue value.datum).point
  | .function name kind body => do
    let key : Key kind ← Key.make name
    return .ofFunction key (ofKind key body.program)

def makeAll (scripts : List PointScript) : Except Error (List InformationPoint) :=
  scripts.mapM make

end PointScript

end AccessPolicy
