/-
Information points: each produces the value of one key, by a program that may request other keys. An
attribute value is the point that produces a fixed datum and requests nothing.
-/

import AccessPolicy.Attribute.Debug
import AccessPolicy.Program

namespace AccessPolicy

structure InformationPoint where
  name : String
  provide : Program Value

structure AttributeValue (kind : Kind) where
  key : Key kind
  value : kind.Datum

def AttributeValue.point {kind : Kind} (bound : AttributeValue kind) : InformationPoint :=
  { name := bound.key.name, provide := .done (.ok ⟨kind, bound.value⟩) }

def AttributeValue.forProvider (point : InformationPoint) (kind : Kind) (value : kind.Datum) :
    AttributeValue kind :=
  { key := ⟨point.name⟩, value }

def Key.withValue {kind : Kind} (key : Key kind) (value : kind.Datum) : AttributeValue kind :=
  { key, value }

namespace AttributeValue

def same {kind : Kind} (left right : AttributeValue kind) : Bool :=
  left.key.sameAs right.key && kind.same left.value right.value

def debug {kind : Kind} (bound : AttributeValue kind) : String :=
  showFields "AttributeValue"
    [("key", bound.key.debug), ("value", kind.debug bound.value)]

end AttributeValue

namespace InformationPoint

def ofFunction {kind : Kind} (key : Key kind) (provide : Program kind.Datum) :
    InformationPoint :=
  { name := key.name, provide := provide.bind fun datum => .done (.ok ⟨kind, datum⟩) }

def debug (point : InformationPoint) : String :=
  "InformationPoint(" ++ showKey point.name ++ ")"

end InformationPoint

end AccessPolicy
