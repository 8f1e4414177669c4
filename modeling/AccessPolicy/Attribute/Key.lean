/-
Keys: named identifiers of attributes. A key declares the kind of the values that it names, but two
keys are the same as soon as their names are; what a value is, is checked when it is read.
-/

import AccessPolicy.Attribute.Kind
import AccessPolicy.Error

namespace AccessPolicy

structure Key (kind : Kind) where
  name : String
  deriving DecidableEq, Hashable

def checkName (name : String) : Except Error String :=
  if name.isEmpty then .error (.config "Key name cannot be empty" "key.name") else .ok name

namespace Key

def make {kind : Kind} (name : String) : Except Error (Key kind) :=
  (checkName name).map Key.mk

def sameAs {first second : Kind} (left : Key first) (right : Key second) : Bool :=
  left.name = right.name

def nameHash {kind : Kind} (key : Key kind) : UInt64 := hash key.name

def debug {kind : Kind} (key : Key kind) : String := showKey key.name

def read {kind : Kind} (key : Key kind) : Except Error Value → Except Error kind.Datum
  | .error error => .error error
  | .ok value =>
    match value.as? kind with
    | some datum => .ok datum
    | none => .error (.attributeType key.name kind.typeName)

end Key

end AccessPolicy
