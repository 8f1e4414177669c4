/-
Kinds of attribute values. A kind names a type; a value is a kind with a datum of its type, so that
the kind of a value is all there is to know before it is used at a type.
-/

namespace AccessPolicy

structure Subject where
  id : String
  age : UInt32
  roles : List String
  unit : Option String
  deriving DecidableEq, Repr

inductive Level
  | low
  | high (value : Int64)
  | range (first last : Int64)
  deriving DecidableEq

inductive Kind
  | text
  | int64
  | word64
  | size
  | word32
  | bool
  | float
  | char
  | unit
  | subject
  | level
  | option (held : Kind)
  | list (item : Kind)
  | pair (first second : Kind)
  /-- Texts mapped to values, in ascending order of the texts. -/
  | map (value : Kind)
  deriving DecidableEq, Repr

namespace Kind

def Datum : Kind → Type
  | .text => String
  | .int64 => Int64
  | .word64 => UInt64
  | .size => UInt64
  | .word32 => UInt32
  | .bool => Bool
  | .float => Float
  | .char => Char
  | .unit => Unit
  | .subject => Subject
  | .level => Level
  | .option held => Option held.Datum
  | .list item => List item.Datum
  | .pair first second => first.Datum × second.Datum
  | .map value => List (String × value.Datum)

def typeName : Kind → String
  | .text => "alloc::string::String"
  | .int64 => "i64"
  | .word64 => "u64"
  | .size => "usize"
  | .word32 => "u32"
  | .bool => "bool"
  | .float => "f64"
  | .char => "char"
  | .unit => "()"
  | .subject => "Subject"
  | .level => "Level"
  | .option held => "core::option::Option<" ++ held.typeName ++ ">"
  | .list item => "alloc::vec::Vec<" ++ item.typeName ++ ">"
  | .pair first second => "(" ++ first.typeName ++ ", " ++ second.typeName ++ ")"
  | .map value =>
    "alloc::collections::btree::map::BTreeMap<alloc::string::String, " ++ value.typeName ++ ">"

def sameData (α : Type) [DecidableEq α] (left right : α) : Bool := left = right

def sameFloat (left right : Float) : Bool := left == right

def sameOption {α : Type} (same : α → α → Bool) : Option α → Option α → Bool
  | none, none => true
  | some left, some right => same left right
  | _, _ => false

def sameList {α : Type} (same : α → α → Bool) : List α → List α → Bool
  | [], [] => true
  | left :: lefts, right :: rights => same left right && sameList same lefts rights
  | _, _ => false

/-- Equality of data. It is that of the doubles on doubles: a NaN differs from itself, and the two
zeros are the same. -/
def same : (kind : Kind) → kind.Datum → kind.Datum → Bool
  | .text, left, right => sameData String left right
  | .int64, left, right => sameData Int64 left right
  | .word64, left, right => sameData UInt64 left right
  | .size, left, right => sameData UInt64 left right
  | .word32, left, right => sameData UInt32 left right
  | .bool, left, right => sameData Bool left right
  | .float, left, right => sameFloat left right
  | .char, left, right => sameData Char left right
  | .unit, _, _ => true
  | .subject, left, right => sameData Subject left right
  | .level, left, right => sameData Level left right
  | .option held, left, right => sameOption held.same left right
  | .list item, left, right => sameList item.same left right
  | .pair first second, left, right => first.same left.1 right.1 && second.same left.2 right.2
  | .map value, left, right =>
    sameList (fun a b => decide (a.1 = b.1) && value.same a.2 b.2) left right

end Kind

structure Value where
  kind : Kind
  datum : kind.Datum

namespace Value

def text (datum : String) : Value := ⟨.text, datum⟩

def int64 (datum : Int64) : Value := ⟨.int64, datum⟩

def word64 (datum : UInt64) : Value := ⟨.word64, datum⟩

def size (datum : UInt64) : Value := ⟨.size, datum⟩

def bool (datum : Bool) : Value := ⟨.bool, datum⟩

def unit : Value := ⟨.unit, ()⟩

def as? (kind : Kind) (value : Value) : Option kind.Datum :=
  if found : value.kind = kind then some (found ▸ value.datum) else none

@[simp]
theorem as?_mk (kind : Kind) (datum : kind.Datum) : Value.as? kind ⟨kind, datum⟩ = some datum := by
  simp [as?]

theorem as?_eq_some_iff {kind : Kind} {value : Value} {datum : kind.Datum} :
    value.as? kind = some datum ↔ value = ⟨kind, datum⟩ := by
  obtain ⟨held, content⟩ := value
  constructor
  · intro found
    unfold as? at found
    split at found
    · rename_i sameKind
      subst sameKind
      exact congrArg (Value.mk held) (Option.some.inj found)
    · cases found
  · intro equal
    rw [equal, as?_mk]

theorem as?_eq_none_iff {kind : Kind} {value : Value} :
    value.as? kind = none ↔ value.kind ≠ kind := by
  unfold as?
  split <;> simp [*]

def same (left right : Value) : Bool :=
  match right.as? left.kind with
  | some datum => left.kind.same left.datum datum
  | none => false

end Value

end AccessPolicy
