/-
Expressions: what an information point computes from the attributes of its context. An expression
stands for a program. Operands are evaluated from left to right and the first failure ends the
evaluation, unless an expression handles it. An operand of a kind that does not fit counts as the
empty text, as false or as zero.
-/

import AccessPolicy.Attribute.Point

namespace AccessPolicy

inductive Expression
  | value (value : Value)
  | get (name : String) (kind : Kind)
  /-- Shows what a name resolves to, whatever its kind. -/
  | resolve (name : String)
  | length (operand : Expression)
  | concat (operands : List Expression)
  | sum (operands : List Expression)
  | display (operand : Expression)
  | equal (left right : Expression)
  | less (left right : Expression)
  | choose (condition positive negative : Expression)
  | sequence (operands : List Expression)
  | orElse (first second : Expression)
  /-- Shows the outcome, success or failure. -/
  | outcome (operand : Expression)
  | raise (error : Error)
  | report (message : Expression)
  | indent (times : Nat)
  | unindent (times : Nat)
  | count (counter : String)
  | stats
  | trace

namespace Value

def asText (value : Value) : String := (value.as? .text).getD ""

def asBool (value : Value) : Bool := (value.as? .bool).getD false

def integer : Value → Int
  | ⟨.int64, datum⟩ => Int64.toInt datum
  | ⟨.word64, datum⟩ => UInt64.toNat datum
  | ⟨.size, datum⟩ => UInt64.toNat datum
  | ⟨.word32, datum⟩ => UInt32.toNat datum
  | _ => 0

/-- The bytes of a text or the items of a list. -/
def length : Value → Nat
  | ⟨.text, datum⟩ => String.utf8ByteSize datum
  | ⟨.list _, datum⟩ => List.length datum
  | _ => 0

end Value

namespace Expression

def lastValue (values : List Value) : Value := values.getLast?.getD .unit

def wrappingSum (values : List Value) : Int64 :=
  Int64.ofInt (values.foldr (fun value total => value.integer + total) 0)

def showOutcome : Except Error Value → String
  | .ok result => "ok " ++ result.debug
  | .error error => error.category.name ++ ": " ++ error.message

def countsValue (stats : ResolutionStats) : Value :=
  ⟨.list .int64, [Int64.ofNat stats.cacheHits, Int64.ofNat stats.cacheMisses]⟩

def times (n : Nat) (program : Program Unit) : Program Value :=
  match n with
  | 0 => pure .unit
  | n + 1 => do
    program
    times n program

def getValue (name : String) (kind : Kind) : Program Value := do
  match (Key.make name : Except Error (Key kind)) with
  | .ok key => return ⟨kind, ← Program.get key⟩
  | .error error => Program.fail error

mutual

def program : Expression → Program Value
  | .value constant => pure constant
  | .get name kind => getValue name kind
  | .resolve name => do return .text (← Program.resolve name).debug
  | .length operand => do return .size (UInt64.ofNat (← operand.program).length)
  | .concat operands => do return .text (String.join ((← programs operands).map Value.asText))
  | .sum operands => do return .int64 (wrappingSum (← programs operands))
  | .display operand => do return .text (← operand.program).debug
  | .equal left right => do
    let left ← left.program
    let right ← right.program
    return .bool (left.same right)
  | .less left right => do
    let left ← left.program
    let right ← right.program
    return .bool (left.integer < right.integer)
  | .choose condition positive negative => do
    let chosen ← condition.program
    if chosen.asBool then positive.program else negative.program
  | .sequence operands => do return lastValue (← programs operands)
  | .orElse first second => first.program.orElse second.program
  | .outcome operand => do return .text (showOutcome (← operand.program.attempt))
  | .raise error => Program.fail error
  | .report message => do
    Program.report (← message.program).asText
    return .unit
  | .indent n => times n Program.indent
  | .unindent n => times n Program.unindent
  | .count counter => do return .word64 (UInt64.ofNat (← Program.count counter))
  | .stats => do return countsValue (← Program.stats)
  | .trace => do return .text (← Program.trace)

def programs : List Expression → Program (List Value)
  | [] => pure []
  | expression :: expressions => do
    let first ← expression.program
    return first :: (← programs expressions)

end

end Expression

end AccessPolicy
