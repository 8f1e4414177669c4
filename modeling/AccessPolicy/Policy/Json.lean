/-
The JSON forms of decisions, their types, biases and algorithms. A decision is an object whose field
`type` names its kind, or a list that starts with that name; the fields that its kind does not have
are of no account.
-/

import AccessPolicy.Json.Decoder
import AccessPolicy.Policy.Algorithm

namespace AccessPolicy

open Json (Mismatch Decoder Shape Slot)

def DecisionType.variants : List (String × DecisionType) :=
  [DecisionType.permit, DecisionType.deny, DecisionType.notApplicable].map
    fun type => (type.name, type)

def DecisionType.toJson (type : DecisionType) : Json := .text type.name

def DecisionType.ofJson : Decoder DecisionType := Decoder.variant DecisionType.variants

def Bias.variants : List (String × Bias) :=
  [Bias.permit, Bias.deny].map fun bias => (bias.name, bias)

def Bias.toJson (bias : Bias) : Json := .text bias.name

def Bias.ofJson : Decoder Bias := Decoder.variant Bias.variants

def Algorithm.variants : List (String × Algorithm) :=
  [Algorithm.permitOverride, Algorithm.denyOverride, Algorithm.firstApplicable].map
    fun algorithm => (algorithm.name, algorithm)

def Algorithm.toJson (algorithm : Algorithm) : Json := .text algorithm.name

def Algorithm.ofJson : Decoder Algorithm := Decoder.variant Algorithm.variants

/-! ### Decisions -/

def DecisionType.tag : DecisionType → String
  | .permit => "PERMIT"
  | .deny => "DENY"
  | .notApplicable => "NOT_APPLICABLE"

def DecisionType.tags : List (String × DecisionType) :=
  [DecisionType.permit, DecisionType.deny, DecisionType.notApplicable].map
    fun type => (type.tag, type)

namespace Decision

def fields : Decision → List (String × String)
  | .permit => []
  | .deny message code => [("message", message), ("code", code)]
  | .notApplicable message => [("message", message)]

def toJson (decision : Decision) : Json :=
  .object (("type", .text decision.type.tag)
    :: decision.fields.map fun field => (field.1, .text field.2))

structure Draft where
  message : Option String := none
  code : Option String := none

def messageSlot : Slot Draft where
  name := "message"
  put draft value := (Decoder.text value).map fun text => { draft with message := some text }

def codeSlot : Slot Draft where
  name := "code"
  put draft value := (Decoder.text value).map fun text => { draft with code := some text }

def shape (name : String) (fields : List (Slot Draft)) : Shape Draft where
  name := "struct variant Decision::" ++ name
  fields := fields
  bounds := Shape.countText fields.length ++ " in sequence"

def readContent (content : Json) : DecisionType → Except Mismatch Decision
  | .permit => ((shape "Permit" []).read {} content).map fun _ => .permit
  | .deny => do
    let draft ← (shape "Deny" [messageSlot, codeSlot]).read {} content
    return .deny (← Json.require "message" draft.message) (← Json.require "code" draft.code)
  | .notApplicable => do
    let draft ← (shape "NotApplicable" [messageSlot]).read {} content
    return .notApplicable (← Json.require "message" draft.message)

def readTag : Decoder DecisionType
  | .text name => Decoder.variantNamed DecisionType.tags name
  | other => .error (.type other "variant identifier")

def ofJson (value : Json) : Except Mismatch Decision :=
  match value with
  | .object entries => do
    let type ← readTag (← Json.require "type" (entries.lookup "type"))
    readContent value type
  | .array items => do
    let type ← readTag (← Json.require "type" items.head?)
    readContent (.array items.tail) type
  | other => .error (.type other "internally tagged enum Decision")

end Decision

end AccessPolicy
