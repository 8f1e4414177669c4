/-
Everything that can go wrong, by cause. The wording of a cause, its category for metrics and the two
groups of causes that callers ask about are decided here and nowhere else.
-/

import AccessPolicy.Text.Quoted

namespace AccessPolicy

inductive SourceFault
  | message (text : String)
  | notFound (name : String)
  deriving DecidableEq, Repr

/-- A failure of a caller's information point or policy: an error of the caller's own type, which the
caller can recognise again, or a bare message. -/
inductive CallerFault
  | failure (text : String)
  | message (text : String)
  deriving DecidableEq, Repr

inductive Error
  | missingInformationPoint (key : String)
  /-- The keys from the repeated one to its repetition. -/
  | cyclicDependencies (path : List String)
  | attributeType (key expected : String)
  | invalidBias
  | incompatibleContext (message : String)
  | config (message key : String)
  | configSource (fault : SourceFault)
  | parse (message : String)
  | telemetry (message : String)
  | serialization (message : String)
  | policy (fault : CallerFault)
  deriving DecidableEq, Repr

def SourceFault.text : SourceFault → String
  | .message text => text
  | .notFound name => "configuration property " ++ Text.quote name ++ " not found"

def CallerFault.text : CallerFault → String
  | .failure text => text
  | .message text => text

def CallerFault.failure? : CallerFault → Option String
  | .failure text => some text
  | .message _ => none

def showKey (name : String) : String := "Key(" ++ name ++ ")"

namespace Error

def message : Error → String
  | .missingInformationPoint key => "Could not find provider for " ++ showKey key
  | .cyclicDependencies path => "Cycle: " ++ String.intercalate " -> " path
  | .attributeType key expected =>
    "Attribute " ++ showKey key ++ " does not hold a value of type " ++ expected
  | .invalidBias => "Bias cannot be 'NOT_APPLICABLE'"
  | .incompatibleContext message =>
    "Can not merge evaluation context of different type: " ++ message
  | .config message _ => "Configuration error: " ++ message
  | .configSource fault => "Configuration source error: " ++ fault.text
  | .parse message => "Parse error: " ++ message
  | .telemetry message => "Telemetry error: " ++ message
  | .serialization message => "Serialization error: " ++ message
  | .policy fault => fault.text

inductive Category
  | missingInformationPoint
  | cyclicDependencies
  | attributeType
  | invalidBias
  | incompatibleContext
  | config
  | parse
  | telemetry
  | serialization
  | policy
  deriving DecidableEq, Repr

def Category.name : Category → String
  | .missingInformationPoint => "missing_information_point"
  | .cyclicDependencies => "cyclic_dependencies"
  | .attributeType => "attribute_type"
  | .invalidBias => "invalid_bias"
  | .incompatibleContext => "incompatible_context"
  | .config => "config"
  | .parse => "parse"
  | .telemetry => "telemetry"
  | .serialization => "serialization"
  | .policy => "policy"

def category : Error → Category
  | .missingInformationPoint _ => .missingInformationPoint
  | .cyclicDependencies _ => .cyclicDependencies
  | .attributeType _ _ => .attributeType
  | .invalidBias => .invalidBias
  | .incompatibleContext _ => .incompatibleContext
  | .config _ _ => .config
  | .configSource _ => .config
  | .parse _ => .parse
  | .telemetry _ => .telemetry
  | .serialization _ => .serialization
  | .policy _ => .policy

def isResolution : Error → Bool
  | .missingInformationPoint _ => true
  | .cyclicDependencies _ => true
  | .attributeType _ _ => true
  | _ => false

def isConfiguration : Error → Bool
  | .invalidBias => true
  | .config _ _ => true
  | .configSource _ => true
  | _ => false

/-- The text of the fault that an error passes on from another library. -/
def source? : Error → Option String
  | .configSource fault => some fault.text
  | .serialization message => some message
  | _ => none

def callerFailure? : Error → Option String
  | .policy fault => fault.failure?
  | _ => none

def setting? : Error → Option String
  | .config _ key => some key
  | _ => none

/-- The name of the cause with its data. Errors that wrap a foreign fault have none. -/
def debug? : Error → Option String
  | .missingInformationPoint key =>
    some ("MissingPolicyInformationPoint \x7b key: " ++ Text.quote key ++ " \x7d")
  | .cyclicDependencies path =>
    some ("CyclicDependencies \x7b path: ["
      ++ String.intercalate ", " (path.map Text.quote) ++ "] \x7d")
  | .attributeType key expected =>
    some ("AttributeType \x7b key: " ++ Text.quote key
      ++ ", expected: " ++ Text.quote expected ++ " \x7d")
  | .invalidBias => some "InvalidBias"
  | .incompatibleContext message =>
    some ("IncompatibleContext \x7b message: " ++ Text.quote message ++ " \x7d")
  | .config message key =>
    some ("Config \x7b message: " ++ Text.quote message
      ++ ", key: Some(" ++ Text.quote key ++ ") \x7d")
  | .parse message => some ("Parse \x7b message: " ++ Text.quote message ++ " \x7d")
  | .telemetry message => some ("Telemetry \x7b message: " ++ Text.quote message ++ " \x7d")
  | .configSource _ => none
  | .serialization _ => none
  | .policy _ => none

end Error

end AccessPolicy
