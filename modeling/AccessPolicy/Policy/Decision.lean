/-
Decisions and biases. A policy permits, denies or has no opinion; the bias says what becomes of a
request that no policy has an opinion about.
-/

import AccessPolicy.Error
import AccessPolicy.Text.LowerCase

namespace AccessPolicy

inductive DecisionType
  | permit
  | deny
  | notApplicable
  deriving DecidableEq, Repr

inductive Bias
  | permit
  | deny
  deriving DecidableEq, Repr

inductive Decision
  | permit
  | deny (message code : String)
  | notApplicable (message : String)
  deriving DecidableEq, Repr

namespace DecisionType

def name : DecisionType → String
  | .permit => "permit"
  | .deny => "deny"
  | .notApplicable => "not_applicable"

def debug : DecisionType → String
  | .permit => "Permit"
  | .deny => "Deny"
  | .notApplicable => "NotApplicable"

/-- Case does not count, and a hyphen is as good as an underscore. -/
def parse (text : String) : Except Error DecisionType :=
  let word := (Text.lower text).toList.map fun c => if c = '-' then '_' else c
  if word = "permit".toList then .ok .permit
  else if word = "deny".toList then .ok .deny
  else if word = "not_applicable".toList then .ok .notApplicable
  else .error (.parse ("Unknown decision type: " ++ text))

end DecisionType

namespace Bias

def type : Bias → DecisionType
  | .permit => .permit
  | .deny => .deny

def ofType : DecisionType → Except Error Bias
  | .permit => .ok .permit
  | .deny => .ok .deny
  | .notApplicable => .error .invalidBias

def name (bias : Bias) : String := bias.type.name

def debug (bias : Bias) : String := bias.type.debug

end Bias

namespace Decision

def type : Decision → DecisionType
  | .permit => .permit
  | .deny _ _ => .deny
  | .notApplicable _ => .notApplicable

def isPermit : Decision → Bool
  | .permit => true
  | _ => false

def isDeny : Decision → Bool
  | .deny _ _ => true
  | _ => false

def isNotApplicable : Decision → Bool
  | .notApplicable _ => true
  | _ => false

def message? : Decision → Option String
  | .permit => none
  | .deny message _ => some message
  | .notApplicable message => some message

def noApplicablePolicyCode : String := "NO_APPLICABLE_POLICY_FOUND"

def noApplicablePolicyMessage : String := "No applicable policy found"

def noApplicablePolicy : Bias → Decision
  | .permit => .permit
  | .deny => .deny noApplicablePolicyMessage noApplicablePolicyCode

def withBias (bias : Bias) : Decision → Decision
  | .notApplicable _ => noApplicablePolicy bias
  | decided => decided

def display : Decision → String
  | .permit => "Permit"
  | .deny message code => "Deny(message=" ++ message ++ ", code=" ++ code ++ ")"
  | .notApplicable message => "NotApplicable(message=" ++ message ++ ")"

def debug : Decision → String
  | .permit => "Permit"
  | .deny message code =>
    "Deny \x7b message: " ++ Text.quote message ++ ", code: " ++ Text.quote code ++ " \x7d"
  | .notApplicable message => "NotApplicable \x7b message: " ++ Text.quote message ++ " \x7d"

end Decision

end AccessPolicy
