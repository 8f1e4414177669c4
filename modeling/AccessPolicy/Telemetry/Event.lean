/-
What a run tells its log.
-/

import AccessPolicy.Policy.Decision
import AccessPolicy.Attribute.Debug

namespace AccessPolicy

inductive Event
  | cacheHit (key : String)
  /-- `depth` counts the keys in flight, this one included. -/
  | resolving (key : String) (depth : Nat)
  | installed (key : String)
  | evaluated (policy : String) (decision : Decision) (bias : Bias) (biasApplied : Bool)
  | failed (policy : String) (error : Error)
  deriving DecidableEq, Repr

namespace Event

inductive Severity
  | trace
  | debug
  | warn
  deriving DecidableEq, Repr

def Severity.name : Severity → String
  | .trace => "TRACE"
  | .debug => "DEBUG"
  | .warn => "WARN"

def severity : Event → Severity
  | .cacheHit _ => .trace
  | .resolving _ _ => .trace
  | .installed _ => .debug
  | .evaluated _ _ _ _ => .debug
  | .failed _ _ => .warn

def message : Event → String
  | .cacheHit _ => "attribute cache hit"
  | .resolving _ _ => "resolving attribute"
  | .installed _ => "installed information point"
  | .evaluated _ _ _ _ => "policy evaluated"
  | .failed _ _ => "policy evaluation failed"

def fields : Event → List (String × String)
  | .cacheHit key => [("key", key)]
  | .resolving key depth => [("key", key), ("depth", Text.natural depth)]
  | .installed key => [("key", key)]
  | .evaluated policy decision bias biasApplied =>
    [("policy", policy), ("decision", decision.display), ("bias", bias.name),
      ("bias_applied", showBool biasApplied)]
  | .failed policy error =>
    [("policy", policy), ("category", error.category.name), ("error", error.message)]

end Event

end AccessPolicy
