/-
The steps of a session and their answers. Contexts, decision points and enforcement points go by
names; a step that makes one replaces an older one of its name.
-/

import AccessPolicy.Enforcement.Builder
import AccessPolicy.Enforcement.Evaluate
import AccessPolicy.Script.Point
import AccessPolicy.Script.Policy
import AccessPolicy.Settings.Json

namespace AccessPolicy

inductive ContextSource
  | bare
  | decisionPoint (name : String)
  | enforcementPoint (name : String)

inductive Want
  | decision
  | report
  | record

/-- What is enforced: a policy on a context, or one or several policies on a fresh context. -/
inductive Target
  | inContext (context : String) (policy : PolicyScript)
  | single (points : List PointScript) (policy : PolicyScript)
  | several (points : List PointScript) (algorithm : String) (policies : List PolicyScript)

inductive Step
  | context (name : String) (source : ContextSource) (points : List PointScript)
  | foreign (name : String)
  | decisionPoint (name : String)
  | install (decisionPoint : String) (point : PointScript)
  | enforcementPoint (name : String) (bias : DecisionType) (decisionPoint : Option String)
  | build (name : String) (config : Option Json) (bias : Option DecisionType)
      (telemetry : Option Bool) (decisionPoint : Option String)
  | get (context key : String) (kind : Kind)
  | resolve (context key : String)
  | evaluateExpression (context : String) (expression : Expression)
  | merge (name left right : String)
  | report (context : String)
  | debug (context : String)
  | evaluate (context : String) (policy : PolicyScript)
  | describe (policy : PolicyScript)
  | enforce (point : String) (bias : Option Bias) (want : Want) (target : Target)
  | metrics (point : String)
  | counters

def Step.context? : Step → Option String
  | .context name _ _ => some name
  | .foreign name => some name
  | .get name _ _ => some name
  | .resolve name _ => some name
  | .evaluateExpression name _ => some name
  | .merge name _ _ => some name
  | .report name => some name
  | .debug name => some name
  | .evaluate name _ => some name
  | .enforce _ _ _ (.inContext name _) => some name
  | _ => none

/-- Whether a step puts a context in the place of another one. -/
def Step.replacesContext : Step → Bool
  | .context _ _ _ => true
  | .foreign _ => true
  | .merge _ _ _ => true
  | _ => false

inductive Answer
  | done
  | installed (decisionPoint : DecisionPoint)
  | built (bias : Bias) (service : Option String) (debug : String)
  | value (value : Value)
  | debug (text : String)
  | report (text : String)
  | decision (decision : Decision)
  | reported (decision : Decision) (report : String)
  | record (record : EvaluationRecord)
  | description (policy : Policy)
  | metrics (metrics : Option Metrics)
  | counters (counters : List (String × Nat))
  | failed (error : Error)
  | unknown (name : String)
  | overflowed

structure ContextState where
  registered : Option Nat
  cached : Option Nat
  stats : ResolutionStats
  /-- What the step has added to the trace. -/
  trace : String

structure Reply where
  answer : Answer
  state : Option ContextState
  events : List Event

end AccessPolicy
