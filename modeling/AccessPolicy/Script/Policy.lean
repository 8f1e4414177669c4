/-
Scripts of policies. The body of a rule decides from expressions; it may make other policies on its
way and evaluate or enforce them on the context that it runs in. Enforcement points are named, and
what a name means is given from outside.
-/

import AccessPolicy.Attribute.TypeName
import AccessPolicy.Policy.Policy
import AccessPolicy.Script.Expression

namespace AccessPolicy

mutual

inductive Body
  | permit
  | deny (message code : Expression)
  | notApplicable (message : Expression)
  | choose (condition : Expression) (positive negative : Body)
  | after (expressions : List Expression) (body : Body)
  | orElse (first second : Body)
  | raise (error : Error)
  | withBias (bias : Bias) (body : Body)
  | evaluate (policy : PolicyScript)
  | enforce (point : String) (bias : Option Bias) (policy : PolicyScript)

inductive PolicyScript
  | named (name : String) (body : Body)
  /-- Named after a type, by the full name of the type. -/
  | ofType (type : String) (body : Body)
  | combined (algorithm : String) (members : List PolicyScript)

end

def Procedure.decide (decision : Decision) : Procedure := .done (.ok decision)

def Procedure.fail (error : Error) : Procedure := .done (.error error)

mutual

def Body.procedure (points : String → EnforcementPoint) : Body → Procedure
  | .permit => .decide .permit
  | .deny message code =>
    .afterValue (do return (← message.program, ← code.program)) fun (message, code) =>
      .decide (.deny message.asText code.asText)
  | .notApplicable message =>
    .afterValue message.program fun message => .decide (.notApplicable message.asText)
  | .choose condition positive negative =>
    .afterValue condition.program fun condition =>
      if condition.asBool then positive.procedure points else negative.procedure points
  | .after expressions body =>
    .afterValue (Expression.programs expressions) fun _ => body.procedure points
  | .orElse first second =>
    (first.procedure points).handle fun
      | .ok decision => .decide decision
      | .error _ => second.procedure points
  | .raise error => .fail error
  | .withBias bias body =>
    (body.procedure points).handle fun
      | .ok decision => .decide (decision.withBias bias)
      | .error error => .fail error
  | .evaluate policy =>
    match policy.make points with
    | .ok policy => .evaluate policy .done
    | .error error => .fail error
  | .enforce point bias policy =>
    match policy.make points with
    | .ok policy => .enforce (points point) bias policy .done
    | .error error => .fail error

/-- Makes a policy. The name of an algorithm is read before its policies are made. -/
def PolicyScript.make (points : String → EnforcementPoint) : PolicyScript → Except Error Policy
  | .named name body => Policy.named name (body.procedure points)
  | .ofType type body => .ok (.rule (TypeName.simple type) (body.procedure points))
  | .combined algorithm members => do
    let algorithm ← Algorithm.parse algorithm
    return .combined algorithm (← PolicyScript.makeAll points members)

def PolicyScript.makeAll (points : String → EnforcementPoint) :
    List PolicyScript → Except Error (List Policy)
  | [] => .ok []
  | script :: scripts => do
    let policy ← script.make points
    return policy :: (← PolicyScript.makeAll points scripts)

end

end AccessPolicy
