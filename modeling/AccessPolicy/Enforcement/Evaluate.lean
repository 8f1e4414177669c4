/-
The operations of an enforcement point. A policy is enforced on a given context, or on a fresh one
that a decision point makes with the attributes of the call; several policies are combined first.
The operations differ only in what they tell of the outcome.
-/

import AccessPolicy.Audit.Record
import AccessPolicy.Enforcement.DecisionPoint
import AccessPolicy.Policy.Evaluate

namespace AccessPolicy

def Host.scene (host : Host) (context : EvaluationContext) : Scene := { host with context }

def DecisionPoint.scene (decisionPoint : DecisionPoint) (attributes : List InformationPoint)
    (host : Host) : Scene :=
  host.scene (.resolution (decisionPoint.createContext attributes))

namespace EnforcementPoint

/-! ### On a given context -/

def enforcePolicy (point : EnforcementPoint) (bias : Option Bias) (policy : Policy) (scene : Scene) :
    Except Error Outcome × Scene :=
  point.enforce bias policy.name policy.evaluate scene

def evaluateInContext (point : EnforcementPoint) (bias : Option Bias) (policy : Policy)
    (scene : Scene) : Except Error Decision × Scene :=
  let (result, scene) := point.enforcePolicy bias policy scene
  (result.map Outcome.decision, scene)

def evaluateInContextWithReport (point : EnforcementPoint) (bias : Option Bias) (policy : Policy)
    (scene : Scene) : Except Error (Decision × String) × Scene :=
  let (result, scene) := point.enforcePolicy bias policy scene
  (result.map fun outcome => (outcome.decision, scene.trace), scene)

/-! ### On a fresh context -/

def evaluate (point : EnforcementPoint) (decisionPoint : DecisionPoint) (bias : Option Bias)
    (attributes : List InformationPoint) (policy : Policy) (host : Host) :
    Except Error Decision × Host :=
  let (result, scene) := point.evaluateInContext bias policy (decisionPoint.scene attributes host)
  (result, scene.toHost)

def evaluateWithReport (point : EnforcementPoint) (decisionPoint : DecisionPoint)
    (bias : Option Bias) (attributes : List InformationPoint) (policy : Policy) (host : Host) :
    Except Error (Decision × String) × Host :=
  let (result, scene) :=
    point.evaluateInContextWithReport bias policy (decisionPoint.scene attributes host)
  (result, scene.toHost)

def evaluateWithRecord (point : EnforcementPoint) (decisionPoint : DecisionPoint)
    (bias : Option Bias) (attributes : List InformationPoint) (policy : Policy) (stamp : Stamp)
    (host : Host) : Except Error EvaluationRecord × Host :=
  let (result, scene) := point.enforcePolicy bias policy (decisionPoint.scene attributes host)
  let record (outcome : Outcome) : EvaluationRecord :=
    (EvaluationRecord.new stamp.id stamp.finished policy.name outcome.own outcome.decision
      scene.trace).withElapsed stamp.elapsed
  (result.map record, scene.toHost)

/-! ### Several policies -/

def evaluateAll (point : EnforcementPoint) (decisionPoint : DecisionPoint)
    (algorithm : Algorithm) (bias : Option Bias) (attributes : List InformationPoint)
    (policies : List Policy) (host : Host) : Except Error Decision × Host :=
  point.evaluate decisionPoint bias attributes (.combined algorithm policies) host

def evaluateAllWithReport (point : EnforcementPoint) (decisionPoint : DecisionPoint)
    (algorithm : Algorithm) (bias : Option Bias) (attributes : List InformationPoint)
    (policies : List Policy) (host : Host) : Except Error (Decision × String) × Host :=
  point.evaluateWithReport decisionPoint bias attributes (.combined algorithm policies) host

def evaluateAllWithRecord (point : EnforcementPoint) (decisionPoint : DecisionPoint)
    (algorithm : Algorithm) (bias : Option Bias) (attributes : List InformationPoint)
    (policies : List Policy) (stamp : Stamp) (host : Host) :
    Except Error EvaluationRecord × Host :=
  point.evaluateWithRecord decisionPoint bias attributes (.combined algorithm policies) stamp host

end EnforcementPoint

end AccessPolicy
