/-
Evaluation and enforcement. Both run a policy in a section of the trace: its name, everything that
happens inside one level deeper, and the decision, if there is one. Enforcement applies the bias to
the decision, logs the outcome and counts it on the meter of the enforcement point; it takes the
requests that the section made from the counts of the context before and after.
-/

import AccessPolicy.Policy.Policy
import AccessPolicy.Policy.Scene

namespace AccessPolicy

def resultLine (decision : Decision) : String := "Result: " ++ decision.display

def traced (name : String) (evaluate : Evaluation Scene) : Evaluation Scene := fun scene =>
  match evaluate (scene.write name).indent with
  | (.ok decision, scene) => (.ok decision, (scene.write (resultLine decision)).unindent)
  | (.error error, scene) => (.error error, scene.unindent)

structure Outcome where
  own : Decision
  decision : Decision
  deriving DecidableEq, Repr

def ResolutionStats.since (stats before : ResolutionStats) : ResolutionStats :=
  { cacheHits := stats.cacheHits - before.cacheHits
    cacheMisses := stats.cacheMisses - before.cacheMisses }

namespace EnforcementPoint

def biasFor (point : EnforcementPoint) (bias : Option Bias) : Bias := bias.getD point.bias

/-- Time passes outside of this account: an enforcement adds nothing to the time of its meter. -/
def succeed (point : EnforcementPoint) (bias : Bias) (name : String) (outcome : Outcome)
    (before : ResolutionStats) (scene : Scene) : Scene :=
  let event := Event.evaluated name outcome.decision bias outcome.own.isNotApplicable
  (scene.log event).updateMeter point.meter fun meter =>
    meter.recordEvaluation outcome.own outcome.decision 0.0 (scene.stats.since before)

def fail (point : EnforcementPoint) (name : String) (error : Error) (scene : Scene) : Scene :=
  (scene.log (.failed name error)).updateMeter point.meter fun meter => meter.recordError error

/-- Enforces what is evaluated under a name; `bias` goes before the point's own bias. -/
def enforce (point : EnforcementPoint) (bias : Option Bias) (name : String)
    (evaluate : Evaluation Scene) (scene : Scene) : Except Error Outcome × Scene :=
  let bias := point.biasFor bias
  let before := scene.stats
  match evaluate (scene.write name).indent with
  | (.ok own, scene) =>
    let outcome := { own, decision := own.withBias bias }
    let scene := (scene.write (resultLine outcome.decision)).unindent
    (.ok outcome, point.succeed bias name outcome before scene)
  | (.error error, scene) => (.error error, point.fail name error scene.unindent)

end EnforcementPoint

mutual

def Procedure.run : Procedure → Evaluation Scene
  | .done result, scene => (result, scene)
  | .ask request next, scene =>
    let answered := scene.answer request
    (next answered.1).run answered.2
  | .evaluate policy next, scene =>
    let evaluated := policy.evaluate scene
    (next evaluated.1).run evaluated.2
  | .enforce point bias policy next, scene =>
    let enforced := point.enforce bias policy.name policy.evaluate scene
    (next (enforced.1.map Outcome.decision)).run enforced.2

def Policy.evaluate : Policy → Evaluation Scene
  | .rule _ body => body.run
  | .combined algorithm members => algorithm.combine (Policy.sections members)

def Policy.sections : List Policy → List (Evaluation Scene)
  | [] => []
  | policy :: policies => traced policy.name policy.evaluate :: Policy.sections policies

end

end AccessPolicy
