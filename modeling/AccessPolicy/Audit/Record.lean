/-
Records of enforcements, for an audit. The outcome of an enforcement and its trace come from the
enforcement itself; the identifier, the moment and the time it took come from outside.
-/

import AccessPolicy.Audit.Identifier
import AccessPolicy.Audit.Timestamp
import AccessPolicy.Policy.Decision

namespace AccessPolicy

structure Duration where
  seconds : Nat := 0
  nanoseconds : Nat := 0
  lessThanSecond : nanoseconds < 1000000000 := by decide
  deriving DecidableEq, Repr

def Duration.of (seconds nanoseconds : Nat) : Duration where
  seconds := seconds + nanoseconds / 1000000000
  nanoseconds := nanoseconds % 1000000000
  lessThanSecond := Nat.mod_lt _ (by decide)

/-- The seconds are rounded first, the fraction is added to them, and the sum is scaled. -/
def Duration.milliseconds (d : Duration) : Float :=
  (Float.ofNat d.seconds + Float.ofNat d.nanoseconds / 1000000000.0) * 1000.0

structure Stamp where
  id : Identifier
  finished : Timestamp
  elapsed : Duration := {}
  deriving DecidableEq, Repr

structure EvaluationRecord where
  id : Identifier
  policy : String
  /-- The decision after the bias. -/
  decision : Decision
  ownDecision : Decision
  biasApplied : Bool
  report : String
  evaluatedAt : Timestamp
  milliseconds : Float

namespace EvaluationRecord

def new (id : Identifier) (finished : Timestamp) (policy : String)
    (own decision : Decision) (report : String) : EvaluationRecord where
  id := id
  policy := policy
  decision := decision
  ownDecision := own
  biasApplied := own ≠ decision
  report := report
  evaluatedAt := finished
  milliseconds := 0.0

def withElapsed (record : EvaluationRecord) (elapsed : Duration) : EvaluationRecord :=
  { record with milliseconds := elapsed.milliseconds }

/-- Equality of records. Times are compared as doubles are. -/
def same (left right : EvaluationRecord) : Bool :=
  left.id = right.id && left.policy = right.policy && left.decision = right.decision
    && left.ownDecision = right.ownDecision && left.biasApplied = right.biasApplied
    && left.report = right.report && left.evaluatedAt = right.evaluatedAt
    && left.milliseconds == right.milliseconds

end EvaluationRecord

end AccessPolicy
