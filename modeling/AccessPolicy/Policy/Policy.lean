/-
Policies. A rule decides by a procedure: the tree of what it asks of its context and of the policies
that it evaluates or enforces on that context on its way. A combined policy decides by its members
and an algorithm, and is named after the algorithm.
-/

import AccessPolicy.Policy.Algorithm
import AccessPolicy.Program
import AccessPolicy.Attribute.Debug

namespace AccessPolicy

/-- Applies its bias where a policy has no opinion, and counts on its meter, if it has one. -/
structure EnforcementPoint where
  bias : Bias
  meter : Option Nat := none
  deriving DecidableEq, Repr

mutual

inductive Procedure
  | done (result : Except Error Decision)
  | ask (request : Request) (next : request.Answer → Procedure)
  | evaluate (policy : Policy) (next : Except Error Decision → Procedure)
  | enforce (point : EnforcementPoint) (bias : Option Bias) (policy : Policy)
      (next : Except Error Decision → Procedure)

inductive Policy
  | rule (name : String) (body : Procedure)
  | combined (algorithm : Algorithm) (members : List Policy)

end

namespace Procedure

def after {α : Type} : Program α → (Except Error α → Procedure) → Procedure
  | .done result, next => next result
  | .ask request answered, next => .ask request fun answer => after (answered answer) next

def handle : Procedure → (Except Error Decision → Procedure) → Procedure
  | .done result, next => next result
  | .ask request answered, next => .ask request fun answer => (answered answer).handle next
  | .evaluate policy decided, next => .evaluate policy fun result => (decided result).handle next
  | .enforce point bias policy decided, next =>
    .enforce point bias policy fun result => (decided result).handle next

def afterValue {α : Type} (program : Program α) (next : α → Procedure) : Procedure :=
  after program fun
    | .ok value => next value
    | .error error => .done (.error error)

end Procedure

namespace Policy

def name : Policy → String
  | .rule name _ => name
  | .combined algorithm _ => algorithm.name

def named (name : String) (body : Procedure) : Except Error Policy :=
  (checkName name).map fun name => .rule name body

def debug : Policy → String
  | .rule name _ => showFields "FnPolicy" [("key", showKey name)]
  | .combined algorithm members =>
    showFields "CombinedPolicy"
      [("algorithm", algorithm.debug),
        ("policies", showList (fun member : Policy => Text.quote member.name) members)]

end Policy

end AccessPolicy
