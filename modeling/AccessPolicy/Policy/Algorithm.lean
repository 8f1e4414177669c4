/-
Combining algorithms. An algorithm turns a list of evaluations into one. The overrides run every
evaluation up to the first failure and then let one kind of decision win; first-applicable stops at
the first evaluation that fails or has an opinion. Where no evaluation has one, neither has the
combination.
-/

import AccessPolicy.Policy.Decision

namespace AccessPolicy

inductive Algorithm
  | permitOverride
  | denyOverride
  | firstApplicable
  deriving DecidableEq, Repr

/-- An evaluation leaves the state changed, whether it fails or not. -/
abbrev Evaluation (σ : Type) : Type := σ → Except Error Decision × σ

namespace Algorithm

def name : Algorithm → String
  | .permitOverride => "permit-override"
  | .denyOverride => "deny-override"
  | .firstApplicable => "first-applicable"

def debug : Algorithm → String
  | .permitOverride => "PermitOverride"
  | .denyOverride => "DenyOverride"
  | .firstApplicable => "FirstApplicable"

/-- Case does not count, and an underscore is as good as a hyphen. -/
def parse (text : String) : Except Error Algorithm :=
  let word := (Text.lower text).toList.map fun c => if c = '_' then '-' else c
  if word = "permit-override".toList then .ok .permitOverride
  else if word = "deny-override".toList then .ok .denyOverride
  else if word = "first-applicable".toList then .ok .firstApplicable
  else .error (.parse ("Unknown combining algorithm: " ++ text))

def notApplicable (algorithm : Algorithm) : Decision :=
  .notApplicable ("No applicable policy found (" ++ algorithm.name ++ ")")

structure Tally where
  permitted : Bool := false
  firstDeny : Option (String × String) := none
  deriving DecidableEq, Repr

def Tally.add (tally : Tally) : Decision → Tally
  | .permit => { tally with permitted := true }
  | .deny message code =>
    { tally with firstDeny := some (tally.firstDeny.getD (message, code)) }
  | .notApplicable _ => tally

def Tally.permit? (tally : Tally) : Option Decision :=
  if tally.permitted then some .permit else none

def Tally.deny? (tally : Tally) : Option Decision :=
  tally.firstDeny.map fun (message, code) => .deny message code

def tallyAll {σ : Type} : List (Evaluation σ) → Tally → σ → Except Error Tally × σ
  | [], tally, state => (.ok tally, state)
  | evaluate :: rest, tally, state =>
    match evaluate state with
    | (.ok decision, state) => tallyAll rest (tally.add decision) state
    | (.error error, state) => (.error error, state)

def firstOpinion {σ : Type} (otherwise : Decision) : List (Evaluation σ) → Evaluation σ
  | [], state => (.ok otherwise, state)
  | evaluate :: rest, state =>
    match evaluate state with
    | (.ok (.notApplicable _), state) => firstOpinion otherwise rest state
    | (.ok decision, state) => (.ok decision, state)
    | (.error error, state) => (.error error, state)

def combine {σ : Type} (algorithm : Algorithm) (evaluations : List (Evaluation σ)) :
    Evaluation σ := fun state =>
  match algorithm with
  | .permitOverride =>
    let (tally, state) := tallyAll evaluations {} state
    (tally.map fun tally =>
      (tally.permit?.or tally.deny?).getD (notApplicable .permitOverride), state)
  | .denyOverride =>
    let (tally, state) := tallyAll evaluations {} state
    (tally.map fun tally =>
      (tally.deny?.or tally.permit?).getD (notApplicable .denyOverride), state)
  | .firstApplicable => firstOpinion (notApplicable .firstApplicable) evaluations state

end Algorithm

end AccessPolicy
