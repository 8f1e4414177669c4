/-
Decision points: the information points that are installed for every evaluation. A key is installed
at most once; installing it again replaces its point in place.
-/

import AccessPolicy.Resolution.Context

namespace AccessPolicy

structure DecisionPoint where
  installed : List InformationPoint := []

namespace DecisionPoint

def replaceOrAppend (point : InformationPoint) :
    List InformationPoint → List InformationPoint
  | [] => [point]
  | other :: others =>
    if other.name = point.name then point :: others
    else other :: replaceOrAppend point others

def install (decisionPoint : DecisionPoint) (point : InformationPoint) : DecisionPoint :=
  { installed := replaceOrAppend point decisionPoint.installed }

def installedKeys (decisionPoint : DecisionPoint) : List String :=
  decisionPoint.installed.map InformationPoint.name

def size (decisionPoint : DecisionPoint) : Nat := decisionPoint.installed.length

/-- The points of one evaluation: those given for it come last, so they win over installed ones. -/
def createContext (decisionPoint : DecisionPoint) (attributes : List InformationPoint) : Context :=
  Context.new (decisionPoint.installed ++ attributes)

def debug (decisionPoint : DecisionPoint) : String :=
  showFields "PolicyDecisionPoint" [("installed", showList Text.quote decisionPoint.installedKeys)]

end DecisionPoint

end AccessPolicy
