/-
Where policies are evaluated: a context and its host. A context is a resolution context, or a foreign
one, which resolves nothing and keeps a flat trace of its own. The host outlives it: it has the
journal and the meters of the enforcement points.
-/

import AccessPolicy.Resolution.Merge
import AccessPolicy.Resolution.Resolve
import AccessPolicy.Telemetry.Meter

namespace AccessPolicy

inductive EvaluationContext
  | resolution (context : Context)
  | foreign (trace : String)

structure Host where
  journal : Journal := {}
  meters : List Meter := []

structure Scene extends Host where
  context : EvaluationContext

namespace EvaluationContext

def foreignLine (message : String) : String := "F:" ++ message ++ "\n"

def stats : EvaluationContext → ResolutionStats
  | .resolution context => context.memory.stats
  | .foreign _ => {}

def trace : EvaluationContext → String
  | .resolution context => context.memory.report.text
  | .foreign trace => trace

def plus : EvaluationContext → EvaluationContext → Except Error EvaluationContext
  | .resolution left, .resolution right => .ok (.resolution (left.merge right))
  | .resolution _, .foreign _ =>
    .error (.incompatibleContext "only ResolutionContext instances can be merged")
  | .foreign _, _ => .error (.incompatibleContext "foreign")

def answer : (request : Request) → EvaluationContext → Journal →
    request.Answer × EvaluationContext × Journal
  | request, .resolution context, journal =>
    let act := Store.answer (resolve context.points context.inFlight) request
    let (answer, context, journal) := context.withStore act journal
    (answer, .resolution context, journal)
  | .resolve name, .foreign trace, journal =>
    (.error (.missingInformationPoint name), .foreign trace, journal)
  | .report message, .foreign trace, journal =>
    ((), .foreign (trace ++ foreignLine message), journal)
  | .indent, .foreign trace, journal => ((), .foreign trace, journal)
  | .unindent, .foreign trace, journal => ((), .foreign trace, journal)
  | .stats, .foreign trace, journal => ({}, .foreign trace, journal)
  | .trace, .foreign trace, journal => (trace, .foreign trace, journal)
  | .count counter, .foreign trace, journal =>
    ((journal.count counter).counter counter, .foreign trace, journal.count counter)

end EvaluationContext

namespace Scene

def answer (request : Request) (scene : Scene) : request.Answer × Scene :=
  let (answer, context, journal) := scene.context.answer request scene.journal
  (answer, { scene with context, journal })

def run {α : Type} (program : Program α) (scene : Scene) : Except Error α × Scene :=
  program.run answer scene

def write (scene : Scene) (message : String) : Scene := (scene.answer (.report message)).2

def indent (scene : Scene) : Scene := (scene.answer .indent).2

def unindent (scene : Scene) : Scene := (scene.answer .unindent).2

def stats (scene : Scene) : ResolutionStats := scene.context.stats

def trace (scene : Scene) : String := scene.context.trace

def log (scene : Scene) (event : Event) : Scene :=
  { scene with journal := scene.journal.log event }

def updateMeter (scene : Scene) (meter : Option Nat) (update : Meter → Meter) : Scene :=
  match meter with
  | none => scene
  | some index => { scene with meters := scene.meters.modify index update }

end Scene

end AccessPolicy
