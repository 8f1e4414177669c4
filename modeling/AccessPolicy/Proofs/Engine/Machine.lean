/-
Resolution, evaluation and enforcement, one step at a time. The machine has the part of the run that it
is at, the parts that wait for it, and the scene. The keys in flight are a stack in the context: a key
is pushed before its point is looked up and popped on every way out of its request. Nothing in a step
bounds the number of steps.
-/

import AccessPolicy.Enforcement.Evaluate
import AccessPolicy.Proofs.Resolution.Reaches

namespace AccessPolicy

/-- A part of a run that waits for another one. -/
inductive Frame
  | point (name : String) (next : Except Error Value → Program Value)
  | rule (next : Except Error Value → Procedure)
  | policy (next : Except Error Decision → Procedure)
  | member
  | members (algorithm : Algorithm) (tally : Algorithm.Tally) (rest : List Policy)
  | enforcement (point : EnforcementPoint) (bias : Bias) (name : String)
      (before : ResolutionStats)

inductive Focus
  | request (name : String)
  | lookUp (name : String)
  | provide (name : String) (program : Program Value)
  | leave (name : String) (answer : Except Error Value)
  | answer (answer : Except Error Value)
  | decide (body : Procedure)
  | evaluate (policy : Policy)
  | enforce (point : EnforcementPoint) (bias : Option Bias) (policy : Policy)
  | combine (algorithm : Algorithm) (tally : Algorithm.Tally) (members : List Policy)
  | decision (result : Except Error Decision)

namespace Algorithm

def stopsAt : Algorithm → Decision → Bool
  | .firstApplicable, .permit => true
  | .firstApplicable, .deny _ _ => true
  | _, _ => false

def conclude : Algorithm → Tally → Decision
  | .permitOverride, tally =>
    (tally.permit?.or tally.deny?).getD (notApplicable .permitOverride)
  | .denyOverride, tally => (tally.deny?.or tally.permit?).getD (notApplicable .denyOverride)
  | .firstApplicable, _ => notApplicable .firstApplicable

end Algorithm

structure Machine where
  focus : Focus
  frames : List Frame
  scene : Scene

namespace Scene

def changeStore (scene : Scene) (context : Context) (change : Store → Store) : Scene :=
  let store := change (context.store scene.journal)
  { scene with
    context := .resolution { context with memory := store.memory }
    journal := store.journal }

def push (scene : Scene) (context : Context) (name : String) : Scene :=
  scene.changeStore (context.enter name) fun store =>
    store.log (.resolving name (context.inFlight.length + 1))

def pop (scene : Scene) : Scene :=
  match scene.context with
  | .foreign _ => scene
  | .resolution context =>
    { scene with context := .resolution { context with inFlight := context.inFlight.dropLast } }

def keep (scene : Scene) (name : String) (value : Value) : Scene :=
  match scene.context with
  | .foreign _ => scene
  | .resolution context => scene.changeStore context fun store => store.keep name value

def close (scene : Scene) : Except Error Decision → Scene
  | .ok decision => (scene.write (resultLine decision)).unindent
  | .error _ => scene.unindent

end Scene

def EnforcementPoint.conclude (point : EnforcementPoint) (bias : Bias) (name : String)
    (before : ResolutionStats) (scene : Scene) :
    Except Error Decision → Except Error Decision × Scene
  | .ok own =>
    let outcome : Outcome := { own, decision := own.withBias bias }
    (.ok outcome.decision,
      point.succeed bias name outcome before (scene.close (.ok outcome.decision)))
  | .error error => (.error error, point.fail name error (scene.close (.error error)))

namespace Machine

def request (name : String) (frames : List Frame) (scene : Scene) : Machine :=
  match scene.context with
  | .foreign _ => ⟨.answer (.error (.missingInformationPoint name)), frames, scene⟩
  | .resolution context =>
    match context.memory.cache.find? name with
    | some value =>
      ⟨.answer (.ok value), frames, scene.changeStore context fun store => store.hit name⟩
    | none =>
      if name ∈ context.inFlight then
        ⟨.answer (.error (.cyclicDependencies (cyclePath context.inFlight name))), frames, scene⟩
      else ⟨.lookUp name, frames, scene.push context name⟩

def lookUp (name : String) (frames : List Frame) (scene : Scene) : Machine :=
  match scene.context with
  | .foreign _ => ⟨.leave name (.error (.missingInformationPoint name)), frames, scene⟩
  | .resolution context =>
    match registered? context.points name with
    | none =>
      ⟨.leave name (.error (.missingInformationPoint name)), frames,
        scene.changeStore context fun store => store.notFound name⟩
    | some point => ⟨.provide name point.provide, frames, scene⟩

def provide (name : String) (frames : List Frame) (scene : Scene) : Program Value → Machine
  | .done (.ok value) => ⟨.leave name (.ok value), frames, scene.keep name value⟩
  | .done (.error error) => ⟨.leave name (.error error), frames, scene⟩
  | .ask (.resolve key) next => ⟨.request key, .point name next :: frames, scene⟩
  | .ask request next =>
    ⟨.provide name (next (scene.answer request).1), frames, (scene.answer request).2⟩

def decide (frames : List Frame) (scene : Scene) : Procedure → Machine
  | .done result => ⟨.decision result, frames, scene⟩
  | .ask (.resolve key) next => ⟨.request key, .rule next :: frames, scene⟩
  | .ask request next =>
    ⟨.decide (next (scene.answer request).1), frames, (scene.answer request).2⟩
  | .evaluate policy next => ⟨.evaluate policy, .policy next :: frames, scene⟩
  | .enforce point bias policy next =>
    ⟨.enforce point bias policy, .policy next :: frames, scene⟩

def combine (algorithm : Algorithm) (tally : Algorithm.Tally) (frames : List Frame)
    (scene : Scene) : List Policy → Machine
  | [] => ⟨.decision (.ok (algorithm.conclude tally)), frames, scene⟩
  | policy :: rest =>
    ⟨.evaluate policy, .member :: .members algorithm tally rest :: frames,
      (scene.write policy.name).indent⟩

def proceed (algorithm : Algorithm) (tally : Algorithm.Tally) (rest : List Policy)
    (frames : List Frame) (scene : Scene) : Except Error Decision → Machine
  | .ok decision =>
    if algorithm.stopsAt decision then ⟨.decision (.ok decision), frames, scene⟩
    else ⟨.combine algorithm (tally.add decision) rest, frames, scene⟩
  | .error error => ⟨.decision (.error error), frames, scene⟩

/-- The next state; none if the run has come to its answer or decision. -/
def step : Machine → Option Machine
  | ⟨.request name, frames, scene⟩ => some (request name frames scene)
  | ⟨.lookUp name, frames, scene⟩ => some (lookUp name frames scene)
  | ⟨.provide name program, frames, scene⟩ => some (provide name frames scene program)
  | ⟨.leave _ answer, frames, scene⟩ => some ⟨.answer answer, frames, scene.pop⟩
  | ⟨.decide body, frames, scene⟩ => some (decide frames scene body)
  | ⟨.evaluate (.rule _ body), frames, scene⟩ => some ⟨.decide body, frames, scene⟩
  | ⟨.evaluate (.combined algorithm members), frames, scene⟩ =>
    some ⟨.combine algorithm {} members, frames, scene⟩
  | ⟨.enforce point bias policy, frames, scene⟩ =>
    some ⟨.evaluate policy,
      .enforcement point (point.biasFor bias) policy.name scene.stats :: frames,
      (scene.write policy.name).indent⟩
  | ⟨.combine algorithm tally members, frames, scene⟩ =>
    some (combine algorithm tally frames scene members)
  | ⟨.answer answer, .point name next :: frames, scene⟩ =>
    some ⟨.provide name (next answer), frames, scene⟩
  | ⟨.answer answer, .rule next :: frames, scene⟩ => some ⟨.decide (next answer), frames, scene⟩
  | ⟨.decision result, .policy next :: frames, scene⟩ =>
    some ⟨.decide (next result), frames, scene⟩
  | ⟨.decision result, .member :: frames, scene⟩ =>
    some ⟨.decision result, frames, scene.close result⟩
  | ⟨.decision result, .members algorithm tally rest :: frames, scene⟩ =>
    some (proceed algorithm tally rest frames scene result)
  | ⟨.decision result, .enforcement point bias name before :: frames, scene⟩ =>
    let concluded := point.conclude bias name before scene result
    some ⟨.decision concluded.1, frames, concluded.2⟩
  | ⟨.answer _, _, _⟩ => none
  | ⟨.decision _, _, _⟩ => none

/-- The state after some steps, or the last one if there are fewer. -/
def after (machine : Machine) : Nat → Machine
  | 0 => machine
  | n + 1 =>
    match machine.step with
    | some next => next.after n
    | none => machine

end Machine

inductive Task
  | resolve (name : String)
  | evaluate (policy : Policy)
  | enforce (point : EnforcementPoint) (bias : Option Bias) (policy : Policy)

namespace Task

def start : Task → Scene → Machine
  | .resolve name, scene => ⟨.request name, [], scene⟩
  | .evaluate policy, scene => ⟨.evaluate policy, [], scene⟩
  | .enforce point bias policy, scene => ⟨.enforce point bias policy, [], scene⟩

def finish : Task → Scene → Machine
  | .resolve name, scene =>
    ⟨.answer (scene.answer (.resolve name)).1, [], (scene.answer (.resolve name)).2⟩
  | .evaluate policy, scene => ⟨.decision (policy.evaluate scene).1, [], (policy.evaluate scene).2⟩
  | .enforce point bias policy, scene =>
    ⟨.decision (point.evaluateInContext bias policy scene).1, [],
      (point.evaluateInContext bias policy scene).2⟩

end Task

end AccessPolicy
