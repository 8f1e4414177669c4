/-
Running a session. Every step answers with what it found or with the failure that stopped it; a step
that fails leaves the names of the session as they were, and what it has already done to a context,
to a meter or to the log stays done.
-/

import AccessPolicy.Session.Step

namespace AccessPolicy

structure Enforcer where
  point : EnforcementPoint
  decisionPoint : Nat

structure Session where
  contexts : List (String × EvaluationContext) := []
  /-- Decision points are shared, so names lead to places. -/
  decisionPoints : List DecisionPoint := []
  decisionPointNames : List (String × Nat) := []
  enforcers : List (String × Enforcer) := []
  host : Host := {}
  /-- The identifier and the time of the records that the session makes. -/
  stamp : Stamp

/-- Either the answer that ends a step at once, or what the step goes on with. -/
abbrev Lookup (α : Type) : Type := Except Answer α

namespace Session

def bindName {α : Type} (entries : List (String × α)) (name : String) (item : α) :
    List (String × α) :=
  (name, item) :: entries.filter fun entry => entry.1 ≠ name

def find {α : Type} (entries : List (String × α)) (name : String) : Lookup α :=
  match entries.lookup name with
  | some item => .ok item
  | none => .error (.unknown name)

def orFail {α : Type} (result : Except Error α) : Lookup α := result.mapError .failed

def setContext (session : Session) (name : String) (context : EvaluationContext) : Session :=
  { session with contexts := bindName session.contexts name context }

def addDecisionPoint (session : Session) : Session :=
  { session with decisionPoints := session.decisionPoints ++ [{}] }

def decisionPointAt (session : Session) (place : Nat) : DecisionPoint :=
  session.decisionPoints.getD place {}

def point (session : Session) (name : String) : EnforcementPoint :=
  match session.enforcers.lookup name with
  | some enforcer => enforcer.point
  | none => { bias := .deny }

/-! ### Making -/

def sourcePoint (session : Session) : ContextSource → Lookup DecisionPoint
  | .bare => .ok {}
  | .decisionPoint name => (find session.decisionPointNames name).map session.decisionPointAt
  | .enforcementPoint name =>
    (find session.enforcers name).map fun enforcer => session.decisionPointAt enforcer.decisionPoint

def makeContext (session : Session) (name : String) (source : ContextSource)
    (points : List PointScript) : Lookup (Answer × Session) := do
  let points ← orFail (PointScript.makeAll points)
  let decisionPoint ← session.sourcePoint source
  return (.done, session.setContext name (.resolution (decisionPoint.createContext points)))

def makeDecisionPoint (session : Session) (name : String) : Session :=
  let names := bindName session.decisionPointNames name session.decisionPoints.length
  { session.addDecisionPoint with decisionPointNames := names }

def install (session : Session) (name : String) (script : PointScript) :
    Lookup (Answer × Session) := do
  let point ← orFail script.make
  let place ← find session.decisionPointNames name
  let decisionPoint := (session.decisionPointAt place).install point
  return (.installed decisionPoint,
    { session with
      decisionPoints := session.decisionPoints.set place decisionPoint
      host.journal := session.host.journal.log (.installed point.name) })

def placeFor (session : Session) (name : Option String) : Lookup (Nat × Session) :=
  match name with
  | some name => (find session.decisionPointNames name).map fun place => (place, session)
  | none => .ok (session.decisionPoints.length, session.addDecisionPoint)

def addMeter (session : Session) (meter : Option Meter) : Option Nat × Session :=
  match meter with
  | none => (none, session)
  | some meter =>
    (some session.host.meters.length,
      { session with host.meters := session.host.meters ++ [meter] })

def addEnforcer (session : Session) (name : String) (assembly : Assembly Nat) :
    Answer × Session :=
  let (meter, session) := session.addMeter assembly.meter
  let point : EnforcementPoint := { bias := assembly.bias, meter }
  let enforcer : Enforcer := { point, decisionPoint := assembly.decisionPoint }
  (.built point.bias (assembly.meter.map Meter.service)
      (point.debug (session.decisionPointAt enforcer.decisionPoint)),
    { session with enforcers := bindName session.enforcers name enforcer })

def makeEnforcementPoint (session : Session) (name : String) (bias : DecisionType)
    (decisionPoint : Option String) : Lookup (Answer × Session) := do
  let (place, session) ← session.placeFor decisionPoint
  let point ← orFail (EnforcementPoint.new bias)
  return session.addEnforcer name
    { bias := point.bias, decisionPoint := place, meter := none }

def readConfig (config : Option Json) : Except Error Config :=
  match config with
  | none => .ok {}
  | some value =>
    (Config.ofJson value).mapError fun mismatch => .serialization mismatch.message

def buildEnforcementPoint (session : Session) (name : String) (config : Option Json)
    (bias : Option DecisionType) (telemetryEnabled : Option Bool)
    (decisionPoint : Option String) : Lookup (Answer × Session) := do
  let config ← orFail (readConfig config)
  let (place, session) ← session.placeFor decisionPoint
  let builder : Builder Nat := { config, bias, telemetryEnabled }
  return session.addEnforcer name (← orFail (builder.build place))

def mergeContexts (session : Session) (name left right : String) : Lookup (Answer × Session) := do
  let left ← find session.contexts left
  let right ← find session.contexts right
  return (.done, session.setContext name (← orFail (left.plus right)))

/-! ### Running on a context -/

/-- Runs something on a named context, and keeps what it did even if it failed. -/
def onContext {α : Type} (session : Session) (name : String) (answer : α → Answer)
    (act : Scene → Except Error α × Scene) : Lookup (Answer × Session) := do
  let context ← find session.contexts name
  let (result, scene) := act (session.host.scene context)
  let session := { session.setContext name scene.context with host := scene.toHost }
  match result with
  | .ok found => return (answer found, session)
  | .error error => return (.failed error, session)

def makePolicy (session : Session) (script : PolicyScript) : Lookup Policy :=
  orFail (script.make session.point)

def runExpression (session : Session) (context : String) (expression : Expression) :
    Lookup (Answer × Session) :=
  session.onContext context .value fun scene => scene.run expression.program

/-! ### Enforcing -/

def onHost {α : Type} (session : Session) (answer : α → Answer)
    (act : Host → Except Error α × Host) : Answer × Session :=
  let (result, host) := act session.host
  match result with
  | .ok found => (answer found, { session with host })
  | .error error => (.failed error, { session with host })

def enforceFresh (session : Session) (enforcer : Enforcer) (bias : Option Bias) (want : Want)
    (points : List InformationPoint) (policy : Policy) : Answer × Session :=
  let decisionPoint := session.decisionPointAt enforcer.decisionPoint
  match want with
  | .decision => session.onHost .decision fun host =>
      enforcer.point.evaluate decisionPoint bias points policy host
  | .report => session.onHost (fun (decision, report) => .reported decision report) fun host =>
      enforcer.point.evaluateWithReport decisionPoint bias points policy host
  | .record => session.onHost .record fun host =>
      enforcer.point.evaluateWithRecord decisionPoint bias points policy session.stamp host

/-- Several policies are enforced as their combination. -/
def enforce (session : Session) (name : String) (bias : Option Bias) (want : Want) :
    Target → Lookup (Answer × Session)
  | .inContext context script => do
    let enforcer ← find session.enforcers name
    let policy ← session.makePolicy script
    match want with
    | .report =>
      session.onContext context (fun (decision, report) => .reported decision report)
        (enforcer.point.evaluateInContextWithReport bias policy)
    | _ =>
      session.onContext context .decision (enforcer.point.evaluateInContext bias policy)
  | .single points script => do
    let enforcer ← find session.enforcers name
    let points ← orFail (PointScript.makeAll points)
    let policy ← session.makePolicy script
    return session.enforceFresh enforcer bias want points policy
  | .several points algorithm scripts => do
    let enforcer ← find session.enforcers name
    let points ← orFail (PointScript.makeAll points)
    let policy ← session.makePolicy (.combined algorithm scripts)
    return session.enforceFresh enforcer bias want points policy

def meterOf? (session : Session) (enforcer : Enforcer) : Option Meter :=
  enforcer.point.meter.bind fun place => session.host.meters[place]?

def metricsOf (session : Session) (enforcer : Enforcer) : Lookup (Option Metrics) :=
  match session.meterOf? enforcer with
  | none => .ok none
  | some meter =>
    match meter.metrics with
    | some metrics => .ok (some metrics)
    | none => .error .overflowed

/-! ### Steps -/

def debugContext : EvaluationContext → String
  | .resolution context => context.debug
  | .foreign _ => "ForeignContext"

def perform (session : Session) : Step → Lookup (Answer × Session)
  | .context name source points => session.makeContext name source points
  | .foreign name => .ok (.done, session.setContext name (.foreign ""))
  | .decisionPoint name => .ok (.done, session.makeDecisionPoint name)
  | .install name point => session.install name point
  | .enforcementPoint name bias decisionPoint =>
    session.makeEnforcementPoint name bias decisionPoint
  | .build name config bias telemetry decisionPoint =>
    session.buildEnforcementPoint name config bias telemetry decisionPoint
  | .get context key kind => session.runExpression context (.get key kind)
  | .resolve context key =>
    session.onContext context (fun value => .debug value.debug) fun scene =>
      scene.run (Program.resolve key)
  | .evaluateExpression context expression => session.runExpression context expression
  | .merge name left right => session.mergeContexts name left right
  | .report name => (find session.contexts name).map fun context => (.report context.trace, session)
  | .debug name =>
    (find session.contexts name).map fun context => (.debug (debugContext context), session)
  | .evaluate context script => do
    let policy ← session.makePolicy script
    session.onContext context .decision policy.evaluate
  | .describe script => do
    return (.description (← session.makePolicy script), session)
  | .enforce name bias want target => session.enforce name bias want target
  | .metrics name => do
    let enforcer ← find session.enforcers name
    return (.metrics (← session.metricsOf enforcer), session)
  | .counters => .ok (.counters session.host.journal.counters, session)

/-! ### Replies -/

def traceOf (session : Session) (name : String) : String :=
  match session.contexts.lookup name with
  | some context => context.trace
  | none => ""

def addedText (before after : String) : String :=
  String.ofList (after.toList.drop before.length)

def contextState (context : EvaluationContext) (trace : String) : ContextState :=
  match context with
  | .resolution own =>
    { registered := some own.registeredLen, cached := some own.cachedLen,
      stats := context.stats, trace }
  | .foreign _ => { registered := none, cached := none, stats := context.stats, trace }

def stateAfter (before after : Session) (step : Step) : Option ContextState := do
  let name ← step.context?
  let context ← after.contexts.lookup name
  let trace := if step.replacesContext then context.trace
    else addedText (before.traceOf name) context.trace
  return contextState context trace

def step (session : Session) (step : Step) : Reply × Session :=
  let start := { session with host.journal.events := [] }
  let (answer, after) := match start.perform step with
    | .ok performed => performed
    | .error answer => (answer, start)
  ({ answer, state := stateAfter start after step, events := after.host.journal.events }, after)

def run (session : Session) : List Step → List Reply
  | [] => []
  | step :: steps =>
    let (reply, session) := session.step step
    reply :: session.run steps

end Session

end AccessPolicy
