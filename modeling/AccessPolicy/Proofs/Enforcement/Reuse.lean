/-
Contexts that are used again. Where information points and policies pass on every failure, an evaluation
comes to the same outcome on every context of these points on which no key is in flight, whatever has been
asked of it before: each request is answered as it would be without the cache, and nothing else of a
context can reach an outcome. What clients before have made of the context need not be of that kind.
-/

import AccessPolicy.Proofs.Enforcement.Service
import AccessPolicy.Proofs.Policy.Effects
import AccessPolicy.Proofs.Resolution.Simulation

namespace AccessPolicy

/-! ### Policies that pass failures on -/

/-- Nothing more is asked that could make a difference, and the outcome is the failure. -/
inductive Procedure.FailsWith (error : Error) : Procedure → Prop
  | done : FailsWith error (.done (.error error))
  | aside (request : Request) (isAside : request.Aside) (next : Procedure)
      (goes : FailsWith error next) : FailsWith error (.ask request fun _ => next)

mutual

/-- The outcome hangs on the answers to requests for keys and on the decisions of other policies alone,
and a failure among them becomes the outcome. -/
inductive Procedure.Forwarding : Procedure → Prop
  | done (result : Except Error Decision) : Procedure.Forwarding (.done result)
  | resolve (name : String) (next : Except Error Value → Procedure)
      (passes : ∀ error, (next (.error error)).FailsWith error)
      (goes : ∀ value, Procedure.Forwarding (next (.ok value))) :
      Procedure.Forwarding (.ask (.resolve name) next)
  | aside (request : Request) (isAside : request.Aside) (next : Procedure)
      (goes : Procedure.Forwarding next) : Procedure.Forwarding (.ask request fun _ => next)
  | evaluate (policy : Policy) (next : Except Error Decision → Procedure)
      (own : Policy.Forwarding policy) (passes : ∀ error, (next (.error error)).FailsWith error)
      (goes : ∀ decision, Procedure.Forwarding (next (.ok decision))) :
      Procedure.Forwarding (.evaluate policy next)
  | enforce (point : EnforcementPoint) (bias : Option Bias) (policy : Policy)
      (next : Except Error Decision → Procedure) (own : Policy.Forwarding policy)
      (passes : ∀ error, (next (.error error)).FailsWith error)
      (goes : ∀ decision, Procedure.Forwarding (next (.ok decision))) :
      Procedure.Forwarding (.enforce point bias policy next)

inductive Policy.Forwarding : Policy → Prop
  | rule (name : String) (body : Procedure) (own : Procedure.Forwarding body) :
      Policy.Forwarding (.rule name body)
  | combined (algorithm : Algorithm) (members : List Policy)
      (all : ∀ member ∈ members, Policy.Forwarding member) :
      Policy.Forwarding (.combined algorithm members)

end

/-! ### Scenes that serve points -/

/-- A context of these points with no key in flight, whose cache has no value but those that its points
would come to. -/
def Scene.Serves (points : List InformationPoint) (scene : Scene) : Prop :=
  ∃ context, scene.context = .resolution context ∧ context.points = points ∧
    context.inFlight = [] ∧ context.memory.cache.Faithful points fun _ _ => True

section

variable {points : List InformationPoint}

namespace Scene.Serves

variable {scene : Scene}

theorem of_context (serves : scene.Serves points) {other : Scene}
    (same : other.context = scene.context) : other.Serves points := by
  obtain ⟨context, own, parts⟩ := serves
  exact ⟨context, same.trans own, parts⟩

theorem log (serves : scene.Serves points) (event : Event) : (scene.log event).Serves points :=
  serves.of_context rfl

theorem updateMeter (serves : scene.Serves points) (meter : Option Nat)
    (update : Meter → Meter) : (scene.updateMeter meter update).Serves points := by
  apply serves.of_context
  cases meter <;> rfl

theorem answer_aside (serves : scene.Serves points) {request : Request}
    (aside : request.Aside) : (scene.answer request).2.Serves points := by
  obtain ⟨⟨journal, meters⟩, own⟩ := scene
  obtain ⟨context, same, registered, idle, faithful⟩ := serves
  cases same
  have unchanged := Store.answer_aside (AccessPolicy.resolve context.points context.inFlight)
    request aside ⟨context.memory, journal⟩
  refine ⟨_, rfl, registered, idle, ?_⟩
  change (Store.answer _ request ⟨context.memory, journal⟩).2.memory.cache.Faithful points _
  rw [unchanged.1]
  exact faithful

theorem write (serves : scene.Serves points) (message : String) :
    (scene.write message).Serves points := by
  have aside : (Request.report message).Aside := fun _ same => nomatch same
  exact serves.answer_aside aside

theorem indent (serves : scene.Serves points) : scene.indent.Serves points := by
  have aside : Request.indent.Aside := fun _ same => nomatch same
  exact serves.answer_aside aside

theorem unindent (serves : scene.Serves points) : scene.unindent.Serves points := by
  have aside : Request.unindent.Aside := fun _ same => nomatch same
  exact serves.answer_aside aside

theorem answer_resolve (discipline : Discipline points fun _ _ => True)
    (serves : scene.Serves points) (name : String) :
    (scene.answer (.resolve name)).1 = (appraise points [] name).1 ∧
      (scene.answer (.resolve name)).2.Serves points := by
  obtain ⟨⟨journal, meters⟩, own⟩ := scene
  obtain ⟨⟨registered, inFlight, memory⟩, same, samePoints, idle, faithful⟩ := serves
  cases same
  cases samePoints
  cases idle
  have step := discipline.resolve_matches [] name ⟨memory, journal⟩ faithful
    (fun _ member => nomatch member) trivial
  exact ⟨step.outcome, _, rfl, rfl, rfl, step.faithful⟩

theorem answer (discipline : Discipline points fun _ _ => True) (serves : scene.Serves points)
    (request : Request) : (scene.answer request).2.Serves points := by
  rcases request.resolve_or_aside with ⟨name, same⟩ | aside
  · subst same
    exact (serves.answer_resolve discipline name).2
  · exact serves.answer_aside aside

theorem fresh (points : List InformationPoint) (host : Host) :
    (host.scene (.resolution (.new points))).Serves points :=
  ⟨.new points, rfl, rfl, rfl, Cache.faithful_empty points _⟩

theorem closed (discipline : Discipline points fun _ _ => True) :
    Scene.Closed fun before after => before.Serves points → after.Serves points where
  refl _ serves := serves
  trans first second serves := second (first serves)
  answer request _ serves := serves.answer discipline request

theorem closedUnder (discipline : Discipline points fun _ _ => True) :
    Scene.ClosedUnder (fun _ _ => True)
      (fun before after => before.Serves points → after.Serves points) := by
  refine { closed discipline with enforced := ?_ }
  intro point bias policy _ evaluated scene
  apply (closed discipline).enforce
  · exact fun event scene serves => serves.log event
  · exact fun update scene serves => serves.updateMeter point.meter update
  · exact evaluated

end Scene.Serves

/-! ### Settled evaluations -/

/-- On every scene that serves the points the evaluation has the same outcome, and they go on being
served. -/
structure Evaluation.Settled {α : Type} (points : List InformationPoint)
    (evaluate : Scene → Except Error α × Scene) (result : Except Error α) : Prop where
  outcome : ∀ scene, scene.Serves points → (evaluate scene).1 = result
  serves : ∀ scene, scene.Serves points → (evaluate scene).2.Serves points

namespace Evaluation.Settled

theorem of_eq {α : Type} {evaluate : Scene → Except Error α × Scene} {result : Except Error α}
    (steps : ∀ scene, scene.Serves points → ∃ after, evaluate scene = (result, after) ∧
      after.Serves points) : Settled points evaluate result where
  outcome scene serves := by
    obtain ⟨after, same, _⟩ := steps scene serves
    rw [same]
  serves scene serves := by
    obtain ⟨after, same, still⟩ := steps scene serves
    rwa [same]

theorem eq {α : Type} {evaluate : Scene → Except Error α × Scene} {result : Except Error α}
    (settled : Settled points evaluate result) {scene : Scene} (serves : scene.Serves points) :
    ∃ after, evaluate scene = (result, after) ∧ after.Serves points :=
  ⟨(evaluate scene).2, Prod.ext (settled.outcome scene serves) rfl, settled.serves scene serves⟩

variable {evaluate : Evaluation Scene} {result : Except Error Decision}

theorem traced (name : String) (settled : Settled points evaluate result) :
    Settled points (AccessPolicy.traced name evaluate) result := by
  apply of_eq
  intro scene serves
  obtain ⟨after, same, still⟩ := settled.eq (serves.write name).indent
  unfold AccessPolicy.traced
  rw [same]
  cases result with
  | ok decision => exact ⟨_, rfl, (still.write _).unindent⟩
  | error error => exact ⟨_, rfl, still.unindent⟩

theorem tallyAll (evaluations : List (Evaluation Scene))
    (settled : ∀ evaluate ∈ evaluations, ∃ result, Settled points evaluate result)
    (tally : Algorithm.Tally) :
    ∃ result, Settled points (Algorithm.tallyAll evaluations tally) result := by
  induction evaluations generalizing tally with
  | nil => exact ⟨.ok tally, .of_eq fun scene serves => ⟨scene, rfl, serves⟩⟩
  | cons evaluate rest ih =>
      obtain ⟨result, first⟩ := settled evaluate List.mem_cons_self
      have others (other : Evaluation Scene) (within : other ∈ rest) :=
        settled other (List.mem_cons_of_mem _ within)
      cases result with
      | error error =>
          refine ⟨.error error, .of_eq fun scene serves => ?_⟩
          obtain ⟨after, same, still⟩ := first.eq serves
          unfold Algorithm.tallyAll
          rw [same]
          exact ⟨after, rfl, still⟩
      | ok decision =>
          obtain ⟨last, later⟩ := ih others (tally.add decision)
          refine ⟨last, .of_eq fun scene serves => ?_⟩
          obtain ⟨after, same, still⟩ := first.eq serves
          unfold Algorithm.tallyAll
          rw [same]
          exact later.eq still

theorem firstOpinion (otherwise : Decision) (evaluations : List (Evaluation Scene))
    (settled : ∀ evaluate ∈ evaluations, ∃ result, Settled points evaluate result) :
    ∃ result, Settled points (Algorithm.firstOpinion otherwise evaluations) result := by
  induction evaluations with
  | nil => exact ⟨.ok otherwise, .of_eq fun scene serves => ⟨scene, rfl, serves⟩⟩
  | cons evaluate rest ih =>
      obtain ⟨result, first⟩ := settled evaluate List.mem_cons_self
      have others (other : Evaluation Scene) (within : other ∈ rest) :=
        settled other (List.mem_cons_of_mem _ within)
      by_cases silent : ∃ message, result = .ok (.notApplicable message)
      · obtain ⟨message, same⟩ := silent
        subst same
        obtain ⟨last, later⟩ := ih others
        refine ⟨last, .of_eq fun scene serves => ?_⟩
        obtain ⟨after, same, still⟩ := first.eq serves
        unfold Algorithm.firstOpinion
        rw [same]
        exact later.eq still
      · refine ⟨result, .of_eq fun scene serves => ?_⟩
        obtain ⟨after, same, still⟩ := first.eq serves
        unfold Algorithm.firstOpinion
        rw [same]
        cases result with
        | error error => exact ⟨after, rfl, still⟩
        | ok decision =>
            cases decision with
            | permit => exact ⟨after, rfl, still⟩
            | deny message code => exact ⟨after, rfl, still⟩
            | notApplicable message => exact absurd ⟨message, rfl⟩ silent

theorem combine (algorithm : Algorithm) (evaluations : List (Evaluation Scene))
    (settled : ∀ evaluate ∈ evaluations, ∃ result, Settled points evaluate result) :
    ∃ result, Settled points (algorithm.combine evaluations) result := by
  have overriding (conclude : Algorithm.Tally → Decision) : ∃ result, Settled points
      (fun scene => ((Algorithm.tallyAll evaluations {} scene).1.map conclude,
        (Algorithm.tallyAll evaluations {} scene).2)) result := by
    obtain ⟨tally, tallied⟩ := tallyAll evaluations settled {}
    refine ⟨tally.map conclude, .of_eq fun scene serves => ?_⟩
    obtain ⟨after, same, still⟩ := tallied.eq serves
    rw [same]
    exact ⟨after, rfl, still⟩
  cases algorithm with
  | permitOverride => exact overriding _
  | denyOverride => exact overriding _
  | firstApplicable => exact firstOpinion _ evaluations settled

theorem enforce (point : EnforcementPoint) (bias : Option Bias) (name : String)
    (settled : Settled points evaluate result) :
    ∃ outcome, Settled points (point.enforce bias name evaluate) outcome := by
  refine ⟨result.map fun own => ⟨own, own.withBias (point.biasFor bias)⟩, ?_⟩
  apply of_eq
  intro scene serves
  obtain ⟨after, same, still⟩ := settled.eq (serves.write name).indent
  unfold EnforcementPoint.enforce
  rw [same]
  cases result with
  | ok own => exact ⟨_, rfl, ((still.write _).unindent.log _).updateMeter _ _⟩
  | error error => exact ⟨_, rfl, (still.unindent.log _).updateMeter _ _⟩

/-! ### Procedures -/

theorem of_fails {error : Error} {body : Procedure} (fails : body.FailsWith error) :
    Settled points body.run (.error error) := by
  induction fails with
  | done => exact .of_eq fun scene serves => ⟨scene, rfl, serves⟩
  | aside request isAside next goes ih =>
      apply of_eq
      intro scene serves
      exact ih.eq (serves.answer_aside isAside)

theorem goes_on {α : Type} {act : Scene → Except Error α × Scene}
    {outcome : Except Error α} (settled : Settled points act outcome)
    {next : Except Error α → Procedure}
    (passes : ∀ error, (next (.error error)).FailsWith error)
    (goes : ∀ value, ∃ result, Settled points (next (.ok value)).run result) :
    ∃ result, Settled points
      (fun scene => (next (act scene).1).run (act scene).2) result := by
  have rest : ∃ result, Settled points (next outcome).run result := by
    cases outcome with
    | ok value => exact goes value
    | error error => exact ⟨_, of_fails (passes error)⟩
  obtain ⟨result, later⟩ := rest
  refine ⟨result, .of_eq fun scene serves => ?_⟩
  obtain ⟨after, same, still⟩ := settled.eq serves
  rw [same]
  exact later.eq still

end Evaluation.Settled

/-! ### Policies -/

theorem Policy.sections_settled (members : List Policy)
    (settled : ∀ member ∈ members, ∃ result, Evaluation.Settled points member.evaluate result) :
    ∀ evaluate ∈ Policy.sections members, ∃ result,
      Evaluation.Settled points evaluate result := by
  induction members with
  | nil =>
      intro evaluate within
      cases within
  | cons policy rest ih =>
      intro evaluate within
      rcases List.mem_cons.mp within with same | later
      · obtain ⟨result, first⟩ := settled policy List.mem_cons_self
        rw [same]
        exact ⟨result, first.traced policy.name⟩
      · exact ih (fun member inRest => settled member (List.mem_cons_of_mem _ inRest)) evaluate later

open Evaluation (Settled)

mutual

theorem Procedure.Forwarding.settled (discipline : Discipline points fun _ _ => True)
    {body : Procedure} (forwarding : body.Forwarding) :
    ∃ result, Settled points body.run result := by
  match forwarding with
  | .done result => exact ⟨result, .of_eq fun scene serves => ⟨scene, rfl, serves⟩⟩
  | .resolve name next passes goes =>
      have asked : Settled points (Scene.answer (.resolve name)) (appraise points [] name).1 :=
        ⟨fun _ serves => (serves.answer_resolve discipline name).1,
          fun _ serves => (serves.answer_resolve discipline name).2⟩
      exact asked.goes_on passes fun value => (goes value).settled discipline
  | .aside request isAside next goes =>
      obtain ⟨result, later⟩ := goes.settled discipline
      refine ⟨result, .of_eq fun scene serves => ?_⟩
      exact later.eq (serves.answer_aside isAside)
  | .evaluate policy next own passes goes =>
      obtain ⟨result, first⟩ := own.settled discipline
      exact first.goes_on passes fun decision => (goes decision).settled discipline
  | .enforce point bias policy next own passes goes =>
      obtain ⟨result, first⟩ := own.settled discipline
      obtain ⟨outcome, enforced⟩ := first.enforce point bias policy.name
      have told (outcome : Outcome) := (goes outcome.decision).settled discipline
      let resume (result : Except Error Outcome) := next (result.map Outcome.decision)
      have passesOn (error : Error) : (resume (.error error)).FailsWith error := passes error
      exact enforced.goes_on passesOn told

theorem Policy.Forwarding.settled (discipline : Discipline points fun _ _ => True)
    {policy : Policy} (forwarding : policy.Forwarding) :
    ∃ result, Settled points policy.evaluate result := by
  match forwarding with
  | .rule name body own => exact own.settled discipline
  | .combined algorithm members all =>
      have settled (member : Policy) (within : member ∈ members) :=
        (all member within).settled discipline
      exact Settled.combine algorithm _ (Policy.sections_settled members settled)

end

end

/-! ### Services -/

namespace Service

def Serves (points : List InformationPoint) (place : Nat) (service : Service) : Prop :=
  ∃ context, service.contexts[place]? = some context ∧
    (service.host.scene context).Serves points

theorem Serves.attend {points : List InformationPoint}
    (discipline : Discipline points fun _ _ => True) {place : Nat} {service : Service}
    (serves : service.Serves points place) (room : Nat) (client : Procedure) :
    (service.attend room client).Serves points place := by
  obtain ⟨context, present, served⟩ := serves
  unfold Service.attend
  cases found : service.contexts[room]? with
  | none => exact ⟨context, present, served⟩
  | some other =>
      by_cases same : room = place
      · subst same
        cases found.symm.trans present
        have still := client.run_related (Scene.Serves.closedUnder discipline) client.enforcesOnly_all
          (service.host.scene context) served
        obtain ⟨inside, _⟩ := List.getElem?_eq_some_iff.mp present
        exact ⟨_, List.getElem?_set_self inside, still.of_context rfl⟩
      · refine ⟨context, ?_, served.of_context rfl⟩
        dsimp only
        rw [List.getElem?_set_ne same]
        exact present

theorem Serves.serve {points : List InformationPoint}
    (discipline : Discipline points fun _ _ => True) {place : Nat} {service : Service}
    (serves : service.Serves points place) (clients : List (Nat × Procedure)) :
    (service.serve clients).Serves points place := by
  induction clients generalizing service with
  | nil => exact serves
  | cons client clients ih => exact ih (serves.attend discipline client.1 client.2)

/-- A context that clients have used, one after the other, decides as a fresh one does. -/
theorem used_decides_as_fresh {decisionPoint : DecisionPoint} {attributes : List InformationPoint}
    (forwarding : ∀ point ∈ decisionPoint.installed ++ attributes, point.provide.Forwarding)
    {policy : Policy} (passes : policy.Forwarding) {service : Service} {place : Nat}
    (made : service.contexts[place]? = some (.resolution (decisionPoint.createContext attributes)))
    (clients : List (Nat × Procedure)) (point : EnforcementPoint) (bias : Option Bias)
    (host : Host) :
    ∃ used, (service.serve clients).contexts[place]? = some used ∧
      (point.evaluateInContext bias policy ((service.serve clients).host.scene used)).1 =
        (point.evaluate decisionPoint bias attributes policy host).1 := by
  have discipline : Discipline (decisionPoint.installed ++ attributes) fun _ _ => True :=
    .of_forwarding fun _ point found => forwarding point (registered?_mem found)
  have start : service.Serves (decisionPoint.installed ++ attributes) place :=
    ⟨_, made, .fresh _ service.host⟩
  obtain ⟨used, present, serves⟩ := start.serve discipline clients
  obtain ⟨result, settled⟩ := passes.settled discipline
  obtain ⟨outcome, enforced⟩ := settled.enforce point bias policy.name
  have onUsed := enforced.outcome _ serves
  have onFresh := enforced.outcome _ (Scene.Serves.fresh _ host)
  refine ⟨used, present, congrArg (Except.map Outcome.decision) ?_⟩
  exact onUsed.trans onFresh.symm

/-- Two keys that ask for each other, and both for a third one first. -/
private def mutualPoints : List InformationPoint :=
  [{ name := "base", provide := .askAll [] .unit },
    { name := "left", provide := .askAll ["base", "right"] .unit },
    { name := "right", provide := .askAll ["base", "left"] .unit }]

private def plainPoint : EnforcementPoint := { bias := .permit }

private def permitAfter (name : String) (keys : List String) : Policy :=
  .rule name (.afterValue (.askAll keys .unit) fun _ => .done (.ok .permit))

private theorem permitAfter_forwarding (name : String) (keys : List String) :
    (permitAfter name keys).Forwarding := by
  apply Policy.Forwarding.rule
  induction keys with
  | nil => exact .done _
  | cons key keys ih => exact .resolve key _ (fun _ => .done) fun _ => ih

/-- Its member enforces a policy that asks for what is cached by then, and then fails. -/
private def strict : Policy :=
  .combined .denyOverride
    [.rule "checked" (.enforce plainPoint none (permitAfter "circular" ["base", "right"]) .done),
      permitAfter "known" ["base"]]

/-- The first client fails on its way, the second one goes on after a failure, and the third one stops
at its first member. -/
private def regulars : List (Nat × Procedure) :=
  [(0, .evaluate (permitAfter "early" ["left"]) .done),
    (0, .ask (.resolve "lost") fun _ => .done (.ok .permit)),
    (0, .enforce plainPoint none
      (.combined .firstApplicable [permitAfter "first" ["base"], permitAfter "second" ["left"]])
      .done)]

private def lobby : Service where
  host := {}
  contexts := [.resolution (DecisionPoint.createContext {} mutualPoints)]

theorem used_decides_as_fresh_mutual :
    (∀ point ∈ mutualPoints, point.provide.Forwarding) ∧ strict.Forwarding ∧
      ∃ used, (lobby.serve regulars).contexts[0]? = some used ∧
        (plainPoint.evaluateInContext none strict ((lobby.serve regulars).host.scene used)).1 =
          .error (.cyclicDependencies ["right", "left", "right"]) := by
  have forwarding : ∀ point ∈ ({} : DecisionPoint).installed ++ mutualPoints,
      point.provide.Forwarding := by
    intro point member
    change point ∈ mutualPoints at member
    simp only [mutualPoints, List.mem_cons, List.not_mem_nil, or_false] at member
    rcases member with rfl | rfl | rfl <;> exact Program.askAll_forwarding _ _
  have passes : strict.Forwarding := by
    apply Policy.Forwarding.combined
    intro member within
    simp only [List.mem_cons, List.not_mem_nil, or_false] at within
    rcases within with rfl | rfl
    · exact .rule _ _ (.enforce _ _ _ _ (permitAfter_forwarding _ _) (fun _ => .done)
        fun _ => .done _)
    · exact permitAfter_forwarding _ _
  have made : lobby.contexts[0]? =
      some (.resolution (DecisionPoint.createContext {} mutualPoints)) := rfl
  obtain ⟨used, present, same⟩ :=
    used_decides_as_fresh forwarding passes made regulars plainPoint none {}
  refine ⟨forwarding, passes, used, present, same.trans ?_⟩
  decide +kernel

end Service

end AccessPolicy
