/-
What evaluations do to their scene. A policy changes its scene only by what it asks for and by what it
enforces, so a relation between the scenes before and after is shown once for a single request and for
the enforcements that the policy may make; sections and algorithms add nothing of their own.
-/

import AccessPolicy.Enforcement.Evaluate

namespace AccessPolicy

mutual

/-- Whatever enforcement comes about in a run, however deep inside, is an allowed one. -/
inductive Procedure.EnforcesOnly (allowed : EnforcementPoint → Policy → Prop) : Procedure → Prop
  | done (result : Except Error Decision) : Procedure.EnforcesOnly allowed (.done result)
  | ask (request : Request) (next : request.Answer → Procedure)
      (goes : ∀ answer, Procedure.EnforcesOnly allowed (next answer)) :
      Procedure.EnforcesOnly allowed (.ask request next)
  | evaluate (policy : Policy) (next : Except Error Decision → Procedure)
      (own : Policy.EnforcesOnly allowed policy)
      (goes : ∀ result, Procedure.EnforcesOnly allowed (next result)) :
      Procedure.EnforcesOnly allowed (.evaluate policy next)
  | enforce (point : EnforcementPoint) (bias : Option Bias) (policy : Policy)
      (next : Except Error Decision → Procedure) (isAllowed : allowed point policy)
      (own : Policy.EnforcesOnly allowed policy)
      (goes : ∀ result, Procedure.EnforcesOnly allowed (next result)) :
      Procedure.EnforcesOnly allowed (.enforce point bias policy next)

inductive Policy.EnforcesOnly (allowed : EnforcementPoint → Policy → Prop) : Policy → Prop
  | rule (name : String) (body : Procedure) (own : Procedure.EnforcesOnly allowed body) :
      Policy.EnforcesOnly allowed (.rule name body)
  | combined (algorithm : Algorithm) (members : List Policy)
      (all : ∀ member ∈ members, Policy.EnforcesOnly allowed member) :
      Policy.EnforcesOnly allowed (.combined algorithm members)

end

mutual

theorem Procedure.enforcesOnly_all (body : Procedure) : body.EnforcesOnly fun _ _ => True := by
  match body with
  | .done result => exact .done result
  | .ask request next => exact .ask request next fun answer =>
      Procedure.enforcesOnly_all (next answer)
  | .evaluate policy next =>
      apply Procedure.EnforcesOnly.evaluate
      · exact Policy.enforcesOnly_all policy
      · exact fun result => Procedure.enforcesOnly_all (next result)
  | .enforce point bias policy next =>
      apply Procedure.EnforcesOnly.enforce
      · trivial
      · exact Policy.enforcesOnly_all policy
      · exact fun result => Procedure.enforcesOnly_all (next result)

theorem Policy.enforcesOnly_all (policy : Policy) : policy.EnforcesOnly fun _ _ => True := by
  match policy with
  | .rule name body => exact .rule name body (Procedure.enforcesOnly_all body)
  | .combined algorithm members =>
      exact .combined algorithm members (Policy.members_enforceOnly_all members)

theorem Policy.members_enforceOnly_all (members : List Policy) :
    ∀ member ∈ members, member.EnforcesOnly fun _ _ => True := by
  match members with
  | [] => exact fun _ within => nomatch within
  | policy :: rest =>
      intro member within
      rcases List.mem_cons.mp within with same | later
      · rw [same]
        exact Policy.enforcesOnly_all policy
      · exact Policy.members_enforceOnly_all rest member later

end

namespace Scene

theorem context_updateMeter (scene : Scene) (meter : Option Nat) (update : Meter → Meter) :
    (scene.updateMeter meter update).context = scene.context := by
  cases meter <;> rfl

theorem journal_updateMeter (scene : Scene) (meter : Option Nat) (update : Meter → Meter) :
    (scene.updateMeter meter update).journal = scene.journal := by
  cases meter <;> rfl

end Scene

/-- The relation holds over no change at all, over changes one after the other, and over what any
request changes. -/
structure Scene.Closed (related : Scene → Scene → Prop) : Prop where
  refl : ∀ scene, related scene scene
  trans : ∀ {first second third}, related first second → related second third →
    related first third
  answer : ∀ request scene, related scene (Scene.answer request scene).2

namespace Scene.Closed

variable {related : Scene → Scene → Prop} (closed : Scene.Closed related)

include closed

theorem write (scene : Scene) (message : String) : related scene (scene.write message) :=
  closed.answer (.report message) scene

theorem indent (scene : Scene) : related scene scene.indent := closed.answer .indent scene

theorem unindent (scene : Scene) : related scene scene.unindent := closed.answer .unindent scene

theorem open_section (scene : Scene) (name : String) : related scene (scene.write name).indent :=
  closed.trans (closed.write scene name) (closed.indent _)

theorem close_section (scene : Scene) (decision : Decision) :
    related scene (scene.write (resultLine decision)).unindent :=
  closed.trans (closed.write scene _) (closed.unindent _)

theorem traced (name : String) {evaluate : Evaluation Scene}
    (evaluated : ∀ scene, related scene (evaluate scene).2) (scene : Scene) :
    related scene (AccessPolicy.traced name evaluate scene).2 := by
  have opened := closed.open_section scene name
  have inside := evaluated (scene.write name).indent
  unfold AccessPolicy.traced
  cases result : evaluate (scene.write name).indent with
  | mk outcome after =>
      rw [result] at inside
      have through := closed.trans opened inside
      cases outcome with
      | ok decision => exact closed.trans through (closed.close_section after decision)
      | error error => exact closed.trans through (closed.unindent after)

theorem tallyAll (evaluations : List (Evaluation Scene))
    (evaluated : ∀ evaluate ∈ evaluations, ∀ scene, related scene (evaluate scene).2)
    (tally : Algorithm.Tally) (scene : Scene) :
    related scene (Algorithm.tallyAll evaluations tally scene).2 := by
  induction evaluations generalizing tally scene with
  | nil => exact closed.refl scene
  | cons evaluate rest ih =>
      have first := evaluated evaluate List.mem_cons_self scene
      unfold Algorithm.tallyAll
      cases result : evaluate scene with
      | mk outcome after =>
          rw [result] at first
          cases outcome with
          | ok decision =>
              have later := ih (fun other within => evaluated other (List.mem_cons_of_mem _ within))
                (tally.add decision) after
              exact closed.trans first later
          | error error => exact first

theorem firstOpinion (otherwise : Decision) (evaluations : List (Evaluation Scene))
    (evaluated : ∀ evaluate ∈ evaluations, ∀ scene, related scene (evaluate scene).2)
    (scene : Scene) :
    related scene (Algorithm.firstOpinion otherwise evaluations scene).2 := by
  induction evaluations generalizing scene with
  | nil => exact closed.refl scene
  | cons evaluate rest ih =>
      have first := evaluated evaluate List.mem_cons_self scene
      unfold Algorithm.firstOpinion
      cases result : evaluate scene with
      | mk outcome after =>
          rw [result] at first
          cases outcome with
          | error error => exact first
          | ok decision =>
              cases decision with
              | permit => exact first
              | deny message code => exact first
              | notApplicable message =>
                  have later := ih
                    (fun other within => evaluated other (List.mem_cons_of_mem _ within)) after
                  exact closed.trans first later

theorem combine (algorithm : Algorithm) (evaluations : List (Evaluation Scene))
    (evaluated : ∀ evaluate ∈ evaluations, ∀ scene, related scene (evaluate scene).2)
    (scene : Scene) : related scene (algorithm.combine evaluations scene).2 := by
  cases algorithm with
  | permitOverride => exact closed.tallyAll evaluations evaluated {} scene
  | denyOverride => exact closed.tallyAll evaluations evaluated {} scene
  | firstApplicable => exact closed.firstOpinion _ evaluations evaluated scene

/-- For an enforcement it is enough that its log entry and its meter keep the relation. -/
theorem enforce {point : EnforcementPoint}
    (logged : ∀ event scene, related scene (Scene.log scene event))
    (metered : ∀ update scene, related scene (Scene.updateMeter scene point.meter update))
    (bias : Option Bias) (name : String) {evaluate : Evaluation Scene}
    (evaluated : ∀ scene, related scene (evaluate scene).2) (scene : Scene) :
    related scene (point.enforce bias name evaluate scene).2 := by
  have opened := closed.open_section scene name
  have inside := evaluated (scene.write name).indent
  unfold EnforcementPoint.enforce
  cases result : evaluate (scene.write name).indent with
  | mk outcome after =>
      rw [result] at inside
      have through := closed.trans opened inside
      cases outcome with
      | ok own =>
          have shut := closed.close_section after (own.withBias (point.biasFor bias))
          exact closed.trans through (closed.trans shut (closed.trans (logged _ _) (metered _ _)))
      | error error =>
          have shut := closed.unindent after
          exact closed.trans through (closed.trans shut (closed.trans (logged _ _) (metered _ _)))

end Scene.Closed

/-! ### Policies -/

/-- An enforcement that is allowed keeps the relation if its policy does. -/
structure Scene.ClosedUnder (allowed : EnforcementPoint → Policy → Prop)
    (related : Scene → Scene → Prop) : Prop extends Scene.Closed related where
  enforced : ∀ point bias policy, allowed point policy →
    (∀ scene, related scene (Policy.evaluate policy scene).2) →
    ∀ scene, related scene (EnforcementPoint.enforcePolicy point bias policy scene).2

section

variable {allowed : EnforcementPoint → Policy → Prop} {related : Scene → Scene → Prop}
  (closed : Scene.ClosedUnder allowed related)

include closed

mutual

theorem Procedure.run_related (body : Procedure) (only : body.EnforcesOnly allowed)
    (scene : Scene) : related scene (body.run scene).2 := by
  match body, only with
  | .done result, _ => exact closed.refl scene
  | .ask request next, .ask _ _ goes =>
      have asked := closed.answer request scene
      exact closed.trans asked (Procedure.run_related (next _) (goes _) _)
  | .evaluate policy next, .evaluate _ _ own goes =>
      have first := Policy.evaluate_related policy own scene
      exact closed.trans first (Procedure.run_related (next _) (goes _) _)
  | .enforce point bias policy next, .enforce _ _ _ _ isAllowed own goes =>
      have first := closed.enforced point bias policy isAllowed
        (fun scene => Policy.evaluate_related policy own scene) scene
      exact closed.trans first (Procedure.run_related (next _) (goes _) _)

theorem Policy.evaluate_related (policy : Policy) (only : policy.EnforcesOnly allowed)
    (scene : Scene) : related scene (policy.evaluate scene).2 := by
  match policy, only with
  | .rule name body, .rule _ _ own => exact Procedure.run_related body own scene
  | .combined algorithm members, .combined _ _ all =>
      exact closed.toClosed.combine algorithm _ (Policy.sections_related members all) scene

theorem Policy.sections_related (members : List Policy)
    (only : ∀ member ∈ members, member.EnforcesOnly allowed) :
    ∀ evaluate ∈ Policy.sections members, ∀ scene, related scene (evaluate scene).2 := by
  match members with
  | [] => exact fun _ within => nomatch within
  | policy :: rest =>
      intro evaluate within
      rcases List.mem_cons.mp within with same | later
      · rw [same]
        apply closed.toClosed.traced
        exact fun scene =>
          Policy.evaluate_related policy (only policy List.mem_cons_self) scene
      · have others (member : Policy) (inRest : member ∈ rest) : member.EnforcesOnly allowed :=
          only member (List.mem_cons_of_mem _ inRest)
        exact Policy.sections_related rest others evaluate later

end

end

end AccessPolicy
