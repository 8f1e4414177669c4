/-
Where decisions come from. A combination only ever passes on what one of its visited members has come to, or
has no opinion; so whatever a tree of combined policies decides, one of its leaves has decided, and the bias
of an enforcement speaks only where no leaf has.
-/

import AccessPolicy.Proofs.Engine.Tree

namespace AccessPolicy

/-! ### Leaves -/

/-- The leaves of a policy that is evaluated: itself, or those evaluated among its members. -/
def Visit.leavesAmong (visit : Visit) (members : List Visit) : List Visit :=
  match visit.policy with
  | .rule _ _ => [visit]
  | .combined _ _ => members

mutual

/-- The leaves of a member that have been evaluated. What rules evaluate or enforce on their own is no
leaf of the tree. -/
def Node.leaves : Node → List Visit
  | .member visit inside => visit.leavesAmong (Node.allLeaves inside)
  | .request _ => []
  | .evaluation _ _ => []
  | .enforcement _ _ => []

def Node.allLeaves : List Node → List Visit
  | [] => []
  | node :: rest => node.leaves ++ Node.allLeaves rest

end

/-- The leaves that an evaluation of a policy comes to evaluate, in order. -/
def Policy.leaves (policy : Policy) (scene : Scene) : List Visit :=
  Visit.leavesAmong ⟨policy, scene⟩ (Node.allLeaves (policy.nodes scene))

/-- One of the leaves has come to this, or there is no opinion. -/
def Sourced (leaves : List Visit) (result : Except Error Decision) : Prop :=
  (∃ message, result = .ok (.notApplicable message)) ∨ ∃ leaf ∈ leaves, leaf.result = result

theorem Sourced.widen {few many : List Visit} {result : Except Error Decision}
    (sourced : Sourced few result) (among : ∀ leaf ∈ few, leaf ∈ many) : Sourced many result := by
  rcases sourced with silent | ⟨leaf, member, same⟩
  · exact .inl silent
  · exact .inr ⟨leaf, among leaf member, same⟩

theorem Sourced.leaf_of_opinion {leaves : List Visit} {result : Except Error Decision}
    {decision : Decision} (sourced : Sourced leaves result) (came : result = .ok decision)
    (opinion : ∀ message, decision ≠ .notApplicable message) :
    ∃ leaf ∈ leaves, leaf.result = .ok decision := by
  rw [← came]
  rcases sourced with ⟨message, silent⟩ | found
  · exact absurd (Except.ok.inj (came.symm.trans silent)) (opinion message)
  · exact found

/-! ### Combinations -/

namespace Algorithm

variable {σ : Type}

/-- The visits up to the one that ends the combination. -/
def reached (algorithm : Algorithm) (visits : List (Except Error Decision × σ)) :
    List (Except Error Decision × σ) :=
  visits.take (visits.findIdx (fun visit => algorithm.endedBy visit.1) + 1)

theorem reached_cons_of_ended {algorithm : Algorithm} {visit : Except Error Decision × σ}
    (ended : algorithm.endedBy visit.1 = true) (visits : List (Except Error Decision × σ)) :
    algorithm.reached (visit :: visits) = [visit] := by
  unfold reached
  rw [List.findIdx_cons, ended]
  rfl

theorem reached_cons_of_goes_on {algorithm : Algorithm} {visit : Except Error Decision × σ}
    (goesOn : algorithm.endedBy visit.1 = false) (visits : List (Except Error Decision × σ)) :
    algorithm.reached (visit :: visits) = visit :: algorithm.reached visits := by
  unfold reached
  rw [List.findIdx_cons, goesOn]
  rfl

theorem verdict_mem_or_silent (algorithm : Algorithm) (decisions : List Decision) :
    algorithm.verdict decisions ∈ decisions ∨
      algorithm.verdict decisions = notApplicable algorithm := by
  cases algorithm with
  | firstApplicable => exact .inr rfl
  | permitOverride =>
      simp only [verdict]
      split
      · rename_i permits
        exact .inl permits
      · cases first : decisions.find? Decision.isDeny with
        | some deny => exact .inl (List.mem_of_find?_eq_some first)
        | none => exact .inr rfl
  | denyOverride =>
      simp only [verdict]
      cases first : decisions.find? Decision.isDeny with
      | some deny => exact .inl (List.mem_of_find?_eq_some first)
      | none =>
          rw [Option.getD_none]
          split
          · rename_i permits
            exact .inl permits
          · exact .inr rfl

/-- A combination comes to what ends it, or settles what the reached members have decided. -/
theorem tableBy_reached (algorithm : Algorithm) (settle : List Decision → Decision)
    (visits : List (Except Error Decision × σ)) (start : σ) :
    (∃ visit ∈ algorithm.reached visits, visit.1 = (algorithm.tableBy settle visits start).1) ∨
      ∃ decisions, (algorithm.tableBy settle visits start).1 = .ok (settle decisions) ∧
        ∀ decision ∈ decisions, ∃ visit ∈ algorithm.reached visits, visit.1 = .ok decision := by
  -- What has been decided before is in the way to settle, so the induction is over all of these.
  induction visits generalizing settle start with
  | nil => exact .inr ⟨[], rfl, fun _ within => nomatch within⟩
  | cons visit visits ih =>
      by_cases ended : algorithm.endedBy visit.1 = true
      · rw [tableBy_of_ended settle visits start ended, reached_cons_of_ended ended]
        exact .inl ⟨visit, List.mem_singleton_self visit, rfl⟩
      · have goesOn : algorithm.endedBy visit.1 = false := Bool.eq_false_iff.mpr ended
        obtain ⟨outcome, next⟩ := visit
        cases outcome with
        | error error => exact absurd (algorithm.endedBy_error error) ended
        | ok decision =>
            rw [tableBy_of_goes_on settle visits start goesOn next, reached_cons_of_goes_on goesOn]
            rcases ih (fun decisions => settle (decision :: decisions)) next with
              ⟨visit, member, same⟩ | ⟨decisions, settled, reached⟩
            · exact .inl ⟨visit, List.mem_cons_of_mem _ member, same⟩
            · refine .inr ⟨decision :: decisions, settled, fun other within => ?_⟩
              rcases List.mem_cons.mp within with same | later
              · exact ⟨_, List.mem_cons_self, congrArg Except.ok same.symm⟩
              · obtain ⟨visit, member, told⟩ := reached other later
                exact ⟨visit, List.mem_cons_of_mem _ member, told⟩

theorem table_reached_or_silent (algorithm : Algorithm)
    (visits : List (Except Error Decision × σ)) (start : σ) :
    (∃ visit ∈ algorithm.reached visits, visit.1 = (algorithm.table visits start).1) ∨
      (algorithm.table visits start).1 = .ok (notApplicable algorithm) := by
  rcases algorithm.tableBy_reached algorithm.verdict visits start with
    ended | ⟨decisions, settled, reached⟩
  · exact .inl ended
  · unfold table
    rw [settled]
    rcases algorithm.verdict_mem_or_silent decisions with among | silent
    · exact .inl (reached _ among)
    · exact .inr (congrArg Except.ok silent)

end Algorithm

/-! ### Policies -/

theorem Policy.reached_sourced (algorithm : Algorithm) (members : List Policy)
    (sourced : ∀ member ∈ members, ∀ scene,
      Sourced (member.leaves scene) (member.evaluate scene).1) (scene : Scene) :
    ∀ visit ∈ algorithm.reached (Evaluation.visits (Policy.sections members) scene),
      Sourced (Node.allLeaves (Policy.memberNodes algorithm members scene)) visit.1 := by
  induction members generalizing scene with
  | nil => exact fun _ within => nomatch within
  | cons member rest ih =>
      have others (other : Policy) (within : other ∈ rest) :=
        sourced other (List.mem_cons_of_mem _ within)
      have own : Sourced (member.leaves (member.inSection scene).scene)
          (traced member.name member.evaluate scene).1 := by
        rw [traced_fst]
        exact sourced member List.mem_cons_self _
      have among (leaf : Visit) (within : leaf ∈ member.leaves (member.inSection scene).scene) :
          leaf ∈ Node.allLeaves (Policy.memberNodes algorithm (member :: rest) scene) :=
        List.mem_append_left _ within
      unfold Policy.sections Evaluation.visits
      intro visit within
      by_cases ended : algorithm.endedBy (traced member.name member.evaluate scene).1 = true
      · rw [Algorithm.reached_cons_of_ended ended] at within
        rw [List.mem_singleton.mp within]
        exact own.widen among
      · have goesOn := Bool.eq_false_iff.mpr ended
        rw [Algorithm.reached_cons_of_goes_on goesOn] at within
        rcases List.mem_cons.mp within with same | later
        · rw [same]
          exact own.widen among
        · refine (ih others _ visit later).widen fun leaf inRest => ?_
          rw [Policy.memberNodes_of_goes_on rest goesOn]
          exact List.mem_append_right _ inRest

mutual

/-- Where a policy has an opinion or fails, one of its leaves has come to just that. -/
theorem Policy.evaluate_sourced (policy : Policy) (scene : Scene) :
    Sourced (policy.leaves scene) (policy.evaluate scene).1 := by
  match policy with
  | .rule name body => exact .inr ⟨⟨.rule name body, scene⟩, List.mem_singleton_self _, rfl⟩
  | .combined algorithm members =>
      have reached := Policy.reached_sourced algorithm members (Policy.members_sourced members) scene
      change Sourced _ (algorithm.combine (Policy.sections members) scene).1
      rw [Algorithm.combine_eq_table]
      rcases algorithm.table_reached_or_silent
        (Evaluation.visits (Policy.sections members) scene) scene with ⟨visit, member, same⟩ | silent
      · rw [← same]
        exact reached visit member
      · exact .inl ⟨_, silent⟩

theorem Policy.members_sourced (members : List Policy) : ∀ member ∈ members, ∀ scene,
    Sourced (member.leaves scene) (member.evaluate scene).1 := by
  match members with
  | [] => exact fun _ within => nomatch within
  | policy :: rest =>
      intro member within
      rcases List.mem_cons.mp within with same | later
      · rw [same]
        exact Policy.evaluate_sourced policy
      · exact Policy.members_sourced rest member later

end

/-! ### Enforcements -/

theorem Decision.withBias_eq_permit {bias : Bias} {own : Decision}
    (permits : own.withBias bias = .permit) :
    own = .permit ∨ (∃ message, own = .notApplicable message) ∧ bias = .permit := by
  cases own with
  | permit => exact .inl rfl
  | deny message code => cases permits
  | notApplicable message =>
      cases bias with
      | permit => exact .inr ⟨⟨message, rfl⟩, rfl⟩
      | deny => cases permits

theorem Decision.withBias_eq_deny {bias : Bias} {own : Decision} {message code : String}
    (denies : own.withBias bias = .deny message code) :
    own = .deny message code ∨ (∃ text, own = .notApplicable text) ∧ bias = .deny ∧
      message = noApplicablePolicyMessage ∧ code = noApplicablePolicyCode := by
  cases own with
  | permit => cases denies
  | deny ownMessage ownCode => exact .inl denies
  | notApplicable text =>
      cases bias with
      | permit => cases denies
      | deny =>
          cases denies
          exact .inr ⟨⟨text, rfl⟩, rfl, rfl, rfl⟩

theorem EnforcementPoint.evaluateInContext_fst (point : EnforcementPoint) (bias : Option Bias)
    (policy : Policy) (scene : Scene) :
    (point.evaluateInContext bias policy scene).1 =
      (policy.evaluate (scene.write policy.name).indent).1.map
        (Decision.withBias (point.biasFor bias)) := by
  let call : Call := ⟨point, bias, policy, scene⟩
  change call.outcome.map Outcome.decision = call.visit.result.map _
  rw [call.outcome_eq]
  cases call.visit.result <;> rfl

theorem EnforcementPoint.own_of_decided {point : EnforcementPoint} {bias : Option Bias}
    {policy : Policy} {scene : Scene} {decision : Decision}
    (decided : (point.evaluateInContext bias policy scene).1 = .ok decision) :
    ∃ own, (policy.evaluate (scene.write policy.name).indent).1 = .ok own ∧
      own.withBias (point.biasFor bias) = decision := by
  rw [point.evaluateInContext_fst] at decided
  cases came : (policy.evaluate (scene.write policy.name).indent).1 with
  | error error =>
      rw [came] at decided
      cases decided
  | ok own =>
      rw [came] at decided
      exact ⟨own, rfl, Except.ok.inj decided⟩

/-- An enforcement permits or denies what one of the evaluated leaves has permitted or denied in just this
way; only where no leaf has an opinion, the bias decides. -/
theorem EnforcementPoint.decision_sourced (point : EnforcementPoint) (bias : Option Bias)
    (policy : Policy) (scene : Scene) :
    let opened := (scene.write policy.name).indent
    let leaves := policy.leaves opened
    let own := (policy.evaluate opened).1
    let decided := (point.evaluateInContext bias policy scene).1
    (decided = .ok .permit →
      (∃ leaf ∈ leaves, leaf.result = .ok .permit) ∨
        (∃ text, own = .ok (.notApplicable text)) ∧ point.biasFor bias = .permit) ∧
    (∀ message code, decided = .ok (.deny message code) →
      (∃ leaf ∈ leaves, leaf.result = .ok (.deny message code)) ∨
        (∃ text, own = .ok (.notApplicable text)) ∧ point.biasFor bias = .deny ∧
          message = Decision.noApplicablePolicyMessage ∧ code = Decision.noApplicablePolicyCode) ∧
    ((∀ leaf ∈ leaves, ∃ text, leaf.result = .ok (.notApplicable text)) →
      ∃ text, own = .ok (.notApplicable text)) := by
  intro opened leaves own decided
  have sourced : Sourced leaves own := policy.evaluate_sourced opened
  refine ⟨fun permits => ?_, fun message code denies => ?_, fun silent => ?_⟩
  · obtain ⟨told, came, biased⟩ := own_of_decided permits
    rcases Decision.withBias_eq_permit biased with same | ⟨⟨text, same⟩, bias⟩
    · rw [same] at came
      exact .inl (sourced.leaf_of_opinion came fun text silent => nomatch silent)
    · rw [same] at came
      exact .inr ⟨⟨text, came⟩, bias⟩
  · obtain ⟨told, came, biased⟩ := own_of_decided denies
    rcases Decision.withBias_eq_deny biased with same | ⟨⟨text, same⟩, canonical⟩
    · rw [same] at came
      exact .inl (sourced.leaf_of_opinion came fun text silent => nomatch silent)
    · rw [same] at came
      exact .inr ⟨⟨text, came⟩, canonical⟩
  · rcases sourced with ⟨text, same⟩ | ⟨leaf, member, same⟩
    · exact ⟨text, same⟩
    · rw [← same]
      exact silent leaf member

/-- A leaf behind the one that decides is not evaluated, so it is no source. -/
example (scene : Scene) :
    let permitting : Policy := .rule "permitting" (.done (.ok .permit))
    let denying : Policy := .rule "denying" (.done (.ok (.deny "no" "NO")))
    let both : Policy := .combined .firstApplicable [.combined .denyOverride [], permitting, denying]
    (both.leaves scene).map (fun leaf => leaf.policy.name) = ["permitting"] := by
  rfl

end AccessPolicy
