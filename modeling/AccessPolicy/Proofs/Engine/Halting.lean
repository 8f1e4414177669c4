/-
Every run comes to its end, at the answer or decision that the functions of resolution, evaluation and
enforcement give. For a key the steps are counted off by the registered keys that are not in flight, and
within a point by what is left of its program; a policy is a finite tree. What waits for a part of a run
is as it was when that part has ended.
-/

import AccessPolicy.Proofs.Engine.Machine

namespace AccessPolicy

namespace Machine

theorem after_succ {machine next : Machine} (stepped : machine.step = some next) (n : Nat) :
    machine.after (n + 1) = next.after n := by
  rw [after, stepped]

theorem after_of_halted {machine : Machine} (halted : machine.step = none) (n : Nat) :
    machine.after n = machine := by
  cases n with
  | zero => rfl
  | succ n => rw [after, halted]

theorem after_add (machine : Machine) (first second : Nat) :
    machine.after (first + second) = (machine.after first).after second := by
  induction first generalizing machine with
  | zero => rw [Nat.zero_add]; rfl
  | succ n ih =>
      rw [Nat.add_right_comm]
      cases stepped : machine.step with
      | some next =>
          rw [after_succ stepped, after_succ stepped]
          exact ih next
      | none => rw [after_of_halted stepped, after_of_halted stepped, after_of_halted stepped]

def Leads (first second : Machine) : Prop := ∃ n, first.after n = second

namespace Leads

theorem refl (machine : Machine) : machine.Leads machine := ⟨0, rfl⟩

theorem trans {first second third : Machine} (left : first.Leads second)
    (right : second.Leads third) : first.Leads third := by
  obtain ⟨n, early⟩ := left
  obtain ⟨m, late⟩ := right
  exact ⟨n + m, by rw [after_add, early, late]⟩

theorem step {first second third : Machine} (next : first.step = some second)
    (rest : second.Leads third) : first.Leads third := by
  obtain ⟨n, late⟩ := rest
  exact ⟨n + 1, by rw [after_succ next, late]⟩

end Leads

end Machine

/-! ### Requests for keys -/

def Store.scene (store : Store) (points : List InformationPoint) (inFlight : List String)
    (meters : List Meter) : Scene :=
  { journal := store.journal, meters
    context := .resolution { points, inFlight, memory := store.memory } }

section

variable {points : List InformationPoint} {inFlight : List String} {meters : List Meter}

theorem Store.settle_fst (name : String) (result : Except Error Value × Store) :
    (Store.settle name result).1 = result.1 := by
  obtain ⟨outcome, store⟩ := result
  cases outcome <;> rfl

theorem Store.scene_answer (store : Store) (request : Request) :
    (store.scene points inFlight meters).answer request =
      ((Store.answer (resolve points inFlight) request store).1,
        (Store.answer (resolve points inFlight) request store).2.scene points inFlight meters) := by
  cases request <;> rfl

theorem Store.scene_pop (store : Store) (name : String) :
    (store.scene points (inFlight ++ [name]) meters).pop = store.scene points inFlight meters := by
  unfold Scene.pop Store.scene
  simp

namespace Machine

theorem step_provide_aside {name : String} {request : Request} (aside : request.Aside)
    (next : request.Answer → Program Value) (frames : List Frame) (scene : Scene) :
    step ⟨.provide name (.ask request next), frames, scene⟩ =
      some ⟨.provide name (next (scene.answer request).1), frames,
        (scene.answer request).2⟩ := by
  cases request with
  | resolve key => exact absurd rfl (aside key)
  | report message => rfl
  | indent => rfl
  | unindent => rfl
  | stats => rfl
  | trace => rfl
  | count counter => rfl

theorem step_decide_aside {request : Request} (aside : request.Aside)
    (next : request.Answer → Procedure) (frames : List Frame) (scene : Scene) :
    step ⟨.decide (.ask request next), frames, scene⟩ =
      some ⟨.decide (next (scene.answer request).1), frames, (scene.answer request).2⟩ := by
  cases request with
  | resolve key => exact absurd rfl (aside key)
  | report message => rfl
  | indent => rfl
  | unindent => rfl
  | stats => rfl
  | trace => rfl
  | count counter => rfl

theorem provide_leads {name : String}
    (requests : ∀ key store frames,
      Leads ⟨.request key, frames, store.scene points inFlight meters⟩
        ⟨.answer (resolve points inFlight key store).1, frames,
          (resolve points inFlight key store).2.scene points inFlight meters⟩)
    (program : Program Value) (store : Store) (frames : List Frame) :
    Leads ⟨.provide name program, frames, store.scene points inFlight meters⟩
      ⟨.leave name (program.run (Store.answer (resolve points inFlight)) store).1, frames,
        (Store.settle name (program.run (Store.answer (resolve points inFlight)) store)).2.scene
          points inFlight meters⟩ := by
  induction program generalizing store with
  | done result =>
      cases result with
      | ok value => exact .step rfl (.refl _)
      | error error => exact .step rfl (.refl _)
  | ask request next ih =>
      rcases request.resolve_or_aside with ⟨key, same⟩ | aside
      · subst same
        have asking : step ⟨.provide name (.ask (.resolve key) next), frames,
            store.scene points inFlight meters⟩ =
          some ⟨.request key, .point name next :: frames,
            store.scene points inFlight meters⟩ := rfl
        have answered := requests key store (.point name next :: frames)
        exact .step asking (answered.trans (.step rfl
          (ih (resolve points inFlight key store).1 (resolve points inFlight key store).2)))
      · refine .step (step_provide_aside aside next frames _) ?_
        rw [Store.scene_answer]
        exact ih _ _

theorem step_request_of_registered {name : String} {store : Store}
    (uncached : store.find? name = none) (fresh : name ∉ inFlight) (frames : List Frame) :
    step ⟨.request name, frames, store.scene points inFlight meters⟩ =
      some ⟨.lookUp name, frames,
        (store.log (.resolving name (inFlight.length + 1))).scene points (inFlight ++ [name])
          meters⟩ := by
  have absent : store.memory.cache.find? name = none := uncached
  simp only [step, request, Store.scene, absent, if_neg fresh]
  rfl

/-- A request comes to its answer; what waits for it and the keys in flight are as before. -/
theorem request_leads (name : String) (store : Store) (frames : List Frame) :
    Leads ⟨.request name, frames, store.scene points inFlight meters⟩
      ⟨.answer (resolve points inFlight name store).1, frames,
        (resolve points inFlight name store).2.scene points inFlight meters⟩ := by
  revert frames
  refine resolve_induction
    (motive := fun inFlight name store result => ∀ frames,
      Leads ⟨.request name, frames, store.scene points inFlight meters⟩
        ⟨.answer result.1, frames, result.2.scene points inFlight meters⟩)
    ?_ ?_ ?_ ?_ inFlight name store
  · intro inFlight name store value held frames
    have found : store.memory.cache.find? name = some value := held
    refine .step ?_ (.refl _)
    simp only [step, request, Store.scene, found]
    rfl
  · intro inFlight name store uncached member frames
    have absent : store.memory.cache.find? name = none := uncached
    refine .step ?_ (.refl _)
    simp only [step, request, Store.scene, absent, if_pos member]
  · intro inFlight name store uncached fresh missing frames
    refine .step (step_request_of_registered uncached fresh frames) ?_
    have looked : step ⟨.lookUp name, frames,
        (store.log (.resolving name (inFlight.length + 1))).scene points (inFlight ++ [name])
          meters⟩ =
        some ⟨.leave name (.error (.missingInformationPoint name)), frames,
          ((store.log (.resolving name (inFlight.length + 1))).notFound name).scene points
            (inFlight ++ [name]) meters⟩ := by
      simp only [step, lookUp, Store.scene, missing]
      rfl
    refine .step looked (.step rfl ?_)
    rw [Store.scene_pop]
    exact .refl _
  · intro inFlight name store point uncached fresh found ih frames
    refine .step (step_request_of_registered uncached fresh frames) ?_
    have looked : step ⟨.lookUp name, frames,
        (store.log (.resolving name (inFlight.length + 1))).scene points (inFlight ++ [name])
          meters⟩ =
        some ⟨.provide name point.provide, frames,
          (store.log (.resolving name (inFlight.length + 1))).scene points
            (inFlight ++ [name]) meters⟩ := by
      simp only [step, lookUp, Store.scene, found]
    -- Leaving the request takes the key out again, whatever has come of the point.
    refine .step looked ((provide_leads ih point.provide _ frames).trans (.step rfl ?_))
    rw [Store.scene_pop, Store.settle_fst]
    exact .refl _

end Machine

end

/-! ### Policies -/

namespace Machine

theorem request_leads_scene (name : String) (scene : Scene) (frames : List Frame) :
    Leads ⟨.request name, frames, scene⟩
      ⟨.answer (scene.answer (.resolve name)).1, frames, (scene.answer (.resolve name)).2⟩ := by
  obtain ⟨⟨journal, meters⟩, context⟩ := scene
  cases context with
  | foreign trace => exact .step rfl (.refl _)
  | resolution context => exact request_leads name (context.store journal) frames

def Evaluates (policy : Policy) : Prop :=
  ∀ frames scene, Leads ⟨.evaluate policy, frames, scene⟩
    ⟨.decision (policy.evaluate scene).1, frames, (policy.evaluate scene).2⟩

theorem Evaluates.enforce {policy : Policy} (evaluates : Evaluates policy)
    (point : EnforcementPoint) (bias : Option Bias) (frames : List Frame) (scene : Scene) :
    Leads ⟨.enforce point bias policy, frames, scene⟩
      ⟨.decision (point.evaluateInContext bias policy scene).1, frames,
        (point.evaluateInContext bias policy scene).2⟩ := by
  have evaluated := evaluates
    (.enforcement point (point.biasFor bias) policy.name scene.stats :: frames)
    (scene.write policy.name).indent
  refine .step rfl (evaluated.trans (.step rfl ?_))
  unfold EnforcementPoint.evaluateInContext EnforcementPoint.enforcePolicy EnforcementPoint.enforce
  cases policy.evaluate (scene.write policy.name).indent with
  | mk result after =>
      cases result with
      | ok own => exact .refl _
      | error error => exact .refl _

theorem Evaluates.traced {policy : Policy} (evaluates : Evaluates policy) (frames : List Frame)
    (scene : Scene) :
    Leads ⟨.evaluate policy, .member :: frames, (scene.write policy.name).indent⟩
      ⟨.decision (AccessPolicy.traced policy.name policy.evaluate scene).1, frames,
        (AccessPolicy.traced policy.name policy.evaluate scene).2⟩ := by
  refine (evaluates (.member :: frames) (scene.write policy.name).indent).trans (.step rfl ?_)
  unfold AccessPolicy.traced
  cases policy.evaluate (scene.write policy.name).indent with
  | mk result after =>
      cases result with
      | ok decision => exact .refl _
      | error error => exact .refl _

theorem tallyAll_leads {algorithm : Algorithm}
    (runsAll : ∀ decision, algorithm.stopsAt decision = false) (members : List Policy)
    (evaluate : ∀ member ∈ members, Evaluates member) (tally : Algorithm.Tally)
    (frames : List Frame) (scene : Scene) :
    Leads ⟨.combine algorithm tally members, frames, scene⟩
      ⟨.decision ((Algorithm.tallyAll (Policy.sections members) tally scene).1.map
          algorithm.conclude), frames,
        (Algorithm.tallyAll (Policy.sections members) tally scene).2⟩ := by
  induction members generalizing tally scene with
  | nil => exact .step rfl (.refl _)
  | cons member rest ih =>
      have first := (evaluate member List.mem_cons_self).traced
        (.members algorithm tally rest :: frames) scene
      refine .step rfl (first.trans (.step rfl ?_))
      unfold Policy.sections Algorithm.tallyAll
      cases AccessPolicy.traced member.name member.evaluate scene with
      | mk result after =>
          cases result with
          | ok decision =>
              simp only [proceed, runsAll decision]
              exact ih (fun other within => evaluate other (List.mem_cons_of_mem _ within)) _ after
          | error error => exact .refl _

theorem firstOpinion_leads (members : List Policy)
    (evaluate : ∀ member ∈ members, Evaluates member) (tally : Algorithm.Tally)
    (frames : List Frame) (scene : Scene) :
    Leads ⟨.combine .firstApplicable tally members, frames, scene⟩
      ⟨.decision (Algorithm.firstOpinion (Algorithm.notApplicable .firstApplicable)
          (Policy.sections members) scene).1, frames,
        (Algorithm.firstOpinion (Algorithm.notApplicable .firstApplicable)
          (Policy.sections members) scene).2⟩ := by
  induction members generalizing tally scene with
  | nil => exact .step rfl (.refl _)
  | cons member rest ih =>
      have first := (evaluate member List.mem_cons_self).traced
        (.members .firstApplicable tally rest :: frames) scene
      refine .step rfl (first.trans (.step rfl ?_))
      unfold Policy.sections Algorithm.firstOpinion
      cases AccessPolicy.traced member.name member.evaluate scene with
      | mk result after =>
          cases result with
          | error error => exact .refl _
          | ok decision =>
              cases decision with
              | permit => exact .refl _
              | deny message code => exact .refl _
              | notApplicable message =>
                  exact ih (fun other within => evaluate other (List.mem_cons_of_mem _ within))
                    _ after

theorem combined_leads (algorithm : Algorithm) (members : List Policy)
    (evaluate : ∀ member ∈ members, Evaluates member) :
    Evaluates (.combined algorithm members) := by
  intro frames scene
  refine .step rfl ?_
  unfold Policy.evaluate
  cases algorithm with
  | permitOverride => exact tallyAll_leads (fun _ => rfl) members evaluate {} frames scene
  | denyOverride => exact tallyAll_leads (fun _ => rfl) members evaluate {} frames scene
  | firstApplicable => exact firstOpinion_leads members evaluate {} frames scene

def Decides (body : Procedure) : Prop :=
  ∀ frames scene, Leads ⟨.decide body, frames, scene⟩
    ⟨.decision (body.run scene).1, frames, (body.run scene).2⟩

namespace Decides

theorem ask {request : Request} {next : request.Answer → Procedure}
    (rest : ∀ answer, Decides (next answer)) : Decides (.ask request next) := by
  intro frames scene
  rcases request.resolve_or_aside with ⟨key, same⟩ | aside
  · subst same
    have answered := request_leads_scene key scene (.rule next :: frames)
    exact .step rfl (answered.trans (.step rfl (rest _ frames _)))
  · exact .step (step_decide_aside aside next frames scene) (rest _ frames _)

theorem evaluate {policy : Policy} {next : Except Error Decision → Procedure}
    (first : Evaluates policy) (rest : ∀ result, Decides (next result)) :
    Decides (.evaluate policy next) := by
  intro frames scene
  exact .step rfl ((first (.policy next :: frames) scene).trans (.step rfl (rest _ frames _)))

theorem enforce {policy : Policy} {next : Except Error Decision → Procedure}
    (first : Evaluates policy) (point : EnforcementPoint) (bias : Option Bias)
    (rest : ∀ result, Decides (next result)) :
    Decides (.enforce point bias policy next) := by
  intro frames scene
  have enforced := first.enforce point bias (.policy next :: frames) scene
  exact .step rfl (enforced.trans (.step rfl (rest _ frames _)))

end Decides

mutual

theorem decide_leads (body : Procedure) : Decides body := by
  match body with
  | .done result => exact fun frames scene => .step rfl (.refl _)
  | .ask request next => exact .ask fun answer => decide_leads (next answer)
  | .evaluate policy next =>
      exact .evaluate (evaluate_leads policy) fun result => decide_leads (next result)
  | .enforce point bias policy next =>
      exact .enforce (evaluate_leads policy) point bias fun result => decide_leads (next result)

theorem evaluate_leads (policy : Policy) : Evaluates policy := by
  match policy with
  | .rule name body =>
      exact fun frames scene => .step rfl (decide_leads body frames scene)
  | .combined algorithm members =>
      exact combined_leads algorithm members (members_evaluate members)

theorem members_evaluate (members : List Policy) : ∀ member ∈ members, Evaluates member := by
  match members with
  | [] => exact fun _ within => nomatch within
  | policy :: rest =>
      intro member within
      rcases List.mem_cons.mp within with same | later
      · rw [same]
        exact evaluate_leads policy
      · exact members_evaluate rest member later

end

end Machine

end AccessPolicy
