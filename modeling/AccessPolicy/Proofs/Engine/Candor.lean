/-
Points and policies that catch nothing: a failed answer is their outcome at once. What a run is at and what
waits for it are then like this in every state, since each step takes them from a policy or a point of this
kind.
-/

import AccessPolicy.Proofs.Engine.Moves
import AccessPolicy.Proofs.Engine.Path
import AccessPolicy.Proofs.Policy.Effects

namespace AccessPolicy

/-! ### What catches nothing -/

/-- A failed answer is the outcome at once. -/
inductive Program.Candid : Program Value → Prop
  | done (result : Except Error Value) : Candid (.done result)
  | resolve (name : String) (next : Except Error Value → Program Value)
      (passes : ∀ error, next (.error error) = .done (.error error))
      (goes : ∀ value, Candid (next (.ok value))) : Candid (.ask (.resolve name) next)
  | aside (request : Request) (isAside : request.Aside) (next : request.Answer → Program Value)
      (goes : ∀ answer, Candid (next answer)) : Candid (.ask request next)

theorem Program.Candid.get {kind : Kind} (key : Key kind) {next : kind.Datum → Program Value}
    (goes : ∀ datum, (next datum).Candid) : ((Program.get key).bind next).Candid := by
  refine .resolve key.name _ (fun error => rfl) fun value => ?_
  change (Program.bind (.done (key.read (.ok value))) next).Candid
  cases key.read (.ok value) with
  | ok datum => exact goes datum
  | error error => exact .done _

mutual

/-- Nothing is caught and nothing enforced. -/
inductive Procedure.Candid : Procedure → Prop
  | done (result : Except Error Decision) : Procedure.Candid (.done result)
  | resolve (name : String) (next : Except Error Value → Procedure)
      (passes : ∀ error, next (.error error) = .done (.error error))
      (goes : ∀ value, Procedure.Candid (next (.ok value))) :
      Procedure.Candid (.ask (.resolve name) next)
  | aside (request : Request) (isAside : request.Aside) (next : request.Answer → Procedure)
      (goes : ∀ answer, Procedure.Candid (next answer)) : Procedure.Candid (.ask request next)
  | evaluate (policy : Policy) (next : Except Error Decision → Procedure)
      (own : Policy.Candid policy) (passes : ∀ error, next (.error error) = .done (.error error))
      (goes : ∀ decision, Procedure.Candid (next (.ok decision))) :
      Procedure.Candid (.evaluate policy next)

inductive Policy.Candid : Policy → Prop
  | rule (name : String) (body : Procedure) (own : Procedure.Candid body) :
      Policy.Candid (.rule name body)
  | combined (algorithm : Algorithm) (members : List Policy)
      (all : ∀ member ∈ members, Policy.Candid member) :
      Policy.Candid (.combined algorithm members)

end

theorem Procedure.Candid.afterGet {kind : Kind} (key : Key kind) {next : kind.Datum → Procedure}
    (goes : ∀ datum, (next datum).Candid) :
    (Procedure.afterValue (Program.get key) next).Candid := by
  refine .resolve key.name _ (fun error => rfl) fun value => ?_
  change (Procedure.afterValue (.done (key.read (.ok value))) next).Candid
  cases key.read (.ok value) with
  | ok datum => exact goes datum
  | error error => exact .done _

mutual

theorem Procedure.Candid.enforcesNothing {body : Procedure} (candid : body.Candid) :
    body.EnforcesOnly fun _ _ => False := by
  match candid with
  | .done result => exact .done result
  | .resolve name next passes goes =>
      apply Procedure.EnforcesOnly.ask
      intro answer
      match answer with
      | .ok value => exact (goes value).enforcesNothing
      | .error error =>
          rw [passes error]
          exact .done _
  | .aside request isAside next goes =>
      exact .ask request next fun answer => (goes answer).enforcesNothing
  | .evaluate policy next own passes goes =>
      apply Procedure.EnforcesOnly.evaluate
      · exact own.enforcesNothing
      · intro result
        match result with
        | .ok decision => exact (goes decision).enforcesNothing
        | .error error =>
            rw [passes error]
            exact .done _

theorem Policy.Candid.enforcesNothing {policy : Policy} (candid : policy.Candid) :
    policy.EnforcesOnly fun _ _ => False := by
  match candid with
  | .rule name body own => exact .rule name body own.enforcesNothing
  | .combined algorithm members all =>
      exact .combined algorithm members fun member within => (all member within).enforcesNothing

end

def Frame.Candid : Frame → Prop
  | .point _ next =>
    (∀ error, next (.error error) = .done (.error error)) ∧ ∀ value, (next (.ok value)).Candid
  | .rule next =>
    (∀ error, next (.error error) = .done (.error error)) ∧ ∀ value, (next (.ok value)).Candid
  | .policy next =>
    (∀ error, next (.error error) = .done (.error error)) ∧
      ∀ decision, (next (.ok decision)).Candid
  | .member => True
  | .members _ _ rest => ∀ member ∈ rest, member.Candid
  | .enforcement _ _ _ _ => False

def Focus.Candid : Focus → Prop
  | .provide _ program => program.Candid
  | .decide body => body.Candid
  | .evaluate policy => policy.Candid
  | .enforce _ _ _ => False
  | .combine _ _ members => ∀ member ∈ members, member.Candid
  | _ => True

/-- The context is a resolution context, and its points catch nothing. -/
def Scene.Candid (scene : Scene) : Prop :=
  ∃ context, scene.context = .resolution context ∧ ∀ point ∈ context.points, point.provide.Candid

theorem Scene.Candid.of_beside {before after : Scene} (candid : before.Candid)
    (beside : before.Beside after) : after.Candid := by
  obtain ⟨context, own, points⟩ := candid
  obtain ⟨report, same⟩ := beside context own
  exact ⟨_, same, points⟩

theorem Scene.Candid.step {machine next : Machine} (candid : machine.scene.Candid)
    (stepped : machine.step = some next) : next.scene.Candid := by
  obtain ⟨context, own, points⟩ := candid
  obtain ⟨after, same, move⟩ := Machine.step_moves stepped context own
  refine ⟨after, same, ?_⟩
  rw [move.points_eq]
  exact points

namespace Machine

structure Candid (machine : Machine) : Prop where
  focus : machine.focus.Candid
  frames : ∀ frame ∈ machine.frames, frame.Candid

namespace Candid

variable {focus next : Focus} {frames : List Frame} {scene last : Scene} {machine : Machine}

theorem of_focus (candid : Candid ⟨focus, frames, scene⟩) (focused : next.Candid) :
    Candid ⟨next, frames, last⟩ := ⟨focused, candid.frames⟩

theorem push (candid : Candid ⟨focus, frames, scene⟩) {frame : Frame} (framed : frame.Candid)
    (focused : next.Candid) : Candid ⟨next, frame :: frames, last⟩ := by
  refine ⟨focused, fun other within => ?_⟩
  rcases List.mem_cons.mp within with same | earlier
  · rw [same]
    exact framed
  · exact candid.frames other earlier

theorem top {frame : Frame} (candid : Candid ⟨focus, frame :: frames, scene⟩) : frame.Candid :=
  candid.frames frame List.mem_cons_self

theorem pop {frame : Frame} (candid : Candid ⟨focus, frame :: frames, scene⟩)
    (focused : next.Candid) : Candid ⟨next, frames, last⟩ :=
  ⟨focused, fun other within => candid.frames other (List.mem_cons_of_mem _ within)⟩

theorem decide {body : Procedure} (candid : Candid ⟨.decide body, frames, scene⟩) :
    Candid (Machine.decide frames scene body) := by
  have own : body.Candid := candid.focus
  cases own with
  | done result => exact candid.of_focus trivial
  | resolve name next passes goes =>
      have framed : (Frame.rule next).Candid := ⟨passes, goes⟩
      exact candid.push framed trivial
  | aside request isAside next goes =>
      have stepped : some (Machine.decide frames scene (.ask request next)) =
          some ⟨.decide (next (scene.answer request).1), frames, (scene.answer request).2⟩ :=
        step_decide_aside isAside next frames scene
      rw [Option.some.inj stepped]
      exact candid.of_focus (goes _)
  | evaluate policy next own passes goes =>
      have framed : (Frame.policy next).Candid := ⟨passes, goes⟩
      exact candid.push framed own

theorem combine {algorithm : Algorithm} {tally : Algorithm.Tally} {members : List Policy}
    (candid : Candid ⟨.combine algorithm tally members, frames, scene⟩) :
    Candid (Machine.combine algorithm tally frames scene members) := by
  have all : ∀ member ∈ members, member.Candid := candid.focus
  cases members with
  | nil => exact candid.of_focus trivial
  | cons member rest =>
      have framed : (Frame.members algorithm tally rest).Candid :=
        fun other within => all other (List.mem_cons_of_mem _ within)
      have inner : Candid ⟨.decision (.ok .permit), .members algorithm tally rest :: frames,
          scene⟩ := candid.push framed trivial
      exact inner.push trivial (all member List.mem_cons_self)

theorem proceed {algorithm : Algorithm} {tally : Algorithm.Tally} {rest : List Policy}
    {result : Except Error Decision}
    (candid : Candid ⟨.decision result, .members algorithm tally rest :: frames, scene⟩) :
    Candid (Machine.proceed algorithm tally rest frames scene result) := by
  cases result with
  | error error => exact candid.pop trivial
  | ok decision =>
      unfold Machine.proceed
      dsimp only
      split
      · exact candid.pop trivial
      · exact candid.pop candid.top

/-- What a frame that passes failures on makes of an answer. -/
theorem told {α β : Type} {next : Except Error α → β} {failed : Error → β} {good : β → Prop}
    (passes : (∀ error, next (.error error) = failed error) ∧ ∀ value, good (next (.ok value)))
    (fails : ∀ error, good (failed error)) (answer : Except Error α) : good (next answer) := by
  cases answer with
  | ok value => exact passes.2 value
  | error error =>
      rw [passes.1]
      exact fails error

theorem step_policy (decides : focus.decides = true)
    (candid : Candid ⟨focus, frames, scene⟩)
    (stepped : step ⟨focus, frames, scene⟩ = some machine) : machine.Candid := by
  cases focus with
  | request name => cases decides
  | lookUp name => cases decides
  | provide name program => cases decides
  | leave name answer => cases decides
  | answer answer => cases decides
  | decide body =>
      rw [← Option.some.inj stepped]
      exact candid.decide
  | evaluate policy =>
      have own : policy.Candid := candid.focus
      cases own with
      | rule name body own =>
          rw [← Option.some.inj stepped]
          exact candid.of_focus own
      | combined algorithm members all =>
          rw [← Option.some.inj stepped]
          exact candid.of_focus all
  | enforce point bias policy => exact candid.focus.elim
  | combine algorithm tally members =>
      rw [← Option.some.inj stepped]
      exact candid.combine
  | decision result =>
      rcases step_decision_inv stepped with ⟨resume, rest, rfl, rfl⟩ | ⟨rest, rfl, rfl⟩ |
        ⟨algorithm, tally, others, rest, rfl, rfl⟩ | ⟨point, bias, name, before, rest, rfl, rfl⟩
      · exact candid.pop (told candid.top (fun error => .done _) result)
      · exact candid.pop trivial
      · exact candid.proceed
      · exact candid.top.elim

theorem step (candid : machine.Candid) (points : machine.scene.Candid) {after : Machine}
    (stepped : machine.step = some after) : after.Candid := by
  obtain ⟨context, own, provided⟩ := points
  obtain ⟨now, same, move⟩ := step_moves stepped context own
  obtain ⟨focus, frames, scene⟩ := machine
  obtain ⟨next, rest, last⟩ := after
  dsimp only at move
  cases move with
  | hit cached report => exact candid.of_focus trivial
  | cyclic uncached member => exact candid.of_focus trivial
  | enter uncached fresh => exact candid.of_focus trivial
  | missing absent report => exact candid.of_focus trivial
  | start found => exact candid.of_focus (provided _ (registered?_mem found))
  | keep report => exact candid.of_focus trivial
  | fail => exact candid.of_focus trivial
  | @ask name key next frames context =>
      have program : (Program.ask (.resolve key) next).Candid := candid.focus
      cases program with
      | resolve key next passes goes =>
          have framed : (Frame.point name next).Candid := ⟨passes, goes⟩
          exact candid.push framed trivial
      | aside request isAside next goes => exact absurd rfl (isAside key)
  | @aside name request isAside next answer frames context report =>
      have program : (Program.ask request next).Candid := candid.focus
      cases program with
      | resolve key next passes goes => exact absurd rfl (isAside key)
      | aside request isAside next goes => exact candid.of_focus (goes answer)
  | leave => exact candid.of_focus trivial
  | @resume answer name next frames context =>
      exact candid.pop (told candid.top (fun error => .done _) answer)
  | @consult key next frames context =>
      have body : (Procedure.ask (.resolve key) next).Candid := candid.focus
      cases body with
      | resolve key next passes goes =>
          have framed : (Frame.rule next).Candid := ⟨passes, goes⟩
          exact candid.push framed trivial
      | aside request isAside next goes => exact absurd rfl (isAside key)
  | @told answer next frames context =>
      exact candid.pop (told candid.top (fun error => .done _) answer)
  | policy before after keys report => exact candid.step_policy before stepped

end Candid

end Machine

end AccessPolicy
