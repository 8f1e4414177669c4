/-
Runs that do not read the trace. Two scenes are alike if they differ at most in the report of their context.
Nothing but a request for the trace tells them apart, so a run that makes none goes through the same states on
both: a step leads from states that are alike to states that are alike, whether it is a policy's or that of a
point which runs for it.
-/

import AccessPolicy.Proofs.Engine.Moves
import AccessPolicy.Proofs.Policy.Printing

namespace AccessPolicy

/-! ### Scenes -/

namespace Scene

/-- Nothing but the trace differs. -/
inductive Alike : Scene → Scene → Prop
  | resolution (host : Host) (context : Context) (report : Report) :
      Alike (host.scene (.resolution context))
        (host.scene (.resolution (context.reported report)))
  | foreign (host : Host) (first second : String) :
      Alike (host.scene (.foreign first)) (host.scene (.foreign second))

namespace Alike

variable {first second third : Scene}

theorem refl (scene : Scene) : scene.Alike scene := by
  obtain ⟨host, context⟩ := scene
  cases context with
  | resolution context => exact .resolution host context context.memory.report
  | foreign trace => exact .foreign host trace trace

theorem trans (left : first.Alike second) (right : second.Alike third) : first.Alike third := by
  cases left with
  | resolution host context report =>
      cases right with
      | resolution _ _ later => exact .resolution host context later
  | foreign host trace other =>
      cases right with
      | foreign _ _ later => exact .foreign host trace later

theorem stats (alike : first.Alike second) : second.stats = first.stats := by
  cases alike <;> rfl

theorem answer (alike : first.Alike second) {request : Request} (aside : request.Aside)
    (unread : request ≠ .trace) :
    (second.answer request).1 = (first.answer request).1 ∧
      (first.answer request).2.Alike (second.answer request).2 := by
  cases alike with
  | resolution host context report =>
      cases request with
      | resolve name => exact absurd rfl (aside name)
      | report message => exact ⟨rfl, .resolution _ _ _⟩
      | indent => exact ⟨rfl, .resolution _ _ _⟩
      | unindent => exact ⟨rfl, .resolution _ _ _⟩
      | stats => exact ⟨rfl, .resolution _ _ _⟩
      | trace => exact absurd rfl unread
      | count counter => exact ⟨rfl, .resolution _ _ _⟩
  | foreign host trace other =>
      cases request with
      | resolve name => exact absurd rfl (aside name)
      | report message => exact ⟨rfl, .foreign _ _ _⟩
      | indent => exact ⟨rfl, .foreign _ _ _⟩
      | unindent => exact ⟨rfl, .foreign _ _ _⟩
      | stats => exact ⟨rfl, .foreign _ _ _⟩
      | trace => exact absurd rfl unread
      | count counter => exact ⟨rfl, .foreign _ _ _⟩

theorem write (alike : first.Alike second) (message : String) :
    (first.write message).Alike (second.write message) := by
  have aside : (Request.report message).Aside := fun _ same => nomatch same
  exact (alike.answer aside Request.noConfusion).2

theorem indent (alike : first.Alike second) : first.indent.Alike second.indent := by
  have aside : Request.indent.Aside := fun _ same => nomatch same
  exact (alike.answer aside Request.noConfusion).2

theorem unindent (alike : first.Alike second) : first.unindent.Alike second.unindent := by
  have aside : Request.unindent.Aside := fun _ same => nomatch same
  exact (alike.answer aside Request.noConfusion).2

theorem close (alike : first.Alike second) (result : Except Error Decision) :
    (first.close result).Alike (second.close result) := by
  cases result with
  | ok decision => exact (alike.write _).unindent
  | error error => exact alike.unindent

theorem pop (alike : first.Alike second) : first.pop.Alike second.pop := by
  cases alike with
  | resolution host context report => exact .resolution host context.exit report
  | foreign host trace other => exact .foreign host trace other

theorem keep (alike : first.Alike second) (name : String) (value : Value) :
    (first.keep name value).Alike (second.keep name value) := by
  cases alike with
  | resolution host context report => exact .resolution _ _ _
  | foreign host trace other => exact .foreign host trace other

theorem updateMeter (alike : first.Alike second) (meter : Option Nat) (update : Meter → Meter) :
    (first.updateMeter meter update).Alike (second.updateMeter meter update) := by
  cases meter with
  | none => exact alike
  | some index =>
      cases alike with
      | resolution host context report => exact .resolution _ context report
      | foreign host trace other => exact .foreign _ trace other

theorem log (alike : first.Alike second) (event : Event) :
    (first.log event).Alike (second.log event) := by
  cases alike with
  | resolution host context report => exact .resolution _ context report
  | foreign host trace other => exact .foreign _ trace other

theorem conclude (alike : first.Alike second) (point : EnforcementPoint) (bias : Bias)
    (name : String) (before : ResolutionStats) (result : Except Error Decision) :
    (point.conclude bias name before second result).1 =
        (point.conclude bias name before first result).1 ∧
      (point.conclude bias name before first result).2.Alike
        (point.conclude bias name before second result).2 := by
  cases result with
  | error error => exact ⟨rfl, ((alike.close _).log _).updateMeter _ _⟩
  | ok own =>
      have closed := alike.close (.ok (own.withBias bias))
      refine ⟨rfl, ?_⟩
      unfold EnforcementPoint.conclude EnforcementPoint.succeed
      dsimp only
      rw [closed.stats]
      exact (closed.log _).updateMeter _ _

end Alike

end Scene

/-! ### Steps -/

def Focus.readsTrace : Focus → Bool
  | .provide _ (.ask .trace _) => true
  | .decide (.ask .trace _) => true
  | _ => false

namespace Machine

structure Alike (first second : Machine) : Prop where
  focus : second.focus = first.focus
  frames : second.frames = first.frames
  scene : first.scene.Alike second.scene

section

variable {first second : Scene} (frames : List Frame)

theorem request_alike (alike : first.Alike second) (name : String) :
    (request name frames first).Alike (request name frames second) := by
  cases alike with
  | foreign host trace other => exact ⟨rfl, rfl, .foreign host trace other⟩
  | resolution host context report =>
      unfold request
      dsimp only [Host.scene, Context.reported]
      cases context.memory.cache.find? name with
      | some value => exact ⟨rfl, rfl, .resolution _ _ _⟩
      | none =>
          dsimp only
          by_cases member : name ∈ context.inFlight
          · simp only [if_pos member]
            exact ⟨rfl, rfl, .resolution host context report⟩
          · simp only [if_neg member]
            exact ⟨rfl, rfl, .resolution _ _ _⟩

theorem lookUp_alike (alike : first.Alike second) (name : String) :
    (lookUp name frames first).Alike (lookUp name frames second) := by
  cases alike with
  | foreign host trace other => exact ⟨rfl, rfl, .foreign host trace other⟩
  | resolution host context report =>
      unfold lookUp
      dsimp only [Host.scene, Context.reported]
      cases registered? context.points name with
      | some point => exact ⟨rfl, rfl, .resolution host context report⟩
      | none => exact ⟨rfl, rfl, .resolution _ _ _⟩

theorem provide_alike (alike : first.Alike second) (name : String) (program : Program Value)
    (unread : (Focus.provide name program).readsTrace = false) :
    (provide name frames first program).Alike (provide name frames second program) := by
  cases program with
  | done result =>
      cases result with
      | ok value => exact ⟨rfl, rfl, alike.keep name value⟩
      | error error => exact ⟨rfl, rfl, alike⟩
  | ask request next =>
      rcases request.resolve_or_aside with ⟨key, same⟩ | aside
      · subst same
        exact ⟨rfl, rfl, alike⟩
      · have untold : request ≠ .trace := by
          intro same
          subst same
          cases unread
        obtain ⟨same, after⟩ := alike.answer aside untold
        have left : some (provide name frames first (.ask request next)) = _ :=
          step_provide_aside aside next frames first
        have right : some (provide name frames second (.ask request next)) = _ :=
          step_provide_aside aside next frames second
        rw [same] at right
        rw [Option.some.inj left, Option.some.inj right]
        exact ⟨rfl, rfl, after⟩

theorem decide_alike (alike : first.Alike second) (body : Procedure)
    (unread : (Focus.decide body).readsTrace = false) :
    (decide frames first body).Alike (decide frames second body) := by
  cases body with
  | done result => exact ⟨rfl, rfl, alike⟩
  | ask request next =>
      rcases request.resolve_or_aside with ⟨key, same⟩ | aside
      · subst same
        exact ⟨rfl, rfl, alike⟩
      · have untold : request ≠ .trace := by
          intro same
          subst same
          cases unread
        obtain ⟨same, after⟩ := alike.answer aside untold
        have left : some (decide frames first (.ask request next)) = _ :=
          step_decide_aside aside next frames first
        have right : some (decide frames second (.ask request next)) = _ :=
          step_decide_aside aside next frames second
        rw [same] at right
        rw [Option.some.inj left, Option.some.inj right]
        exact ⟨rfl, rfl, after⟩
  | evaluate policy next => exact ⟨rfl, rfl, alike⟩
  | enforce point bias policy next => exact ⟨rfl, rfl, alike⟩

theorem combine_alike (alike : first.Alike second) (algorithm : Algorithm)
    (tally : Algorithm.Tally) (members : List Policy) :
    (combine algorithm tally frames first members).Alike
      (combine algorithm tally frames second members) := by
  cases members with
  | nil => exact ⟨rfl, rfl, alike⟩
  | cons member rest => exact ⟨rfl, rfl, (alike.write member.name).indent⟩

theorem proceed_alike (alike : first.Alike second) (algorithm : Algorithm)
    (tally : Algorithm.Tally) (rest : List Policy) (result : Except Error Decision) :
    (proceed algorithm tally rest frames first result).Alike
      (proceed algorithm tally rest frames second result) := by
  cases result with
  | error error => exact ⟨rfl, rfl, alike⟩
  | ok decision =>
      unfold proceed
      dsimp only
      split
      · exact ⟨rfl, rfl, alike⟩
      · exact ⟨rfl, rfl, alike⟩

end

theorem step_alike {first second next : Machine} (alike : first.Alike second)
    (unread : first.focus.readsTrace = false) (stepped : first.step = some next) :
    ∃ other, second.step = some other ∧ next.Alike other := by
  obtain ⟨focus, frames, scene⟩ := first
  obtain ⟨_, _, other⟩ := second
  obtain ⟨same, sameFrames, alike⟩ := alike
  cases same
  cases sameFrames
  cases focus with
  | request name =>
      rw [← Option.some.inj stepped]
      exact ⟨_, rfl, request_alike frames alike name⟩
  | lookUp name =>
      rw [← Option.some.inj stepped]
      exact ⟨_, rfl, lookUp_alike frames alike name⟩
  | provide name program =>
      rw [← Option.some.inj stepped]
      exact ⟨_, rfl, provide_alike frames alike name program unread⟩
  | leave name answer =>
      rw [← Option.some.inj stepped]
      exact ⟨_, rfl, rfl, rfl, alike.pop⟩
  | decide body =>
      rw [← Option.some.inj stepped]
      exact ⟨_, rfl, decide_alike frames alike body unread⟩
  | evaluate policy =>
      cases policy with
      | rule name body =>
          rw [← Option.some.inj stepped]
          exact ⟨_, rfl, rfl, rfl, alike⟩
      | combined algorithm members =>
          rw [← Option.some.inj stepped]
          exact ⟨_, rfl, rfl, rfl, alike⟩
  | enforce point bias policy =>
      -- The counts that wait in the frame are those of the context, and these do not differ.
      have counts : other.stats = scene.stats := alike.stats
      rw [← Option.some.inj stepped]
      refine ⟨_, rfl, rfl, ?_, (alike.write policy.name).indent⟩
      exact congrArg (fun stats => Frame.enforcement point _ policy.name stats :: frames) counts
  | combine algorithm tally members =>
      rw [← Option.some.inj stepped]
      exact ⟨_, rfl, combine_alike frames alike algorithm tally members⟩
  | answer answer =>
      rcases step_answer_inv stepped with ⟨name, resume, rest, same, next⟩ |
        ⟨resume, rest, same, next⟩
      · cases same
        rw [next]
        exact ⟨_, rfl, rfl, rfl, alike⟩
      · cases same
        rw [next]
        exact ⟨_, rfl, rfl, rfl, alike⟩
  | decision result =>
      rcases step_decision_inv stepped with ⟨resume, rest, same, next⟩ | ⟨rest, same, next⟩ |
        ⟨algorithm, tally, others, rest, same, next⟩ |
        ⟨point, bias, name, before, rest, same, next⟩
      · cases same
        rw [next]
        exact ⟨_, rfl, rfl, rfl, alike⟩
      · cases same
        rw [next]
        exact ⟨_, rfl, rfl, rfl, alike.close result⟩
      · cases same
        rw [next]
        exact ⟨_, rfl, proceed_alike rest alike algorithm tally others result⟩
      · cases same
        rw [next]
        obtain ⟨told, after⟩ := alike.conclude point bias name before result
        exact ⟨_, rfl, congrArg Focus.decision told, rfl, after⟩

/-- A run that does not ask for the trace goes through the same, whatever the trace is. -/
theorem Path.alike {first second last : Machine} {states : List Machine}
    (path : Path first states last) (alike : first.Alike second)
    (unread : ∀ state ∈ states, state.focus.readsTrace = false) :
    ∃ others final, Path second others final ∧ last.Alike final ∧
      others.map Machine.focus = states.map Machine.focus := by
  induction path generalizing second with
  | refl machine => exact ⟨[], second, .refl second, alike, rfl⟩
  | step stepped rest ih =>
      obtain ⟨next, steppedAlike, goes⟩ :=
        step_alike alike (unread _ List.mem_cons_self) stepped
      obtain ⟨others, final, path, last, foci⟩ :=
        ih goes fun state within => unread state (List.mem_cons_of_mem _ within)
      exact ⟨second :: others, final, .step steppedAlike path, last,
        congrArg₂ List.cons alike.focus foci⟩

/-- At no moment of the run that goes on from here the trace is asked for, by a policy or by a point. -/
def Unread (machine : Machine) : Prop := ∀ n, (machine.after n).focus.readsTrace = false

namespace Unread

variable {first next last : Machine}

theorem step (unread : first.Unread) (stepped : first.step = some next) : next.Unread := by
  intro n
  rw [← after_succ stepped]
  exact unread (n + 1)

theorem of_path (unread : first.Unread) {states : List Machine} (path : Path first states last) :
    (∀ state ∈ states, state.focus.readsTrace = false) ∧ last.Unread := by
  induction path with
  | refl machine => exact ⟨fun _ within => (nomatch within), unread⟩
  | step stepped rest ih =>
      obtain ⟨inside, later⟩ := ih (unread.step stepped)
      exact ⟨List.forall_mem_cons.mpr ⟨unread 0, inside⟩, later⟩

end Unread

end Machine

/-! ### Policies and points that do not read it -/

/-- What a run is at asks for nothing but what it may. -/
def Focus.Within (may : Request → Prop) : Focus → Prop
  | .provide _ program => program.Within may
  | .decide body => body.Within may
  | .evaluate policy => policy.Within may
  | .enforce _ _ policy => policy.Within may
  | .combine _ _ members => ∀ member ∈ members, member.Within may
  | _ => True

def Frame.Within (may : Request → Prop) : Frame → Prop
  | .point _ next => ∀ answer, (next answer).Within may
  | .rule next => ∀ answer, (next answer).Within may
  | .policy next => ∀ result, (next result).Within may
  | .members _ _ rest => ∀ member ∈ rest, member.Within may
  | .member => True
  | .enforcement _ _ _ _ => True

def Scene.Within (may : Request → Prop) (scene : Scene) : Prop :=
  ∃ context, scene.context = .resolution context ∧
    ∀ point ∈ context.points, point.provide.Within may

theorem Scene.Within.step {may : Request → Prop} {machine next : Machine}
    (within : machine.scene.Within may) (stepped : machine.step = some next) :
    next.scene.Within may := by
  obtain ⟨context, own, points⟩ := within
  obtain ⟨after, same, move⟩ := Machine.step_moves stepped context own
  refine ⟨after, same, ?_⟩
  rw [move.points_eq]
  exact points

namespace Machine

/-- Neither what the run is at nor what waits for it asks for anything but what it may. -/
structure Within (may : Request → Prop) (machine : Machine) : Prop where
  focus : machine.focus.Within may
  frames : ∀ frame ∈ machine.frames, frame.Within may

namespace Within

variable {may : Request → Prop} {focus next : Focus} {frames : List Frame} {scene last : Scene}
  {machine after : Machine}

theorem of_focus (within : Within may ⟨focus, frames, scene⟩) (focused : next.Within may) :
    Within may ⟨next, frames, last⟩ := ⟨focused, within.frames⟩

theorem push (within : Within may ⟨focus, frames, scene⟩) {frame : Frame}
    (framed : frame.Within may) (focused : next.Within may) :
    Within may ⟨next, frame :: frames, last⟩ :=
  ⟨focused, List.forall_mem_cons.mpr ⟨framed, within.frames⟩⟩

theorem top {frame : Frame} (within : Within may ⟨focus, frame :: frames, scene⟩) :
    frame.Within may := within.frames frame List.mem_cons_self

theorem pop {frame : Frame} (within : Within may ⟨focus, frame :: frames, scene⟩)
    (focused : next.Within may) : Within may ⟨next, frames, last⟩ :=
  ⟨focused, (List.forall_mem_cons.mp within.frames).2⟩

theorem decide {body : Procedure} (within : Within may ⟨.decide body, frames, scene⟩) :
    Within may (Machine.decide frames scene body) := by
  have own : body.Within may := within.focus
  cases own with
  | done result => exact within.of_focus trivial
  | ask request next allowed goes =>
      rcases request.resolve_or_aside with ⟨key, same⟩ | aside
      · subst same
        have framed : (Frame.rule next).Within may := goes
        exact within.push framed trivial
      · have stepped : some (Machine.decide frames scene (.ask request next)) =
            some ⟨.decide (next (scene.answer request).1), frames, (scene.answer request).2⟩ :=
          step_decide_aside aside next frames scene
        rw [Option.some.inj stepped]
        exact within.of_focus (goes _)
  | evaluate policy next own goes =>
      have framed : (Frame.policy next).Within may := goes
      exact within.push framed own
  | enforce point bias policy next own goes =>
      have framed : (Frame.policy next).Within may := goes
      exact within.push framed own

theorem combine {algorithm : Algorithm} {tally : Algorithm.Tally} {members : List Policy}
    (within : Within may ⟨.combine algorithm tally members, frames, scene⟩) :
    Within may (Machine.combine algorithm tally frames scene members) := by
  have all : ∀ member ∈ members, member.Within may := within.focus
  cases members with
  | nil => exact within.of_focus trivial
  | cons member rest =>
      obtain ⟨own, others⟩ := List.forall_mem_cons.mp all
      have framed : (Frame.members algorithm tally rest).Within may := others
      have inner : Within may ⟨.combine algorithm tally rest, .members algorithm tally rest :: frames,
          scene⟩ := within.push framed others
      exact inner.push trivial own

theorem proceed {algorithm : Algorithm} {tally : Algorithm.Tally} {rest : List Policy}
    {result : Except Error Decision}
    (within : Within may ⟨.decision result, .members algorithm tally rest :: frames, scene⟩) :
    Within may (Machine.proceed algorithm tally rest frames scene result) := by
  cases result with
  | error error => exact within.pop trivial
  | ok decision =>
      unfold Machine.proceed
      dsimp only
      split
      · exact within.pop trivial
      · exact within.pop within.top

theorem step_policy (decides : focus.decides = true) (within : Within may ⟨focus, frames, scene⟩)
    (stepped : step ⟨focus, frames, scene⟩ = some machine) : machine.Within may := by
  cases focus with
  | request name => cases decides
  | lookUp name => cases decides
  | provide name program => cases decides
  | leave name answer => cases decides
  | answer answer => cases decides
  | decide body =>
      rw [← Option.some.inj stepped]
      exact within.decide
  | evaluate policy =>
      have own : policy.Within may := within.focus
      cases own with
      | rule name body own =>
          rw [← Option.some.inj stepped]
          exact within.of_focus own
      | combined algorithm members all =>
          rw [← Option.some.inj stepped]
          exact within.of_focus all
  | enforce point bias policy =>
      have own : policy.Within may := within.focus
      rw [← Option.some.inj stepped]
      exact within.push trivial own
  | combine algorithm tally members =>
      rw [← Option.some.inj stepped]
      exact within.combine
  | decision result =>
      rcases step_decision_inv stepped with ⟨resume, rest, rfl, rfl⟩ | ⟨rest, rfl, rfl⟩ |
        ⟨algorithm, tally, others, rest, rfl, rfl⟩ | ⟨point, bias, name, before, rest, rfl, rfl⟩
      · exact within.pop (within.top result)
      · exact within.pop trivial
      · exact within.proceed
      · exact within.pop trivial

theorem step (within : machine.Within may) (points : machine.scene.Within may)
    (stepped : machine.step = some after) : after.Within may := by
  obtain ⟨context, own, provided⟩ := points
  obtain ⟨now, same, move⟩ := step_moves stepped context own
  obtain ⟨focus, frames, scene⟩ := machine
  obtain ⟨next, rest, last⟩ := after
  dsimp only at move
  cases move with
  | hit cached report => exact within.of_focus trivial
  | cyclic uncached member => exact within.of_focus trivial
  | enter uncached fresh => exact within.of_focus trivial
  | missing absent report => exact within.of_focus trivial
  | start found => exact within.of_focus (provided _ (registered?_mem found))
  | keep report => exact within.of_focus trivial
  | fail => exact within.of_focus trivial
  | @ask name key next frames context =>
      have program : (Program.ask (.resolve key) next).Within may := within.focus
      cases program with
      | ask request next allowed goes =>
          have framed : (Frame.point name next).Within may := goes
          exact within.push framed trivial
  | @aside name request isAside next answer frames context report =>
      have program : (Program.ask request next).Within may := within.focus
      cases program with
      | ask request next allowed goes => exact within.of_focus (goes answer)
  | leave => exact within.of_focus trivial
  | @resume answer name next frames context => exact within.pop (within.top answer)
  | @consult key next frames context =>
      have body : (Procedure.ask (.resolve key) next).Within may := within.focus
      cases body with
      | ask request next allowed goes =>
          have framed : (Frame.rule next).Within may := goes
          exact within.push framed trivial
  | @told answer next frames context => exact within.pop (within.top answer)
  | policy before after keys report => exact within.step_policy before stepped

theorem readsTrace_eq (within : machine.Within (· ≠ .trace)) :
    machine.focus.readsTrace = false := by
  obtain ⟨focus, frames, scene⟩ := machine
  obtain ⟨focused, -⟩ := within
  change focus.Within (· ≠ .trace) at focused
  change focus.readsTrace = false
  unfold Focus.readsTrace
  split
  · cases focused with
    | ask request next allowed goes => exact absurd rfl allowed
  · cases focused with
    | ask request next allowed goes => exact absurd rfl allowed
  · rfl

/-- Where no policy and no point has a request for the trace in it, the run makes none. -/
theorem unread (within : machine.Within (· ≠ .trace)) (points : machine.scene.Within (· ≠ .trace)) :
    machine.Unread := by
  intro n
  induction n generalizing machine with
  | zero => exact within.readsTrace_eq
  | succ n ih =>
      cases stepped : machine.step with
      | some next =>
          rw [after_succ stepped]
          exact ih (within.step points stepped) (points.step stepped)
      | none =>
          rw [after_of_halted stepped]
          exact within.readsTrace_eq

end Within

end Machine

end AccessPolicy
