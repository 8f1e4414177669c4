/-
What one step of a run does to its context. There is one rule for each way in which a step can go, with
all that it needs of the context and all that it changes there; what a step does to the host is left out.
Within a policy no step touches anything but the report.
-/

import AccessPolicy.Proofs.Engine.Halting

namespace AccessPolicy

namespace Context

def reported (context : Context) (report : Report) : Context :=
  { context with memory.report := report }

def hit (context : Context) (report : Report) : Context :=
  { context with
    memory.report := report
    memory.stats.cacheHits := context.memory.stats.cacheHits + 1 }

def keep (context : Context) (report : Report) (name : String) (value : Value) : Context :=
  { context with
    memory.report := report
    memory.cache := context.memory.cache.insert name value
    memory.stats.cacheMisses := context.memory.stats.cacheMisses + 1 }

/-- The request that the last key in flight is of comes to its end. -/
def exit (context : Context) : Context :=
  { context with inFlight := context.inFlight.dropLast }

end Context

/-! ### Scenes -/

namespace Scene

def Beside (before after : Scene) : Prop :=
  ∀ context, before.context = .resolution context →
    ∃ report, after.context = .resolution (context.reported report)

namespace Beside

theorem refl (scene : Scene) : Beside scene scene :=
  fun context same => ⟨context.memory.report, same⟩

theorem trans {first second third : Scene} (left : Beside first second)
    (right : Beside second third) : Beside first third := by
  intro context same
  obtain ⟨report, between⟩ := left context same
  obtain ⟨last, after⟩ := right _ between
  exact ⟨last, after⟩

theorem answer {request : Request} (aside : request.Aside) (scene : Scene) :
    Beside scene (scene.answer request).2 := by
  intro context same
  obtain ⟨host, own⟩ := scene
  cases same
  cases request with
  | resolve name => exact absurd rfl (aside name)
  | report message => exact ⟨_, rfl⟩
  | indent => exact ⟨_, rfl⟩
  | unindent => exact ⟨_, rfl⟩
  | stats => exact ⟨_, rfl⟩
  | trace => exact ⟨_, rfl⟩
  | count counter => exact ⟨_, rfl⟩

theorem write (scene : Scene) (message : String) : Beside scene (scene.write message) := by
  have aside : (Request.report message).Aside := fun _ same => nomatch same
  exact answer aside scene

theorem indent (scene : Scene) : Beside scene scene.indent := by
  have aside : Request.indent.Aside := fun _ same => nomatch same
  exact answer aside scene

theorem unindent (scene : Scene) : Beside scene scene.unindent := by
  have aside : Request.unindent.Aside := fun _ same => nomatch same
  exact answer aside scene

theorem close (scene : Scene) (result : Except Error Decision) :
    Beside scene (scene.close result) := by
  cases result with
  | ok decision => exact (write scene _).trans (unindent _)
  | error error => exact unindent scene

theorem log (scene : Scene) (event : Event) : Beside scene (scene.log event) :=
  fun context same => ⟨context.memory.report, same⟩

theorem updateMeter (scene : Scene) (meter : Option Nat) (update : Meter → Meter) :
    Beside scene (scene.updateMeter meter update) := by
  cases meter with
  | none => exact refl scene
  | some index => exact fun context same => ⟨context.memory.report, same⟩

theorem conclude (scene : Scene) (point : EnforcementPoint) (bias : Bias) (name : String)
    (before : ResolutionStats) (result : Except Error Decision) :
    Beside scene (point.conclude bias name before scene result).2 := by
  cases result with
  | ok own => exact (close scene _).trans ((log _ _).trans (updateMeter _ _ _))
  | error error => exact (close scene _).trans ((log _ _).trans (updateMeter _ _ _))

end Beside

end Scene

/-! ### Steps -/

namespace Frame

def key? : Frame → Option String
  | .point name _ => some name
  | _ => none

end Frame

def Focus.decides : Focus → Bool
  | .decide _ => true
  | .evaluate _ => true
  | .enforce _ _ _ => true
  | .combine _ _ _ => true
  | .decision _ => true
  | _ => false

/-- What a run is at, what waits for it and its context, before and after a step. -/
inductive Move : Focus → List Frame → Context → Focus → List Frame → Context → Prop
  | hit {name : String} {value : Value} {frames : List Frame} {context : Context}
      (cached : context.memory.cache.find? name = some value) (report : Report) :
      Move (.request name) frames context (.answer (.ok value)) frames (context.hit report)
  | cyclic {name : String} {frames : List Frame} {context : Context}
      (uncached : context.memory.cache.find? name = none) (member : name ∈ context.inFlight) :
      Move (.request name) frames context
        (.answer (.error (.cyclicDependencies (cyclePath context.inFlight name)))) frames context
  | enter {name : String} {frames : List Frame} {context : Context}
      (uncached : context.memory.cache.find? name = none) (fresh : name ∉ context.inFlight) :
      Move (.request name) frames context (.lookUp name) frames (context.enter name)
  | missing {name : String} {frames : List Frame} {context : Context}
      (missing : registered? context.points name = none) (report : Report) :
      Move (.lookUp name) frames context (.leave name (.error (.missingInformationPoint name)))
        frames (context.reported report)
  | start {name : String} {point : InformationPoint} {frames : List Frame} {context : Context}
      (found : registered? context.points name = some point) :
      Move (.lookUp name) frames context (.provide name point.provide) frames context
  | keep {name : String} {value : Value} {frames : List Frame} {context : Context}
      (report : Report) :
      Move (.provide name (.done (.ok value))) frames context (.leave name (.ok value)) frames
        (context.keep report name value)
  | fail {name : String} {error : Error} {frames : List Frame} {context : Context} :
      Move (.provide name (.done (.error error))) frames context (.leave name (.error error)) frames
        context
  | ask {name key : String} {next : Except Error Value → Program Value} {frames : List Frame}
      {context : Context} :
      Move (.provide name (.ask (.resolve key) next)) frames context (.request key)
        (.point name next :: frames) context
  | aside {name : String} {request : Request} (isAside : request.Aside)
      {next : request.Answer → Program Value} (answer : request.Answer) {frames : List Frame}
      {context : Context} (report : Report) :
      Move (.provide name (.ask request next)) frames context (.provide name (next answer)) frames
        (context.reported report)
  | leave {name : String} {answer : Except Error Value} {frames : List Frame}
      {context : Context} :
      Move (.leave name answer) frames context (.answer answer) frames context.exit
  | resume {answer : Except Error Value} {name : String}
      {next : Except Error Value → Program Value} {frames : List Frame} {context : Context} :
      Move (.answer answer) (.point name next :: frames) context (.provide name (next answer))
        frames context
  | consult {key : String} {next : Except Error Value → Procedure} {frames : List Frame}
      {context : Context} :
      Move (.decide (.ask (.resolve key) next)) frames context (.request key)
        (.rule next :: frames) context
  | told {answer : Except Error Value} {next : Except Error Value → Procedure}
      {frames : List Frame} {context : Context} :
      Move (.answer answer) (.rule next :: frames) context (.decide (next answer)) frames context
  | policy {focus next : Focus} {frames rest : List Frame} {context : Context}
      (before : focus.decides = true) (after : next.decides = true)
      (keys : rest.filterMap Frame.key? = frames.filterMap Frame.key?) (report : Report) :
      Move focus frames context next rest (context.reported report)

theorem Move.points_eq {focus next : Focus} {frames rest : List Frame} {before after : Context}
    (move : Move focus frames before next rest after) : after.points = before.points := by
  cases move <;> rfl

namespace Machine

def Moves (first second : Machine) : Prop :=
  ∀ context, first.scene.context = .resolution context →
    ∃ after, second.scene.context = .resolution after ∧
      Move first.focus first.frames context second.focus second.frames after

variable {frames : List Frame} {scene : Scene}

theorem Moves.of_policy {focus next : Focus} {rest : List Frame} {last : Scene}
    (before : focus.decides = true) (after : next.decides = true)
    (keys : rest.filterMap Frame.key? = frames.filterMap Frame.key?)
    (beside : scene.Beside last) : Moves ⟨focus, frames, scene⟩ ⟨next, rest, last⟩ := by
  intro context own
  obtain ⟨report, same⟩ := beside context own
  exact ⟨_, same, .policy before after keys report⟩

theorem request_moves (name : String) (frames : List Frame) (scene : Scene) :
    Moves ⟨.request name, frames, scene⟩ (request name frames scene) := by
  intro context own
  change scene.context = .resolution context at own
  unfold request
  rw [own]
  dsimp only
  cases found : context.memory.cache.find? name with
  | some value => exact ⟨_, rfl, .hit found _⟩
  | none =>
      by_cases member : name ∈ context.inFlight
      · simp only [if_pos member]
        exact ⟨context, own, .cyclic found member⟩
      · simp only [if_neg member]
        exact ⟨_, rfl, .enter found member⟩

theorem lookUp_moves (name : String) (frames : List Frame) (scene : Scene) :
    Moves ⟨.lookUp name, frames, scene⟩ (lookUp name frames scene) := by
  intro context own
  change scene.context = .resolution context at own
  unfold lookUp
  rw [own]
  dsimp only
  cases found : registered? context.points name with
  | none => exact ⟨_, rfl, .missing found _⟩
  | some point => exact ⟨context, own, .start found⟩

theorem provide_moves (name : String) (frames : List Frame) (scene : Scene)
    (program : Program Value) :
    Moves ⟨.provide name program, frames, scene⟩ (provide name frames scene program) := by
  intro context own
  change scene.context = .resolution context at own
  cases program with
  | done result =>
      cases result with
      | ok value =>
          unfold provide Scene.keep
          rw [own]
          exact ⟨_, rfl, .keep _⟩
      | error error => exact ⟨context, own, .fail⟩
  | ask request next =>
      rcases request.resolve_or_aside with ⟨key, same⟩ | aside
      · subst same
        exact ⟨context, own, .ask⟩
      · have stepped : some (provide name frames scene (.ask request next)) =
            some ⟨.provide name (next (scene.answer request).1), frames,
              (scene.answer request).2⟩ := step_provide_aside aside next frames scene
        rw [Option.some.inj stepped]
        obtain ⟨report, same⟩ := Scene.Beside.answer aside scene context own
        exact ⟨_, same, .aside aside _ report⟩

theorem decide_moves (frames : List Frame) (scene : Scene) (body : Procedure) :
    Moves ⟨.decide body, frames, scene⟩ (decide frames scene body) := by
  cases body with
  | done result => exact .of_policy rfl rfl rfl (.refl scene)
  | ask request next =>
      rcases request.resolve_or_aside with ⟨key, same⟩ | aside
      · subst same
        exact fun context own => ⟨context, own, .consult⟩
      · have stepped : some (decide frames scene (.ask request next)) =
            some ⟨.decide (next (scene.answer request).1), frames, (scene.answer request).2⟩ :=
          step_decide_aside aside next frames scene
        rw [Option.some.inj stepped]
        exact .of_policy rfl rfl rfl (.answer aside scene)
  | evaluate policy next => exact .of_policy rfl rfl rfl (.refl scene)
  | enforce point bias policy next => exact .of_policy rfl rfl rfl (.refl scene)

theorem combine_moves (algorithm : Algorithm) (tally : Algorithm.Tally) (members : List Policy)
    (frames : List Frame) (scene : Scene) :
    Moves ⟨.combine algorithm tally members, frames, scene⟩
      (combine algorithm tally frames scene members) := by
  cases members with
  | nil => exact .of_policy rfl rfl rfl (.refl scene)
  | cons member rest =>
      exact .of_policy rfl rfl rfl ((Scene.Beside.write scene member.name).trans (.indent _))

theorem proceed_moves (algorithm : Algorithm) (tally : Algorithm.Tally) (rest : List Policy)
    (frames : List Frame) (scene : Scene) (result : Except Error Decision) :
    Moves ⟨.decision result, .members algorithm tally rest :: frames, scene⟩
      (proceed algorithm tally rest frames scene result) := by
  cases result with
  | error error => exact .of_policy rfl rfl rfl (.refl scene)
  | ok decision =>
      unfold proceed
      dsimp only
      split
      · exact .of_policy rfl rfl rfl (.refl scene)
      · exact .of_policy rfl rfl rfl (.refl scene)

theorem step_moves {first second : Machine} (stepped : first.step = some second) :
    first.Moves second := by
  obtain ⟨focus, frames, scene⟩ := first
  cases focus with
  | request name =>
      rw [← Option.some.inj stepped]
      exact request_moves name frames scene
  | lookUp name =>
      rw [← Option.some.inj stepped]
      exact lookUp_moves name frames scene
  | provide name program =>
      rw [← Option.some.inj stepped]
      exact provide_moves name frames scene program
  | leave name answer =>
      rw [← Option.some.inj stepped]
      intro context own
      refine ⟨context.exit, ?_, .leave⟩
      change scene.context = .resolution context at own
      unfold Scene.pop
      rw [own]
      rfl
  | decide body =>
      rw [← Option.some.inj stepped]
      exact decide_moves frames scene body
  | evaluate policy =>
      cases policy with
      | rule name body =>
          rw [← Option.some.inj stepped]
          exact .of_policy rfl rfl rfl (.refl scene)
      | combined algorithm members =>
          rw [← Option.some.inj stepped]
          exact .of_policy rfl rfl rfl (.refl scene)
  | enforce point bias policy =>
      rw [← Option.some.inj stepped]
      exact .of_policy rfl rfl rfl ((Scene.Beside.write scene policy.name).trans (.indent _))
  | combine algorithm tally members =>
      rw [← Option.some.inj stepped]
      exact combine_moves algorithm tally members frames scene
  | answer answer =>
      cases frames with
      | nil => cases stepped
      | cons frame frames =>
          cases frame with
          | point name next =>
              rw [← Option.some.inj stepped]
              exact fun context own => ⟨context, own, .resume⟩
          | rule next =>
              rw [← Option.some.inj stepped]
              exact fun context own => ⟨context, own, .told⟩
          | policy next => cases stepped
          | member => cases stepped
          | members algorithm tally rest => cases stepped
          | enforcement point bias name before => cases stepped
  | decision result =>
      cases frames with
      | nil => cases stepped
      | cons frame frames =>
          cases frame with
          | point name next => cases stepped
          | rule next => cases stepped
          | policy next =>
              rw [← Option.some.inj stepped]
              exact .of_policy rfl rfl rfl (.refl scene)
          | member =>
              rw [← Option.some.inj stepped]
              exact .of_policy rfl rfl rfl (.close scene result)
          | members algorithm tally rest =>
              rw [← Option.some.inj stepped]
              exact proceed_moves algorithm tally rest frames scene result
          | enforcement point bias name before =>
              rw [← Option.some.inj stepped]
              exact .of_policy rfl rfl rfl (.conclude scene point bias name before result)

end Machine

end AccessPolicy
