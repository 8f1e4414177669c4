/-
What is written on the report of a context. Every step of a run makes the calls that are listed here for the
state it goes on from, and no others, so at every moment the report is what the calls so far have made of the
one it was when the context was made.

The calls are of three kinds: those of policies and points on their own behalf, the line about a request for
a key, and the ends of sections.
-/

import AccessPolicy.Proofs.Engine.History
import AccessPolicy.Proofs.Engine.Path
import AccessPolicy.Proofs.Report.Lines

namespace AccessPolicy

/-! ### Calls -/

def Request.calls : Request → List Report.Call
  | .report message => [.write message]
  | .indent => [.indent]
  | .unindent => [.unindent]
  | .resolve _ => []
  | .stats => []
  | .trace => []
  | .count _ => []

def Finding.calls (name : String) (finding : Finding) : List Report.Call :=
  (finding.message? name).toList.map .write

def Focus.ownCalls : Focus → List Report.Call
  | .provide _ (.ask made _) => made.calls
  | .decide (.ask made _) => made.calls
  | _ => []

namespace Report

def opening (name : String) : List Call := [.write name, .indent]

def closing : Except Error Decision → List Call
  | .ok decision => [.write (resultLine decision), .unindent]
  | .error _ => [.unindent]

end Report

namespace Machine

def ownCalls (machine : Machine) : List Report.Call := machine.focus.ownCalls

def requestCalls (machine : Machine) : List Report.Call :=
  match machine.focus, machine.scene.context with
  | .request name, .resolution context =>
    match context.memory.cache.find? name with
    | some _ => Finding.hit.calls name
    | none => []
  | .lookUp name, .resolution context =>
    match registered? context.points name with
    | some _ => []
    | none => Finding.missing.calls name
  | .provide name (.done (.ok value)), _ => (Finding.produced value).calls name
  | _, _ => []

def sectionCalls (machine : Machine) : List Report.Call :=
  match machine.focus, machine.frames with
  | .enforce _ _ policy, _ => Report.opening policy.name
  | .combine _ _ (policy :: _), _ => Report.opening policy.name
  | .decision result, .member :: _ => Report.closing result
  | .decision result, .enforcement _ bias _ _ :: _ =>
    Report.closing (result.map (Decision.withBias bias))
  | _, _ => []

/-- The calls of the step that goes on from this state. -/
def calls (machine : Machine) : List Report.Call :=
  machine.ownCalls ++ machine.requestCalls ++ machine.sectionCalls

end Machine

/-! ### Steps -/

namespace Scene

def Called (calls : List Report.Call) (before after : Scene) : Prop :=
  ∀ context, before.context = .resolution context →
    ∃ now, after.context = .resolution now ∧
      now.memory.report = context.memory.report.applyAll calls

namespace Called

variable {first second third : Scene} {early late : List Report.Call}

theorem refl (scene : Scene) : Called [] scene scene :=
  fun context same => ⟨context, same, rfl⟩

theorem trans (left : Called early first second) (right : Called late second third) :
    Called (early ++ late) first third := by
  intro context same
  obtain ⟨between, kept, called⟩ := left context same
  obtain ⟨now, last, calledAgain⟩ := right between kept
  refine ⟨now, last, ?_⟩
  rw [calledAgain, called, Report.applyAll_append]

theorem answer {request : Request} (aside : request.Aside) (scene : Scene) :
    Called request.calls scene (scene.answer request).2 := by
  obtain ⟨host, own⟩ := scene
  intro context same
  cases same
  cases request with
  | resolve name => exact absurd rfl (aside name)
  | report message => exact ⟨_, rfl, rfl⟩
  | indent => exact ⟨_, rfl, rfl⟩
  | unindent => exact ⟨_, rfl, rfl⟩
  | stats => exact ⟨_, rfl, rfl⟩
  | trace => exact ⟨_, rfl, rfl⟩
  | count counter => exact ⟨_, rfl, rfl⟩

theorem opening (scene : Scene) (name : String) :
    Called (Report.opening name) scene (scene.write name).indent := by
  obtain ⟨host, own⟩ := scene
  intro context same
  cases same
  exact ⟨_, rfl, rfl⟩

theorem closing (scene : Scene) (result : Except Error Decision) :
    Called (Report.closing result) scene (scene.close result) := by
  obtain ⟨host, own⟩ := scene
  intro context same
  cases same
  cases result <;> exact ⟨_, rfl, rfl⟩

theorem conclude (scene : Scene) (point : EnforcementPoint) (bias : Bias) (name : String)
    (before : ResolutionStats) (result : Except Error Decision) :
    Called (Report.closing (result.map (Decision.withBias bias))) scene
      (point.conclude bias name before scene result).2 := by
  have closed := closing scene (result.map (Decision.withBias bias))
  intro context same
  obtain ⟨now, last, called⟩ := closed context same
  refine ⟨now, ?_, called⟩
  cases result with
  | ok own => exact (context_updateMeter _ point.meter _).trans last
  | error error => exact (context_updateMeter _ point.meter _).trans last

end Called

end Scene

namespace Machine

variable (frames : List Frame) (scene : Scene)

theorem request_called (name : String) :
    scene.Called (calls ⟨.request name, frames, scene⟩) (request name frames scene).scene := by
  obtain ⟨host, own⟩ := scene
  intro context same
  cases same
  unfold calls ownCalls Focus.ownCalls requestCalls sectionCalls request
  dsimp only
  cases context.memory.cache.find? name with
  | some value => exact ⟨_, rfl, rfl⟩
  | none =>
      dsimp only
      split
      · exact ⟨_, rfl, rfl⟩
      · exact ⟨_, rfl, rfl⟩

theorem lookUp_called (name : String) :
    scene.Called (calls ⟨.lookUp name, frames, scene⟩) (lookUp name frames scene).scene := by
  obtain ⟨host, own⟩ := scene
  intro context same
  cases same
  unfold calls ownCalls Focus.ownCalls requestCalls sectionCalls lookUp
  dsimp only
  cases registered? context.points name with
  | some point => exact ⟨_, rfl, rfl⟩
  | none => exact ⟨_, rfl, rfl⟩

theorem provide_called (name : String) (program : Program Value) :
    scene.Called (calls ⟨.provide name program, frames, scene⟩)
      (provide name frames scene program).scene := by
  cases program with
  | done result =>
      cases result with
      | ok value =>
          obtain ⟨host, own⟩ := scene
          intro context same
          cases same
          exact ⟨_, rfl, rfl⟩
      | error error => exact .refl scene
  | ask request next =>
      have only : calls ⟨.provide name (.ask request next), frames, scene⟩ = request.calls :=
        (List.append_nil _).trans (List.append_nil _)
      rw [only]
      rcases request.resolve_or_aside with ⟨key, same⟩ | aside
      · subst same
        exact .refl scene
      · have stepped : some (provide name frames scene (.ask request next)) =
            some ⟨.provide name (next (scene.answer request).1), frames,
              (scene.answer request).2⟩ := step_provide_aside aside next frames scene
        rw [Option.some.inj stepped]
        exact .answer aside scene

theorem decide_called (body : Procedure) :
    scene.Called (calls ⟨.decide body, frames, scene⟩) (decide frames scene body).scene := by
  cases body with
  | done result => exact .refl scene
  | ask request next =>
      have only : calls ⟨.decide (.ask request next), frames, scene⟩ = request.calls :=
        (List.append_nil _).trans (List.append_nil _)
      rw [only]
      rcases request.resolve_or_aside with ⟨key, same⟩ | aside
      · subst same
        exact .refl scene
      · have stepped : some (decide frames scene (.ask request next)) =
            some ⟨.decide (next (scene.answer request).1), frames, (scene.answer request).2⟩ :=
          step_decide_aside aside next frames scene
        rw [Option.some.inj stepped]
        exact .answer aside scene
  | evaluate policy next => exact .refl scene
  | enforce point bias policy next => exact .refl scene

theorem combine_called (algorithm : Algorithm) (tally : Algorithm.Tally) (members : List Policy) :
    scene.Called (calls ⟨.combine algorithm tally members, frames, scene⟩)
      (combine algorithm tally frames scene members).scene := by
  cases members with
  | nil => exact .refl scene
  | cons member rest => exact .opening scene member.name

theorem proceed_called (algorithm : Algorithm) (tally : Algorithm.Tally) (rest : List Policy)
    (result : Except Error Decision) :
    scene.Called [] (proceed algorithm tally rest frames scene result).scene := by
  cases result with
  | error error => exact .refl scene
  | ok decision =>
      unfold proceed
      dsimp only
      split
      · exact .refl scene
      · exact .refl scene

/-- A step makes the calls that are listed for the state it goes on from. -/
theorem called_of_step {first second : Machine} (stepped : first.step = some second) :
    first.scene.Called first.calls second.scene := by
  obtain ⟨focus, frames, scene⟩ := first
  cases focus with
  | request name =>
      rw [← Option.some.inj stepped]
      exact request_called frames scene name
  | lookUp name =>
      rw [← Option.some.inj stepped]
      exact lookUp_called frames scene name
  | provide name program =>
      rw [← Option.some.inj stepped]
      exact provide_called frames scene name program
  | leave name answer =>
      rw [← Option.some.inj stepped]
      obtain ⟨host, own⟩ := scene
      intro context same
      cases same
      exact ⟨_, rfl, rfl⟩
  | decide body =>
      rw [← Option.some.inj stepped]
      exact decide_called frames scene body
  | evaluate policy =>
      cases policy with
      | rule name body =>
          rw [← Option.some.inj stepped]
          exact .refl scene
      | combined algorithm members =>
          rw [← Option.some.inj stepped]
          exact .refl scene
  | enforce point bias policy =>
      rw [← Option.some.inj stepped]
      exact .opening scene policy.name
  | combine algorithm tally members =>
      rw [← Option.some.inj stepped]
      exact combine_called frames scene algorithm tally members
  | answer answer =>
      rcases step_answer_inv stepped with ⟨_, _, _, same, next⟩ | ⟨_, _, same, next⟩
      · rw [next]
        exact .refl scene
      · rw [next]
        exact .refl scene
  | decision result =>
      rcases step_decision_inv stepped with ⟨_, _, same, next⟩ | ⟨_, same, next⟩ |
        ⟨algorithm, tally, others, rest, same, next⟩ |
        ⟨point, bias, name, before, rest, same, next⟩
      · rw [same, next]
        exact .refl scene
      · rw [same, next]
        exact .closing scene result
      · rw [same, next]
        exact proceed_called rest scene algorithm tally others result
      · rw [same, next]
        exact .conclude scene point bias name before result

theorem Path.called {first last : Machine} {states : List Machine} (path : Path first states last) :
    first.scene.Called (states.flatMap calls) last.scene := by
  induction path with
  | refl machine => exact .refl machine.scene
  | step stepped rest ih => exact (called_of_step stepped).trans ih

end Machine

/-! ### Histories -/

namespace Context

variable {start now : Context} {machine : Machine} {earlier : List Machine}

/-- The calls that have been made on a context at all the earlier states. -/
def History.calls (earlier : List Machine) : List Report.Call :=
  earlier.reverse.flatMap Machine.calls

theorem History.calls_cons (machine : Machine) (earlier : List Machine) :
    History.calls (machine :: earlier) = History.calls earlier ++ machine.calls := by
  unfold History.calls
  rw [List.reverse_cons, List.flatMap_append]
  exact congrArg _ (List.append_nil _)

theorem History.report_eq (history : start.History machine earlier)
    (own : machine.scene.context = .resolution now) :
    now.memory.report = start.memory.report.applyAll (History.calls earlier) := by
  induction history generalizing now with
  | begin client host =>
      cases own
      rfl
  | step history stepped ih =>
      obtain ⟨before, same⟩ := history.exists_context
      obtain ⟨after, last, called⟩ := Machine.called_of_step stepped before same
      cases own.symm.trans last
      rw [called, ih same, History.calls_cons, Report.applyAll_append]
  | again history same client host ih =>
      cases own
      -- The client before has come to its decision, and the next one begins: nothing is called.
      rw [ih same, History.calls_cons]
      exact congrArg _ (List.append_nil _).symm

/-! ### Lines -/

theorem Created.report_eq (created : start.Created) : start.memory.report = {} := by
  cases created with
  | new points => rfl
  | merge leftCreated leftReached rightCreated rightReached => rfl

/-- At every moment a report is cut where a line ends that has been written, each at the margin of its call,
and where a message has a newline: the pieces are these lines exactly if no message has one. -/
theorem Created.cut_report (created : start.Created) (history : start.History machine earlier) :
    let calls := History.calls earlier
    let lines := Report.written 0 calls
    ∃ now, machine.scene.context = .resolution now ∧
      now.memory.report.depth = Report.margin 0 calls ∧
      now.memory.report.cut = (lines.flatMap fun line => line.shown.splitOn '\n') ∧
      (now.memory.report.cut = lines.map TraceLine.shown ↔
        ∀ line ∈ lines, '\n' ∉ line.message.toList) := by
  intro calls lines
  obtain ⟨now, own⟩ := history.exists_context
  have report : now.memory.report = ({} : Report).applyAll calls := by
    rw [history.report_eq own, created.report_eq]
  have cut : now.memory.report.cut = lines.flatMap fun line => line.shown.splitOn '\n' := by
    rw [report, Report.cut_applyAll]
  refine ⟨now, own, ?_, cut, ?_⟩
  · rw [report, Report.applyAll_eq_print]
  · rw [cut]
    exact Report.flatMap_splitOn_eq_iff lines

/-- Denies, under a name that goes on behind a newline. -/
private def guest : Policy :=
  .rule "guest\n\tResult: Permit" (.done (.ok (.deny "no" "NO")))

private def guestbook : Machine :=
  ⟨.decide (.enforce { bias := .deny } none guest .done), [], Host.scene {} (.resolution (.new []))⟩

private theorem guestbook_history :
    (Context.new []).History (guestbook.after 7) (guestbook.passed [] 7) :=
  (History.begin _ {}).after 7

private theorem guestbook_lines : Report.written 0 (History.calls (guestbook.passed [] 7)) =
    [⟨0, "guest\n\tResult: Permit"⟩, ⟨1, "Result: Deny(message=no, code=NO)"⟩] := rfl

/-- The second line has not been written by any call. -/
theorem Created.cut_report_guest :
    ∃ now, (guestbook.after 7).scene.context = .resolution now ∧
      now.memory.report.depth = 0 ∧
      now.memory.report.cut = ["guest".toList, "\tResult: Permit".toList,
        "\tResult: Deny(message=no, code=NO)".toList] := by
  obtain ⟨now, own, depth, cut, -⟩ := Created.cut_report (.new []) guestbook_history
  refine ⟨now, own, depth, cut.trans ?_⟩
  rw [guestbook_lines]
  decide +kernel

/-- Someone who has been denied shows as permitted. -/
theorem Created.not_cut_report :
    ¬∀ {start now : Context} {machine : Machine} {earlier : List Machine}, start.Created →
      start.History machine earlier → machine.scene.context = .resolution now →
      now.memory.report.cut =
        (Report.written 0 (History.calls earlier)).map TraceLine.shown := by
  intro law
  have whole := law (.new []) guestbook_history rfl
  rw [guestbook_lines] at whole
  exact absurd whole (by decide +kernel)

end Context

end AccessPolicy
