/-
Enforcements that fail. An enforcement comes to a failure exactly when one is raised in its run, and it is
the one that was raised first; from then on the run only unwinds, and the enforcement logs and meters the
failure and nothing else.
-/

import AccessPolicy.Proofs.Engine.Failures
import AccessPolicy.Proofs.Engine.Stack
import AccessPolicy.Proofs.Telemetry.Counters

namespace AccessPolicy

namespace EnforcementPoint

theorem evaluateInContext_eq_conclude (point : EnforcementPoint) (bias : Option Bias)
    (policy : Policy) (scene : Scene) :
    point.evaluateInContext bias policy scene =
      point.conclude (point.biasFor bias) policy.name scene.stats
        (policy.evaluate (scene.write policy.name).indent).2
        (policy.evaluate (scene.write policy.name).indent).1 := by
  unfold evaluateInContext enforcePolicy enforce
  cases policy.evaluate (scene.write policy.name).indent with
  | mk result after =>
      cases result with
      | ok own => rfl
      | error error => rfl

end EnforcementPoint

theorem Policy.Candid.meters_evaluate {policy : Policy} (candid : policy.Candid) (scene : Scene) :
    (policy.evaluate scene).2.meters = scene.meters := by
  have closed : Scene.ClosedUnder (fun _ _ => False)
      (fun before after => after.meters = before.meters) := {
    refl := fun scene => rfl
    trans := fun left right => right.trans left
    answer := fun request scene => rfl
    enforced := fun _ _ _ allowed => allowed.elim }
  exact policy.evaluate_related closed candid.enforcesNothing scene

namespace EnforcementPoint

/-- The meter of the point has counted an error, and no other meter has counted anything. -/
structure MetersError (point : EnforcementPoint) (error : Error) (before after : List Meter) :
    Prop where
  length : after.length = before.length
  own : ∀ place old, point.meter = some place → before[place]? = some old →
    ∃ new, after[place]? = some new ∧ Meter.CountsError error old new
  others : ∀ place, point.meter ≠ some place → after[place]? = before[place]?

theorem MetersError.of_updateMeter (point : EnforcementPoint) (error : Error) (scene : Scene) :
    point.MetersError error scene.meters
      (scene.updateMeter point.meter fun meter => meter.recordError error).meters := by
  cases counted : point.meter with
  | none =>
      have unmetered (place : Nat) : point.meter ≠ some place := by simp [counted]
      exact ⟨rfl, fun place _ here => absurd here (unmetered place), fun _ _ => rfl⟩
  | some index =>
      change point.MetersError error scene.meters
        (scene.meters.modify index fun meter => meter.recordError error)
      constructor
      case length => exact List.length_modify ..
      case own =>
        intro place old here found
        cases counted.symm.trans here
        refine ⟨old.recordError error, ?_, old.countsError_recordError error⟩
        rw [List.getElem?_modify_eq, found]
        rfl
      case others =>
        intro place elsewhere
        have apart : index ≠ place := fun same => elsewhere (same ▸ counted)
        exact List.getElem?_modify_ne _ _ apart

/-- An enforcement that has failed has left what the run had come to when the failure was raised, and has
logged and metered the failure. -/
structure Failed (point : EnforcementPoint) (name : String) (error : Error) (start raised : Scene)
    (enforced : Except Error Decision × Scene) : Prop where
  result : enforced.1 = .error error
  context : raised.context.Unwinds enforced.2.context
  journal : enforced.2.journal = raised.journal.log (.failed name error)
  meters : point.MetersError error start.meters enforced.2.meters

theorem Failed.of_carried (point : EnforcementPoint) (bias : Bias) (name : String)
    (before : ResolutionStats) (error : Error) {start raised after : Scene}
    (unwinds : raised.Unwinds after) (meters : after.meters = start.meters) :
    Failed point name error start raised (point.conclude bias name before after (.error error)) := by
  have closed := Scene.Unwinds.unindent after
  change Failed point name error start raised (.error error, point.fail name error after.unindent)
  unfold fail
  refine ⟨rfl, ?_, ?_, ?_⟩
  · rw [Scene.context_updateMeter]
    exact unwinds.context.trans closed.context
  · rw [Scene.journal_updateMeter]
    change after.unindent.journal.log _ = _
    rw [closed.host, unwinds.host]
  · have same : (after.unindent.log (.failed name error)).meters = start.meters := by
      change after.unindent.meters = start.meters
      rw [closed.host, meters]
    rw [← same]
    exact .of_updateMeter point error _

theorem decides_or_failing (point : EnforcementPoint) (bias : Option Bias) {policy : Policy}
    (candid : policy.Candid) {scene : Scene} (points : scene.Candid) :
    let task := Task.enforce point bias policy
    let enforced := point.evaluateInContext bias policy scene
    ∃ states, Machine.Path (task.start scene) states (task.finish scene) ∧
      (((∃ decision, enforced.1 = .ok decision) ∧
          ∀ state ∈ states, ∀ error, ¬state.Raises error) ∨
        ∃ error before state raised later,
          Machine.Failing states error before state raised later ∧
            Failed point policy.name error scene raised enforced) := by
  intro task enforced
  let opened := (scene.write policy.name).indent
  let base : List Frame := [.enforcement point (point.biasFor bias) policy.name scene.stats]
  have concluded : enforced = point.conclude (point.biasFor bias) policy.name scene.stats
      (policy.evaluate opened).2 (policy.evaluate opened).1 :=
    point.evaluateInContext_eq_conclude bias policy scene
  have meters : (policy.evaluate opened).2.meters = scene.meters :=
    candid.meters_evaluate opened
  -- The run of the policy is looked at by itself and then put over the frame of the enforcement, which
  -- is no frame that passes a failure on unchanged.
  obtain ⟨inside, path⟩ := Machine.Path.of_leads (Machine.evaluate_leads policy [] opened)
  have start : Machine.Candid ⟨.evaluate policy, [], opened⟩ :=
    ⟨candid, fun _ within => nomatch within⟩
  have still : opened.Candid :=
    points.of_beside ((Scene.Beside.write scene policy.name).trans (.indent _))
  have quiet : ∀ other, ¬(task.start scene).Raises other := Machine.not_raises_of_step rfl rfl
  have outcome := path.raises_none_or_failing base start still rfl
  have lifted := path.above base
  have finish : task.finish scene = ⟨.decision enforced.1, [], enforced.2⟩ := rfl
  rw [finish, concluded]
  cases evaluated : policy.evaluate opened with
  | mk result after =>
      rw [evaluated] at lifted outcome meters
      let closing : Machine := ⟨.decision result, base, after⟩
      refine ⟨_, .step rfl (lifted.trans (.step rfl (.refl _))), ?_⟩
      rcases outcome with ⟨sound, none⟩ | ⟨error, before, state, raised, later, failing, ends⟩
      · cases result with
        | error error => cases sound
        | ok own =>
            have closed : ∀ other, ¬closing.Raises other := Machine.not_raises_of_step rfl rfl
            refine .inl ⟨⟨_, rfl⟩, fun state within => ?_⟩
            rcases List.mem_cons.mp within with first | further
            · rw [first]
              exact quiet
            · rcases List.mem_append.mp further with inner | last
              · exact none state inner
              · rw [List.mem_singleton.mp last]
                exact closed
      · cases result with
        | ok own => cases ends.failing
        | error failed =>
            cases ends.failing
            have carries : closing.Carries error raised := ⟨rfl, ends.unwinds⟩
            refine .inr ⟨error, _, state, raised, _, (failing.snoc carries).cons quiet, ?_⟩
            exact .of_carried point (point.biasFor bias) policy.name scene.stats error ends.unwinds
              meters

/-- An enforcement fails with the first failure that is raised in its run, and only so. From the step that
raises it on every state carries this failure, and nothing is begun, cached, written or counted; the failure
is logged and metered, and no decision is. -/
theorem fails_iff_raised (point : EnforcementPoint) (bias : Option Bias) {policy : Policy}
    (candid : policy.Candid) {context : Context}
    (points : ∀ information ∈ context.points, information.provide.Candid) (host : Host) :
    let scene := host.scene (.resolution context)
    let task := Task.enforce point bias policy
    let enforced := point.evaluateInContext bias policy scene
    ∃ states, Machine.Path (task.start scene) states (task.finish scene) ∧
      (∀ error, enforced.1 = .error error ↔
        ∃ before state later, states = before ++ state :: later ∧
          (∀ earlier ∈ before, ∀ other, ¬earlier.Raises other) ∧ state.Raises error) ∧
      ∀ before state later error, states = before ++ state :: later → state.Raises error →
        ∃ next, state.step = some next ∧
          (∀ after ∈ later, after.Carries error next.scene) ∧
          next.scene.context.Unwinds enforced.2.context ∧
          enforced.2.journal = next.scene.journal.log (.failed policy.name error) ∧
          point.MetersError error host.meters enforced.2.meters := by
  intro scene task enforced
  obtain ⟨states, path, outcome⟩ :=
    point.decides_or_failing bias candid (⟨context, rfl, points⟩ : scene.Candid)
  refine ⟨states, path, ?_⟩
  rcases outcome with ⟨⟨decision, decided⟩, none⟩ |
    ⟨error, before, state, raised, later, failing, failed⟩
  · refine ⟨fun error => ⟨fun fails => ?_, fun raised => ?_⟩, ?_⟩
    · cases decided.symm.trans fails
    · obtain ⟨before, state, later, split, first, raises⟩ := raised
      have member : state ∈ states := by
        rw [split]
        exact List.mem_append_right _ List.mem_cons_self
      exact absurd raises (none state member error)
    · intro before state later error split raises
      have member : state ∈ states := by
        rw [split]
        exact List.mem_append_right _ List.mem_cons_self
      exact absurd raises (none state member error)
  · refine ⟨fun other => ⟨fun fails => ?_, fun found => ?_⟩, ?_⟩
    · cases failed.result.symm.trans fails
      exact ⟨before, state, later, failing.split, failing.first, failing.raises⟩
    · obtain ⟨others, machine, rest, split, first, raises⟩ := found
      obtain ⟨_, _, _, same⟩ := failing.unique split raises
      rw [same]
      exact failed.result
    · intro others machine rest other split raises
      obtain ⟨_, here, after, same⟩ := failing.unique split raises
      subst here after same
      obtain ⟨next, stepped, scenes⟩ := failing.leads
      subst scenes
      exact ⟨next, stepped, failing.carried, failed.context, failed.journal, failed.meters⟩

/-- One of the points reads the value of the other one at a kind that it does not have. -/
private def confused : List InformationPoint :=
  [{ name := "role", provide := .done (.ok ⟨.text, "guest"⟩) },
    { name := "admin", provide := (Program.get (Key.mk "role" : Key .bool)).bind fun admin =>
        .done (.ok ⟨.bool, admin⟩) }]

private def lenient : Policy :=
  .combined .permitOverride
    [.rule "open" (.done (.ok .permit)),
      .combined .firstApplicable
        [.rule "staff" (.afterValue (.get (Key.mk "admin" : Key .bool)) fun _ =>
          .done (.ok .permit))]]

private def counted : EnforcementPoint := { bias := .deny, meter := some 0 }

private theorem lenient_candid : lenient.Candid := by
  have staff : (Policy.rule "staff" (.afterValue (.get (Key.mk "admin" : Key .bool)) fun _ =>
      .done (.ok .permit))).Candid := .rule _ _ (.afterGet _ fun _ => .done _)
  apply Policy.Candid.combined
  intro member within
  simp only [List.mem_cons, List.not_mem_nil, or_false] at within
  rcases within with rfl | rfl
  · exact .rule _ _ (.done _)
  · apply Policy.Candid.combined
    intro member within
    rw [List.mem_singleton.mp within]
    exact staff

/-- The member that permits comes first, and the failure is raised two levels deeper. -/
theorem fails_iff_raised_confused :
    lenient.Candid ∧ (∀ information ∈ confused, information.provide.Candid) ∧
      let host : Host := { meters := [{ service := "engine" }] }
      let enforced :=
        counted.evaluateInContext none lenient (host.scene (.resolution (.new confused)))
      enforced.1 = .error (.attributeType "role" "bool") ∧
        ∃ meter, enforced.2.meters = [meter] ∧ meter.errors = 1 ∧
          meter.errorsByCategory.lookup .attributeType = some 1 ∧
          meter.errorsByCategory.lookup .policy = none ∧ meter.permits = 0 ∧ meter.denies = 0 := by
  have provided : ∀ information ∈ confused, information.provide.Candid := by
    intro information within
    simp only [confused, List.mem_cons, List.not_mem_nil, or_false] at within
    rcases within with rfl | rfl
    · exact .done _
    · exact .get _ fun _ => .done _
  refine ⟨lenient_candid, provided, ?_⟩
  intro host enforced
  let scene := host.scene (.resolution (.new confused))
  let start := Task.start (.enforce counted none lenient) scene
  have decided : enforced.1 = .error (.attributeType "role" "bool") := by
    obtain ⟨n, reached⟩ := Task.leads (.enforce counted none lenient) scene
    have ends : (start.after n).step = none := by
      rw [reached]
      rfl
    have last := Machine.eq_of_halted ends (rfl : (start.after 30).step = none)
    rw [reached] at last
    exact Focus.decision.inj (congrArg Machine.focus last)
  have points : ∀ information ∈ (Context.new confused).points, information.provide.Candid :=
    provided
  obtain ⟨states, path, fails, after⟩ :=
    counted.fails_iff_raised none lenient_candid points host
  obtain ⟨before, state, later, split, first, raises⟩ := (fails _).mp decided
  obtain ⟨next, stepped, carried, context, journal, meters⟩ :=
    after before state later _ split raises
  obtain ⟨meter, here, counts⟩ := meters.own 0 _ rfl rfl
  have only : enforced.2.meters = [meter] := by
    obtain ⟨first, single⟩ := List.length_eq_one_iff.mp meters.length
    change enforced.2.meters = [first] at single
    change enforced.2.meters[0]? = some meter at here
    rw [single] at here ⊢
    cases here
    rfl
  refine ⟨decided, meter, only, counts.errors, counts.category, ?_, ?_, ?_⟩
  · exact counts.others .policy (by decide)
  · exact congrArg Meter.permits counts.rest
  · exact congrArg Meter.denies counts.rest

end EnforcementPoint

end AccessPolicy
