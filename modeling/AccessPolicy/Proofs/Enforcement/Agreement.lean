/-
One enforcement, told in several ways. The operations on a fresh context make the same enforcement as the one
on a given context, so they come to the same decision or error and leave the same host; they differ in what
they tell of it. Whether the bias has decided is found out by comparing decisions for a record, and by looking
at the policy's own decision for the log and the meter; as the bias changes no decision but an open one, these
always agree.
-/

import AccessPolicy.Proofs.Enforcement.Accounts

namespace AccessPolicy

/-! ### The bias -/

namespace Decision

/-- The bias changes a decision exactly if it is open, whatever its texts are. -/
theorem ne_withBias (bias : Bias) (own : Decision) :
    decide (own ≠ own.withBias bias) = own.isNotApplicable := by
  cases own with
  | permit => rfl
  | deny message code => exact decide_eq_false fun differs => differs rfl
  | notApplicable message =>
      apply decide_eq_true
      cases bias <;> exact fun same => nomatch same

theorem withBias_ne_notApplicable (bias : Bias) (own : Decision) (message : String) :
    own.withBias bias ≠ .notApplicable message := by
  cases own with
  | permit => exact fun same => nomatch same
  | deny ownMessage code => exact fun same => nomatch same
  | notApplicable ownMessage => cases bias <;> exact fun same => nomatch same

end Decision

/-! ### Meters -/

namespace Meter

def biased (calls : List Call) : Nat :=
  calls.countP (Call.succeeds fun outcome => outcome.own.isNotApplicable)

theorem biasApplied_record (meter : Meter) (call : Call) :
    (meter.record call).biasApplied = meter.biasApplied + UInt64.ofNat (biased [call]) := by
  unfold biased
  rw [List.countP_singleton]
  cases came : call.outcome with
  | ok outcome =>
      rw [meter.record_of_ok came, biasApplied_recordEvaluation, Call.succeeds_of_ok came]
      cases outcome.own.isNotApplicable <;> rfl
  | error error =>
      rw [meter.record_of_error came, Call.succeeds_of_error came]
      exact (UInt64.add_zero _).symm

theorem biasApplied_foldl_record (meter : Meter) (calls : List Call) :
    (calls.foldl record meter).biasApplied =
      meter.biasApplied + UInt64.ofNat (biased calls) := by
  induction calls generalizing meter with
  | nil => exact (UInt64.add_zero _).symm
  | cons call rest ih =>
      have split : biased ([call] ++ rest) = biased [call] + biased rest := List.countP_append
      change _ = meter.biasApplied + UInt64.ofNat (biased ([call] ++ rest))
      rw [List.foldl_cons, ih, biasApplied_record, split, UInt64.ofNat_add, UInt64.add_assoc]

end Meter

/-! ### One enforcement -/

namespace Scene

theorem journal_write (scene : Scene) (message : String) :
    (scene.write message).journal = scene.journal := by
  obtain ⟨host, context⟩ := scene
  cases context <;> rfl

theorem journal_unindent (scene : Scene) : scene.unindent.journal = scene.journal := by
  obtain ⟨host, context⟩ := scene
  cases context <;> rfl

end Scene

namespace Call

variable {call : Call} {own : Decision}

theorem events_of_ok (came : call.visit.result = .ok own) :
    call.last.journal.events = call.visit.last.journal.events ++
      [.evaluated call.policy.name (own.withBias (call.point.biasFor call.bias))
        (call.point.biasFor call.bias) own.isNotApplicable] := by
  rw [last_of_ok came]
  unfold EnforcementPoint.succeed
  rw [Scene.journal_updateMeter]
  unfold Scene.log Journal.log
  dsimp only
  rw [Scene.journal_unindent, Scene.journal_write]

theorem biasApplied_last (call : Call) {place : Nat} (counts : call.point.meter = some place)
    {first : Meter} (present : call.scene.meters[place]? = some first) :
    ∃ before after, call.visit.last.meters[place]? = some before ∧
      call.last.meters[place]? = some after ∧
      before.biasApplied = first.biasApplied +
        UInt64.ofNat (Meter.biased (Node.countedCalls place call.visit.nodes)) ∧
      after.biasApplied = before.biasApplied + UInt64.ofNat (Meter.biased [call]) := by
  have inside : Scene.Records place call.visit.nodes call.visit.scene call.visit.last :=
    call.policy.evaluate_told (Scene.Records.along place) call.policy.within_all call.visit.scene
  have opened : call.visit.scene.meters = call.scene.meters := by
    obtain ⟨point, bias, policy, ⟨host, context⟩⟩ := call
    cases context <;> rfl
  have ended := call.meters_last place
  unfold Scene.Records at inside
  rw [opened, present] at inside
  rw [if_pos counts, inside] at ended
  exact ⟨_, _, inside, ended, Meter.biasApplied_foldl_record _ _, Meter.biasApplied_record _ _⟩

/-- What a record tells of an enforcement agrees with its log and with its meter. -/
structure RecordedIn (call : Call) (record : EvaluationRecord) : Prop where
  own : call.visit.result = .ok record.ownDecision
  decision : record.decision = record.ownDecision.withBias (call.point.biasFor call.bias)
  report : record.report = call.last.trace
  biased : record.biasApplied = record.ownDecision.isNotApplicable
  logged : call.last.journal.events = call.visit.last.journal.events ++
    [.evaluated call.policy.name record.decision (call.point.biasFor call.bias) record.biasApplied]
  metered : ∀ place, call.point.meter = some place →
    ∀ first, call.scene.meters[place]? = some first →
    ∃ before after, call.visit.last.meters[place]? = some before ∧
      call.last.meters[place]? = some after ∧
      before.biasApplied = first.biasApplied +
        UInt64.ofNat (Meter.biased (Node.countedCalls place call.visit.nodes)) ∧
      after.biasApplied = before.biasApplied + if record.biasApplied then 1 else 0

theorem recordedIn_new (came : call.visit.result = .ok own) (stamp : Stamp) :
    call.RecordedIn
      ((EvaluationRecord.new stamp.id stamp.finished call.policy.name own
        (own.withBias (call.point.biasFor call.bias)) call.last.trace).withElapsed stamp.elapsed) := by
  have biased : decide (own ≠ own.withBias (call.point.biasFor call.bias)) = own.isNotApplicable :=
    own.ne_withBias _
  -- The record compares two decisions where the log and the meter look at the first one.
  refine ⟨came, rfl, rfl, biased, ?_, fun place counts first present => ?_⟩
  · rw [events_of_ok came]
    exact congrArg (fun told => _ ++ [Event.evaluated _ _ _ told]) biased.symm
  · obtain ⟨before, after, inside, last, grown, raised⟩ := call.biasApplied_last counts present
    refine ⟨before, after, inside, last, grown, raised.trans ?_⟩
    have outcome := call.outcome_eq
    rw [came] at outcome
    unfold Meter.biased
    rw [List.countP_singleton, succeeds_of_ok outcome]
    change _ = before.biasApplied + if decide (own ≠ own.withBias _) then 1 else 0
    rw [biased]
    cases own.isNotApplicable <;> rfl

end Call

/-! ### Operations -/

namespace EnforcementPoint

/-- The operations make one and the same enforcement, of a single policy as of a combined one. They come to
the same error, or to the policy's own decision after the bias, which is never open. A record has the report of
the enforcement and the policy's own decision, and says that the bias was applied exactly if this was open, as
the log and this enforcement's own count on its meter say. -/
theorem operations_agree (point : EnforcementPoint) (decisionPoint : DecisionPoint)
    (bias : Option Bias) (attributes : List InformationPoint) (policy : Policy) (stamp : Stamp)
    (host : Host) :
    let call : Call := ⟨point, bias, policy, decisionPoint.scene attributes host⟩
    let plain := point.evaluate decisionPoint bias attributes policy host
    let inContext := point.evaluateInContext bias policy (decisionPoint.scene attributes host)
    let reported := point.evaluateWithReport decisionPoint bias attributes policy host
    let recorded := point.evaluateWithRecord decisionPoint bias attributes policy stamp host
    (plain.1 = call.visit.result.map (Decision.withBias (bias.getD point.bias)) ∧
      ∀ message, plain.1 ≠ .ok (.notApplicable message)) ∧
    (inContext.1 = plain.1 ∧ reported.1.map Prod.fst = plain.1 ∧
      recorded.1.map EvaluationRecord.decision = plain.1) ∧
    (inContext.2.toHost = plain.2 ∧ reported.2 = plain.2 ∧ recorded.2 = plain.2 ∧
      call.last.toHost = plain.2) ∧
    (∀ record, recorded.1 = .ok record →
      reported.1 = .ok (record.decision, record.report) ∧ call.RecordedIn record) ∧
    ∀ algorithm policies, policy = .combined algorithm policies →
      point.evaluateAll decisionPoint algorithm bias attributes policies host = plain ∧
      point.evaluateAllWithReport decisionPoint algorithm bias attributes policies host = reported ∧
      point.evaluateAllWithRecord decisionPoint algorithm bias attributes policies stamp host =
        recorded := by
  intro call plain inContext reported recorded
  have outcome := call.outcome_eq
  have decided : plain.1 = call.visit.result.map (Decision.withBias (bias.getD point.bias)) := by
    change call.outcome.map Outcome.decision = _
    rw [outcome]
    cases call.visit.result <;> rfl
  have told : reported.1 = call.outcome.map fun outcome => (outcome.decision, call.last.trace) := rfl
  have written : recorded.1 = call.outcome.map fun outcome =>
      (EvaluationRecord.new stamp.id stamp.finished policy.name outcome.own outcome.decision
        call.last.trace).withElapsed stamp.elapsed := rfl
  refine ⟨⟨decided, fun message undecided => ?_⟩, ⟨rfl, ?_, ?_⟩, ⟨rfl, rfl, rfl, rfl⟩,
    fun record came => ?_, fun algorithm policies same => ?_⟩
  · rw [decided] at undecided
    cases came : call.visit.result with
    | error error =>
        rw [came] at undecided
        cases undecided
    | ok own =>
        rw [came] at undecided
        exact own.withBias_ne_notApplicable _ message (Except.ok.inj undecided)
  · rw [told, decided, outcome]
    cases call.visit.result <;> rfl
  · rw [written, decided, outcome]
    cases call.visit.result <;> rfl
  · rw [written, outcome] at came
    rw [told, outcome]
    cases ran : call.visit.result with
    | error error =>
        rw [ran] at came
        cases came
    | ok own =>
        rw [ran] at came
        cases came
        exact ⟨rfl, Call.recordedIn_new ran stamp⟩
  · subst same
    exact ⟨rfl, rfl, rfl⟩

private def auditor : EnforcementPoint := { bias := .deny, meter := some 0 }

private def openQuestion : Policy := .rule "question" (.done (.ok (.notApplicable "")))

/-- Leaves its decision to an enforcement of a policy that has none. -/
private def settled : Policy :=
  .rule "settled" (.enforce auditor (some .permit) openQuestion .done)

private def firstStamp : Stamp where
  id := ⟨0⟩
  finished := ⟨0, 0, 0⟩

/-- The meter counts the bias of an enforcement inside of the recorded one. -/
theorem not_biasApplied_iff_grown :
    ¬∀ (point : EnforcementPoint) (decisionPoint : DecisionPoint) (bias : Option Bias)
      (attributes : List InformationPoint) (policy : Policy) (stamp : Stamp) (host : Host)
      (place : Nat) (before after : Meter) (record : EvaluationRecord),
      point.meter = some place → host.meters[place]? = some before →
      (point.evaluateWithRecord decisionPoint bias attributes policy stamp host).1 = .ok record →
      (point.evaluateWithRecord decisionPoint bias attributes policy stamp host).2.meters[place]? =
        some after →
      (record.biasApplied = true ↔ after.biasApplied = before.biasApplied + 1) := by
  intro law
  let host : Host := { meters := [{ service := "engine" }] }
  let recorded := auditor.evaluateWithRecord {} none [] settled firstStamp host
  have told : recorded.1.map EvaluationRecord.biasApplied = .ok false := rfl
  have counted : recorded.2.meters[0]?.map Meter.biasApplied = some 1 := rfl
  cases came : recorded.1 with
  | error error =>
      rw [came] at told
      cases told
  | ok record =>
      obtain ⟨after, last, grown⟩ := Option.map_eq_some_iff.mp counted
      have applied := (law auditor {} none [] settled firstStamp host 0 _ after record rfl rfl came
        last).mpr grown
      rw [came] at told
      have unapplied : record.biasApplied = false := Except.ok.inj told
      rw [unapplied] at applied
      cases applied

end EnforcementPoint

end AccessPolicy
