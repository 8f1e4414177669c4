/-
What the count of misses stands for. A request that starts a point is counted when the point has come to a
value. The point may still be running, or have failed, and then there is nothing in the counts to tell of it:
so the misses are the requests that ran a point just as long as no point fails.
-/

import AccessPolicy.Proofs.Engine.Representation

namespace AccessPolicy

/-! ### Stages of a point -/

inductive Stage
  | started
  | completed
  | failed
  deriving DecidableEq

def Occurrence.stage? : Occurrence → Option Stage
  | .started _ => some .started
  | .ended _ (.ok _) => some .completed
  | .ended _ (.error _) => some .failed
  | .answered _ _ => none

/-- How many points have been started, how many have come to a value and how many have failed; one that runs
again is counted again. -/
def times (stage : Stage) (focus : Focus) (earlier : List Machine) : Nat :=
  (chronicle focus earlier).countP fun occurrence => occurrence.stage? = some stage

theorem times_cons (stage : Stage) (focus : Focus) (machine : Machine) (earlier : List Machine) :
    times stage focus (machine :: earlier) =
      times stage machine.focus earlier +
        if (Occurrence.between machine.focus focus).bind Occurrence.stage? = some stage then 1
        else 0 := by
  have split : times stage focus (machine :: earlier) = times stage machine.focus earlier +
      (Occurrence.between machine.focus focus).toList.countP
        fun occurrence => occurrence.stage? = some stage := List.countP_append
  rw [split]
  cases Occurrence.between machine.focus focus with
  | none => simp
  | some occurrence => simp

theorem times_of_quiet {focus : Focus} {machine : Machine}
    (nothing : (Occurrence.between machine.focus focus).bind Occurrence.stage? = none)
    (stage : Stage) (earlier : List Machine) :
    times stage focus (machine :: earlier) = times stage machine.focus earlier := by
  rw [times_cons, nothing]
  simp

/-! ### Running points -/

def Focus.runCount (focus : Focus) (frames : List Frame) : Nat :=
  focus.provides?.toList.length + (frames.filterMap Frame.key?).length

theorem Machine.length_running (machine : Machine) :
    machine.running.length = machine.focus.runCount machine.frames := by
  unfold running waiting Focus.runCount
  rw [List.length_append, List.length_reverse]
  omega

/-- Every point that has been started has come to a value, has failed or runs. -/
structure Context.Counted (focus : Focus) (frames : List Frame) (now : Context)
    (earlier : List Machine) : Prop where
  completed : now.memory.stats.cacheMisses = times .completed focus earlier
  started : times .started focus earlier =
    times .completed focus earlier + times .failed focus earlier + focus.runCount frames

namespace Context.Counted

variable {focus next : Focus} {frames rest : List Frame} {scene : Scene} {now after : Context}
  {earlier : List Machine}

theorem of_quiet (counted : Counted focus frames now earlier)
    (nothing : (Occurrence.between focus next).bind Occurrence.stage? = none)
    (misses : after.memory.stats.cacheMisses = now.memory.stats.cacheMisses)
    (same : next.runCount rest = focus.runCount frames) :
    Counted next rest after (⟨focus, frames, scene⟩ :: earlier) := by
  have still (stage : Stage) : times stage next (⟨focus, frames, scene⟩ :: earlier) =
      times stage focus earlier := times_of_quiet nothing stage earlier
  constructor
  · rw [still, misses]
    exact counted.completed
  · rw [still, still, still, same]
    exact counted.started

theorem move {machine : Machine} (counted : Counted machine.focus machine.frames now earlier)
    (moved : Move machine.focus machine.frames now focus rest after) :
    Counted focus rest after (machine :: earlier) := by
  obtain ⟨place, frames, scene⟩ := machine
  dsimp only at counted moved
  have completed := counted.completed
  have started := counted.started
  cases moved with
  | hit cached report => exact counted.of_quiet rfl rfl rfl
  | cyclic uncached member => exact counted.of_quiet rfl rfl rfl
  | enter uncached fresh => exact counted.of_quiet rfl rfl rfl
  | missing absent report => exact counted.of_quiet rfl rfl rfl
  | start found =>
      constructor
      · simpa [times_cons, Occurrence.between, Occurrence.stage?] using completed
      · simp [times_cons, Occurrence.between, Occurrence.stage?, Focus.runCount,
          Focus.provides?] at started ⊢
        omega
  | keep report =>
      constructor
      · simpa [times_cons, Occurrence.between, Occurrence.stage?, Context.keep] using completed
      · simp [times_cons, Occurrence.between, Occurrence.stage?, Focus.runCount,
          Focus.provides?] at started ⊢
        omega
  | fail =>
      constructor
      · simpa [times_cons, Occurrence.between, Occurrence.stage?] using completed
      · simp [times_cons, Occurrence.between, Occurrence.stage?, Focus.runCount,
          Focus.provides?] at started ⊢
        omega
  | ask =>
      refine counted.of_quiet rfl rfl ?_
      simp [Focus.runCount, Focus.provides?, Frame.key?]
      omega
  | aside isAside answer report => exact counted.of_quiet rfl rfl rfl
  | leave => exact counted.of_quiet rfl rfl rfl
  | resume =>
      refine counted.of_quiet rfl rfl ?_
      simp [Focus.runCount, Focus.provides?, Frame.key?]
      omega
  | consult => exact counted.of_quiet rfl rfl rfl
  | told => exact counted.of_quiet rfl rfl rfl
  | policy onPolicy still keys report =>
      apply counted.of_quiet
      · rw [Occurrence.between_of_decides onPolicy]
        rfl
      · rfl
      · unfold Focus.runCount
        rw [keys, Focus.provides?_of_decides onPolicy, Focus.provides?_of_decides still]

end Context.Counted

/-! ### Histories -/

namespace Context

theorem History.counted {start : Context} (uncounted : start.memory.stats = {}) {machine : Machine}
    {earlier : List Machine} (history : start.History machine earlier) {now : Context}
    (own : machine.scene.context = .resolution now) :
    Counted machine.focus machine.frames now earlier := by
  refine history.invariant (motive := Counted) ?_ ?_ ?_ own
  · intro client
    exact ⟨by rw [uncounted]; rfl, rfl⟩
  · intro machine earlier now focus frames after _ _ counted moved
    exact counted.move moved
  · intro result scene now client earlier counted
    exact counted.of_quiet rfl rfl rfl

/-- At every moment the misses are the points that have come to a value. The points that have been started are
these, those that have failed and those that run, so there are as many misses as points that have been started
just if none has failed and none runs. -/
theorem Created.misses_eq_completed {start : Context} (created : start.Created) {machine : Machine}
    {earlier : List Machine} (history : start.History machine earlier) :
    ∃ now, machine.scene.context = .resolution now ∧
      now.memory.stats.cacheMisses = times .completed machine.focus earlier ∧
      times .started machine.focus earlier =
        now.memory.stats.cacheMisses + times .failed machine.focus earlier +
          machine.running.length ∧
      (now.memory.stats.cacheMisses = times .started machine.focus earlier ↔
        times .failed machine.focus earlier = 0 ∧ machine.running = []) := by
  obtain ⟨now, own⟩ := history.exists_context
  obtain ⟨completed, started⟩ := history.counted created.stats_eq own
  rw [← completed, ← machine.length_running] at started
  refine ⟨now, own, completed, started, ?_⟩
  rw [started, ← List.length_eq_zero_iff]
  omega

/-- One point fails when it is asked for the first time, and another one asks for it again. -/
private def faltering : List InformationPoint :=
  [{ name := "busy",
     provide := (Program.count "calls").bind fun n =>
       .done (if n = 1 then .error (.policy (.failure "busy")) else .ok .unit) },
    { name := "patient", provide := (Program.resolve "busy").orElse (.resolve "busy") }]

private def retried : Machine := ((new faltering).asked ["patient", "busy"]).after 24

private def retriedBefore : List Machine :=
  ((new faltering).asked ["patient", "busy"]).passed [] 24

/-- Three times a point has been started, and two misses are counted. -/
theorem misses_eq_completed_faltering :
    (new faltering).Created ∧ (new faltering).History retried retriedBefore ∧
      ∃ now, retried.scene.context = .resolution now ∧ now.memory.stats.cacheMisses = 2 ∧
        times .started retried.focus retriedBefore = 3 := by
  have created : (new faltering).Created := .new faltering
  have history : (new faltering).History retried retriedBefore :=
    (History.begin (.asking ["patient", "busy"]) {}).after 24
  obtain ⟨now, own, completed, started, _⟩ := created.misses_eq_completed history
  have twice : times .completed retried.focus retriedBefore = 2 := by rfl
  have once : times .failed retried.focus retriedBefore = 1 := by rfl
  have idle : retried.running.length = 0 := by rfl
  refine ⟨created, history, now, own, by rw [completed, twice], ?_⟩
  omega

/-- The point has been started for the request, and no miss is counted when it is over. -/
theorem not_misses_eq_started :
    ¬ ∀ (points : List InformationPoint) (machine : Machine) (earlier : List Machine) (now : Context),
      (new points).History machine earlier → machine.scene.context = .resolution now →
        machine.running = [] →
          now.memory.stats.cacheMisses = times .started machine.focus earlier := by
  intro counts
  let points : List InformationPoint :=
    [{ name := "age", provide := .fail (.policy (.failure "no registry")) }]
  let client := (new points).asked ["age"]
  have history : (new points).History (client.after 6) (client.passed [] 6) :=
    (History.begin (.asking ["age"]) {}).after 6
  obtain ⟨now, own⟩ := history.exists_context
  have misses : now.memory.stats.cacheMisses = times .completed (client.after 6).focus
      (client.passed [] 6) := (history.counted rfl own).completed
  have equal := counts points _ _ now history own (by rfl)
  rw [misses] at equal
  have none : times .completed (client.after 6).focus (client.passed [] 6) = 0 := by rfl
  have one : times .started (client.after 6).focus (client.passed [] 6) = 1 := by rfl
  omega

end Context

end AccessPolicy
