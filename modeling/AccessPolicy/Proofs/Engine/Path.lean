/-
Runs as the lists of the states that they go through. What waits under a part of a run does not come into
it: the part goes through the same states over any further frames, so what is to be told of a part is told
once, with nothing under it.
-/

import AccessPolicy.Proofs.Engine.Halting

namespace AccessPolicy

namespace Machine

theorem eq_of_halted {machine : Machine} {n m : Nat} (first : (machine.after n).step = none)
    (second : (machine.after m).step = none) : machine.after n = machine.after m := by
  rw [← after_of_halted first m, ← after_add, Nat.add_comm, after_add, after_of_halted second n]

/-- From a state, through this one and the others of the list, to the last one. -/
inductive Path : Machine → List Machine → Machine → Prop
  | refl (machine : Machine) : Path machine [] machine
  | step {machine next last : Machine} {states : List Machine}
      (stepped : machine.step = some next) (rest : Path next states last) :
      Path machine (machine :: states) last

namespace Path

theorem trans {first second third : Machine} {early late : List Machine}
    (left : Path first early second) (right : Path second late third) :
    Path first (early ++ late) third := by
  induction left with
  | refl machine => exact right
  | step stepped rest ih => exact .step stepped (ih right)

theorem of_leads {first last : Machine} (leads : first.Leads last) :
    ∃ states, Path first states last := by
  obtain ⟨n, reached⟩ := leads
  induction n generalizing first with
  | zero =>
      subst reached
      exact ⟨[], .refl first⟩
  | succ n ih =>
      cases stepped : first.step with
      | some next =>
          rw [after_succ stepped] at reached
          obtain ⟨states, path⟩ := ih reached
          exact ⟨first :: states, .step stepped path⟩
      | none =>
          rw [after_of_halted stepped] at reached
          subst reached
          exact ⟨[], .refl first⟩

theorem leads {first last : Machine} {states : List Machine} (path : Path first states last) :
    first.Leads last := by
  induction path with
  | refl machine => exact .refl machine
  | step stepped rest ih => exact .step stepped ih

end Path

/-! ### What an answer or a decision is told to -/

section

variable {frames : List Frame} {scene : Scene} {next : Machine}

theorem step_answer_inv {answer : Except Error Value}
    (stepped : step ⟨.answer answer, frames, scene⟩ = some next) :
    (∃ name resume rest, frames = .point name resume :: rest ∧
      next = ⟨.provide name (resume answer), rest, scene⟩) ∨
    ∃ resume rest, frames = .rule resume :: rest ∧
      next = ⟨.decide (resume answer), rest, scene⟩ := by
  cases frames with
  | nil => cases stepped
  | cons frame rest =>
      cases frame with
      | point name resume =>
          exact .inl ⟨name, resume, rest, rfl, (Option.some.inj stepped).symm⟩
      | rule resume => exact .inr ⟨resume, rest, rfl, (Option.some.inj stepped).symm⟩
      | policy resume => cases stepped
      | member => cases stepped
      | members algorithm tally others => cases stepped
      | enforcement point bias name before => cases stepped

theorem step_decision_inv {result : Except Error Decision}
    (stepped : step ⟨.decision result, frames, scene⟩ = some next) :
    (∃ resume rest, frames = .policy resume :: rest ∧
      next = ⟨.decide (resume result), rest, scene⟩) ∨
    (∃ rest, frames = .member :: rest ∧ next = ⟨.decision result, rest, scene.close result⟩) ∨
    (∃ algorithm tally others rest, frames = .members algorithm tally others :: rest ∧
      next = proceed algorithm tally others rest scene result) ∨
    ∃ point bias name before rest, frames = .enforcement point bias name before :: rest ∧
      next = ⟨.decision (point.conclude bias name before scene result).1, rest,
        (point.conclude bias name before scene result).2⟩ := by
  cases frames with
  | nil => cases stepped
  | cons frame rest =>
      cases frame with
      | point name resume => cases stepped
      | rule resume => cases stepped
      | policy resume => exact .inl ⟨resume, rest, rfl, (Option.some.inj stepped).symm⟩
      | member => exact .inr (.inl ⟨rest, rfl, (Option.some.inj stepped).symm⟩)
      | members algorithm tally others =>
          have same := (Option.some.inj stepped).symm
          exact .inr (.inr (.inl ⟨algorithm, tally, others, rest, rfl, same⟩))
      | enforcement point bias name before =>
          have same := (Option.some.inj stepped).symm
          exact .inr (.inr (.inr ⟨point, bias, name, before, rest, rfl, same⟩))

end

/-! ### Further frames -/

/-- The state with some more frames under its own. -/
def above (base : List Frame) (machine : Machine) : Machine :=
  { machine with frames := machine.frames ++ base }

variable (base : List Frame)

theorem request_above (name : String) (frames : List Frame) (scene : Scene) :
    request name (frames ++ base) scene = (request name frames scene).above base := by
  unfold request
  cases scene.context with
  | foreign trace => rfl
  | resolution context =>
      dsimp only
      cases context.memory.cache.find? name with
      | some value => rfl
      | none =>
          dsimp only
          split
          · rfl
          · rfl

theorem lookUp_above (name : String) (frames : List Frame) (scene : Scene) :
    lookUp name (frames ++ base) scene = (lookUp name frames scene).above base := by
  unfold lookUp
  cases scene.context with
  | foreign trace => rfl
  | resolution context =>
      dsimp only
      cases registered? context.points name with
      | none => rfl
      | some point => rfl

theorem provide_above (name : String) (frames : List Frame) (scene : Scene)
    (program : Program Value) :
    provide name (frames ++ base) scene program =
      (provide name frames scene program).above base := by
  cases program with
  | done result => cases result <;> rfl
  | ask request next => cases request <;> rfl

theorem decide_above (frames : List Frame) (scene : Scene) (body : Procedure) :
    decide (frames ++ base) scene body = (decide frames scene body).above base := by
  cases body with
  | done result => rfl
  | ask request next => cases request <;> rfl
  | evaluate policy next => rfl
  | enforce point bias policy next => rfl

theorem combine_above (algorithm : Algorithm) (tally : Algorithm.Tally) (frames : List Frame)
    (scene : Scene) (members : List Policy) :
    combine algorithm tally (frames ++ base) scene members =
      (combine algorithm tally frames scene members).above base := by
  cases members <;> rfl

theorem proceed_above (algorithm : Algorithm) (tally : Algorithm.Tally) (rest : List Policy)
    (frames : List Frame) (scene : Scene) (result : Except Error Decision) :
    proceed algorithm tally rest (frames ++ base) scene result =
      (proceed algorithm tally rest frames scene result).above base := by
  cases result with
  | error error => rfl
  | ok decision =>
      unfold proceed
      dsimp only
      split
      · rfl
      · rfl

theorem step_above {machine next : Machine} (stepped : machine.step = some next) :
    (machine.above base).step = some (next.above base) := by
  obtain ⟨focus, frames, scene⟩ := machine
  cases focus with
  | request name =>
      rw [← Option.some.inj stepped]
      exact congrArg some (request_above base name frames scene)
  | lookUp name =>
      rw [← Option.some.inj stepped]
      exact congrArg some (lookUp_above base name frames scene)
  | provide name program =>
      rw [← Option.some.inj stepped]
      exact congrArg some (provide_above base name frames scene program)
  | leave name answer =>
      rw [← Option.some.inj stepped]
      rfl
  | decide body =>
      rw [← Option.some.inj stepped]
      exact congrArg some (decide_above base frames scene body)
  | evaluate policy =>
      cases policy <;> rw [← Option.some.inj stepped] <;> rfl
  | enforce point bias policy =>
      rw [← Option.some.inj stepped]
      rfl
  | combine algorithm tally members =>
      rw [← Option.some.inj stepped]
      exact congrArg some (combine_above base algorithm tally frames scene members)
  | answer answer =>
      rcases step_answer_inv stepped with ⟨name, resume, rest, rfl, rfl⟩ | ⟨resume, rest, rfl, rfl⟩
      · rfl
      · rfl
  | decision result =>
      rcases step_decision_inv stepped with ⟨resume, rest, rfl, rfl⟩ | ⟨rest, rfl, rfl⟩ |
        ⟨algorithm, tally, others, rest, rfl, rfl⟩ | ⟨point, bias, name, before, rest, rfl, rfl⟩
      · rfl
      · rfl
      · exact congrArg some (proceed_above base algorithm tally others rest scene result)
      · rfl

theorem Path.above {first last : Machine} {states : List Machine} (path : Path first states last) :
    Path (first.above base) (states.map (Machine.above base)) (last.above base) := by
  induction path with
  | refl machine => exact .refl _
  | step stepped rest ih => exact .step (step_above base stepped) ih

end Machine

end AccessPolicy
