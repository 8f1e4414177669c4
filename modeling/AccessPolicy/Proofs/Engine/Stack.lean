/-
The keys in flight along a run. They are those that were in flight when it began, then one for each
point that waits for a request, then at most the key that the run is at. So they are different keys, the
running points are registered under them, and no more of them run than keys are registered.
-/

import AccessPolicy.Proofs.Engine.Moves
import Mathlib.Data.List.Perm.Subperm

namespace AccessPolicy

/-! ### Scenes -/

namespace Scene

def stack (scene : Scene) : Option (List InformationPoint × List String) :=
  match scene.context with
  | .resolution context => some (context.points, context.inFlight)
  | .foreign _ => none

variable {scene : Scene} {points : List InformationPoint} {inFlight : List String}

theorem stack_of_context {context : Context} (own : scene.context = .resolution context) :
    scene.stack = some (context.points, context.inFlight) := by
  unfold stack
  rw [own]

theorem context_of_stack (stacked : scene.stack = some (points, inFlight)) :
    ∃ context, scene.context = .resolution context ∧ context.points = points ∧
      context.inFlight = inFlight := by
  obtain ⟨host, context⟩ := scene
  cases context with
  | foreign trace => cases stacked
  | resolution context =>
      have parts := Prod.mk.inj (Option.some.inj stacked)
      exact ⟨context, rfl, parts.1, parts.2⟩

end Scene

/-! ### Machines -/

namespace Focus

def key? : Focus → Option String
  | .lookUp name => some name
  | .provide name _ => some name
  | .leave name _ => some name
  | _ => none

def provides? : Focus → Option String
  | .provide name _ => some name
  | _ => none

theorem key?_of_decides {focus : Focus} (decides : focus.decides = true) : focus.key? = none := by
  cases focus <;> first | rfl | cases decides

theorem provides?_of_decides {focus : Focus} (decides : focus.decides = true) :
    focus.provides? = none := by
  cases focus <;> first | rfl | cases decides

end Focus

namespace Machine

def waiting (machine : Machine) : List String := (machine.frames.filterMap Frame.key?).reverse

/-- The keys of the points that have been started and not left, outermost first. -/
def running (machine : Machine) : List String :=
  machine.waiting ++ machine.focus.provides?.toList

/-- In a run that began in a context, the keys in flight and the running points. -/
structure Stacked (context : Context) (machine : Machine) : Prop where
  stack : machine.scene.stack =
    some (context.points, context.inFlight ++ machine.waiting ++ machine.focus.key?.toList)
  distinct : (context.inFlight ++ machine.waiting ++ machine.focus.key?.toList).Nodup
  registered : ∀ name ∈ machine.running, (registered? context.points name).isSome

namespace Stacked

variable {context : Context} {frames : List Frame} {scene : Scene} {name : String}

theorem of_context {machine : Machine} (stacked : Stacked context machine) {now : Context}
    (own : machine.scene.context = .resolution now) :
    now.points = context.points ∧
      now.inFlight = context.inFlight ++ machine.waiting ++ machine.focus.key?.toList :=
  Prod.mk.inj (Option.some.inj ((Scene.stack_of_context own).symm.trans stacked.stack))

theorem of_same {first second : Machine} (stacked : Stacked context first)
    (scenes : second.scene.stack = first.scene.stack)
    (keys : second.waiting ++ second.focus.key?.toList =
      first.waiting ++ first.focus.key?.toList)
    (runs : ∀ key ∈ second.running, key ∈ first.running) : Stacked context second where
  stack := by
    have before := stacked.stack
    rw [List.append_assoc] at before ⊢
    rw [scenes, keys]
    exact before
  distinct := by
    have before := stacked.distinct
    rw [List.append_assoc] at before ⊢
    rw [keys]
    exact before
  registered key member := stacked.registered key (runs key member)

theorem enter (stacked : Stacked context ⟨.request name, frames, scene⟩) {now : Context}
    (own : scene.context = .resolution now) (fresh : name ∉ now.inFlight) {last : Scene}
    (same : last.context = .resolution (now.enter name)) :
    Stacked context ⟨.lookUp name, frames, last⟩ := by
  obtain ⟨points, inFlight⟩ := stacked.of_context own
  have keys : context.inFlight ++ waiting ⟨.request name, frames, scene⟩ = now.inFlight :=
    (inFlight.trans (List.append_nil _)).symm
  have distinct : now.inFlight.Nodup := by
    have before := stacked.distinct
    rw [← keys]
    exact (List.nodup_append.mp before).1
  refine ⟨?_, ?_, stacked.registered⟩
  · change last.stack = some (context.points,
      context.inFlight ++ waiting ⟨.request name, frames, scene⟩ ++ [name])
    rw [Scene.stack_of_context same, keys, ← points]
    rfl
  · change (context.inFlight ++ waiting ⟨.request name, frames, scene⟩ ++ [name]).Nodup
    rw [keys]
    exact List.nodup_append_comm.mpr (List.nodup_cons.mpr ⟨fresh, distinct⟩)

theorem start (stacked : Stacked context ⟨.lookUp name, frames, scene⟩)
    (registered : (registered? context.points name).isSome) {point : InformationPoint}
    {last : Scene} (same : last.stack = scene.stack) :
    Stacked context ⟨.provide name point.provide, frames, last⟩ := by
  refine ⟨same.trans stacked.stack, stacked.distinct, ?_⟩
  intro key member
  rcases List.mem_append.mp member with earlier | last
  · exact stacked.registered key (List.mem_append_left _ earlier)
  · rwa [List.mem_singleton.mp last]

theorem ask {key : String} {next : Except Error Value → Program Value} {program : Program Value}
    (stacked : Stacked context ⟨.provide name program, frames, scene⟩) {last : Scene}
    (same : last.stack = scene.stack) :
    Stacked context ⟨.request key, .point name next :: frames, last⟩ := by
  have moved : waiting ⟨.request key, .point name next :: frames, last⟩ =
      waiting ⟨.request key, frames, last⟩ ++ [name] := List.reverse_cons
  refine stacked.of_same same ?_ ?_
  · change waiting ⟨.request key, .point name next :: frames, last⟩ ++ [] = _
    rw [moved, List.append_nil]
    rfl
  · intro other member
    change other ∈ waiting ⟨.request key, .point name next :: frames, last⟩ ++ [] at member
    rw [moved, List.append_nil] at member
    exact member

theorem leave {answer : Except Error Value}
    (stacked : Stacked context ⟨.leave name answer, frames, scene⟩) {now : Context}
    (own : scene.context = .resolution now) {last : Scene}
    (same : last.context = .resolution now.exit) :
    Stacked context ⟨.answer answer, frames, last⟩ := by
  obtain ⟨points, inFlight⟩ := stacked.of_context own
  refine ⟨?_, ?_, stacked.registered⟩
  · change last.stack = some (context.points,
      context.inFlight ++ waiting ⟨.answer answer, frames, scene⟩ ++ [])
    rw [Scene.stack_of_context same, List.append_nil, Context.exit, points, inFlight]
    exact congrArg (fun keys => some (context.points, keys)) List.dropLast_concat
  · change (context.inFlight ++ waiting ⟨.answer answer, frames, scene⟩ ++ []).Nodup
    rw [List.append_nil]
    exact (List.nodup_append.mp stacked.distinct).1

theorem resume {answer : Except Error Value} {next : Except Error Value → Program Value}
    (stacked : Stacked context ⟨.answer answer, .point name next :: frames, scene⟩) {last : Scene}
    (same : last.stack = scene.stack) :
    Stacked context ⟨.provide name (next answer), frames, last⟩ := by
  have moved : waiting ⟨.answer answer, .point name next :: frames, scene⟩ =
      waiting ⟨.answer answer, frames, scene⟩ ++ [name] := List.reverse_cons
  refine stacked.of_same same ?_ ?_
  · change _ = waiting ⟨.answer answer, .point name next :: frames, scene⟩ ++ []
    rw [moved, List.append_nil]
    rfl
  · intro key member
    change key ∈ waiting ⟨.answer answer, .point name next :: frames, scene⟩ ++ []
    rw [moved, List.append_nil]
    exact member

theorem stop {answer : Except Error Value} {focus : Focus} (focused : focus.key? = some name)
    (stacked : Stacked context ⟨focus, frames, scene⟩) {last : Scene}
    (same : last.stack = scene.stack) :
    Stacked context ⟨.leave name answer, frames, last⟩ := by
  refine stacked.of_same same ?_ fun key member => List.mem_append_left _ ?_
  · change _ = waiting ⟨focus, frames, scene⟩ ++ focus.key?.toList
    rw [focused]
    rfl
  · change key ∈ waiting ⟨focus, frames, scene⟩ ++ [] at member
    rwa [List.append_nil] at member

theorem policy {focus next : Focus} {rest : List Frame} (before : focus.decides = true)
    (after : next.decides = true)
    (keys : rest.filterMap Frame.key? = frames.filterMap Frame.key?)
    (stacked : Stacked context ⟨focus, frames, scene⟩) {last : Scene}
    (same : last.stack = scene.stack) : Stacked context ⟨next, rest, last⟩ := by
  have waits : waiting ⟨next, rest, last⟩ = waiting ⟨focus, frames, scene⟩ :=
    congrArg List.reverse keys
  refine stacked.of_same same ?_ fun key member => ?_
  · change waiting ⟨next, rest, last⟩ ++ next.key?.toList =
      waiting ⟨focus, frames, scene⟩ ++ focus.key?.toList
    rw [waits, Focus.key?_of_decides before, Focus.key?_of_decides after]
  · unfold running at member ⊢
    rw [waits] at member
    dsimp only at member ⊢
    rwa [Focus.provides?_of_decides after, ← Focus.provides?_of_decides before] at member

theorem step {first second : Machine} (stacked : Stacked context first)
    (stepped : first.step = some second) : Stacked context second := by
  obtain ⟨now, own, points, inFlight⟩ := Scene.context_of_stack stacked.stack
  obtain ⟨after, same, move⟩ := step_moves stepped now own
  have before := Scene.stack_of_context own
  have later := Scene.stack_of_context same
  obtain ⟨focus, frames, scene⟩ := first
  obtain ⟨next, rest, last⟩ := second
  dsimp only at own same move before later
  cases move with
  | hit cached report =>
      exact stacked.of_same (later.trans before.symm) rfl fun _ member => member
  | cyclic uncached member =>
      exact stacked.of_same (later.trans before.symm) rfl fun _ within => within
  | enter uncached fresh => exact stacked.enter own fresh same
  | missing absent report => exact stacked.stop rfl (later.trans before.symm)
  | start found =>
      refine stacked.start ?_ (later.trans before.symm)
      rw [← points]
      exact Option.isSome_of_eq_some found
  | keep report => exact stacked.stop rfl (later.trans before.symm)
  | fail => exact stacked.stop rfl (later.trans before.symm)
  | ask => exact stacked.ask (later.trans before.symm)
  | aside isAside answer report =>
      exact stacked.of_same (later.trans before.symm) rfl fun _ member => member
  | leave => exact stacked.leave own same
  | resume => exact stacked.resume (later.trans before.symm)
  | consult => exact stacked.of_same (later.trans before.symm) rfl fun _ member => member
  | told => exact stacked.of_same (later.trans before.symm) rfl fun _ member => member
  | policy onPolicy still keys report =>
      exact stacked.policy onPolicy still keys (later.trans before.symm)

theorem after {machine : Machine} (stacked : Stacked context machine) (n : Nat) :
    Stacked context (machine.after n) := by
  induction n generalizing machine with
  | zero => exact stacked
  | succ n ih =>
      cases stepped : machine.step with
      | some next =>
          rw [after_succ stepped]
          exact ih (stacked.step stepped)
      | none =>
          rw [after_of_halted stepped]
          exact stacked

theorem running_distinct {machine : Machine} (stacked : Stacked context machine) :
    (context.inFlight ++ machine.running).Nodup := by
  have distinct := stacked.distinct
  unfold running
  rw [← List.append_assoc]
  cases focus : machine.focus with
  | provide name program =>
      rw [focus] at distinct
      exact distinct
  | _ =>
      have earlier := (List.nodup_append.mp distinct).1
      simpa [Focus.provides?] using earlier

theorem begin {start : Context} (idle : start.inFlight = []) (reached : start.Reaches context)
    (task : Task) (host : Host) : Stacked context (task.start (host.scene (.resolution context))) := by
  have distinct : (context.inFlight ++ [] ++ []).Nodup := by
    rw [List.append_nil, List.append_nil]
    exact reached.inFlight_nodup idle
  have stack : (host.scene (.resolution context)).stack =
      some (context.points, context.inFlight ++ [] ++ []) := by
    rw [List.append_nil, List.append_nil]
    rfl
  cases task with
  | resolve name => exact ⟨stack, distinct, fun _ member => nomatch member⟩
  | evaluate policy => exact ⟨stack, distinct, fun _ member => nomatch member⟩
  | enforce point bias policy => exact ⟨stack, distinct, fun _ member => nomatch member⟩

/-- The key that the run is at, if it is in flight and its point does not run. -/
theorem inFlight_eq {machine : Machine} (stacked : Stacked context machine) :
    ∃ visited : Option String,
      machine.scene.stack =
        some (context.points, context.inFlight ++ machine.running ++ visited.toList) ∧
      ∀ name program, machine.focus = .provide name program → visited = none := by
  have stack := stacked.stack
  unfold running
  cases focus : machine.focus with
  | provide name program =>
      refine ⟨none, ?_, fun _ _ _ => rfl⟩
      rw [focus] at stack
      simpa [Focus.provides?, Focus.key?] using stack
  | _ =>
      refine ⟨machine.focus.key?, ?_, fun _ _ impossible => nomatch impossible⟩
      simpa [Focus.provides?] using stack

end Stacked

end Machine

/-! ### Runs -/

theorem Task.leads (task : Task) (scene : Scene) : (task.start scene).Leads (task.finish scene) := by
  cases task with
  | resolve name => exact Machine.request_leads_scene name scene []
  | evaluate policy => exact Machine.evaluate_leads policy [] scene
  | enforce point bias policy => exact (Machine.evaluate_leads policy).enforce point bias [] scene

theorem Task.step_finish (task : Task) (scene : Scene) : (task.finish scene).step = none := by
  cases task <;> rfl

theorem Context.length_le_registeredLen {context : Context} {names : List String}
    (distinct : names.Nodup)
    (registered : ∀ name ∈ names, (registered? context.points name).isSome) :
    names.length ≤ context.registeredLen := by
  refine (distinct.subperm ?_).length_le
  intro name member
  obtain ⟨point, found⟩ := Option.isSome_iff_exists.mp (registered name member)
  refine List.mem_eraseDups.mpr (List.mem_map.mpr ⟨point, registered?_mem found, ?_⟩)
  exact registered?_name found

/-- A run comes to an end in every state that a context can be in, and at each step of it the keys of
the running points, those that ran before it included, are different registered keys. -/
theorem Task.ends_without_reentry {start context : Context} (idle : start.inFlight = [])
    (reached : start.Reaches context) (task : Task) (host : Host) :
    let first := task.start (host.scene (.resolution context))
    (∃ n, first.after n = task.finish (host.scene (.resolution context)) ∧
      (first.after n).step = none) ∧
    ∀ n, ∃ now, (first.after n).scene.context = .resolution now ∧
      let running := context.inFlight ++ (first.after n).running
      now.points = context.points ∧ now.inFlight.Nodup ∧ running.Nodup ∧
      (∀ name ∈ running, (registered? now.points name).isSome) ∧
      running.length ≤ now.registeredLen ∧
      ∃ visited : Option String, now.inFlight = running ++ visited.toList ∧
        ∀ name program, (first.after n).focus = .provide name program → visited = none := by
  intro first
  constructor
  · obtain ⟨n, last⟩ := task.leads (host.scene (.resolution context))
    refine ⟨n, last, ?_⟩
    rw [last]
    exact task.step_finish _
  · intro n
    have stacked : Machine.Stacked context (first.after n) :=
      (Machine.Stacked.begin idle reached task host).after n
    obtain ⟨visited, stack, provided⟩ := stacked.inFlight_eq
    obtain ⟨now, same, points, inFlight⟩ := Scene.context_of_stack stack
    have registered : ∀ name ∈ context.inFlight ++ (first.after n).running,
        (registered? now.points name).isSome := by
      intro name member
      rw [points]
      rcases List.mem_append.mp member with earlier | later
      · exact reached.inFlight_registered idle name earlier
      · exact stacked.registered name later
    refine ⟨now, same, points, ?_, stacked.running_distinct, registered,
      Context.length_le_registeredLen stacked.running_distinct registered, visited, inFlight,
      provided⟩
    have keys := stacked.stack.symm.trans stack
    rw [inFlight, ← (Prod.mk.inj (Option.some.inj keys)).2]
    exact stacked.distinct

/-- Two keys ask for each other, and their points ask again when the cycle is found. -/
private def persistent : List InformationPoint :=
  [{ name := "base", provide := (Program.resolve "left").orElse (.resolve "lost") },
    { name := "left", provide := (Program.resolve "right").orElse (.resolve "base") },
    { name := "right", provide := (Program.resolve "left").orElse (.resolve "right") }]

private def nested : Policy :=
  .combined .denyOverride
    [.rule "outer"
      (.enforce { bias := .deny } none
        (.combined .firstApplicable
          [.rule "inner" (.ask (.resolve "left") fun _ => .done (.ok .permit))])
        .done)]

/-- The point of one key is running when a policy is enforced. -/
theorem ends_without_reentry_persistent :
    (Context.new persistent).inFlight = [] ∧
      (Context.new persistent).Reaches ((Context.new persistent).enter "base") ∧
      let first := Task.start (.enforce { bias := .permit } none nested)
        (Host.scene {} (.resolution ((Context.new persistent).enter "base")))
      (∃ n, (first.after n).step = none) ∧
      (∃ n, (first.after n).running = ["left", "right"]) ∧
      ∀ n, (first.after n).running.length ≤ 2 := by
  have reached : (Context.new persistent).Reaches ((Context.new persistent).enter "base") :=
    .enter .refl (by rfl) (by decide) (by rfl)
  have ends := Task.ends_without_reentry rfl reached (.enforce { bias := .permit } none nested) {}
  refine ⟨rfl, reached, ?_, ⟨20, by rfl⟩, ?_⟩
  · obtain ⟨n, last, halted⟩ := ends.1
    exact ⟨n, halted⟩
  · intro n
    obtain ⟨now, same, points, nodup, distinct, registered, bound, rest⟩ := ends.2 n
    have size : now.registeredLen = 3 := by
      unfold Context.registeredLen
      rw [points]
      rfl
    rw [size, List.length_append] at bound
    have entered : ((Context.new persistent).enter "base").inFlight.length = 1 := rfl
    omega

end AccessPolicy
