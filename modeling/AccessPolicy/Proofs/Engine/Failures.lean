/-
Failures on their way. Where nothing is caught, a failed answer is the outcome of what it is told to, so from
the step that raises a failure on each state of a run carries it: requests and sections come to their ends,
and nothing is begun, kept or written. A failure that the state before does not carry is raised by the step.
-/

import AccessPolicy.Proofs.Engine.Candor

namespace AccessPolicy

/-! ### Raised failures -/

theorem Key.read_of_other {kind : Kind} (key : Key kind) {value : Value}
    (other : value.kind ≠ kind) :
    key.read (.ok value) = .error (.attributeType key.name kind.typeName) := by
  simp only [read, Value.as?_eq_none_iff.mpr other]

def Focus.failure? : Focus → Option Error
  | .provide _ (.done (.error error)) => some error
  | .leave _ (.error error) => some error
  | .answer (.error error) => some error
  | .decide (.done (.error error)) => some error
  | .decision (.error error) => some error
  | _ => none

namespace Machine

/-- The next step raises a failure. -/
inductive Raises : Machine → Error → Prop
  /-- A key without an information point. -/
  | missing {name : String} {frames : List Frame} {scene : Scene} {context : Context}
      (own : scene.context = .resolution context)
      (absent : registered? context.points name = none) :
      Raises ⟨.lookUp name, frames, scene⟩ (.missingInformationPoint name)
  /-- A key that is in flight. -/
  | cyclic {name : String} {frames : List Frame} {scene : Scene} {context : Context}
      (own : scene.context = .resolution context)
      (uncached : context.memory.cache.find? name = none) (member : name ∈ context.inFlight) :
      Raises ⟨.request name, frames, scene⟩
        (.cyclicDependencies (cyclePath context.inFlight name))
  /-- The program of a point that has not been told of a failure fails. -/
  | point {machine : Machine} {name : String} {error : Error} {frames : List Frame} {scene : Scene}
      (sound : machine.focus.failure? = none)
      (stepped : machine.step = some ⟨.provide name (.done (.error error)), frames, scene⟩) :
      Raises machine error
  /-- The body of a policy that has not been told of a failure fails. -/
  | policy {machine : Machine} {error : Error} {frames : List Frame} {scene : Scene}
      (sound : machine.focus.failure? = none)
      (stepped : machine.step = some ⟨.decide (.done (.error error)), frames, scene⟩) :
      Raises machine error

/-- A point that reads a key at another kind than its value has. -/
theorem Raises.point_mismatch {kind : Kind} (key : Key kind) {value : Value}
    (other : value.kind ≠ kind) (next : kind.Datum → Program Value) (name : String)
    (frames : List Frame) (scene : Scene) :
    let resume (answer : Except Error Value) := (Program.done (key.read answer)).bind next
    Raises ⟨.answer (.ok value), .point name resume :: frames, scene⟩
      (.attributeType key.name kind.typeName) := by
  intro resume
  have failed : resume (.ok value) = .done (.error (.attributeType key.name kind.typeName)) := by
    simp only [resume, key.read_of_other other]
    rfl
  apply Raises.point rfl
  exact congrArg (fun program => some (Machine.mk (.provide name program) frames scene)) failed

/-- A policy that reads a key at another kind than its value has. -/
theorem Raises.policy_mismatch {kind : Kind} (key : Key kind) {value : Value}
    (other : value.kind ≠ kind) (next : kind.Datum → Procedure) (frames : List Frame)
    (scene : Scene) :
    let resume (answer : Except Error Value) :=
      Procedure.afterValue (.done (key.read answer)) next
    Raises ⟨.answer (.ok value), .rule resume :: frames, scene⟩
      (.attributeType key.name kind.typeName) := by
  intro resume
  have failed : resume (.ok value) = .done (.error (.attributeType key.name kind.typeName)) := by
    simp only [resume, key.read_of_other other]
    rfl
  apply Raises.policy rfl
  exact congrArg (fun body => some (Machine.mk (.decide body) frames scene)) failed

theorem Raises.steps {machine : Machine} {error : Error} (raises : machine.Raises error) :
    machine.focus.failure? = none ∧
      ∃ next, machine.step = some next ∧ next.focus.failure? = some error := by
  cases raises with
  | @missing name frames scene context own absent =>
      refine ⟨rfl, _, rfl, ?_⟩
      simp only [lookUp, own, absent]
      rfl
  | @cyclic name frames scene context own uncached member =>
      refine ⟨rfl, _, rfl, ?_⟩
      simp only [request, own, uncached, if_pos member]
      rfl
  | point sound stepped => exact ⟨sound, _, stepped, rfl⟩
  | policy sound stepped => exact ⟨sound, _, stepped, rfl⟩

theorem failure?_of_decision {machine : Machine} {error : Error} {frames : List Frame}
    {scene : Scene} (decides : machine.focus.decides = true)
    (stepped : machine.step = some ⟨.decision (.error error), frames, scene⟩) :
    machine.focus.failure? ≠ none := by
  obtain ⟨focus, waiting, now⟩ := machine
  cases focus with
  | request name => cases decides
  | lookUp name => cases decides
  | provide name program => cases decides
  | leave name answer => cases decides
  | answer answer => cases decides
  | decide body =>
      cases body with
      | done result =>
          cases stepped
          exact Option.some_ne_none error
      | ask request next => cases request <;> cases stepped
      | evaluate policy next => cases stepped
      | enforce point bias policy next => cases stepped
  | evaluate policy => cases policy <;> cases stepped
  | enforce point bias policy => cases stepped
  | combine algorithm tally members => cases members <;> cases stepped
  | decision result =>
      cases result with
      | error error => exact Option.some_ne_none error
      | ok decision =>
          rcases step_decision_inv stepped with ⟨resume, rest, rfl, same⟩ | ⟨rest, rfl, same⟩ |
            ⟨algorithm, tally, others, rest, rfl, same⟩ |
            ⟨point, bias, name, before, rest, rfl, same⟩
          · cases same
          · cases same
          · unfold proceed at same
            dsimp only at same
            split at same
            · cases same
            · cases same
          · cases same

theorem raises_of_step {machine next : Machine} {context : Context}
    (own : machine.scene.context = .resolution context) (stepped : machine.step = some next)
    (sound : machine.focus.failure? = none) {error : Error}
    (failing : next.focus.failure? = some error) : machine.Raises error := by
  obtain ⟨after, same, move⟩ := step_moves stepped context own
  obtain ⟨focus, frames, scene⟩ := machine
  obtain ⟨following, rest, last⟩ := next
  dsimp only at own sound failing move
  -- One case for each kind of state that carries a failure. A program or a body at its failure has just
  -- come to it; elsewhere the failure is older, unless the key is missing or in flight.
  unfold Focus.failure? at failing
  split at failing
  · cases failing
    exact .point sound stepped
  · cases failing
    cases move with
    | missing absent report => exact .missing own absent
    | fail => cases sound
    | policy before after keys report => cases after
  · cases failing
    cases move with
    | cyclic uncached member => exact .cyclic own uncached member
    | leave => cases sound
    | policy before after keys report => cases after
  · cases failing
    exact .policy sound stepped
  · cases failing
    cases move with
    | policy before after keys report => exact absurd sound (failure?_of_decision before stepped)
  · cases failing

end Machine

/-! ### Carried failures -/

def EvaluationContext.cache : EvaluationContext → Cache
  | .resolution context => context.memory.cache
  | .foreign _ => {}

/-- Requests and sections have come to their ends, and that is all. -/
structure EvaluationContext.Unwinds (before after : EvaluationContext) : Prop where
  trace : after.trace = before.trace
  stats : after.stats = before.stats
  cache : after.cache = before.cache

theorem EvaluationContext.Unwinds.trans {first second third : EvaluationContext}
    (left : Unwinds first second) (right : Unwinds second third) : Unwinds first third where
  trace := right.trace.trans left.trace
  stats := right.stats.trans left.stats
  cache := right.cache.trans left.cache

structure Scene.Unwinds (before after : Scene) : Prop where
  context : before.context.Unwinds after.context
  host : after.toHost = before.toHost

namespace Scene.Unwinds

theorem refl (scene : Scene) : Unwinds scene scene := ⟨⟨rfl, rfl, rfl⟩, rfl⟩

theorem trans {first second third : Scene} (left : Unwinds first second)
    (right : Unwinds second third) : Unwinds first third :=
  ⟨left.context.trans right.context, right.host.trans left.host⟩

theorem pop (scene : Scene) : Unwinds scene scene.pop := by
  obtain ⟨host, context⟩ := scene
  cases context <;> exact ⟨⟨rfl, rfl, rfl⟩, rfl⟩

theorem unindent (scene : Scene) : Unwinds scene scene.unindent := by
  obtain ⟨host, context⟩ := scene
  cases context <;> exact ⟨⟨rfl, rfl, rfl⟩, rfl⟩

end Scene.Unwinds

namespace Machine

/-- The state carries the failure, and since the scene nothing has been done but to carry it. -/
structure Carries (error : Error) (scene : Scene) (machine : Machine) : Prop where
  failing : machine.focus.failure? = some error
  unwinds : scene.Unwinds machine.scene

theorem Candid.carries {machine next : Machine} (candid : machine.Candid) {error : Error}
    (failing : machine.focus.failure? = some error) (stepped : machine.step = some next) :
    next.Carries error machine.scene := by
  obtain ⟨focus, frames, scene⟩ := machine
  dsimp only at failing
  unfold Focus.failure? at failing
  split at failing
  · cases failing
    cases stepped
    exact ⟨rfl, .refl scene⟩
  · cases failing
    cases stepped
    exact ⟨rfl, .pop scene⟩
  · cases failing
    rcases step_answer_inv stepped with ⟨name, resume, rest, rfl, rfl⟩ | ⟨resume, rest, rfl, rfl⟩
    · rw [candid.top.1]
      exact ⟨rfl, .refl scene⟩
    · rw [candid.top.1]
      exact ⟨rfl, .refl scene⟩
  · cases failing
    cases stepped
    exact ⟨rfl, .refl scene⟩
  · cases failing
    rcases step_decision_inv stepped with ⟨resume, rest, rfl, rfl⟩ | ⟨rest, rfl, rfl⟩ |
      ⟨algorithm, tally, others, rest, rfl, rfl⟩ | ⟨point, bias, name, before, rest, rfl, rfl⟩
    · rw [candid.top.1]
      exact ⟨rfl, .refl scene⟩
    · exact ⟨rfl, .unindent scene⟩
    · exact ⟨rfl, .refl scene⟩
    · exact candid.top.elim
  · cases failing

theorem Raises.unique {machine : Machine} {first second : Error} (left : machine.Raises first)
    (right : machine.Raises second) : first = second := by
  obtain ⟨_, next, stepped, failing⟩ := left.steps
  obtain ⟨_, other, same, failed⟩ := right.steps
  cases stepped.symm.trans same
  exact Option.some.inj (failing.symm.trans failed)

theorem Carries.not_raises {machine : Machine} {error : Error} {scene : Scene}
    (carries : machine.Carries error scene) (other : Error) : ¬machine.Raises other := by
  intro raises
  have sound := raises.steps.1
  rw [carries.failing] at sound
  cases sound

theorem not_raises_of_step {machine next : Machine} (stepped : machine.step = some next)
    (sound : next.focus.failure? = none) (error : Error) : ¬machine.Raises error := by
  intro raises
  obtain ⟨_, after, same, failing⟩ := raises.steps
  cases stepped.symm.trans same
  rw [sound] at failing
  cases failing

/-- A failure is raised in one state of a run, by a step that leaves a scene; no state before it raises
one, and all states after it carry this one. -/
structure Failing (states : List Machine) (error : Error) (before : List Machine) (state : Machine)
    (raised : Scene) (later : List Machine) : Prop where
  split : states = before ++ state :: later
  first : ∀ earlier ∈ before, ∀ other, ¬earlier.Raises other
  raises : state.Raises error
  leads : ∃ next, state.step = some next ∧ next.scene = raised
  carried : ∀ after ∈ later, after.Carries error raised

namespace Failing

variable {states before later : List Machine} {error : Error} {state : Machine} {raised : Scene}

theorem cons (failing : Failing states error before state raised later) {start : Machine}
    (quiet : ∀ other, ¬start.Raises other) :
    Failing (start :: states) error (start :: before) state raised later where
  split := congrArg (List.cons start) failing.split
  first := by
    intro earlier within
    rcases List.mem_cons.mp within with same | further
    · rw [same]
      exact quiet
    · exact failing.first earlier further
  raises := failing.raises
  leads := failing.leads
  carried := failing.carried

theorem snoc (failing : Failing states error before state raised later) {last : Machine}
    (carries : last.Carries error raised) :
    Failing (states ++ [last]) error before state raised (later ++ [last]) where
  split := by
    rw [failing.split, List.append_assoc]
    rfl
  first := failing.first
  raises := failing.raises
  leads := failing.leads
  carried := by
    intro after within
    rcases List.mem_append.mp within with earlier | same
    · exact failing.carried after earlier
    · rw [List.mem_singleton.mp same]
      exact carries

theorem unique (failing : Failing states error before state raised later)
    {others rest : List Machine} {machine : Machine} {other : Error}
    (split : states = others ++ machine :: rest) (raises : machine.Raises other) :
    others = before ∧ machine = state ∧ rest = later ∧ other = error := by
  have same : before ++ state :: later = others ++ machine :: rest :=
    failing.split.symm.trans split
  rcases List.append_eq_append_iff.mp same with ⟨between, longer, rest⟩ | ⟨between, longer, rest⟩
  · cases between with
    | nil =>
        obtain ⟨here, after⟩ := List.cons.inj rest
        subst here
        exact ⟨by rw [longer, List.append_nil], rfl, after.symm, raises.unique failing.raises⟩
    | cons head between =>
        have member : machine ∈ later := by
          rw [(List.cons.inj rest).2]
          exact List.mem_append_right _ List.mem_cons_self
        exact absurd raises ((failing.carried machine member).not_raises other)
  · cases between with
    | nil =>
        obtain ⟨here, after⟩ := List.cons.inj rest
        subst here
        exact ⟨by rw [longer, List.append_nil], rfl, after, raises.unique failing.raises⟩
    | cons head between =>
        have member : machine ∈ before := by
          rw [longer, (List.cons.inj rest).1]
          exact List.mem_append_right _ List.mem_cons_self
        exact absurd raises (failing.first machine member other)

end Failing

namespace Path

variable {first last : Machine} {states : List Machine}

theorem carried (path : Path first states last) (candid : first.Candid)
    (points : first.scene.Candid) {error : Error} {scene : Scene}
    (carries : first.Carries error scene) :
    (∀ state ∈ states, state.Carries error scene) ∧ last.Carries error scene := by
  induction path with
  | refl machine => exact ⟨fun _ within => (nomatch within), carries⟩
  | @step machine next last states stepped rest ih =>
      have further := candid.carries carries.failing stepped
      have still : next.Carries error scene :=
        ⟨further.failing, carries.unwinds.trans further.unwinds⟩
      obtain ⟨others, ends⟩ := ih (candid.step points stepped) (points.step stepped) still
      refine ⟨fun state within => ?_, ends⟩
      rcases List.mem_cons.mp within with same | later
      · rw [same]
        exact carries
      · exact others state later

/-- Either no failure is raised, or one is, once and for all. -/
theorem raises_none_or_failing (base : List Frame) (path : Path first states last)
    (candid : first.Candid) (points : first.scene.Candid) (sound : first.focus.failure? = none) :
    (last.focus.failure? = none ∧
      ∀ state ∈ states.map (Machine.above base), ∀ error, ¬state.Raises error) ∨
    ∃ error before state raised later,
      Failing (states.map (Machine.above base)) error before state raised later ∧
        last.Carries error raised := by
  induction path with
  | refl machine => exact .inl ⟨sound, fun _ within => nomatch within⟩
  | @step machine next last states stepped rest ih =>
      have lifted : (machine.above base).step = some (next.above base) := step_above base stepped
      -- What is raised is told of the lifted states; what catches nothing, of those without the base.
      cases failure : next.focus.failure? with
      | none =>
          have quiet := not_raises_of_step lifted failure
          rcases ih (candid.step points stepped) (points.step stepped) failure with
            ⟨ends, others⟩ | ⟨error, before, state, raised, later, failing, ends⟩
          · refine .inl ⟨ends, fun state within => ?_⟩
            rcases List.mem_cons.mp within with same | further
            · rw [same]
              exact quiet
            · exact others state further
          · exact .inr ⟨error, _, state, raised, later, failing.cons quiet, ends⟩
      | some error =>
          obtain ⟨context, own, provided⟩ := points
          have same : (machine.above base).scene.context = .resolution context := own
          have raises : (machine.above base).Raises error :=
            raises_of_step same lifted sound failure
          have begins : next.Carries error next.scene := ⟨failure, .refl _⟩
          have still : machine.scene.Candid := ⟨context, own, provided⟩
          obtain ⟨others, ends⟩ :=
            rest.carried (candid.step still stepped) (still.step stepped) begins
          have carried : ∀ after ∈ states.map (Machine.above base),
              after.Carries error next.scene := by
            intro after within
            obtain ⟨inner, member, same⟩ := List.mem_map.mp within
            rw [← same]
            exact ⟨(others inner member).failing, (others inner member).unwinds⟩
          have failing : Failing ((machine :: states).map (Machine.above base)) error []
              (machine.above base) next.scene (states.map (Machine.above base)) :=
            ⟨rfl, fun _ within => (nomatch within), raises, ⟨_, lifted, rfl⟩, carried⟩
          exact .inr ⟨error, _, _, _, _, failing, ends⟩

end Path

end Machine

end AccessPolicy
