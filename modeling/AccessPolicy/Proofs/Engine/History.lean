/-
What happens to a context from the moment it is made. A client asks it, reports to it, evaluates and
enforces policies on it, and when this client has come to its decision another one may follow, with
whatever has become of the host meanwhile. A history lists the states that are gone through, so a claim
about it is one about every moment of every run.

A context is made anew or by a merge, and what is merged may be in the middle of a run.
-/

import AccessPolicy.Proofs.Engine.Stack

namespace AccessPolicy

/-- A client that asks for some keys in turn, whatever it is answered. -/
def Procedure.asking : List String → Procedure
  | [] => .done (.ok .permit)
  | name :: names => .ask (.resolve name) fun _ => asking names

def Context.asked (context : Context) (names : List String) : Machine :=
  ⟨.decide (.asking names), [], Host.scene {} (.resolution context)⟩

/-- The states before the one that is reached in some steps, the last one first. -/
def Machine.passed (machine : Machine) (earlier : List Machine) : Nat → List Machine
  | 0 => earlier
  | n + 1 =>
    match machine.step with
    | some next => next.passed (machine :: earlier) n
    | none => earlier

namespace Context

/-- The machine is at this state, the last earlier one being the first of the list. -/
inductive History (start : Context) : Machine → List Machine → Prop
  | begin (client : Procedure) (host : Host) :
      History start ⟨.decide client, [], host.scene (.resolution start)⟩ []
  | step {machine next : Machine} {earlier : List Machine}
      (history : History start machine earlier) (stepped : machine.step = some next) :
      History start next (machine :: earlier)
  | again {result : Except Error Decision} {scene : Scene} {earlier : List Machine}
      {context : Context} (history : History start ⟨.decision result, [], scene⟩ earlier)
      (own : scene.context = .resolution context) (client : Procedure) (host : Host) :
      History start ⟨.decide client, [], host.scene (.resolution context)⟩
        (⟨.decision result, [], scene⟩ :: earlier)

def ComesTo (start context : Context) : Prop :=
  ∃ machine earlier, start.History machine earlier ∧ machine.scene.context = .resolution context

inductive Created : Context → Prop
  | new (points : List InformationPoint) : Created (.new points)
  | merge {first second left right : Context} (leftCreated : Created first)
      (leftReached : first.ComesTo left) (rightCreated : Created second)
      (rightReached : second.ComesTo right) : Created (left.merge right)

theorem Created.idle {start : Context} (created : start.Created) : start.inFlight = [] := by
  cases created with
  | new points => rfl
  | merge leftCreated leftReached rightCreated rightReached => rfl

theorem Created.stats_eq {start : Context} (created : start.Created) : start.memory.stats = {} := by
  cases created with
  | new points => rfl
  | merge leftCreated leftReached rightCreated rightReached => rfl

namespace History

variable {start : Context} {machine : Machine} {earlier : List Machine}

theorem stacked (idle : start.inFlight = []) (history : start.History machine earlier) :
    Machine.Stacked start machine := by
  induction history with
  | begin client host =>
      have stack : start.inFlight ++ [] ++ [] = start.inFlight := by
        rw [List.append_nil, List.append_nil]
      refine ⟨?_, ?_, fun _ member => nomatch member⟩
      · exact congrArg (fun keys => some (start.points, keys)) stack.symm
      · change (start.inFlight ++ [] ++ []).Nodup
        rw [stack, idle]
        exact List.nodup_nil
  | step history stepped ih => exact ih.step stepped
  | again history own client host ih =>
      refine ih.of_same ?_ rfl fun _ member => nomatch member
      exact (Scene.stack_of_context own).symm

theorem after (history : start.History machine earlier) (n : Nat) :
    start.History (machine.after n) (machine.passed earlier n) := by
  induction n generalizing machine earlier with
  | zero => exact history
  | succ n ih =>
      unfold Machine.after Machine.passed
      cases stepped : machine.step with
      | some next => exact ih (history.step stepped)
      | none => exact history

theorem of_passed (history : start.History machine earlier) {later before : List Machine}
    {state : Machine} (passed : machine :: earlier = later ++ state :: before) :
    start.History state before := by
  induction history generalizing later with
  | begin client host =>
      cases later with
      | nil =>
          cases passed
          exact .begin client host
      | cons _ later => simp at passed
  | step history stepped ih =>
      cases later with
      | nil =>
          cases passed
          exact history.step stepped
      | cons _ later => exact ih (List.cons.inj passed).2
  | again history own client host ih =>
      cases later with
      | nil =>
          cases passed
          exact history.again own client host
      | cons _ later => exact ih (List.cons.inj passed).2

theorem exists_context (history : start.History machine earlier) :
    ∃ now, machine.scene.context = .resolution now := by
  induction history with
  | begin client host => exact ⟨start, rfl⟩
  | step history stepped ih =>
      obtain ⟨now, own⟩ := ih
      obtain ⟨after, same, _⟩ := Machine.step_moves stepped now own
      exact ⟨after, same⟩
  | @again result scene earlier context history own client host ih => exact ⟨context, rfl⟩

/-- What is so when a context has been made, and after every move if it was before, is so at every
moment. -/
theorem invariant {motive : Focus → List Frame → Context → List Machine → Prop}
    (begin : ∀ client, motive (.decide client) [] start [])
    (move : ∀ machine earlier now focus frames after, start.History machine earlier →
      machine.scene.context = .resolution now →
      motive machine.focus machine.frames now earlier →
      Move machine.focus machine.frames now focus frames after →
      motive focus frames after (machine :: earlier))
    (again : ∀ result scene now client earlier, motive (.decision result) [] now earlier →
      motive (.decide client) [] now (⟨.decision result, [], scene⟩ :: earlier))
    (history : start.History machine earlier) {now : Context}
    (own : machine.scene.context = .resolution now) :
    motive machine.focus machine.frames now earlier := by
  induction history generalizing now with
  | begin client host =>
      cases own
      exact begin client
  | step history stepped ih =>
      obtain ⟨before, same⟩ := history.exists_context
      obtain ⟨after, later, moved⟩ := Machine.step_moves stepped before same
      cases own.symm.trans later
      exact move _ _ before _ _ now history same (ih same) moved
  | @again result scene earlier context history same client host ih =>
      cases own
      exact again result scene context client _ (ih same)

theorem inFlight_distinct (idle : start.inFlight = []) (history : start.History machine earlier)
    {now : Context} (own : machine.scene.context = .resolution now) : now.inFlight.Nodup := by
  have stacked := history.stacked idle
  rw [(stacked.of_context own).2]
  exact stacked.distinct

theorem inFlight_of_request (idle : start.inFlight = []) (history : start.History machine earlier)
    {now : Context} (own : machine.scene.context = .resolution now) {name : String}
    (focused : machine.focus = .request name) : now.inFlight = machine.waiting := by
  have whole : now.inFlight = start.inFlight ++ machine.waiting ++ [] := by
    have keys := ((history.stacked idle).of_context own).2
    rwa [focused] at keys
  rwa [idle, List.append_nil, List.nil_append] at whole

end History

end Context

/-! ### Chronicles -/

inductive Occurrence
  | started (name : String)
  | ended (name : String) (result : Except Error Value)
  | answered (name : String) (answer : Except Error Value)

namespace Occurrence

def between : Focus → Focus → Option Occurrence
  | .lookUp name, .provide _ _ => some (.started name)
  | .provide name (.done result), .leave _ _ => some (.ended name result)
  | .request name, .answer answer => some (.answered name answer)
  | .leave name answer, .answer _ => some (.answered name answer)
  | _, _ => none

theorem between_of_decides {focus next : Focus} (decides : focus.decides = true) :
    between focus next = none := by
  cases focus <;> first | rfl | cases decides

def run? : Occurrence → Option String
  | .started name => some name
  | .ended name _ => some name
  | .answered _ _ => none

def succeeds : Occurrence → Bool
  | .answered _ (.ok _) => true
  | _ => false

end Occurrence

/-- What has occurred, in order, when the run is at `focus` after some states, the last one first. -/
def chronicle (focus : Focus) : List Machine → List Occurrence
  | [] => []
  | before :: earlier =>
    chronicle before.focus earlier ++ (Occurrence.between before.focus focus).toList

end AccessPolicy
