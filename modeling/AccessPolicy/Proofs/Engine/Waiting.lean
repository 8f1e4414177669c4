/-
What the running points wait for. The point at the innermost place has asked for the key that the run is
at, each other one for the key of the point above it, and none of these requests has been answered since.
So the keys in flight are in a line: neighbours are a key and one that its point waits for.

Policies wait below all points, as a point asks for keys and runs no policy.
-/

import AccessPolicy.Proofs.Engine.History
import Mathlib.Data.List.Chain

namespace AccessPolicy

/-- Among the states, the last one first, is one at which the point of a key asks for another key, and
what waits for the answer has been there ever since. -/
def Asked (states : List Machine) (name key : String) (next : Except Error Value → Program Value)
    (frames : List Frame) : Prop :=
  ∃ later asking earlier, states = later ++ asking :: earlier ∧
    asking.focus = .provide name (.ask (.resolve key) next) ∧ asking.frames = frames ∧
    ∀ state ∈ later, .point name next :: frames <:+ state.frames

/-- At the first of the states the point of a key waits for another key. -/
def Waits (states : List Machine) (name key : String) : Prop :=
  ∃ next frames, Asked states name key next frames

/-- All that waits has asked for what is above it, and `key` is what the top has asked for. -/
inductive Line (states : List Machine) : List Frame → String → Prop
  | policies {frames : List Frame} (keyless : frames.filterMap Frame.key? = []) (key : String) :
      Line states frames key
  | point {name key : String} {next : Except Error Value → Program Value} {frames : List Frame}
      (asked : Asked states name key next frames) (rest : Line states frames name) :
      Line states (.point name next :: frames) key

section

variable {states : List Machine} {machine : Machine} {frames : List Frame} {name key : String}
  {next : Except Error Value → Program Value}

theorem Asked.later (asked : Asked states name key next frames)
    (still : .point name next :: frames <:+ machine.frames) :
    Asked (machine :: states) name key next frames := by
  obtain ⟨later, asking, earlier, same, focused, framed, since⟩ := asked
  refine ⟨machine :: later, asking, earlier, congrArg (machine :: ·) same, focused, framed, ?_⟩
  intro state member
  rcases List.mem_cons.mp member with now | before
  · rwa [now]
  · exact since state before

namespace Line

theorem later (line : Line states frames key) (still : frames <:+ machine.frames) :
    Line (machine :: states) frames key := by
  induction line with
  | policies keyless key => exact .policies keyless key
  | @point name key next frames asked rest ih =>
      exact .point (asked.later still) (ih ((List.suffix_cons _ frames).trans still))

theorem beneath (line : Line states (.point name next :: frames) key) : Line states frames name := by
  cases line with
  | policies keyless => cases keyless
  | point asked rest => exact rest

theorem isChain (line : Line states frames key) :
    ((frames.filterMap Frame.key?).reverse ++ [key]).IsChain (Waits states) := by
  rw [← List.reverse_cons, List.isChain_reverse]
  induction line with
  | policies keyless key =>
      rw [keyless]
      exact List.isChain_singleton key
  | @point name key next frames asked rest ih =>
      exact List.isChain_cons_cons.mpr ⟨⟨next, frames, asked⟩, ih⟩

end Line

end

def Focus.at? : Focus → Option String
  | .request name => some name
  | .lookUp name => some name
  | .provide name _ => some name
  | .leave name _ => some name
  | _ => none

/-- An answer goes to what is at the top, whichever key it is of. -/
structure Lined (states : List Machine) (focus : Focus) (frames : List Frame) : Prop where
  line : ∃ key, Line states frames key ∧ ∀ name, focus.at? = some name → name = key
  policies : focus.decides = true → frames.filterMap Frame.key? = []

namespace Lined

variable {states : List Machine} {focus next : Focus} {frames : List Frame} {scene : Scene}

theorem of_policies (keyless : frames.filterMap Frame.key? = []) (elsewhere : focus.at? = none) :
    Lined states focus frames where
  line := ⟨"", .policies keyless "", fun name here => by rw [elsewhere] at here; cases here⟩
  policies _ := keyless

theorem line_at {name : String} (lined : Lined states focus frames)
    (here : focus.at? = some name) : Line states frames name := by
  obtain ⟨key, line, same⟩ := lined.line
  rwa [same name here]

theorem stay (lined : Lined states focus frames)
    (here : ∀ name, next.at? = some name → focus.at? = some name)
    (engine : next.decides = false) : Lined (⟨focus, frames, scene⟩ :: states) next frames where
  line := by
    obtain ⟨key, line, same⟩ := lined.line
    exact ⟨key, line.later (List.suffix_refl _), fun name there => same name (here name there)⟩
  policies decides := by
    rw [engine] at decides
    cases decides

theorem move {machine : Machine} {rest : List Frame} {now after : Context}
    (lined : Lined states machine.focus machine.frames)
    (moved : Move machine.focus machine.frames now next rest after) :
    Lined (machine :: states) next rest := by
  obtain ⟨place, frames, scene⟩ := machine
  dsimp only at lined moved
  cases moved with
  | hit cached report => exact lined.stay nofun rfl
  | cyclic uncached member => exact lined.stay nofun rfl
  | enter uncached fresh => exact lined.stay (fun _ here => here) rfl
  | missing absent report => exact lined.stay (fun _ here => here) rfl
  | start found => exact lined.stay (fun _ here => here) rfl
  | keep report => exact lined.stay (fun _ here => here) rfl
  | fail => exact lined.stay (fun _ here => here) rfl
  | @ask name key onward _ _ =>
      let asking : Machine := ⟨.provide name (.ask (.resolve key) onward), frames, scene⟩
      have asked : Asked (asking :: states) name key onward frames :=
        ⟨[], asking, states, rfl, rfl, rfl, nofun⟩
      have line : Line (asking :: states) frames name :=
        (lined.line_at rfl).later (List.suffix_refl frames)
      exact ⟨⟨key, .point asked line, fun _ here => (Option.some.inj here).symm⟩, nofun⟩
  | aside isAside answer report => exact lined.stay (fun _ here => here) rfl
  | leave => exact lined.stay nofun rfl
  | @resume answer name onward rest _ =>
      obtain ⟨key, line, _⟩ := lined.line
      let told : Machine := ⟨.answer answer, .point name onward :: rest, scene⟩
      have beneath : Line (told :: states) rest name :=
        line.beneath.later (List.suffix_cons (.point name onward) rest)
      exact ⟨⟨name, beneath, fun _ here => (Option.some.inj here).symm⟩, nofun⟩
  | @consult key onward _ _ =>
      have keyless : (Frame.rule onward :: frames).filterMap Frame.key? = [] :=
        lined.policies rfl
      exact ⟨⟨key, .policies keyless key, fun _ here => (Option.some.inj here).symm⟩, nofun⟩
  | @told answer onward rest _ =>
      obtain ⟨key, line, _⟩ := lined.line
      cases line with
      | policies keyless => exact .of_policies keyless rfl
  | policy before after keys report =>
      refine .of_policies (keys.trans (lined.policies before)) ?_
      cases next <;> first | rfl | cases after

end Lined

theorem Context.History.lined {start : Context} {machine : Machine} {earlier : List Machine}
    (history : start.History machine earlier) : Lined earlier machine.focus machine.frames := by
  obtain ⟨now, own⟩ := history.exists_context
  refine history.invariant
    (motive := fun focus frames _ earlier => Lined earlier focus frames) ?_ ?_ ?_ own
  · exact fun client => .of_policies rfl rfl
  · exact fun machine earlier now focus frames after before own lined moved => lined.move moved
  · exact fun result scene now client earlier lined => .of_policies rfl rfl

theorem Context.History.waits {start : Context} {machine : Machine} {earlier : List Machine}
    (history : start.History machine earlier) {name : String}
    (focused : machine.focus = .request name) :
    (machine.waiting ++ [name]).IsChain (Waits (machine :: earlier)) := by
  have line : Line earlier machine.frames name :=
    history.lined.line_at (by rw [focused]; rfl)
  exact (line.later (List.suffix_refl machine.frames)).isChain

end AccessPolicy
