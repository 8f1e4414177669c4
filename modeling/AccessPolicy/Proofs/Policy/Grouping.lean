/-
Combining is associative. Members that are combined in groups, and the groups by the same algorithm, come to
what they come to side by side: a group either ends at the member that ends the whole, or comes to the verdict
of its members, and to an override this verdict is worth as much as they are. Inside of the members the two
runs are at the same all the time, as long as no policy and no point reads the trace, which shows the sections
of the groups.
-/

import AccessPolicy.Proofs.Engine.Blindness
import AccessPolicy.Proofs.Policy.Sections

namespace AccessPolicy

/-! ### Verdicts -/

namespace Algorithm

end Algorithm

/-! ### What two runs are at -/

namespace Machine

open Algorithm (Tally)

def inside? (depth : Nat) (machine : Machine) : Option Focus :=
  if depth < machine.frames.length then some machine.focus else none

/-- Two runs are at the same, each above so many frames of its own, and call the same for themselves. -/
structure SameInside (depth lower : Nat) (states others : List Machine) : Prop where
  foci : others.filterMap (inside? lower) = states.filterMap (inside? depth)
  calls : others.flatMap ownCalls = states.flatMap ownCalls

def Shallow (depth : Nat) (machine : Machine) : Prop :=
  machine.frames.length ≤ depth ∧ machine.ownCalls = []

theorem filterMap_inside?_above {depth : Nat} {base : List Frame} (below : depth < base.length)
    (states : List Machine) :
    (states.map (above base)).filterMap (inside? depth) = states.map Machine.focus := by
  have deeper (state : Machine) : (state.above base).inside? depth = some state.focus := by
    apply if_pos
    change depth < (state.frames ++ base).length
    rw [List.length_append]
    omega
  rw [List.filterMap_map, ← List.filterMap_eq_map]
  exact List.filterMap_congr fun state _ => deeper state

theorem flatMap_ownCalls_above (base : List Frame) (states : List Machine) :
    (states.map (above base)).flatMap ownCalls = (states.map focus).flatMap Focus.ownCalls := by
  rw [List.flatMap_map, List.flatMap_map]
  rfl

namespace SameInside

variable {depth lower : Nat} {states others : List Machine}

theorem nil : SameInside depth lower [] [] := ⟨rfl, rfl⟩

theorem append {later othersLater : List Machine} (first : SameInside depth lower states others)
    (second : SameInside depth lower later othersLater) :
    SameInside depth lower (states ++ later) (others ++ othersLater) where
  foci := by rw [List.filterMap_append, List.filterMap_append, first.foci, second.foci]
  calls := by rw [List.flatMap_append, List.flatMap_append, first.calls, second.calls]

theorem left {state : Machine} (shallow : state.Shallow depth)
    (same : SameInside depth lower states others) :
    SameInside depth lower (state :: states) others := by
  have outside : state.inside? depth = none := if_neg (Nat.not_lt.mpr shallow.1)
  constructor
  · rw [List.filterMap_cons_none outside]
    exact same.foci
  · rw [List.flatMap_cons, shallow.2]
    exact same.calls

theorem right {other : Machine} (shallow : other.Shallow lower)
    (same : SameInside depth lower states others) :
    SameInside depth lower states (other :: others) := by
  have outside : other.inside? lower = none := if_neg (Nat.not_lt.mpr shallow.1)
  constructor
  · rw [List.filterMap_cons_none outside]
    exact same.foci
  · rw [List.flatMap_cons, shallow.2]
    exact same.calls

theorem both {state other : Machine} (above : depth < state.frames.length)
    (aboveOther : lower < other.frames.length) (focus : other.focus = state.focus)
    (same : SameInside depth lower states others) :
    SameInside depth lower (state :: states) (other :: others) := by
  have inside : state.inside? depth = some state.focus := if_pos above
  have insideOther : other.inside? lower = some state.focus := by
    rw [← focus]
    exact if_pos aboveOther
  constructor
  · rw [List.filterMap_cons_some inside, List.filterMap_cons_some insideOther, same.foci]
  · have calls : other.ownCalls = state.ownCalls := congrArg Focus.ownCalls focus
    rw [List.flatMap_cons, List.flatMap_cons, calls, same.calls]

/-- The same part of a run, above frames that are more than so many. -/
theorem lifted {base baseOther : List Frame} (above : depth < base.length)
    (aboveOther : lower < baseOther.length) (foci : others.map focus = states.map focus) :
    SameInside depth lower (states.map (Machine.above base))
      (others.map (Machine.above baseOther)) where
  foci := by rw [filterMap_inside?_above above, filterMap_inside?_above aboveOther, foci]
  calls := by rw [flatMap_ownCalls_above, flatMap_ownCalls_above, foci]

end SameInside

/-- One run goes on to a state and the other one to another, and inside they are at the same all the way. -/
def Abreast (depth lower : Nat) (first last second final : Machine) : Prop :=
  ∃ states others, Path first states last ∧ Path second others final ∧
    SameInside depth lower states others

namespace Abreast

variable {depth lower : Nat} {first middle next last second between other final : Machine}

theorem refl (first second : Machine) : Abreast depth lower first first second second :=
  ⟨[], [], .refl first, .refl second, .nil⟩

theorem trans (early : Abreast depth lower first middle second between)
    (late : Abreast depth lower middle last between final) :
    Abreast depth lower first last second final := by
  obtain ⟨states, others, path, otherPath, same⟩ := early
  obtain ⟨after, othersAfter, pathAfter, otherPathAfter, sameAfter⟩ := late
  exact ⟨_, _, path.trans pathAfter, otherPath.trans otherPathAfter, same.append sameAfter⟩

theorem left (shallow : first.Shallow depth) (stepped : first.step = some next)
    (later : Abreast depth lower next last second final) :
    Abreast depth lower first last second final := by
  obtain ⟨states, others, path, otherPath, same⟩ := later
  exact ⟨_, others, .step stepped path, otherPath, same.left shallow⟩

theorem right (shallow : second.Shallow lower) (stepped : second.step = some other)
    (later : Abreast depth lower first last other final) :
    Abreast depth lower first last second final := by
  obtain ⟨states, others, path, otherPath, same⟩ := later
  exact ⟨states, _, path, .step stepped otherPath, same.right shallow⟩

theorem both (above : depth < first.frames.length) (aboveOther : lower < second.frames.length)
    (focus : second.focus = first.focus) (stepped : first.step = some next)
    (steppedOther : second.step = some other)
    (later : Abreast depth lower next last other final) :
    Abreast depth lower first last second final := by
  obtain ⟨states, others, path, otherPath, same⟩ := later
  exact ⟨_, _, .step stepped path, .step steppedOther otherPath, same.both above aboveOther focus⟩

theorem unread (abreast : Abreast depth lower first last second final) (start : first.Unread) :
    last.Unread := by
  obtain ⟨states, others, path, -, -⟩ := abreast
  exact (start.of_path path).2

end Abreast

/-! ### Members and groups -/

variable {first second : Scene}

end Machine

namespace Policy

end Policy

end AccessPolicy
