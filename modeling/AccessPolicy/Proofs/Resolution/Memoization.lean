/-
Memoization. In every state that a new context comes to, with points running or not, it answers a
request as a resolver does that has the same keys in flight but no cache, and so runs the points again
at every request. The points must pass on every failure: one that goes on after a cycle would have its
value kept, and that value hangs on the keys in flight.
-/

import AccessPolicy.Proofs.Resolution.Reaches
import AccessPolicy.Proofs.Resolution.Simulation

namespace AccessPolicy

/-- Resolves a key without a cache. -/
def resolveAnew (points : List InformationPoint) (inFlight : List String) (name : String)
    (store : Store) : Except Error Value × Store :=
  if _member : name ∈ inFlight then
    (.error (.cyclicDependencies (cyclePath inFlight name)), store)
  else
    match _found : registered? points name with
    | none => (.error (.missingInformationPoint name), store.notFound name)
    | some point =>
      point.provide.run
        (Store.answer fun key store => resolveAnew points (inFlight ++ [name]) key store) store
termination_by pending points inFlight
decreasing_by exact pending_lt _found _member

theorem resolveAnew_eq_appraise {points : List InformationPoint}
    (asks : ∀ point ∈ points, point.provide.AsksOnly fun _ => True) (inFlight : List String)
    (name : String) (store : Store) :
    (resolveAnew points inFlight name store).1 = (appraise points inFlight name).1 := by
  fun_induction resolveAnew points inFlight name store with
  | case1 inFlight name store member => rw [appraise_of_inFlight member]
  | case2 inFlight name store fresh missing => rw [appraise_of_missing fresh missing]
  | case3 inFlight name store fresh point found ih =>
      rw [appraise_of_registered fresh found, Effort.settle_fst]
      have both := (asks point (registered?_mem found)).run_related
        (Store.answer (resolveAnew points (inFlight ++ [name])))
        (Effort.answer (appraise points (inFlight ++ [name]))) (fun _ _ => True)
        (fun key before _ _ _ => ⟨ih key before, trivial⟩) (fun _ _ _ _ _ => trivial)
        store {} trivial
      exact both.1

theorem Context.Reaches.faithful {points : List InformationPoint}
    (discipline : Discipline points fun _ _ => True) {context : Context}
    (reached : (Context.new points).Reaches context) :
    context.memory.cache.Faithful points fun _ _ => True := by
  induction reached with
  | refl => exact Cache.faithful_empty points _
  | @answer context reached request journal ih =>
      rcases request.resolve_or_aside with ⟨name, equal⟩ | aside
      · subst equal
        have step := discipline.resolve_matches context.inFlight name (context.store journal) ih
          (reached.inFlight_uncached rfl) trivial
        have same : context.points = points := reached.points_eq
        subst same
        exact step.faithful
      · have unchanged := Store.answer_aside
          (AccessPolicy.resolve context.points context.inFlight) request aside
          (context.store journal)
        change (Store.answer _ request (context.store journal)).2.memory.cache.Faithful points _
        rw [unchanged.1]
        exact ih
  | enter reached uncached fresh found ih => exact ih

theorem resolve_eq_resolveAnew {points : List InformationPoint}
    (forwarding : ∀ point ∈ points, point.provide.Forwarding) {context : Context}
    (reached : (Context.new points).Reaches context) (name : String) (journal : Journal)
    (store : Store) :
    (context.resolve name journal).1 =
      (resolveAnew points context.inFlight name store).1 := by
  have discipline : Discipline points fun _ _ => True :=
    .of_forwarding fun _ point found => forwarding point (registered?_mem found)
  have step := discipline.resolve_matches context.inFlight name (context.store journal)
    (reached.faithful discipline) (reached.inFlight_uncached rfl) trivial
  have anew := resolveAnew_eq_appraise (fun point member => (forwarding point member).asksOnly)
    context.inFlight name store
  rw [anew, ← step.outcome]
  have same : context.points = points := reached.points_eq
  rw [← same]
  rfl

private def entangled : List InformationPoint :=
  [{ name := "base", provide := .askAll [] .unit },
    { name := "left", provide := .askAll ["base", "right"] .unit },
    { name := "right", provide := .askAll ["base", "left"] .unit }]

/-- The third key is cached, and the point of the first one is running. -/
private def entangledMidway : Context :=
  ((Context.new entangled).answer (.resolve "base") {}).2.1.enter "left"

theorem resolve_eq_resolveAnew_midway :
    (Context.new entangled).Reaches entangledMidway ∧
      (∀ point ∈ entangled, point.provide.Forwarding) ∧
      (entangledMidway.resolve "right" {}).1 =
        (resolveAnew entangled ["left"] "right" (entangledMidway.store {})).1 ∧
      (entangledMidway.resolve "right" {}).1 =
        .error (.cyclicDependencies ["left", "right", "left"]) := by
  have reached : (Context.new entangled).Reaches entangledMidway :=
    .enter (.answer .refl (.resolve "base") {}) (by decide +kernel) (by decide) (by rfl)
  have forwarding : ∀ point ∈ entangled, point.provide.Forwarding := by
    intro point member
    simp only [entangled, List.mem_cons, List.not_mem_nil, or_false] at member
    rcases member with rfl | rfl | rfl <;> exact Program.askAll_forwarding _ _
  exact ⟨reached, forwarding,
    resolve_eq_resolveAnew forwarding reached "right" {} (entangledMidway.store {}),
    by with_unfolding_all rfl⟩

end AccessPolicy
