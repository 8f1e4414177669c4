/-
The order of requests. A new context comes to the same answers, the same cache and the same counts in
whichever order some requests are made of it. What a request answers and what it adds hang on its key
alone, and the points in the cache have been charged once, so nothing is left that could tell the order.
-/

import AccessPolicy.Proofs.Resolution.Reaches
import AccessPolicy.Proofs.Resolution.Simulation
import Mathlib.Algebra.BigOperators.Group.List.Basic

namespace AccessPolicy

namespace Context

def resolveAll : List String → Context → Journal → List (Except Error Value) × Context × Journal
  | [], context, journal => ([], context, journal)
  | name :: names, context, journal =>
    let first := context.resolve name journal
    let rest := resolveAll names first.2.1 first.2.2
    (first.1 :: rest.1, rest.2)

end Context

/-- Where requests made one after the other lead to from a store: their answers, and all that the cache
and the counts are determined by. -/
structure MatchesAll (points : List InformationPoint) (may : List String → String → Prop)
    (before : Store) (names : List String) (result : List (Except Error Value) × Store) : Prop where
  outcomes : result.1 = names.map fun name => (appraise points [] name).1
  faithful : result.2.memory.cache.Faithful points may
  accounts : Store.Accounts points before result.2 (Effort.total (appraise points []) names)
  extended : Store.Extends [] before result.2

section

variable {points : List InformationPoint} {may : List String → String → Prop}

theorem Discipline.resolveAll_matches (discipline : Discipline points may) (names : List String)
    (context : Context) (same : context.points = points) (idle : context.inFlight = [])
    (faithful : context.memory.cache.Faithful points may) (journal : Journal) :
    MatchesAll points may (context.store journal) names
      ((context.resolveAll names journal).1,
        (context.resolveAll names journal).2.1.store (context.resolveAll names journal).2.2) := by
  induction names generalizing context journal with
  | nil => exact ⟨rfl, faithful, .of_same rfl rfl, .refl [] _⟩
  | cons name names ih =>
      have first := discipline.resolve_matches [] name (context.store journal) faithful
        (fun _ member => nomatch member) (discipline.top name)
      have grown := resolve_extends points [] name (context.store journal)
      have step : ((context.resolve name journal).1,
          (context.resolve name journal).2.1.store (context.resolve name journal).2.2) =
          resolve points [] name (context.store journal) := by
        rw [← same, ← idle]
        rfl
      rw [← step] at first grown
      have rest := ih (context.resolve name journal).2.1 same idle first.faithful
        (context.resolve name journal).2.2
      refine ⟨?_, rest.faithful, first.accounts.add rest.accounts, grown.trans rest.extended⟩
      exact congrArg₂ List.cons first.outcome rest.outcomes

namespace MatchesAll

variable {before start : Store} {names others : List String}
variable {first second : List (Except Error Value) × Store}

theorem find?_eq (left : MatchesAll points may before names first)
    (right : MatchesAll points may start others second) (same : start.memory = before.memory)
    (discipline : Discipline points may) (permuted : names.Perm others) (key : String) :
    first.2.memory.cache.find? key = second.2.memory.cache.find? key := by
  -- What a run adds is told by the keys that it has asked for, in whichever order.
  have holds : first.2.Holds key ↔ second.2.Holds key := by
    rw [left.accounts.kept, right.accounts.kept, Effort.mem_kept_total, Effort.mem_kept_total]
    unfold Store.Holds
    simp only [permuted.mem_iff, same]
  cases found : first.2.memory.cache.find? key with
  | none =>
      have absent : ¬second.2.Holds key := fun held =>
        Store.not_holds_iff.mpr found (holds.mpr held)
      exact (Store.not_holds_iff.mp absent).symm
  | some value =>
      obtain ⟨other, present⟩ := holds.mp ⟨value, found⟩
      have once := left.faithful.appraise_top (discipline.top key) found
      have again := right.faithful.appraise_top (discipline.top key) present
      rw [present, Except.ok.inj (once.symm.trans again)]

theorem entries_perm (left : MatchesAll points may before names first)
    (right : MatchesAll points may start others second) (same : start.memory = before.memory)
    (discipline : Discipline points may) (permuted : names.Perm others)
    (distinct : before.memory.cache.names.Nodup) :
    first.2.memory.cache.entries.Perm second.2.memory.cache.entries := by
  have distinctFirst := left.extended.distinct distinct
  have distinctSecond := right.extended.distinct (by rwa [same])
  apply (List.perm_ext_iff_of_nodup distinctFirst.of_map distinctSecond.of_map).mpr
  rintro ⟨key, value⟩
  rw [Cache.mem_entries_iff distinctFirst, Cache.mem_entries_iff distinctSecond,
    left.find?_eq right same discipline permuted key]

theorem stats_eq (left : MatchesAll points may before names first)
    (right : MatchesAll points may start others second) (same : start.memory = before.memory)
    (permuted : names.Perm others)
    (entries : first.2.memory.cache.entries.Perm second.2.memory.cache.entries) :
    first.2.memory.stats = second.2.memory.stats := by
  have sizes : first.2.memory.cache.size = second.2.memory.cache.size := entries.length_eq
  -- Both caches are charged for the same points, so the rest of the answers were hits alike.
  have charges : first.2.memory.cache.charge points = second.2.memory.cache.charge points :=
    ((entries.map Prod.fst).map (requestsOf points)).sum_eq
  have efforts : (Effort.total (appraise points []) names).answered =
      (Effort.total (appraise points []) others).answered := by
    rw [Effort.answered_total, Effort.answered_total]
    exact (permuted.map _).sum_eq
  have countedFirst := left.extended.counted
  have countedSecond := right.extended.counted
  rw [same] at countedSecond
  have answeredFirst := left.accounts.answered
  have answeredSecond := right.accounts.answered
  rw [same] at answeredSecond
  have misses : first.2.memory.stats.cacheMisses = second.2.memory.stats.cacheMisses := by
    omega
  have hits : first.2.memory.stats.cacheHits = second.2.memory.stats.cacheHits := by
    unfold ResolutionStats.answered at answeredFirst answeredSecond
    omega
  cases one : first.2.memory.stats with
  | mk cacheHits cacheMisses =>
      rw [one] at hits misses
      cases two : second.2.memory.stats with
      | mk otherHits otherMisses =>
          rw [two] at hits misses
          cases hits
          cases misses
          rfl

end MatchesAll

end

/-- Requests that are made in another order get the same answers, and leave the same cache and
counts. -/
theorem Context.resolveAll_perm {points : List InformationPoint}
    (regular : (∀ point ∈ points, point.provide.Forwarding) ∨
      ∃ rank : String → Nat, Ranked rank points)
    {names others : List String} (permuted : names.Perm others) (early late : Journal) :
    let first := (Context.new points).resolveAll names early
    let second := (Context.new points).resolveAll others late
    (∃ answer : String → Except Error Value,
      first.1 = names.map answer ∧ second.1 = others.map answer) ∧
    first.2.1.memory.cache.entries.Perm second.2.1.memory.cache.entries ∧
    (∀ key, first.2.1.memory.cache.find? key = second.2.1.memory.cache.find? key) ∧
    first.2.1.memory.stats = second.2.1.memory.stats := by
  intro first second
  have disciplined : ∃ may, Discipline points may := by
    rcases regular with forwarding | ⟨rank, ranked⟩
    · exact ⟨_, .of_forwarding fun _ point found => forwarding point (registered?_mem found)⟩
    · exact ⟨_, .of_ranked ranked⟩
  obtain ⟨may, discipline⟩ := disciplined
  have left := discipline.resolveAll_matches names (Context.new points) rfl rfl
    (Cache.faithful_empty points may) early
  have right := discipline.resolveAll_matches others (Context.new points) rfl rfl
    (Cache.faithful_empty points may) late
  have entries := left.entries_perm right rfl discipline permuted List.nodup_nil
  exact ⟨⟨_, left.outcomes, right.outcomes⟩, entries,
    left.find?_eq right rfl discipline permuted, left.stats_eq right rfl permuted entries⟩

private def ring : List InformationPoint :=
  [{ name := "base", provide := .askAll [] .unit },
    { name := "left", provide := .askAll ["base", "right"] .unit },
    { name := "right", provide := .askAll ["base", "left"] .unit }]

private def tolerant : List InformationPoint :=
  [{ name := "base", provide := .askAll [] .unit },
    { name := "spare", provide := (Program.resolve "lost").orElse (.resolve "base") }]

private theorem tolerant_ranked :
    Ranked (fun name => if name = "spare" then 1 else 0) tolerant := by
  intro point member
  simp only [tolerant, List.mem_cons, List.not_mem_nil, or_false] at member
  rcases member with rfl | rfl
  · exact .done _
  · refine .resolve "lost" _ (by decide) fun answer => ?_
    cases answer with
    | ok value => exact .done _
    | error error => exact .resolve "base" _ (by decide) fun _ => .done _

/-- Some requests fail and leave keys in the cache on their way, and some are made twice. -/
theorem resolveAll_perm_ring :
    (∀ point ∈ ring, point.provide.Forwarding) ∧
      (∃ rank, Ranked rank tolerant) ∧
      ["left", "base", "lost", "left"].Perm ["base", "left", "left", "lost"] ∧
      ((Context.new ring).resolveAll ["left", "base", "lost", "left"] {}).2.1.memory.stats =
        ((Context.new ring).resolveAll ["base", "left", "left", "lost"] {}).2.1.memory.stats ∧
      ((Context.new ring).resolveAll ["left", "base", "lost", "left"] {}).2.1.memory.stats =
        { cacheHits := 4, cacheMisses := 1 } ∧
      ["base", "spare", "lost"].Perm ["lost", "spare", "base"] ∧
      ((Context.new tolerant).resolveAll ["base", "spare", "lost"] {}).2.1.memory.stats =
        ((Context.new tolerant).resolveAll ["lost", "spare", "base"] {}).2.1.memory.stats := by
  have forwarding : ∀ point ∈ ring, point.provide.Forwarding := by
    intro point member
    simp only [ring, List.mem_cons, List.not_mem_nil, or_false] at member
    rcases member with rfl | rfl | rfl <;> exact Program.askAll_forwarding _ _
  have circled : ["left", "base", "lost", "left"].Perm ["base", "left", "left", "lost"] := by decide
  have reversed : ["base", "spare", "lost"].Perm ["lost", "spare", "base"] := by decide
  have failing := Context.resolveAll_perm (Or.inl forwarding) circled {} {}
  have catching := Context.resolveAll_perm (Or.inr ⟨_, tolerant_ranked⟩) reversed {} {}
  exact ⟨forwarding, ⟨_, tolerant_ranked⟩, circled, failing.2.2.2, by decide +kernel, reversed,
    catching.2.2.2⟩

end AccessPolicy
