/-
The cache against resolution without one. Where the points have a discipline, a context answers every
request as it would without its cache, adds the keys to the cache that come to a value on the way, and
answers as many requests as the effort says once the cache is charged for the points that it has run.

The invariant is that each cached value is what its point comes to under any keys in flight that are not
cached, and that all keys which come to a value on the way are cached with it.
-/

import AccessPolicy.Proofs.Resolution.Appraisal
import AccessPolicy.Proofs.Resolution.Requests

namespace AccessPolicy

/-! ### Faithful caches -/

def Cache.Faithful (points : List InformationPoint) (may : List String → String → Prop)
    (cache : Cache) : Prop :=
  ∀ name value, cache.find? name = some value →
    ∃ point effort, registered? points name = some point ∧
      (∀ key ∈ effort.kept, cache.Holds key) ∧
      ∀ inFlight, (∀ key ∈ inFlight, cache.find? key = none) → may inFlight name →
        appraisePoint points inFlight name point = (.ok value, effort)

theorem Cache.faithful_empty (points : List InformationPoint)
    (may : List String → String → Prop) : ({} : Cache).Faithful points may := by
  intro name value found
  rw [Cache.find?_empty] at found
  cases found

/-- The answered requests of the run that has brought a key to its value. -/
def requestsOf (points : List InformationPoint) (name : String) : Nat :=
  match registered? points name with
  | none => 0
  | some point => (appraisePoint points [] name point).2.answered

def Cache.charge (points : List InformationPoint) (cache : Cache) : Nat :=
  (cache.names.map (requestsOf points)).sum

/-- What requests with a given effort do to a store. -/
structure Store.Accounts (points : List InformationPoint) (before after : Store) (effort : Effort) :
    Prop where
  kept : ∀ key, after.Holds key ↔ before.Holds key ∨ key ∈ effort.kept
  answered : after.memory.stats.answered + before.memory.cache.charge points =
    before.memory.stats.answered + after.memory.cache.charge points + effort.answered

section

variable {points : List InformationPoint} {may : List String → String → Prop}
variable {inFlight : List String} {name : String}

theorem Cache.Faithful.appraise {cache : Cache} (faithful : cache.Faithful points may)
    {value : Value} (found : cache.find? name = some value) :
    ∃ effort : Effort, (∀ key ∈ effort.kept, cache.Holds key) ∧
      ∀ inFlight, (∀ key ∈ inFlight, cache.find? key = none) → may inFlight name →
        AccessPolicy.appraise points inFlight name =
          (.ok value, { kept := name :: effort.kept, answered := 1 }) := by
  obtain ⟨point, effort, registered, kept, steady⟩ := faithful name value found
  refine ⟨effort, kept, fun inFlight uncached allowed => ?_⟩
  have fresh : name ∉ inFlight := by
    intro member
    rw [uncached name member] at found
    cases found
  rw [appraise_of_registered fresh registered, steady inFlight uncached allowed]
  rfl

theorem Cache.Faithful.appraise_top {cache : Cache} (faithful : cache.Faithful points may)
    (top : may [] name) {value : Value} (found : cache.find? name = some value) :
    (AccessPolicy.appraise points [] name).1 = .ok value := by
  obtain ⟨effort, _kept, steady⟩ := faithful.appraise found
  rw [steady [] (fun _ member => nomatch member) top]

theorem Cache.Faithful.requestsOf_eq {cache : Cache} (faithful : cache.Faithful points may)
    {value : Value} (held : cache.find? name = some value) {point : InformationPoint}
    (found : registered? points name = some point) (top : may [] name)
    (uncached : ∀ key ∈ inFlight, cache.find? key = none) (allowed : may inFlight name) :
    requestsOf points name = (appraisePoint points inFlight name point).2.answered := by
  obtain ⟨own, effort, registered, _kept, steady⟩ := faithful name value held
  rw [found] at registered
  cases registered
  unfold requestsOf
  rw [found, steady inFlight uncached allowed]
  change (appraisePoint points [] name point).2.answered = effort.answered
  rw [steady [] (fun _ member => by cases member) top]

/-! ### Accounts -/

theorem Store.Accounts.of_same {before after : Store}
    (cache : after.memory.cache = before.memory.cache)
    (stats : after.memory.stats = before.memory.stats) : Accounts points before after {} where
  kept key := by simp [Holds, cache]
  answered := by rw [cache, stats, Nat.add_zero]

theorem Store.Accounts.add {first second third : Store} {early late : Effort}
    (left : Accounts points first second early) (right : Accounts points second third late) :
    Accounts points first third (early.add late) where
  kept key := by
    rw [right.kept, left.kept]
    simp [Effort.add, or_assoc]
  answered := by
    have before := left.answered
    have after := right.answered
    simp only [Effort.add]
    omega

theorem Store.Accounts.hit {store : Store} {effort : Effort} (held : store.Holds name)
    (kept : ∀ key ∈ effort.kept, store.Holds key) :
    Accounts points store (store.hit name) { kept := name :: effort.kept, answered := 1 } where
  kept key := by
    constructor
    · exact Or.inl
    · rintro (already | member)
      · exact already
      · rcases List.mem_cons.mp member with same | inside
        · rw [same]
          exact held
        · exact kept key inside
  answered := by
    simp only [hit_cache, hit_stats, ResolutionStats.answered]
    omega

theorem Store.Accounts.keep {before after : Store} {effort : Effort} {value : Value}
    (ran : Accounts points before after effort) (uncached : after.find? name = none)
    (requests : requestsOf points name = effort.answered) :
    Accounts points before (after.keep name value)
      { kept := name :: effort.kept, answered := 1 } where
  kept key := by
    rw [holds_keep uncached, ran.kept, List.mem_cons]
    exact or_left_comm
  answered := by
    -- The requests of the point are a charge on the cache from now on.
    have answered := ran.answered
    simp only [keep_cache, keep_stats, ResolutionStats.answered, Cache.charge, Cache.names,
      Cache.entries_insert uncached, List.map_cons, List.sum_cons] at answered ⊢
    omega

/-! ### Requests -/

/-- The outcome is the one without a cache, and the store is left faithful and accounted for. -/
structure Matches (points : List InformationPoint) (may : List String → String → Prop)
    (before : Store) (result : Except Error Value × Store)
    (appraised : Except Error Value × Effort) : Prop where
  outcome : result.1 = appraised.1
  faithful : result.2.memory.cache.Faithful points may
  accounts : Store.Accounts points before result.2 appraised.2

private theorem uncached_of_keep {store : Store} {value : Value}
    (fresh : store.find? name = none) {others : List String}
    (outside : ∀ key ∈ others, (store.keep name value).find? key = none) :
    ∀ key ∈ others ++ [name], store.find? key = none := by
  intro key member
  rcases List.mem_append.mp member with earlier | last
  · have still := outside key earlier
    rw [Store.find?_keep fresh] at still
    split at still
    · cases still
    · exact still
  · rw [List.mem_singleton.mp last]
    exact fresh

theorem Discipline.keep_faithful (discipline : Discipline points may) {store : Store}
    {point : InformationPoint} {value : Value} {effort : Effort}
    (faithful : store.memory.cache.Faithful points may)
    (uncached : ∀ key ∈ inFlight ++ [name], store.find? key = none) (allowed : may inFlight name)
    (found : registered? points name = some point)
    (kept : ∀ key ∈ effort.kept, store.Holds key)
    (appraised : appraisePoint points inFlight name point = (.ok value, effort)) :
    (store.keep name value).memory.cache.Faithful points may := by
  have fresh : store.find? name = none := uncached name (by simp)
  have grown (key : String) (held : store.Holds key) : (store.keep name value).Holds key :=
    (Store.holds_keep fresh value key).mpr (Or.inr held)
  intro key held inserted
  have kept_or_new : (store.keep name value).find? key = some held := inserted
  rw [Store.find?_keep fresh] at kept_or_new
  by_cases same : key = name
  · rw [if_pos same] at kept_or_new
    cases kept_or_new
    subst same
    refine ⟨point, effort, found, fun other member => grown other (kept other member), ?_⟩
    intro others outside alsoAllowed
    -- What the point has asked for is cached, and cached values do not hang on the keys in flight.
    refine discipline.steady store.Holds inFlight others key point value effort allowed alsoAllowed
      found ?_ appraised kept
    rintro other ⟨known, present⟩ below alsoBelow
    obtain ⟨cost, _, steady⟩ := faithful.appraise present
    rw [steady _ uncached below, steady _ (uncached_of_keep fresh outside) alsoBelow]
  · rw [if_neg same] at kept_or_new
    obtain ⟨own, cost, registered, inside, steady⟩ := faithful key held kept_or_new
    refine ⟨own, cost, registered, fun other member => grown other (inside other member), ?_⟩
    intro others outside alsoAllowed
    refine steady others (fun other member => ?_) alsoAllowed
    exact uncached_of_keep fresh outside other (List.mem_append_left _ member)

theorem Discipline.produce_matches (discipline : Discipline points may) {store : Store}
    {point : InformationPoint} (found : registered? points name = some point)
    (faithful : store.memory.cache.Faithful points may)
    (uncached : ∀ key ∈ inFlight ++ [name], store.find? key = none) (allowed : may inFlight name)
    (requests : ∀ key before, before.memory.cache.Faithful points may →
      (∀ other ∈ inFlight ++ [name], before.find? other = none) → may (inFlight ++ [name]) key →
      Matches points may before (resolve points (inFlight ++ [name]) key before)
        (appraise points (inFlight ++ [name]) key)) :
    Matches points may store (produce points inFlight name point store)
        (appraisePoint points inFlight name point) ∧
      ∀ key ∈ inFlight ++ [name],
        (produce points inFlight name point store).2.find? key = none := by
  have logged : Store.Accounts points store
      (store.log (.resolving name (inFlight.length + 1))) {} := .of_same rfl rfl
  have both := (discipline.below inFlight name point allowed found).run_related
    (Store.answer (resolve points (inFlight ++ [name])))
    (Effort.answer (appraise points (inFlight ++ [name])))
    (fun after effort => after.memory.cache.Faithful points may ∧
      (∀ key ∈ inFlight ++ [name], after.find? key = none) ∧
      Store.Accounts points store after effort)
    ?_ ?_ (store.log (.resolving name (inFlight.length + 1))) {} ⟨faithful, uncached, logged⟩
  · exact ⟨⟨both.1, both.2.1, both.2.2.2⟩, both.2.2.1⟩
  · rintro key before effort below ⟨stillFaithful, stillUncached, ran⟩
    have step := requests key before stillFaithful stillUncached below
    have extended := resolve_extends points (inFlight ++ [name]) key before
    refine ⟨step.outcome, step.faithful, fun other member => ?_, ran.add step.accounts⟩
    exact (extended.outside other member).trans (stillUncached other member)
  · rintro request aside before effort ⟨stillFaithful, stillUncached, ran⟩
    have same := Store.answer_aside (resolve points (inFlight ++ [name])) request aside before
    rw [Effort.answer_aside _ request aside]
    refine ⟨?_, fun other member => ?_, ?_⟩
    · rw [same.1]
      exact stillFaithful
    · unfold Store.find?
      rw [same.1]
      exact stillUncached other member
    · have unchanged : Store.Accounts points before _ {} := .of_same same.1 same.2
      simpa [Effort.add] using ran.add unchanged

theorem Discipline.settle_matches (discipline : Discipline points may) {store : Store}
    {point : InformationPoint} {result : Except Error Value × Store}
    (found : registered? points name = some point) (fresh : name ∉ inFlight)
    (allowed : may inFlight name)
    (uncached : ∀ key ∈ inFlight ++ [name], result.2.find? key = none)
    (ran : Matches points may store result (appraisePoint points inFlight name point)) :
    Matches points may store (Store.settle name result) (appraise points inFlight name) := by
  rw [appraise_of_registered fresh found]
  obtain ⟨outcome, after⟩ := result
  cases appraised : appraisePoint points inFlight name point with
  | mk own effort =>
      rw [appraised] at ran
      obtain ⟨same, faithful, accounts⟩ := ran
      change outcome = own at same
      subst same
      cases outcome with
      | error error => exact ⟨rfl, faithful, accounts⟩
      | ok value =>
          have kept (key : String) (member : key ∈ effort.kept) : after.Holds key :=
            (accounts.kept key).mpr (Or.inr member)
          have next := discipline.keep_faithful faithful uncached allowed found kept appraised
          have absent : after.find? name = none := uncached name (by simp)
          have inserted := (Store.find?_keep absent value name).trans (if_pos rfl)
          have outside : ∀ key ∈ inFlight, (after.keep name value).find? key = none := by
            intro key member
            have other : key ≠ name := fun same => fresh (by rwa [same] at member)
            rw [Store.find?_keep absent, if_neg other]
            exact uncached key (List.mem_append_left _ member)
          have requests := next.requestsOf_eq inserted found (discipline.top name) outside allowed
          rw [appraised] at requests
          exact ⟨rfl, next, accounts.keep absent requests⟩

theorem Discipline.resolve_matches (discipline : Discipline points may) (inFlight : List String)
    (name : String) (store : Store) (faithful : store.memory.cache.Faithful points may)
    (uncached : ∀ key ∈ inFlight, store.find? key = none) (allowed : may inFlight name) :
    Matches points may store (resolve points inFlight name store)
      (appraise points inFlight name) := by
  revert faithful uncached allowed
  refine resolve_induction
    (motive := fun inFlight name store result => store.memory.cache.Faithful points may →
      (∀ key ∈ inFlight, store.find? key = none) → may inFlight name →
      Matches points may store result (appraise points inFlight name))
    ?_ ?_ ?_ ?_ inFlight name store
  -- A cached value stands for the run that has brought it about, under other keys in flight.
  · intro inFlight name store value held faithful uncached allowed
    obtain ⟨effort, kept, steady⟩ := faithful.appraise held
    rw [steady inFlight uncached allowed]
    exact ⟨rfl, faithful, .hit (Store.holds_of_find? held) kept⟩
  · intro inFlight name store _uncached member faithful _ _
    rw [appraise_of_inFlight member]
    exact ⟨rfl, faithful, .of_same rfl rfl⟩
  · intro inFlight name store _uncached fresh missing faithful _ _
    rw [appraise_of_missing fresh missing]
    exact ⟨rfl, faithful, .of_same rfl rfl⟩
  · intro inFlight name store point absent fresh found ih faithful uncached allowed
    have outside : ∀ key ∈ inFlight ++ [name], store.find? key = none := by
      intro key member
      rcases List.mem_append.mp member with earlier | last
      · exact uncached key earlier
      · rw [List.mem_singleton.mp last]
        exact absent
    obtain ⟨ran, still⟩ := discipline.produce_matches found faithful outside allowed ih
    exact discipline.settle_matches found fresh allowed still ran

end

end AccessPolicy
