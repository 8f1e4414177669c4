/-
Requests for keys, one case for each way in which a context answers them, and what every request
leaves alone. A run of requests keeps what a single one keeps, as programs only change a store through
the answers that they ask for.
-/

import AccessPolicy.Proofs.Resolution.Store

namespace AccessPolicy

/-! ### Programs -/

theorem Program.run_related {α σ : Type}
    {answer : (request : Request) → σ → request.Answer × σ} (program : Program α)
    (related : σ → σ → Prop) (refl : ∀ state, related state state)
    (trans : ∀ first second third, related first second → related second third →
      related first third)
    (answered : ∀ request state, related state (answer request state).2) (state : σ) :
    related state (program.run answer state).2 := by
  induction program generalizing state with
  | done result => exact refl state
  | ask request next ih =>
      exact trans _ _ _ (answered request state)
        (ih (answer request state).1 (answer request state).2)

/-! ### The answers of a context -/

def produce (points : List InformationPoint) (inFlight : List String) (name : String)
    (point : InformationPoint) (store : Store) : Except Error Value × Store :=
  point.provide.run (Store.answer (resolve points (inFlight ++ [name])))
    (store.log (.resolving name (inFlight.length + 1)))

def Store.settle (name : String) : Except Error Value × Store → Except Error Value × Store
  | (.ok value, store) => (.ok value, store.keep name value)
  | (.error error, store) => (.error error, store)

section

variable {points : List InformationPoint} {inFlight : List String} {name : String} {store : Store}

theorem resolve_of_cached {value : Value} (cached : store.find? name = some value) :
    resolve points inFlight name store = (.ok value, store.hit name) := by
  have found : store.memory.cache.find? name = some value := cached
  rw [resolve, found]

theorem resolve_of_inFlight (uncached : store.find? name = none) (member : name ∈ inFlight) :
    resolve points inFlight name store =
      (.error (.cyclicDependencies (cyclePath inFlight name)), store) := by
  have absent : store.memory.cache.find? name = none := uncached
  rw [resolve, absent]
  exact if_pos member

theorem resolve_of_missing (uncached : store.find? name = none) (fresh : name ∉ inFlight)
    (missing : registered? points name = none) :
    resolve points inFlight name store =
      (.error (.missingInformationPoint name),
        (store.log (.resolving name (inFlight.length + 1))).notFound name) := by
  have absent : store.memory.cache.find? name = none := uncached
  rw [resolve, absent]
  simp only [dif_neg fresh]
  split
  · rfl
  · rename_i found
    rw [missing] at found
    cases found

theorem resolve_of_registered {point : InformationPoint} (uncached : store.find? name = none)
    (fresh : name ∉ inFlight) (found : registered? points name = some point) :
    resolve points inFlight name store =
      Store.settle name (produce points inFlight name point store) := by
  have absent : store.memory.cache.find? name = none := uncached
  rw [resolve, absent]
  simp only [dif_neg fresh]
  split
  · rename_i missing
    rw [found] at missing
    cases missing
  · rename_i other same
    rw [found] at same
    cases same
    unfold produce Store.settle
    split <;> simp_all

end

/-- Induction on requests: a property of their answers holds if a point that is run, whose own requests
have it, gives an answer that has it. -/
theorem resolve_induction {points : List InformationPoint}
    {motive : List String → String → Store → Except Error Value × Store → Prop}
    (cached : ∀ inFlight name store value, store.find? name = some value →
      motive inFlight name store (.ok value, store.hit name))
    (cyclic : ∀ inFlight name store, store.find? name = none → name ∈ inFlight →
      motive inFlight name store
        (.error (.cyclicDependencies (cyclePath inFlight name)), store))
    (missing : ∀ inFlight name store, store.find? name = none → name ∉ inFlight →
      registered? points name = none →
      motive inFlight name store (.error (.missingInformationPoint name),
        (store.log (.resolving name (inFlight.length + 1))).notFound name))
    (produced : ∀ inFlight name store point, store.find? name = none → name ∉ inFlight →
      registered? points name = some point →
      (∀ key before, motive (inFlight ++ [name]) key before
        (resolve points (inFlight ++ [name]) key before)) →
      motive inFlight name store (Store.settle name (produce points inFlight name point store)))
    (inFlight : List String) (name : String) (store : Store) :
    motive inFlight name store (resolve points inFlight name store) := by
  cases held : store.find? name with
  | some value =>
      rw [resolve_of_cached held]
      exact cached inFlight name store value held
  | none =>
      by_cases member : name ∈ inFlight
      · rw [resolve_of_inFlight held member]
        exact cyclic inFlight name store held member
      · cases found : registered? points name with
        | none =>
            rw [resolve_of_missing held member found]
            exact missing inFlight name store held member found
        | some point =>
            rw [resolve_of_registered held member found]
            -- One registered key more is in flight for the point's own requests.
            exact produced inFlight name store point held member found fun key before =>
              resolve_induction cached cyclic missing produced (inFlight ++ [name]) key before
termination_by pending points inFlight
decreasing_by exact pending_lt found member

/-! ### What a request leaves alone -/

/-- While some keys are in flight, nothing that is in the cache leaves it, none of these keys enters it,
and every entry that it gains is for another key and is counted. -/
structure Store.Extends (inFlight : List String) (before after : Store) : Prop where
  keeps : ∀ name value, before.find? name = some value → after.find? name = some value
  outside : ∀ name ∈ inFlight, after.find? name = before.find? name
  distinct : before.memory.cache.names.Nodup → after.memory.cache.names.Nodup
  counted : after.memory.stats.cacheMisses + before.memory.cache.size =
    before.memory.stats.cacheMisses + after.memory.cache.size

namespace Store.Extends

variable {inFlight : List String} {first second third : Store}

theorem refl (inFlight : List String) (store : Store) : Extends inFlight store store :=
  ⟨fun _ _ found => found, fun _ _ => rfl, fun distinct => distinct, rfl⟩

theorem trans (left : Extends inFlight first second) (right : Extends inFlight second third) :
    Extends inFlight first third where
  keeps name value found := right.keeps name value (left.keeps name value found)
  outside name member := (right.outside name member).trans (left.outside name member)
  distinct before := right.distinct (left.distinct before)
  counted := by
    have before := left.counted
    have after := right.counted
    omega

theorem of_same (cache : second.memory.cache = first.memory.cache)
    (misses : second.memory.stats.cacheMisses = first.memory.stats.cacheMisses) :
    Extends inFlight first second where
  keeps name value found := by
    unfold find? at found ⊢
    rw [cache]
    exact found
  outside name _member := by
    unfold find?
    rw [cache]
  distinct before := by rwa [cache]
  counted := by rw [cache, misses]

theorem shorten {name : String} (longer : Extends (inFlight ++ [name]) first second) :
    Extends inFlight first second where
  keeps := longer.keeps
  outside key member := longer.outside key (List.mem_append_left _ member)
  distinct := longer.distinct
  counted := longer.counted

theorem keep {name : String} (ran : Extends (inFlight ++ [name]) first second)
    (uncached : first.find? name = none) (fresh : name ∉ inFlight) (value : Value) :
    Extends inFlight first (second.keep name value) := by
  -- The key has been in flight up to now.
  have stillUncached : second.find? name = none := by
    rw [ran.outside name (by simp), uncached]
  refine ⟨?_, ?_, ?_, ?_⟩
  · intro key held found
    rw [find?_keep stillUncached]
    have other : key ≠ name := by
      intro same
      rw [same, uncached] at found
      cases found
    rw [if_neg other]
    exact ran.keeps key held found
  · intro key member
    have other : key ≠ name := fun same => fresh (by rwa [same] at member)
    rw [find?_keep stillUncached, if_neg other]
    exact ran.outside key (List.mem_append_left _ member)
  · intro distinct
    rw [keep_cache, Cache.names_insert stillUncached]
    refine List.nodup_cons.mpr ⟨fun member => ?_, ran.distinct distinct⟩
    exact not_holds_iff.mpr stillUncached (Cache.holds_iff_mem.mpr member)
  · have counted := ran.counted
    simp only [keep_cache, keep_stats, Cache.size, Cache.entries_insert stillUncached,
      List.length_cons] at counted ⊢
    omega

theorem settle {name : String} {result : Except Error Value × Store}
    (ran : Extends (inFlight ++ [name]) first result.2) (uncached : first.find? name = none)
    (fresh : name ∉ inFlight) : Extends inFlight first (Store.settle name result).2 := by
  obtain ⟨outcome, store⟩ := result
  cases outcome with
  | ok value => exact ran.keep uncached fresh value
  | error error => exact ran.shorten

end Store.Extends

theorem Store.answer_extends {resolve : String → Store → Except Error Value × Store}
    {inFlight : List String} (extended : ∀ name store, Extends inFlight store (resolve name store).2)
    (request : Request) (store : Store) :
    Extends inFlight store (Store.answer resolve request store).2 := by
  rcases request.resolve_or_aside with ⟨name, same⟩ | aside
  · subst same
    exact extended name store
  · have same := answer_aside resolve request aside store
    exact .of_same same.1 (by rw [same.2])

theorem run_extends {resolve : String → Store → Except Error Value × Store}
    {inFlight : List String}
    (extended : ∀ name store, Store.Extends inFlight store (resolve name store).2)
    {α : Type} (program : Program α) (store : Store) :
    Store.Extends inFlight store (program.run (Store.answer resolve) store).2 :=
  program.run_related (Store.Extends inFlight) (.refl inFlight) (fun _ _ _ => .trans)
    (Store.answer_extends extended) store

private theorem produce_extends {points : List InformationPoint} {inFlight : List String}
    {name : String}
    (requests : ∀ key before, Store.Extends (inFlight ++ [name]) before
      (resolve points (inFlight ++ [name]) key before).2)
    (point : InformationPoint) (store : Store) :
    Store.Extends (inFlight ++ [name]) store (produce points inFlight name point store).2 := by
  have logged : Store.Extends (inFlight ++ [name]) store
      (store.log (.resolving name (inFlight.length + 1))) := .of_same rfl rfl
  exact logged.trans (run_extends requests point.provide _)

theorem resolve_extends (points : List InformationPoint) (inFlight : List String) (name : String)
    (store : Store) : Store.Extends inFlight store (resolve points inFlight name store).2 := by
  refine resolve_induction
    (motive := fun inFlight _ store result => Store.Extends inFlight store result.2)
    ?_ ?_ ?_ ?_ inFlight name store
  · intro inFlight name store value _held
    exact .of_same rfl rfl
  · intro inFlight name store _uncached _member
    exact .refl inFlight store
  · intro inFlight name store _uncached _fresh _missing
    exact .of_same rfl rfl
  · intro inFlight name store point uncached fresh _found ih
    exact (produce_extends ih point store).settle uncached fresh

end AccessPolicy
