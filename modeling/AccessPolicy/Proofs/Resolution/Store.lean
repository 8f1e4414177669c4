/-
What the operations on a store do to its cache and to its counts. A key whose point is running is not
in the cache, so `keep` only ever adds an entry; the laws below are about that case.
-/

import AccessPolicy.Proofs.Program.Asking
import AccessPolicy.Resolution.Resolve
import Mathlib.Data.List.Nodup

namespace AccessPolicy

namespace Cache

def Holds (cache : Cache) (name : String) : Prop := ∃ value, cache.find? name = some value

@[simp]
theorem find?_empty (name : String) : ({} : Cache).find? name = none := rfl

theorem not_holds_iff {cache : Cache} {name : String} :
    ¬cache.Holds name ↔ cache.find? name = none := by
  unfold Holds
  cases cache.find? name <;> simp

theorem holds_iff_mem {cache : Cache} {name : String} :
    cache.Holds name ↔ name ∈ cache.names := by
  constructor
  · rintro ⟨value, found⟩
    unfold find? at found
    obtain ⟨before, after, same, _earlier⟩ := List.lookup_eq_some_iff.mp found
    simp [names, same]
  · intro member
    obtain ⟨⟨key, value⟩, present, same⟩ := List.mem_map.mp member
    have found : (cache.entries.lookup name).isSome = true :=
      List.lookup_isSome_iff.mpr ⟨(key, value), present, by simpa using same.symm⟩
    exact Option.isSome_iff_exists.mp found

theorem entries_insert {cache : Cache} {name : String} (fresh : cache.find? name = none)
    (value : Value) : (cache.insert name value).entries = (name, value) :: cache.entries := by
  refine congrArg (List.cons (name, value)) (List.filter_eq_self.mpr ?_)
  intro entry member
  have other : name ≠ entry.1 := by
    intro same
    have absent : ¬cache.Holds name := not_holds_iff.mpr fresh
    exact absent (holds_iff_mem.mpr (List.mem_map.mpr ⟨entry, member, same.symm⟩))
  exact decide_eq_true fun same => other same.symm

theorem names_insert {cache : Cache} {name : String} (fresh : cache.find? name = none)
    (value : Value) : (cache.insert name value).names = name :: cache.names := by
  unfold names
  rw [entries_insert fresh, List.map_cons]

theorem mem_entries_iff {cache : Cache} (distinct : cache.names.Nodup) {name : String}
    {value : Value} : (name, value) ∈ cache.entries ↔ cache.find? name = some value := by
  have present (value : Value) (found : cache.find? name = some value) :
      (name, value) ∈ cache.entries := by
    obtain ⟨before, after, same, _earlier⟩ := List.lookup_eq_some_iff.mp found
    simp [same]
  constructor
  · intro member
    obtain ⟨other, found⟩ := holds_iff_mem.mpr (List.mem_map.mpr ⟨(name, value), member, rfl⟩)
    have same := List.inj_on_of_nodup_map distinct (present other found) member rfl
    rw [found, (Prod.mk.inj same).2]
  · exact present value

theorem find?_insert {cache : Cache} {name : String} (fresh : cache.find? name = none)
    (value : Value) (key : String) :
    (cache.insert name value).find? key = if key = name then some value else cache.find? key := by
  unfold find?
  rw [entries_insert fresh, List.lookup_cons]
  by_cases same : key = name
  · simp [same]
  · simp [same, beq_false_of_ne same]

theorem holds_insert {cache : Cache} {name : String} (fresh : cache.find? name = none)
    (value : Value) (key : String) :
    (cache.insert name value).Holds key ↔ key = name ∨ cache.Holds key := by
  unfold Holds
  rw [find?_insert fresh]
  by_cases same : key = name <;> simp [same]

end Cache

namespace ResolutionStats

def answered (stats : ResolutionStats) : Nat := stats.cacheHits + stats.cacheMisses

end ResolutionStats

namespace Store

def find? (store : Store) (name : String) : Option Value := store.memory.cache.find? name

def Holds (store : Store) (name : String) : Prop := store.memory.cache.Holds name

theorem not_holds_iff {store : Store} {name : String} :
    ¬store.Holds name ↔ store.find? name = none :=
  Cache.not_holds_iff

theorem holds_of_find? {store : Store} {name : String} {value : Value}
    (found : store.find? name = some value) : store.Holds name :=
  ⟨value, found⟩

@[simp]
theorem hit_cache (store : Store) (name : String) :
    (store.hit name).memory.cache = store.memory.cache := rfl

@[simp]
theorem hit_stats (store : Store) (name : String) :
    (store.hit name).memory.stats =
      { store.memory.stats with cacheHits := store.memory.stats.cacheHits + 1 } := rfl

@[simp]
theorem keep_cache (store : Store) (name : String) (value : Value) :
    (store.keep name value).memory.cache = store.memory.cache.insert name value := rfl

@[simp]
theorem keep_stats (store : Store) (name : String) (value : Value) :
    (store.keep name value).memory.stats =
      { store.memory.stats with cacheMisses := store.memory.stats.cacheMisses + 1 } := rfl

theorem find?_keep {store : Store} {name : String} (fresh : store.find? name = none)
    (value : Value) (key : String) :
    (store.keep name value).find? key = if key = name then some value else store.find? key :=
  Cache.find?_insert fresh value key

theorem holds_keep {store : Store} {name : String} (fresh : store.find? name = none)
    (value : Value) (key : String) :
    (store.keep name value).Holds key ↔ key = name ∨ store.Holds key :=
  Cache.holds_insert fresh value key

/-! ### Requests that are not for keys -/

theorem answer_aside (resolve : String → Store → Except Error Value × Store) (request : Request)
    (aside : request.Aside) (store : Store) :
    (Store.answer resolve request store).2.memory.cache = store.memory.cache ∧
      (Store.answer resolve request store).2.memory.stats = store.memory.stats := by
  cases request with
  | resolve name => exact absurd rfl (aside name)
  | report message => exact ⟨rfl, rfl⟩
  | indent => exact ⟨rfl, rfl⟩
  | unindent => exact ⟨rfl, rfl⟩
  | stats => exact ⟨rfl, rfl⟩
  | trace => exact ⟨rfl, rfl⟩
  | count counter => exact ⟨rfl, rfl⟩

end Store

end AccessPolicy
