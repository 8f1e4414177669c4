/-
Resolution. A cached key is answered from the cache. A key in flight is requested by its own point,
directly or through others, and fails with the cycle. For any other key the registered point runs,
with the key in flight, and a value that it produces is kept.

The keys in flight are handed down and never stored, so every way out of a request leaves them as
they were. They are different registered keys, each of which the point of the one before has asked
for; as there are only so many registered keys, every resolution ends.
-/

import AccessPolicy.Resolution.Context

namespace AccessPolicy

/-- From the first occurrence of the repeated key through the key itself. -/
def cyclePath (inFlight : List String) (name : String) : List String :=
  inFlight.dropWhile (fun key => key ≠ name) ++ [name]

def pending (points : List InformationPoint) (inFlight : List String) : Nat :=
  (points.filter fun point => point.name ∉ inFlight).length

private theorem filter_length_lt {α : Type} (items : List α) (wide narrow : α → Bool)
    (narrower : ∀ item, narrow item = true → wide item = true)
    (item : α) (member : item ∈ items) (inWide : wide item = true)
    (notNarrow : narrow item = false) :
    (items.filter narrow).length < (items.filter wide).length := by
  have same : items.filter narrow = (items.filter wide).filter narrow := by
    rw [List.filter_filter]
    refine List.filter_congr fun other _ => ?_
    cases kept : narrow other with
    | false => rfl
    | true => rw [narrower other kept]; rfl
  rw [same]
  refine Nat.lt_of_le_of_ne (List.length_filter_le _ _) fun equal => ?_
  have all := List.length_filter_eq_length_iff.mp equal item
    (List.mem_filter.mpr ⟨member, inWide⟩)
  rw [notNarrow] at all
  cases all

theorem registered?_name {points : List InformationPoint} {name : String}
    {point : InformationPoint} (found : registered? points name = some point) :
    point.name = name := by
  simpa using List.find?_some found

theorem registered?_mem {points : List InformationPoint} {name : String}
    {point : InformationPoint} (found : registered? points name = some point) :
    point ∈ points :=
  List.mem_reverse.mp (List.mem_of_find?_eq_some found)

theorem pending_lt {points : List InformationPoint} {inFlight : List String} {name : String}
    {point : InformationPoint} (found : registered? points name = some point)
    (fresh : name ∉ inFlight) :
    pending points (inFlight ++ [name]) < pending points inFlight := by
  refine filter_length_lt points _ _ ?_ point (registered?_mem found) ?_ ?_
  · intro other outside
    simp only [decide_eq_true_eq, List.mem_append, not_or] at outside ⊢
    exact outside.1
  · rw [registered?_name found]
    exact decide_eq_true fresh
  · simp [registered?_name found]

/-- Resolves a key while the keys `inFlight` are being resolved. -/
def resolve (points : List InformationPoint) (inFlight : List String) (name : String)
    (store : Store) : Except Error Value × Store :=
  match store.memory.cache.find? name with
  | some value => (.ok value, store.hit name)
  | none =>
    if _member : name ∈ inFlight then
      (.error (.cyclicDependencies (cyclePath inFlight name)), store)
    else
      let store := store.log (.resolving name (inFlight.length + 1))
      match _found : registered? points name with
      | none => (.error (.missingInformationPoint name), store.notFound name)
      | some point =>
        let answer := Store.answer fun key store => resolve points (inFlight ++ [name]) key store
        match point.provide.run answer store with
        | (.ok value, store) => (.ok value, store.keep name value)
        | (.error error, store) => (.error error, store)
termination_by pending points inFlight
decreasing_by exact pending_lt _found _member

namespace Context

def withStore {α : Type} (act : Store → α × Store) (context : Context) (journal : Journal) :
    α × Context × Journal :=
  let (result, store) := act { memory := context.memory, journal }
  (result, { context with memory := store.memory }, store.journal)

def resolve (name : String) (context : Context) (journal : Journal) :
    Except Error Value × Context × Journal :=
  context.withStore (AccessPolicy.resolve context.points context.inFlight name) journal

def run {α : Type} (program : Program α) (context : Context) (journal : Journal) :
    Except Error α × Context × Journal :=
  context.withStore
    (program.run (Store.answer (AccessPolicy.resolve context.points context.inFlight))) journal

def getValue {kind : Kind} (key : Key kind) (context : Context) (journal : Journal) :
    Except Error kind.Datum × Context × Journal :=
  let (answer, context, journal) := context.resolve key.name journal
  (key.read answer, context, journal)

end Context

end AccessPolicy
