/-
What a request leaves behind, whichever way it ends: the keys in flight and the points are as before, the
cache has lost nothing, and the report and the counts have only been added to. Nothing is assumed of the
context, so this is also so of the requests that a point makes in the middle of a run.
-/

import AccessPolicy.Proofs.Engine.Stack

namespace AccessPolicy

/-! ### What is only added to -/

structure Store.Grows (before after : Store) : Prop where
  text : ∃ added, after.memory.report.text = before.memory.report.text ++ added
  hits : before.memory.stats.cacheHits ≤ after.memory.stats.cacheHits
  misses : before.memory.stats.cacheMisses ≤ after.memory.stats.cacheMisses

namespace Store.Grows

theorem of_same {before after : Store}
    (text : after.memory.report.text = before.memory.report.text)
    (stats : after.memory.stats = before.memory.stats) : Grows before after where
  text := ⟨"", by rw [text, String.append_empty]⟩
  hits := Nat.le_of_eq (by rw [stats])
  misses := Nat.le_of_eq (by rw [stats])

theorem refl (store : Store) : Grows store store := .of_same rfl rfl

theorem trans {first second third : Store} (left : Grows first second)
    (right : Grows second third) : Grows first third where
  text := by
    obtain ⟨early, before⟩ := left.text
    obtain ⟨late, after⟩ := right.text
    exact ⟨early ++ late, by rw [after, before, String.append_assoc]⟩
  hits := Nat.le_trans left.hits right.hits
  misses := Nat.le_trans left.misses right.misses

theorem write (store : Store) (message : String) : Grows store (store.write message) :=
  ⟨⟨Report.line store.memory.report.depth message, rfl⟩, Nat.le_refl _, Nat.le_refl _⟩

theorem hit (store : Store) (name : String) : Grows store (store.hit name) :=
  ⟨(write store _).text, Nat.le_succ _, Nat.le_refl _⟩

theorem keep (store : Store) (name : String) (value : Value) :
    Grows store (store.keep name value) :=
  ⟨(write store _).text, Nat.le_refl _, Nat.le_succ _⟩

theorem notFound (store : Store) (name : String) : Grows store (store.notFound name) :=
  write store _

theorem log (store : Store) (event : Event) : Grows store (store.log event) := .of_same rfl rfl

theorem settle {store : Store} {name : String} {result : Except Error Value × Store}
    (ran : Grows store result.2) : Grows store (Store.settle name result).2 := by
  obtain ⟨outcome, after⟩ := result
  cases outcome with
  | ok value => exact ran.trans (keep after name value)
  | error error => exact ran

theorem answer {resolve : String → Store → Except Error Value × Store}
    (grown : ∀ name store, Grows store (resolve name store).2) (request : Request)
    (store : Store) : Grows store (Store.answer resolve request store).2 := by
  cases request with
  | resolve name => exact grown name store
  | report message => exact write store message
  | indent => exact .of_same rfl rfl
  | unindent => exact .of_same rfl rfl
  | stats => exact refl store
  | trace => exact refl store
  | count counter => exact .of_same rfl rfl

end Store.Grows

section

variable {points : List InformationPoint} {inFlight : List String} {name : String} {store : Store}

theorem resolve_grows (points : List InformationPoint) (inFlight : List String) (name : String)
    (store : Store) : Store.Grows store (resolve points inFlight name store).2 := by
  refine resolve_induction
    (motive := fun _ _ store result => Store.Grows store result.2) ?_ ?_ ?_ ?_ inFlight name store
  · intro inFlight name store value _held
    exact .hit store name
  · intro inFlight name store _uncached _member
    exact .refl store
  · intro inFlight name store _uncached _fresh _missing
    exact (Store.Grows.log store _).trans (.notFound _ name)
  · intro inFlight name store point _uncached _fresh _found ih
    -- What the point is told does not matter: each of its requests only adds.
    have ran := point.provide.run_related Store.Grows .refl (fun _ _ _ => .trans)
      (Store.Grows.answer ih) (store.log (.resolving name (inFlight.length + 1)))
    exact ((Store.Grows.log store _).trans ran).settle

/-- The point of a key cannot put it into the cache: the key is in flight for all that it asks. -/
theorem resolve_failed {error : Error}
    (failed : (resolve points inFlight name store).1 = .error error) :
    (resolve points inFlight name store).2.find? name = none := by
  cases held : store.find? name with
  | some value =>
      rw [resolve_of_cached held] at failed
      cases failed
  | none =>
      by_cases member : name ∈ inFlight
      · rw [resolve_of_inFlight held member]
        exact held
      · cases found : registered? points name with
        | none =>
            rw [resolve_of_missing held member found]
            exact held
        | some point =>
            rw [resolve_of_registered held member found] at failed ⊢
            have ran := run_extends (resolve_extends points (inFlight ++ [name])) point.provide
              (store.log (.resolving name (inFlight.length + 1)))
            have outside := (ran.outside name (by simp)).trans held
            change (produce points inFlight name point store).2.find? name = none at outside
            cases produced : produce points inFlight name point store with
            | mk outcome after =>
                rw [produced] at failed outside
                cases outcome with
                | ok value => cases failed
                | error error => exact outside

end

/-! ### Requests in a context -/

/-- A request comes to its answer and leaves the context fit for others, whatever the answer is. -/
theorem Context.resolve_frame (context : Context) (name : String) (host : Host) :
    let first := Task.start (.resolve name) (host.scene (.resolution context))
    ∃ n answer now,
      (first.after n).focus = .answer answer ∧ (first.after n).step = none ∧
      (first.after n).scene.context = .resolution now ∧
      (context.resolve name host.journal).1 = answer ∧
      (context.resolve name host.journal).2.1 = now ∧
      now.inFlight = context.inFlight ∧
      now.points = context.points ∧
      (∀ key, registered? now.points key = registered? context.points key) ∧
      (∀ key value, context.memory.cache.find? key = some value →
        now.memory.cache.find? key = some value) ∧
      (∃ added, now.memory.report.text = context.memory.report.text ++ added) ∧
      context.memory.stats.cacheHits ≤ now.memory.stats.cacheHits ∧
      context.memory.stats.cacheMisses ≤ now.memory.stats.cacheMisses ∧
      ∀ error, answer = .error error → now.memory.cache.find? name = none := by
  intro first
  let store := context.store host.journal
  let result := AccessPolicy.resolve context.points context.inFlight name store
  have leads : first.Leads ⟨.answer result.1, [],
      result.2.scene context.points context.inFlight host.meters⟩ :=
    Machine.request_leads name store []
  have extended : Store.Extends context.inFlight store result.2 :=
    resolve_extends context.points context.inFlight name store
  have grown : Store.Grows store result.2 :=
    resolve_grows context.points context.inFlight name store
  obtain ⟨n, last⟩ := leads
  refine ⟨n, result.1, { context with memory := result.2.memory }, ?_⟩
  rw [last]
  refine ⟨rfl, rfl, rfl, rfl, rfl, rfl, rfl, fun _ => rfl, extended.keeps, grown.text, grown.hits,
    grown.misses, ?_⟩
  intro error failed
  exact resolve_failed failed

end AccessPolicy
