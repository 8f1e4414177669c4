/-
The states that a context goes through. Between requests it is asked for anything at all, and when a
point is started its key is in flight for the requests that follow. Nothing is said here of what a
running point asks for, so the states below include all that its program can bring about.
-/

import AccessPolicy.Proofs.Resolution.Requests
import Mathlib.Data.List.Nodup

namespace AccessPolicy

namespace Context

def store (context : Context) (journal : Journal) : Store := { memory := context.memory, journal }

def answer (request : Request) (context : Context) (journal : Journal) :
    request.Answer × Context × Journal :=
  context.withStore (Store.answer (AccessPolicy.resolve context.points context.inFlight) request)
    journal

def enter (name : String) (context : Context) : Context :=
  { context with inFlight := context.inFlight ++ [name] }

inductive Reaches (start : Context) : Context → Prop
  | refl : Reaches start start
  | answer {context : Context} (reached : Reaches start context) (request : Request)
      (journal : Journal) : Reaches start (context.answer request journal).2.1
  | enter {context : Context} (reached : Reaches start context) {name : String}
      {point : InformationPoint} (uncached : context.memory.cache.find? name = none)
      (fresh : name ∉ context.inFlight) (found : registered? context.points name = some point) :
      Reaches start (context.enter name)

theorem answer_extends (request : Request) (context : Context) (journal : Journal) :
    Store.Extends context.inFlight (context.store journal)
      ((context.answer request journal).2.1.store (context.answer request journal).2.2) :=
  Store.answer_extends (resolve_extends context.points context.inFlight) request
    (context.store journal)

namespace Reaches

variable {start context : Context}

theorem points_eq (reached : start.Reaches context) : context.points = start.points := by
  induction reached with
  | refl => rfl
  | answer reached request journal ih => exact ih
  | enter reached uncached fresh found ih => exact ih

theorem find?_eq (reached : start.Reaches context) {name : String} {value : Value}
    (cached : start.memory.cache.find? name = some value) :
    context.memory.cache.find? name = some value := by
  induction reached with
  | refl => exact cached
  | @answer context reached request journal ih =>
      exact (answer_extends request context journal).keeps name value ih
  | enter reached uncached fresh found ih => exact ih

theorem inFlight_uncached (idle : start.inFlight = []) (reached : start.Reaches context) :
    ∀ key ∈ context.inFlight, context.memory.cache.find? key = none := by
  induction reached with
  | refl =>
      intro key member
      rw [idle] at member
      cases member
  | @answer context reached request journal ih =>
      intro key member
      exact ((answer_extends request context journal).outside key member).trans (ih key member)
  | @enter context reached name point uncached fresh found ih =>
      intro key member
      rcases List.mem_append.mp member with earlier | last
      · exact ih key earlier
      · rw [List.mem_singleton.mp last]
        exact uncached

theorem inFlight_nodup (idle : start.inFlight = []) (reached : start.Reaches context) :
    context.inFlight.Nodup := by
  induction reached with
  | refl =>
      rw [idle]
      exact List.nodup_nil
  | answer reached request journal ih => exact ih
  | @enter context reached name point uncached fresh found ih =>
      exact List.nodup_append_comm.mpr (List.nodup_cons.mpr ⟨fresh, ih⟩)

theorem inFlight_registered (idle : start.inFlight = []) (reached : start.Reaches context) :
    ∀ key ∈ context.inFlight, (registered? context.points key).isSome := by
  induction reached with
  | refl =>
      intro key member
      rw [idle] at member
      cases member
  | answer reached request journal ih => exact ih
  | @enter context reached name point uncached fresh found ih =>
      intro key member
      rcases List.mem_append.mp member with earlier | last
      · exact ih key earlier
      · rw [List.mem_singleton.mp last]
        exact Option.isSome_of_eq_some found

end Reaches

end Context

end AccessPolicy
