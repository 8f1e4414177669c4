/-
Points that ask for fixed lists of keys, without a cache. Such a point comes to a value exactly if all of
its requests do, and a key that comes to a value does so under fewer keys in flight as well, with the
same effort.
-/

import AccessPolicy.Proofs.Program.Listing
import AccessPolicy.Proofs.Resolution.Appraisal

namespace AccessPolicy

/-- The registered points ask for the keys that `requests` lists and give values of declared kinds. -/
def Listed (points : List InformationPoint) (kinds : String → Option Kind)
    (requests : String → List String) : Prop :=
  ∀ name point, registered? points name = some point →
    ∃ own, kinds name = some own ∧ point.provide.Lists kinds own (requests name)

/-- The key comes to a value while the keys `inFlight` are being resolved. -/
def Comes (points : List InformationPoint) (inFlight : List String) (name : String) : Prop :=
  ∃ value, (appraise points inFlight name).1 = .ok value

theorem Program.Lists.run_cases {kinds : String → Option Kind} {own : Kind} {names : List String}
    {program : Program Value} (lists : program.Lists kinds own names)
    {answer : String → Except Error Value × Effort}
    (kinded : ∀ key value, (answer key).1 = .ok value → kinds key = some value.kind)
    (start : Effort) :
    ((∀ key ∈ names, ∃ value, (answer key).1 = .ok value) ∧
      ∃ datum, program.run (Effort.answer answer) start =
        (.ok ⟨own, datum⟩, start.add (Effort.total answer names))) ∨
    ∃ key ∈ names, ∃ error, (answer key).1 = .error error ∧
      (program.run (Effort.answer answer) start).1 = .error error := by
  induction lists generalizing start with
  | done datum =>
      refine Or.inl ⟨fun _ impossible => (nomatch impossible), datum, ?_⟩
      exact congrArg (Prod.mk _) start.add_empty.symm
  | @ask α name read fails fits next names passes goes ih =>
      change _ ∨ ∃ key ∈ name :: names, ∃ error, (answer key).1 = .error error ∧
        ((next (read (answer name).1)).run (Effort.answer answer)
          (start.add (answer name).2)).1 = .error error
      cases answered : (answer name).1 with
      | error error =>
          refine Or.inr ⟨name, List.mem_cons_self, error, answered, ?_⟩
          rw [fails]
          exact (passes error).run_eq _ _
      | ok value =>
          obtain ⟨datum, known⟩ := fits value (kinded name value answered)
          rw [known]
          rcases ih datum (start.add (answer name).2) with ⟨all, own, ran⟩ | failed
          · refine Or.inl ⟨?_, own, ?_⟩
            · intro key member
              rcases List.mem_cons.mp member with first | later
              · rw [first]
                exact ⟨value, answered⟩
              · exact all key later
            · change (next (read (answer name).1)).run (Effort.answer answer)
                (start.add (answer name).2) = _
              rw [answered, known, ran, Effort.add_assoc]
              rfl
          · obtain ⟨key, member, error, wrong, ran⟩ := failed
            exact Or.inr ⟨key, List.mem_cons_of_mem _ member, error, wrong, ran⟩
  | @aside request isAside next names goes ih =>
      have run : (Program.ask request fun _ => next).run (Effort.answer answer) start =
          next.run (Effort.answer answer) start := by
        change next.run (Effort.answer answer) (Effort.answer answer request start).2 = _
        rw [Effort.answer_aside answer request isAside]
      rw [run]
      exact ih start

namespace Listed

variable {points : List InformationPoint} {kinds : String → Option Kind}
variable {requests : String → List String} {inFlight : List String} {name : String}

theorem forwarding (listed : Listed points kinds requests) (name : String)
    (point : InformationPoint) (found : registered? points name = some point) :
    point.provide.Forwarding := by
  obtain ⟨own, _kind, lists⟩ := listed name point found
  exact lists.forwarding

theorem kind_of_appraise (listed : Listed points kinds requests) (inFlight : List String)
    (name : String) (value : Value)
    (came : (appraise points inFlight name).1 = .ok value) : kinds name = some value.kind := by
  obtain ⟨fresh, point, found, outcome⟩ := appraise_ok_inv came
  obtain ⟨own, kind, lists⟩ := listed name point found
  unfold appraisePoint at outcome
  -- The point's own requests are read at the kinds that they are declared at.
  rcases lists.run_cases (listed.kind_of_appraise (inFlight ++ [name])) {}
    with ⟨_all, datum, ran⟩ | ⟨key, _asked, error, _wrong, ran⟩
  · rw [ran] at outcome
    cases outcome
    exact kind
  · rw [ran] at outcome
    cases outcome
termination_by pending points inFlight
decreasing_by exact pending_lt found fresh

/-- All requests of a registered key that is not in flight come to a value and so does the key, or one
of them fails and so does the key. -/
theorem appraise_cases (listed : Listed points kinds requests) {point : InformationPoint}
    (fresh : name ∉ inFlight) (found : registered? points name = some point) :
    ((∀ key ∈ requests name, Comes points (inFlight ++ [name]) key) ∧
      ∃ value, appraisePoint points inFlight name point =
        (.ok value, Effort.total (appraise points (inFlight ++ [name])) (requests name))) ∨
    ∃ key ∈ requests name, ∃ error,
      (appraise points (inFlight ++ [name]) key).1 = .error error ∧
        (appraise points inFlight name).1 = .error error := by
  obtain ⟨own, _kind, lists⟩ := listed name point found
  rcases lists.run_cases (listed.kind_of_appraise (inFlight ++ [name])) {}
    with ⟨all, datum, ran⟩ | ⟨key, member, error, wrong, ran⟩
  · refine Or.inl ⟨all, ⟨own, datum⟩, ran.trans ?_⟩
    simp [Effort.add]
  · refine Or.inr ⟨key, member, error, wrong, ?_⟩
    rw [appraise_of_registered fresh found, Effort.settle_fst]
    exact ran

theorem comes_inv (listed : Listed points kinds requests) (comes : Comes points inFlight name) :
    name ∉ inFlight ∧ ∃ point, registered? points name = some point ∧
      (∀ key ∈ requests name, Comes points (inFlight ++ [name]) key) ∧
      ∃ value, appraisePoint points inFlight name point =
        (.ok value, Effort.total (appraise points (inFlight ++ [name])) (requests name)) := by
  obtain ⟨value, came⟩ := comes
  obtain ⟨fresh, point, found, _outcome⟩ := appraise_ok_inv came
  rcases listed.appraise_cases fresh found with ⟨all, own, ran⟩ | failed
  · exact ⟨fresh, point, found, all, own, ran⟩
  · obtain ⟨key, _asked, error, _wrong, same⟩ := failed
    rw [same] at came
    cases came

/-- A key that comes to a value does so with fewer keys in flight, with the same effort. -/
theorem appraise_shorten (listed : Listed points kinds requests) {shorter inFlight : List String}
    {name : String} (comes : Comes points inFlight name) (within : shorter ⊆ inFlight) :
    appraise points shorter name = appraise points inFlight name := by
  obtain ⟨fresh, point, found, all, _value, _ran⟩ := listed.comes_inv comes
  obtain ⟨own, _kind, lists⟩ := listed name point found
  -- All requests come to a value, so they too do with fewer keys in flight.
  have below : ∀ key ∈ requests name,
      appraise points (shorter ++ [name]) key = appraise points (inFlight ++ [name]) key :=
    fun key member => listed.appraise_shorten (all key member)
      (List.append_subset_of_subset_of_subset (List.subset_append_of_subset_left _ within)
        (List.subset_append_right _ _))
  rw [appraise_of_registered fresh found,
    appraise_of_registered (fun member => fresh (within member)) found,
    appraisePoint_eq_of_agree lists.asksOnly below]
termination_by pending points inFlight
decreasing_by exact pending_lt found fresh

theorem comes_shorten (listed : Listed points kinds requests) {shorter : List String}
    (comes : Comes points inFlight name) (within : shorter ⊆ inFlight) :
    Comes points shorter name := by
  unfold Comes
  rw [listed.appraise_shorten comes within]
  exact comes

end Listed

end AccessPolicy
