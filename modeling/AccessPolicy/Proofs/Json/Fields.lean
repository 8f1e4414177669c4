/-
Fields with distinct names. What is found under a name is then the field of that name, and putting fields into the
order of their names changes nothing but their order.
-/

import AccessPolicy.Json.Value
import Mathlib.Data.List.Basic
import Mathlib.Data.List.Perm.Basic
import Mathlib.Data.List.Nodup
import Mathlib.Data.String.Basic

namespace AccessPolicy

/-! ### What succeeds -/

section

variable {ε α β : Type} {first : Except ε α} {result : β}

theorem bind_eq_ok_iff {next : α → Except ε β} :
    first >>= next = .ok result ↔ ∃ value, first = .ok value ∧ next value = .ok result := by
  cases first with
  | error failure => exact ⟨nofun, nofun⟩
  | ok value => exact ⟨fun same => ⟨value, rfl, same⟩, fun ⟨_, rfl, same⟩ => same⟩

theorem map_eq_ok_iff {change : α → β} :
    first.map change = .ok result ↔ ∃ value, first = .ok value ∧ change value = result := by
  cases first with
  | error failure => exact ⟨nofun, nofun⟩
  | ok value =>
      exact ⟨fun same => ⟨value, rfl, Except.ok.inj same⟩, fun ⟨_, rfl, same⟩ => congrArg _ same⟩

theorem unless_eq_ok_iff {broken : Prop} [Decidable broken] {failure : ε}
    {next : PUnit → Except ε β} :
    (if broken then .error failure >>= next else next ⟨⟩) = .ok result ↔
      ¬ broken ∧ next ⟨⟩ = .ok result := by
  by_cases holds : broken
  · rw [if_pos holds]
    exact ⟨nofun, fun both => absurd holds both.1⟩
  · rw [if_neg holds]
    exact ⟨fun same => ⟨holds, same⟩, And.right⟩

end

/-! ### Names -/

def Distinct {β : Type} (entries : List (String × β)) : Prop := (entries.map Prod.fst).Nodup

section

variable {β : Type} {entries : List (String × β)} {name : String} {value : β}

theorem distinct_nil : Distinct ([] : List (String × β)) := List.nodup_nil

theorem distinct_cons :
    Distinct ((name, value) :: entries) ↔ name ∉ entries.map Prod.fst ∧ Distinct entries :=
  List.nodup_cons

theorem Distinct.perm {others : List (String × β)} (distinct : Distinct entries)
    (same : entries.Perm others) : Distinct others :=
  (same.map Prod.fst).nodup_iff.mp distinct

theorem lookup_cons_eq (key : String) :
    List.lookup name ((key, value) :: entries) =
      if name = key then some value else entries.lookup name := by
  by_cases same : name = key
  · rw [if_pos same, same, List.lookup_cons_self]
  · rw [if_neg same, List.lookup_cons, beq_false_of_ne same]

theorem lookup_eq_none_of_not_mem (fresh : name ∉ entries.map Prod.fst) :
    entries.lookup name = none := by
  rw [List.lookup_eq_none_iff]
  intro entry member
  rw [bne_iff_ne]
  intro same
  exact fresh (List.mem_map.mpr ⟨entry, member, same.symm⟩)

theorem Distinct.lookup_eq_some_iff (distinct : Distinct entries) :
    entries.lookup name = some value ↔ (name, value) ∈ entries := by
  induction entries with
  | nil => simp
  | cons entry rest ih =>
      obtain ⟨key, content⟩ := entry
      obtain ⟨fresh, others⟩ := distinct_cons.mp distinct
      by_cases same : name = key
      · subst same
        have absent : (name, value) ∉ rest :=
          fun member => fresh (List.mem_map.mpr ⟨_, member, rfl⟩)
        simp only [List.lookup_cons, beq_self_eq_true, Option.some.injEq, List.mem_cons,
          Prod.mk.injEq, true_and, absent, or_false]
        exact eq_comm
      · simp only [List.lookup_cons, beq_false_of_ne same, ih others, List.mem_cons, Prod.mk.injEq,
          same, false_and, false_or]

end

namespace Json

variable {name : String} {value : Json} {fields : List (String × Json)}

theorem insertField_perm (fresh : name ∉ fields.map Prod.fst) :
    (insertField name value fields).Perm ((name, value) :: fields) := by
  induction fields with
  | nil => exact .refl _
  | cons field fields ih =>
      rw [List.map_cons, List.mem_cons, not_or] at fresh
      unfold insertField
      rw [if_neg fresh.1]
      split
      · exact .refl _
      · exact ((ih fresh.2).cons field).trans (.swap _ _ _)

theorem foldl_insertField_perm (sorted : List (String × Json))
    (distinct : Distinct (fields ++ sorted)) :
    (fields.foldl (fun sorted field => insertField field.1 field.2 sorted) sorted).Perm
      (fields ++ sorted) := by
  induction fields generalizing sorted with
  | nil => exact .refl _
  | cons field fields ih =>
      rw [List.cons_append] at distinct
      obtain ⟨fresh, others⟩ := distinct_cons.mp distinct
      have absent : field.1 ∉ sorted.map Prod.fst := by
        intro member
        apply fresh
        rw [List.map_append, List.mem_append]
        exact .inr member
      have placed : (insertField field.1 field.2 sorted).Perm (field :: sorted) :=
        insertField_perm absent
      have moved : (fields ++ insertField field.1 field.2 sorted).Perm (field :: fields ++ sorted) :=
        (placed.append_left fields).trans List.perm_middle
      rw [List.foldl_cons]
      exact (ih _ (distinct.perm moved.symm)).trans moved

theorem sortFields_perm (distinct : Distinct fields) : (sortFields fields).Perm fields := by
  have kept := foldl_insertField_perm [] (by rwa [List.append_nil])
  rwa [List.append_nil] at kept

/-! ### The order of names -/

def Ascending (fields : List (String × Json)) : Prop := (fields.map Prod.fst).Pairwise (· < ·)

theorem Ascending.distinct (ascending : Ascending fields) : Distinct fields :=
  List.Pairwise.imp (fun below => ne_of_lt below) ascending

theorem mem_insertField {other : String × Json} (member : other ∈ insertField name value fields) :
    other = (name, value) ∨ other ∈ fields := by
  induction fields with
  | nil => exact .inl (List.mem_singleton.mp member)
  | cons field fields ih =>
      unfold insertField at member
      split at member
      · exact (List.mem_cons.mp member).imp_right (List.mem_cons_of_mem _)
      · split at member
        · exact List.mem_cons.mp member
        · rcases List.mem_cons.mp member with same | later
          · exact .inr (List.mem_cons.mpr (.inl same))
          · exact (ih later).imp_right (List.mem_cons_of_mem _)

theorem mem_foldl_insertField {other : String × Json} {sorted : List (String × Json)}
    (member : other ∈
      fields.foldl (fun sorted field => insertField field.1 field.2 sorted) sorted) :
    other ∈ fields ∨ other ∈ sorted := by
  induction fields generalizing sorted with
  | nil => exact .inr member
  | cons first fields ih =>
      rcases ih member with later | placed
      · exact .inl (List.mem_cons_of_mem _ later)
      · rcases mem_insertField placed with rfl | old
        · exact .inl List.mem_cons_self
        · exact .inr old

theorem mem_sortFields {field : String × Json} (member : field ∈ sortFields fields) :
    field ∈ fields :=
  (mem_foldl_insertField member).resolve_right List.not_mem_nil

theorem ascending_insertField (ascending : Ascending fields) :
    Ascending (insertField name value fields) := by
  induction fields with
  | nil => exact List.pairwise_singleton _ _
  | cons field fields ih =>
      obtain ⟨first, others⟩ := List.pairwise_cons.mp ascending
      unfold insertField
      split
      · rename_i same
        subst same
        exact List.pairwise_cons.mpr ⟨first, others⟩
      · rename_i apart
        split
        · rename_i below
          refine List.pairwise_cons.mpr ⟨fun other member => ?_, ascending⟩
          rcases List.mem_cons.mp member with rfl | later
          · exact below
          · exact below.trans (first other later)
        · rename_i notBelow
          have above : field.1 < name := lt_of_le_of_ne (not_lt.mp notBelow) (Ne.symm apart)
          refine List.pairwise_cons.mpr ⟨fun other member => ?_, ih others⟩
          obtain ⟨field', placed, rfl⟩ := List.mem_map.mp member
          rcases mem_insertField placed with rfl | later
          · exact above
          · exact first _ (List.mem_map_of_mem later)

/-- The reader only makes objects with distinct names. -/
theorem ascending_sortFields (fields : List (String × Json)) : Ascending (sortFields fields) := by
  have kept (sorted : List (String × Json)) (ascending : Ascending sorted) :
      Ascending (fields.foldl (fun sorted field => insertField field.1 field.2 sorted) sorted) := by
    induction fields generalizing sorted with
    | nil => exact ascending
    | cons field fields ih => exact ih _ (ascending_insertField ascending)
  exact kept [] List.Pairwise.nil

end Json

end AccessPolicy
