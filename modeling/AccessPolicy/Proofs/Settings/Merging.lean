/-
Settings laid over each other. At the end of a path stands what the highest layer has there, and a table that stands
there is laid over what the lower layers have at that path.
-/

import AccessPolicy.Settings.Setting
import AccessPolicy.Proofs.Json.Fields

namespace AccessPolicy.Setting

variable {name : String} {value found : Setting} {entries : List (String × Setting)}

theorem entries_table : (table entries).entries = entries := rfl

/-- What stands at the end of a path through tables. -/
def at? : List String → Setting → Option Setting
  | [], found => some found
  | name :: path, found => (found.entries.lookup name).bind (at? path)

/-! ### Entries -/

theorem lookup_putEntry (other : String) :
    (putEntry name value entries).lookup other =
      if other = name then some value else entries.lookup other := by
  induction entries with
  | nil => exact lookup_cons_eq name
  | cons entry rest ih =>
      obtain ⟨key, content⟩ := entry
      unfold putEntry
      rw [lookup_cons_eq]
      by_cases here : key = name
      · subst here
        rw [if_pos rfl, lookup_cons_eq]
        split <;> rfl
      · rw [if_neg here, lookup_cons_eq, ih]
        by_cases first : other = key
        · rw [if_pos first, if_pos first, if_neg (first ▸ here)]
        · rw [if_neg first, if_neg first]

theorem mem_putEntry {entry : String × Setting} (member : entry ∈ putEntry name value entries) :
    entry = (name, value) ∨ entry ∈ entries := by
  induction entries with
  | nil => exact .inl (List.mem_singleton.mp member)
  | cons first rest ih =>
      unfold putEntry at member
      split at member
      · exact (List.mem_cons.mp member).imp_right (List.mem_cons_of_mem _)
      · rcases List.mem_cons.mp member with rfl | later
        · exact .inr List.mem_cons_self
        · exact (ih later).imp_right (List.mem_cons_of_mem _)

theorem distinct_putEntry (distinct : Distinct entries) :
    Distinct (putEntry name value entries) := by
  induction entries with
  | nil => exact List.nodup_singleton name
  | cons entry rest ih =>
      obtain ⟨key, content⟩ := entry
      obtain ⟨fresh, others⟩ := distinct_cons.mp distinct
      unfold putEntry
      split
      · rename_i same
        subst same
        exact distinct_cons.mpr ⟨fresh, others⟩
      · rename_i apart
        refine distinct_cons.mpr ⟨fun again => ?_, ih others⟩
        obtain ⟨entry, member, same⟩ := List.mem_map.mp again
        rcases mem_putEntry member with rfl | old
        · exact apart same.symm
        · exact fresh (List.mem_map.mpr ⟨entry, old, same⟩)

/-! ### Tidy settings -/

/-- No table on any path has two entries of one name. -/
def Tidy (found : Setting) : Prop :=
  ∀ path inner, found.at? path = some inner → Distinct inner.entries

theorem tidy_of_entries_eq_nil (flat : found.entries = []) : Tidy found := by
  intro path inner reached
  cases path with
  | nil =>
      rw [← Option.some.inj reached, flat]
      exact distinct_nil
  | cons name path =>
      rw [at?, flat] at reached
      cases reached

theorem tidy_table_iff :
    Tidy (.table entries) ↔ Distinct entries ∧ ∀ entry ∈ entries, Tidy entry.2 := by
  constructor
  · intro tidy
    have distinct : Distinct entries := tidy [] _ rfl
    refine ⟨distinct, fun entry member path inner reached => tidy (entry.1 :: path) inner ?_⟩
    change (entries.lookup entry.1).bind (at? path) = some inner
    rw [distinct.lookup_eq_some_iff.mpr member, Option.bind_some, reached]
  · rintro ⟨distinct, tidy⟩ path inner reached
    cases path with
    | nil =>
        rw [← Option.some.inj reached]
        exact distinct
    | cons name path =>
        obtain ⟨value, here, behind⟩ := Option.bind_eq_some_iff.mp reached
        exact tidy _ (distinct.lookup_eq_some_iff.mp here) path inner behind

theorem tidy_nil : Tidy (.table []) := tidy_table_iff.mpr ⟨distinct_nil, nofun⟩

theorem tidy_putEntry (tidy : Tidy (.table entries)) (tidyValue : Tidy value) :
    Tidy (.table (putEntry name value entries)) := by
  obtain ⟨distinct, inner⟩ := tidy_table_iff.mp tidy
  refine tidy_table_iff.mpr ⟨distinct_putEntry distinct, fun entry member => ?_⟩
  rcases mem_putEntry member with rfl | old
  · exact tidyValue
  · exact inner entry old

theorem Tidy.of_lookup (tidy : Tidy (.table entries)) (here : entries.lookup name = some value) :
    Tidy value := by
  obtain ⟨distinct, inner⟩ := tidy_table_iff.mp tidy
  exact inner (name, value) (distinct.lookup_eq_some_iff.mp here)

/-! ### Laying a table over what is below -/

/-- The entries are laid one after the other, and none comes twice: each is laid over what the layers
below have under its name. -/
theorem lookup_entriesOnto (distinct : Distinct entries) (below : Option Setting) (name : String) :
    (entriesOnto entries below).entries.lookup name =
      ((entries.lookup name).map fun value =>
        value.onto ((below.getD (.table [])).entries.lookup name)).or
          ((below.getD (.table [])).entries.lookup name) := by
  induction entries generalizing below with
  | nil => rfl
  | cons entry rest ih =>
      obtain ⟨key, content⟩ := entry
      obtain ⟨fresh, others⟩ := distinct_cons.mp distinct
      rw [entriesOnto, ih others, Option.getD_some, entries_table, lookup_putEntry, lookup_cons_eq]
      by_cases same : name = key
      · subst same
        rw [lookup_eq_none_of_not_mem fresh, if_pos rfl, if_pos rfl]
        rfl
      · rw [if_neg same, if_neg same]

theorem entriesOnto_table (entries below : List (String × Setting)) :
    ∃ merged, entriesOnto entries (some (.table below)) = .table merged := by
  induction entries generalizing below with
  | nil => exact ⟨below, rfl⟩
  | cons entry rest ih =>
      rw [entriesOnto]
      exact ih _

theorem entriesOnto_cons_table (entry : String × Setting) (rest : List (String × Setting))
    (below : Option Setting) : ∃ merged, entriesOnto (entry :: rest) below = .table merged := by
  rw [entriesOnto]
  exact entriesOnto_table rest _

/-- Only tables stand along a path, as far as it goes. -/
def Opens : List String → Setting → Prop
  | [], _ => True
  | name :: path, found =>
    ∃ entries, found = .table entries ∧ ∀ inner, entries.lookup name = some inner → Opens path inner

theorem at?_onto {path : List String} {layer : Setting} (tidy : Tidy layer)
    (opens : Opens path layer) (below : Option Setting) :
    (layer.onto below).at? path =
      ((layer.at? path).map fun found => found.onto (below.bind (at? path))).or
        (below.bind (at? path)) := by
  induction path generalizing layer below with
  | nil =>
      cases below with
      | none => rfl
      | some below => rfl
  | cons name path ih =>
      obtain ⟨entries, rfl, inside⟩ := opens
      have lower : below.bind (at? (name :: path)) =
          ((below.getD (.table [])).entries.lookup name).bind (at? path) := by
        cases below <;> rfl
      have distinct : Distinct entries := tidy [] _ rfl
      rw [lower, onto, at?, at?, lookup_entriesOnto distinct, entries_table]
      cases here : entries.lookup name with
      | none => rfl
      | some inner => exact ih (tidy.of_lookup here) (inside inner here) _

/-! ### Paths of one value -/

theorem tidy_atPath {path : List String} (tidy : Tidy value) : Tidy (value.atPath path) := by
  induction path with
  | nil => exact tidy
  | cons name path ih =>
      refine tidy_table_iff.mpr ⟨List.nodup_singleton name, fun entry member => ?_⟩
      rw [List.mem_singleton.mp member]
      exact ih

theorem at?_atPath {path other : List String} (even : other.length = path.length) :
    (value.atPath other).at? path = if other = path then some value else none := by
  induction path generalizing other with
  | nil =>
      rw [List.eq_nil_of_length_eq_zero even]
      rfl
  | cons name path ih =>
      obtain ⟨key, behind, rfl⟩ := List.exists_cons_of_length_eq_add_one even
      rw [atPath, at?, entries_table, lookup_cons_eq]
      by_cases same : name = key
      · subst same
        rw [if_pos rfl, Option.bind_some, ih (Nat.succ.inj even)]
        simp
      · simp [same, Ne.symm same]

theorem opens_atPath {path other : List String} (even : other.length = path.length) :
    Opens path (value.atPath other) := by
  induction path generalizing other with
  | nil => trivial
  | cons name path ih =>
      obtain ⟨key, behind, rfl⟩ := List.exists_cons_of_length_eq_add_one even
      refine ⟨_, rfl, fun inner here => ?_⟩
      rw [lookup_cons_eq] at here
      split at here
      · rw [← Option.some.inj here]
        exact ih (Nat.succ.inj even)
      · cases here

theorem lookup_atPath_of_ne {key : String} (apart : key ≠ name) (behind : List String) :
    (value.atPath (key :: behind)).entries.lookup name = none := by
  rw [atPath, entries_table, lookup_cons_eq, if_neg (Ne.symm apart), List.lookup_nil]

end AccessPolicy.Setting
