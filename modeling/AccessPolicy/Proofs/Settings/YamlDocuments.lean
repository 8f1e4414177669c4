/-
The settings that the reader of YAML makes are tidy: a key that comes again in a table takes the place of the first one.
-/

import AccessPolicy.Settings.Yaml
import AccessPolicy.Proofs.Settings.Merging

namespace AccessPolicy.Yaml

open Setting (Tidy tidy_putEntry tidy_of_entries_eq_nil tidy_nil tidy_table_iff)

variable {value : Setting}

/-! ### Scalars -/

theorem word64_flat {number : Int} (reads : word64? number = some value) : value.entries = [] := by
  obtain ⟨_, _, rfl⟩ := Option.map_eq_some_iff.mp reads
  rfl

theorem radixInteger_flat {radix : Nat} {word : List Char}
    (reads : radixInteger? radix word = some value) : value.entries = [] := by
  unfold radixInteger? at reads
  obtain ⟨_, _, reads⟩ := Option.bind_eq_some_iff.mp reads
  split at reads
  · cases reads
  · exact word64_flat reads

theorem integer_flat {word : List Char} (reads : integer? word = some value) :
    value.entries = [] := by
  unfold integer? at reads
  split at reads
  · exact radixInteger_flat reads
  · exact radixInteger_flat reads
  · obtain ⟨_, _, reads⟩ := Option.bind_eq_some_iff.mp reads
    exact word64_flat reads

theorem float_flat {word : String} (reads : float? word = some value) : value.entries = [] := by
  unfold float? at reads
  split at reads
  · cases reads
    rfl
  · split at reads
    · cases reads
      rfl
    · split at reads
      · cases reads
        rfl
      · obtain ⟨_, _, rfl⟩ := Option.map_eq_some_iff.mp reads
        rfl

theorem plain_flat (word : String) : (plain word).entries = [] := by
  unfold plain
  split
  · rfl
  · split
    · rfl
    · split
      · rfl
      · cases found : (integer? word.toList).or (float? word) with
        | none => rfl
        | some value =>
            rcases Option.or_eq_some_iff.mp found with whole | ⟨_, pointed⟩
            · exact integer_flat whole
            · exact float_flat pointed

theorem tidy_scalar {inFlow : Bool} {text rest : List Char}
    (reads : scalar? inFlow text = some (value, rest)) : Tidy value := by
  apply tidy_of_entries_eq_nil
  unfold scalar? at reads
  split at reads
  · obtain ⟨_, _, same⟩ := Option.map_eq_some_iff.mp reads
    cases same
    rfl
  · obtain ⟨_, _, same⟩ := Option.map_eq_some_iff.mp reads
    cases same
    exact plain_flat _

/-! ### Collections in brackets -/

/-- With this much fuel the readers inside of collections make tidy settings. Lists are not looked
into. -/
structure FlowTidy (fuel : Nat) : Prop where
  node {text : List Char} {value : Setting} {rest : List Char} :
    flowNode? fuel text = some (value, rest) → Tidy value
  entries {entries : List (String × Setting)} {text : List Char}
      {result : List (String × Setting)} {rest : List Char} :
    Tidy (.table entries) → flowEntries? fuel entries text = some (result, rest) →
      Tidy (.table result)
  value {text : List Char} {value : Setting} {rest : List Char} :
    flowValue? fuel text = some (value, rest) → Tidy value

section

variable {fuel : Nat} {text rest : List Char} {entries result : List (String × Setting)}

theorem flowTidy_zero : FlowTidy 0 := by
  refine ⟨fun reads => ?_, fun _ reads => ?_, fun reads => ?_⟩
  · rw [flowNode?] at reads
    cases reads
  · rw [flowEntries?] at reads
    cases reads
  · rw [flowValue?] at reads
    cases reads

variable (less : FlowTidy fuel)

include less

theorem FlowTidy.node_succ (reads : flowNode? (fuel + 1) text = some (value, rest)) :
    Tidy value := by
  unfold flowNode? at reads
  split at reads
  · cases ‹_ = _›
  · obtain ⟨_, _, same⟩ := Option.map_eq_some_iff.mp reads
    cases same
    exact tidy_of_entries_eq_nil rfl
  · obtain ⟨_, nested, same⟩ := Option.map_eq_some_iff.mp reads
    cases same
    cases Nat.succ.inj ‹fuel + 1 = _›
    exact less.entries tidy_nil nested
  · exact tidy_scalar reads

/-- A key may stand without a value. -/
theorem FlowTidy.entries_succ (tidy : Tidy (.table entries))
    (reads : flowEntries? (fuel + 1) entries text = some (result, rest)) :
    Tidy (.table result) := by
  unfold flowEntries? at reads
  split at reads
  · cases ‹_ = _›
  · cases reads
    exact tidy
  · cases Nat.succ.inj ‹fuel + 1 = _›
    simp only [Option.bind_eq_bind] at reads
    obtain ⟨⟨name, _⟩, _, reads⟩ := Option.bind_eq_some_iff.mp reads
    dsimp only at reads
    split at reads
    · obtain ⟨⟨value, _⟩, found, others⟩ := Option.bind_eq_some_iff.mp reads
      have kept : Tidy (.table (Setting.putEntry name value entries)) :=
        tidy_putEntry tidy (less.value found)
      dsimp only at others
      split at others
      · exact less.entries kept others
      · cases others
        exact kept
      · cases others
    · have kept : Tidy (.table (Setting.putEntry name .absent entries)) :=
        tidy_putEntry tidy (tidy_of_entries_eq_nil rfl)
      simp only [Option.pure_def, Option.bind_some] at reads
      split at reads
      · exact less.entries kept reads
      · cases reads
        exact kept
      · cases reads

theorem FlowTidy.value_succ (reads : flowValue? (fuel + 1) text = some (value, rest)) :
    Tidy value := by
  unfold flowValue? at reads
  split at reads
  · cases ‹_ = _›
  · cases reads
  · cases Nat.succ.inj ‹fuel + 1 = _›
    split at reads
    · cases reads
      exact tidy_of_entries_eq_nil rfl
    · exact less.node reads

end

/-- The fuel bounds all readers at once, and each calls the others with less of it. -/
theorem flowTidy (fuel : Nat) : FlowTidy fuel := by
  induction fuel with
  | zero => exact flowTidy_zero
  | succ fuel less => exact ⟨less.node_succ, less.entries_succ, less.value_succ⟩

/-! ### Blocks -/

theorem plainLines_flat {outer : Nat} {text : List Char} {lines rest : List Line}
    (reads : plainLines? outer text lines = some (value, rest)) : value.entries = [] := by
  unfold plainLines? at reads
  obtain ⟨⟨word, _⟩, _, reads⟩ := Option.bind_eq_some_iff.mp reads
  dsimp only at reads
  split at reads
  · cases reads
  · split at reads
    · cases reads
      exact plain_flat _
    · split at reads
      · cases reads
        exact plain_flat _
      · split at reads <;> cases reads
        exact plain_flat _

/-- A value on the line of its key has entries only if it is a collection in brackets. -/
theorem tidy_inline {outer : Nat} {text : List Char} {lines rest : List Line}
    (reads : inline? outer text lines = some (value, rest)) : Tidy value := by
  have closed {found : Setting} {behind : List Char} (tidy : Tidy found)
      (closes : (if isTail (cutLines behind).1 then some (found, (cutLines behind).2) else none) =
        some (value, rest)) : Tidy value := by
    split at closes <;> cases closes
    exact tidy
  unfold inline? at reads
  dsimp only at reads
  split at reads
  · obtain ⟨_, _, same⟩ := Option.bind_eq_some_iff.mp reads
    cases same
    exact tidy_of_entries_eq_nil rfl
  · obtain ⟨_, _, same⟩ := Option.bind_eq_some_iff.mp reads
    cases same
    exact tidy_of_entries_eq_nil rfl
  · split at reads
    · obtain ⟨⟨_, _⟩, flow, closes⟩ := Option.bind_eq_some_iff.mp reads
      exact closed ((flowTidy _).node flow) closes
    · split at reads
      · obtain ⟨⟨_, _⟩, _, closes⟩ := Option.bind_eq_some_iff.mp reads
        exact closed (tidy_of_entries_eq_nil rfl) closes
      · exact tidy_of_entries_eq_nil (plainLines_flat reads)
  · cases reads

/-- With this much fuel the readers of lines make tidy settings. -/
structure BlockTidy (fuel : Nat) : Prop where
  node {outer : Nat} {lines : List Line} {value : Setting} {rest : List Line} :
    node? fuel outer lines = some (value, rest) → Tidy value
  entries {depth : Nat} {entries : List (String × Setting)} {lines : List Line}
      {result : List (String × Setting)} {rest : List Line} :
    Tidy (.table entries) → entries? fuel depth entries lines = some (result, rest) →
      Tidy (.table result)
  value {depth : Nat} {behind : List Char} {lines : List Line} {value : Setting}
      {rest : List Line} :
    entryValue? fuel depth behind lines = some (value, rest) → Tidy value

section

variable {fuel outer depth : Nat} {behind : List Char} {lines rest : List Line}
  {entries result : List (String × Setting)}

theorem blockTidy_zero : BlockTidy 0 := by
  refine ⟨fun reads => ?_, fun _ reads => ?_, fun reads => ?_⟩
  · rw [node?] at reads
    cases reads
  · rw [entries?] at reads
    cases reads
  · rw [entryValue?] at reads
    cases reads

variable (less : BlockTidy fuel)

include less

theorem BlockTidy.node_succ (reads : node? (fuel + 1) outer lines = some (value, rest)) :
    Tidy value := by
  unfold node? at reads
  split at reads
  · cases ‹_ = _›
  · cases reads
    exact tidy_of_entries_eq_nil rfl
  · cases Nat.succ.inj ‹fuel + 1 = _›
    split at reads
    · cases reads
      exact tidy_of_entries_eq_nil rfl
    · split at reads
      · obtain ⟨_, _, same⟩ := Option.map_eq_some_iff.mp reads
        cases same
        exact tidy_of_entries_eq_nil rfl
      · split at reads
        · obtain ⟨_, nested, same⟩ := Option.map_eq_some_iff.mp reads
          cases same
          exact less.entries tidy_nil nested
        · exact tidy_inline reads

theorem BlockTidy.entries_succ (tidy : Tidy (.table entries))
    (reads : entries? (fuel + 1) depth entries lines = some (result, rest)) :
    Tidy (.table result) := by
  unfold entries? at reads
  split at reads
  · cases ‹_ = _›
  · cases reads
    exact tidy
  · cases Nat.succ.inj ‹fuel + 1 = _›
    split at reads
    · cases reads
      exact tidy
    · split at reads
      · cases reads
      · obtain ⟨⟨name, _⟩, _, reads⟩ := Option.bind_eq_some_iff.mp reads
        obtain ⟨⟨value, _⟩, found, reads⟩ := Option.bind_eq_some_iff.mp reads
        exact less.entries (tidy_putEntry tidy (less.value found)) reads

theorem BlockTidy.value_succ
    (reads : entryValue? (fuel + 1) depth behind lines = some (value, rest)) : Tidy value := by
  unfold entryValue? at reads
  dsimp only at reads
  split at reads
  · exact tidy_inline reads
  · split at reads
    · split at reads
      · obtain ⟨_, _, same⟩ := Option.map_eq_some_iff.mp reads
        cases same
        exact tidy_of_entries_eq_nil rfl
      · exact less.node reads
    · cases reads
      exact tidy_of_entries_eq_nil rfl

end

theorem blockTidy (fuel : Nat) : BlockTidy fuel := by
  induction fuel with
  | zero => exact blockTidy_zero
  | succ fuel less => exact ⟨less.node_succ, less.entries_succ, less.value_succ⟩

theorem tidy_of_read {text : String} (reads : read? text = some value) : Tidy value := by
  unfold read? at reads
  obtain ⟨body, _, reads⟩ := Option.bind_eq_some_iff.mp reads
  obtain ⟨⟨found, _⟩, node, reads⟩ := Option.bind_eq_some_iff.mp reads
  dsimp only at reads
  split at reads <;> cases reads
  exact (blockTidy _).node node

end AccessPolicy.Yaml
