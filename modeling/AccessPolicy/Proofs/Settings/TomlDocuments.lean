/-
The settings that the reader of TOML makes are tidy: it refuses a key that is defined twice.
-/

import AccessPolicy.Settings.Toml
import AccessPolicy.Proofs.Settings.Merging

namespace AccessPolicy.Toml

open Setting (Tidy tidy_putEntry tidy_of_entries_eq_nil tidy_nil)

variable {value : Setting} {path : List String} {entries result : List (String × Setting)}

theorem tidy_define (tidyValue : Tidy value) (tidy : Tidy (.table entries))
    (defines : define? value path entries = some result) : Tidy (.table result) := by
  induction path generalizing entries result with
  | nil => cases defines
  | cons name path ih =>
      cases path with
      | nil =>
          unfold define? at defines
          split at defines
          · cases defines
          · cases defines
            exact tidy_putEntry tidy tidyValue
      | cons next path =>
          unfold define? at defines
          split at defines
          · obtain ⟨inner, nested, rfl⟩ := Option.map_eq_some_iff.mp defines
            exact tidy_putEntry tidy (ih tidy_nil nested)
          · rename_i below here
            obtain ⟨inner, nested, rfl⟩ := Option.map_eq_some_iff.mp defines
            exact tidy_putEntry tidy (ih (tidy.of_lookup here) nested)
          · cases defines

theorem radixInteger_flat {radix : Nat} {word : List Char}
    (reads : radixInteger? radix word = some value) : value.entries = [] := by
  simp only [radixInteger?, Option.bind_eq_bind, Option.bind_eq_some_iff, Option.map_eq_some_iff]
    at reads
  obtain ⟨_, _, _, _, rfl⟩ := reads
  rfl

theorem namedFloat_flat {word : List Char} (reads : namedFloat? word = some value) :
    value.entries = [] := by
  unfold namedFloat? at reads
  dsimp only at reads
  split at reads
  · cases reads
    rfl
  · split at reads <;> cases reads
    rfl

theorem decimalInteger_flat {word : List Char} (reads : decimalInteger? word = some value) :
    value.entries = [] := by
  simp only [decimalInteger?, Option.bind_eq_bind, Option.bind_eq_some_iff, Option.map_eq_some_iff]
    at reads
  obtain ⟨_, _, _, _, rfl⟩ := reads
  rfl

theorem decimalFloat_flat {word : List Char} (reads : decimalFloat? word = some value) :
    value.entries = [] := by
  simp only [decimalFloat?, Option.bind_eq_bind, Option.pure_def] at reads
  split at reads
  · cases reads
  · obtain ⟨_, _, reads⟩ := Option.bind_eq_some_iff.mp reads
    obtain ⟨_, _, reads⟩ := Option.bind_eq_some_iff.mp reads
    split at reads
    · obtain ⟨_, _, same⟩ := Option.bind_eq_some_iff.mp reads
      cases same
      rfl
    · obtain ⟨_, _, same⟩ := Option.bind_eq_some_iff.mp reads
      cases same
      rfl

theorem number_flat {word : List Char} (reads : number? word = some value) :
    value.entries = [] := by
  unfold number? at reads
  split at reads
  · exact radixInteger_flat reads
  · exact radixInteger_flat reads
  · exact radixInteger_flat reads
  · rcases Option.or_eq_some_iff.mp reads with named | ⟨_, reads⟩
    · exact namedFloat_flat named
    · rcases Option.or_eq_some_iff.mp reads with whole | ⟨_, pointed⟩
      · exact decimalInteger_flat whole
      · exact decimalFloat_flat pointed

theorem moment_flat {word : List Char} (reads : moment? word = some value) :
    value.entries = [] := by
  simp only [moment?, Option.bind_eq_bind] at reads
  split at reads
  · obtain ⟨_, _, whole⟩ := Option.bind_eq_some_iff.mp reads
    split at whole <;> cases whole
    rfl
  · cases reads
    rfl
  · split at reads
    · cases reads
    · obtain ⟨_, _, reads⟩ := Option.bind_eq_some_iff.mp reads
      obtain ⟨_, _, whole⟩ := Option.bind_eq_some_iff.mp reads
      split at whole <;> cases whole
      rfl

theorem tidy_scalar {text rest : List Char} (reads : scalar? text = some (value, rest)) :
    Tidy value := by
  apply tidy_of_entries_eq_nil
  unfold scalar? at reads
  split at reads
  · cases reads
    rfl
  · dsimp only at reads
    split at reads
    · cases reads
      rfl
    · split at reads
      · cases reads
        rfl
      · obtain ⟨_, found, same⟩ := Option.map_eq_some_iff.mp reads
        cases same
        rcases Option.or_eq_some_iff.mp found with number | ⟨_, moment⟩
        · exact number_flat number
        · exact moment_flat moment

/-! ### Values -/

/-- With this much fuel the readers of values make tidy settings. Lists are not looked into. -/
structure ValueTidy (fuel : Nat) : Prop where
  value {text : List Char} {value : Setting} {rest : List Char} :
    value? fuel text = some (value, rest) → Tidy value
  pairs {entries : List (String × Setting)} {text : List Char}
      {result : List (String × Setting)} {rest : List Char} :
    Tidy (.table entries) → pairs? fuel entries text = some (result, rest) → Tidy (.table result)

section

variable {fuel : Nat} {text rest : List Char}

theorem valueTidy_zero : ValueTidy 0 := by
  refine ⟨fun reads => ?_, fun _ reads => ?_⟩
  · rw [value?] at reads
    cases reads
  · rw [pairs?] at reads
    cases reads

variable (less : ValueTidy fuel)

include less

theorem ValueTidy.value_succ (reads : value? (fuel + 1) text = some (value, rest)) :
    Tidy value := by
  unfold value? at reads
  split at reads
  · cases ‹_ = _›
  · obtain ⟨_, _, same⟩ := Option.map_eq_some_iff.mp reads
    cases same
    exact tidy_of_entries_eq_nil rfl
  · split at reads
    · cases reads
      exact tidy_nil
    · obtain ⟨_, nested, same⟩ := Option.map_eq_some_iff.mp reads
      cases same
      cases Nat.succ.inj ‹fuel + 1 = _›
      exact less.pairs tidy_nil nested
  · exact tidy_scalar reads

theorem ValueTidy.pairs_succ (tidy : Tidy (.table entries))
    (reads : pairs? (fuel + 1) entries text = some (result, rest)) : Tidy (.table result) := by
  unfold pairs? at reads
  simp only [Option.bind_eq_bind, Option.bind_eq_some_iff] at reads
  obtain ⟨⟨path, _⟩, _, ⟨_, _⟩, _, ⟨value, _⟩, found, defined, defines, reads⟩ := reads
  have kept := tidy_define (less.value found) tidy defines
  dsimp only at reads
  split at reads
  · exact less.pairs kept reads
  · cases reads
    exact kept
  · cases reads

end

/-- The fuel bounds both readers at once, and each calls the other with less of it. -/
theorem valueTidy (fuel : Nat) : ValueTidy fuel := by
  induction fuel with
  | zero => exact valueTidy_zero
  | succ fuel less => exact ⟨less.value_succ, less.pairs_succ⟩

/-! ### Documents -/

variable {change : List (String × Setting) → Option (List (String × Setting))}

theorem tidy_atTable
    (keeps : ∀ entries result, Tidy (.table entries) → change entries = some result →
      Tidy (.table result)) (tidy : Tidy (.table entries))
    (changes : atTable? change path entries = some result) : Tidy (.table result) := by
  induction path generalizing entries result with
  | nil => exact keeps entries result tidy changes
  | cons name path ih =>
      unfold atTable? at changes
      dsimp only at changes
      split at changes
      · obtain ⟨inner, nested, rfl⟩ := Option.map_eq_some_iff.mp changes
        exact tidy_putEntry tidy (ih tidy_nil nested)
      · rename_i here
        obtain ⟨inner, nested, rfl⟩ := Option.map_eq_some_iff.mp changes
        exact tidy_putEntry tidy (ih (tidy.of_lookup here) nested)
      · split at changes
        · obtain ⟨inner, nested, rfl⟩ := Option.map_eq_some_iff.mp changes
          exact tidy_putEntry tidy (tidy_of_entries_eq_nil rfl)
        · cases changes
      · cases changes

namespace Document

variable {document next : Document} {text rest : List Char}

def Sound (document : Document) : Prop := Tidy (.table document.root)

theorem sound_openTable (sound : document.Sound) (opens : document.openTable? path = some next) :
    next.Sound := by
  unfold openTable? at opens
  split at opens
  · cases opens
  · obtain ⟨root, changes, opens⟩ := Option.bind_eq_some_iff.mp opens
    have kept : Tidy (.table root) :=
      tidy_atTable (fun _ _ tidy same => Option.some.inj same ▸ tidy) sound changes
    split at opens <;> cases opens
    exact kept

theorem sound_openItem (sound : document.Sound) (opens : document.openItem? path = some next) :
    next.Sound := by
  unfold openItem? at opens
  obtain ⟨last, _, opens⟩ := Option.bind_eq_some_iff.mp opens
  obtain ⟨root, changes, opens⟩ := Option.bind_eq_some_iff.mp opens
  cases opens
  refine tidy_atTable (fun entries result tidy puts => ?_) sound changes
  split at puts
  · cases puts
    exact tidy_putEntry tidy (tidy_of_entries_eq_nil rfl)
  · cases puts
    exact tidy_putEntry tidy (tidy_of_entries_eq_nil rfl)
  · cases puts

theorem sound_header (sound : document.Sound) (reads : document.header? text = some (next, rest)) :
    next.Sound := by
  unfold header? at reads
  split at reads
  · simp only [Option.bind_eq_bind, Option.bind_eq_some_iff] at reads
    obtain ⟨⟨path, _⟩, _, ⟨_, _⟩, _, ⟨_, _⟩, _, opened, opens, same⟩ := reads
    cases same
    exact sound_openItem sound opens
  · simp only [Option.bind_eq_bind, Option.bind_eq_some_iff] at reads
    obtain ⟨⟨path, _⟩, _, ⟨_, _⟩, _, opened, opens, same⟩ := reads
    cases same
    exact sound_openTable sound opens

theorem sound_keyLine (sound : document.Sound) (reads : document.keyLine? text = some (next, rest)) :
    next.Sound := by
  unfold keyLine? at reads
  simp only [Option.bind_eq_bind, Option.bind_eq_some_iff] at reads
  obtain ⟨⟨path, _⟩, _, ⟨_, _⟩, _, ⟨value, _⟩, found, root, changes, same⟩ := reads
  cases same
  have tidyValue : Tidy value := (valueTidy _).value found
  exact tidy_atTable (fun _ _ tidy defines => tidy_define tidyValue tidy defines) sound changes

theorem sound_lines {fuel : Nat} (sound : document.Sound)
    (reads : document.lines? fuel text = some next) : next.Sound := by
  induction fuel generalizing document text with
  | zero =>
      unfold lines? at reads
      split at reads
      · cases reads
        exact sound
      · cases reads
      · cases ‹0 = _›
  | succ fuel ih =>
      unfold lines? at reads
      split at reads
      · cases reads
        exact sound
      · cases reads
      · cases Nat.succ.inj ‹fuel + 1 = _›
        have behind {read : Document} {rest : List Char} (kept : read.Sound)
            (others : (endLine? rest).bind (read.lines? fuel) = some next) : next.Sound := by
          obtain ⟨_, _, later⟩ := Option.bind_eq_some_iff.mp others
          exact ih kept later
        dsimp only at reads
        split at reads
        · obtain ⟨⟨_, _⟩, header, others⟩ := Option.bind_eq_some_iff.mp reads
          exact behind (sound_header sound header) others
        · split at reads
          · exact behind sound reads
          · obtain ⟨⟨_, _⟩, key, others⟩ := Option.bind_eq_some_iff.mp reads
            exact behind (sound_keyLine sound key) others
        · have nothing : (endLine? []).bind (document.lines? fuel) = some next := reads
          exact behind sound nothing

end Document

theorem tidy_of_read {text : String} (reads : read? text = some value) : Tidy value := by
  obtain ⟨document, lines, rfl⟩ := Option.map_eq_some_iff.mp reads
  have start : Document.Sound {} := tidy_nil
  exact Document.sound_lines start lines

end AccessPolicy.Toml
