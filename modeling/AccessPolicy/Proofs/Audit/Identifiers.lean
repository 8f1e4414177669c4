/-
Identifiers in their written form: five groups of hexadecimal digits, with hyphens between them. Every identifier is
read back from it.
-/

import AccessPolicy.Audit.Identifier
import AccessPolicy.Proofs.Text.Numerals

namespace AccessPolicy.Identifier

/-! ### Groups -/

theorem splitGroups_hyphen (rest : List Char) :
    splitGroups ('-' :: rest) = [] :: splitGroups rest := rfl

theorem splitGroups_cons {c : Char} (solid : c ≠ '-') {rest first : List Char}
    {others : List (List Char)} (split : splitGroups rest = first :: others) :
    splitGroups (c :: rest) = (c :: first) :: others := by
  unfold splitGroups at split ⊢
  rw [List.foldr_cons, split]
  split
  · contradiction
  · contradiction
  · rename_i same
    cases same
    rfl

theorem splitGroups_append {group : List Char} (solid : '-' ∉ group) {rest first : List Char}
    {others : List (List Char)} (split : splitGroups rest = first :: others) :
    splitGroups (group ++ rest) = (group ++ first) :: others := by
  induction group with
  | nil => exact split
  | cons c group ih =>
      rw [List.mem_cons, not_or] at solid
      exact splitGroups_cons (Ne.symm solid.1) (ih solid.2)

theorem splitGroups_intercalate {groups : List (List Char)} (some : groups ≠ [])
    (solid : ∀ group ∈ groups, '-' ∉ group) : splitGroups (['-'].intercalate groups) = groups := by
  induction groups with
  | nil => exact absurd rfl some
  | cons group groups ih =>
      obtain ⟨first, others⟩ := List.forall_mem_cons.mp solid
      cases groups with
      | nil =>
          rw [List.intercalate_singleton, ← List.append_nil group,
            splitGroups_append first (rfl : splitGroups [] = [[]])]
      | cons next groups =>
          rw [List.intercalate_cons_cons, List.append_assoc]
          have behind := ih (List.cons_ne_nil _ _) others
          have split : splitGroups (['-'] ++ ['-'].intercalate (next :: groups)) =
              [] :: next :: groups := by
            rw [List.singleton_append, splitGroups_hyphen, behind]
          rw [splitGroups_append first split, List.append_nil]

theorem flatten_group (lengths : List Nat) (digits : List Char) (whole : digits.length = lengths.sum) :
    (group lengths digits).flatten = digits := by
  induction lengths generalizing digits with
  | nil => exact (List.length_eq_zero_iff.mp whole).symm
  | cons length lengths ih =>
      rw [List.sum_cons] at whole
      rw [group, List.flatten_cons, ih _ (by rw [List.length_drop]; omega), List.take_append_drop]

theorem lengths_group (lengths : List Nat) (digits : List Char) (whole : digits.length = lengths.sum) :
    (group lengths digits).map List.length = lengths := by
  induction lengths generalizing digits with
  | nil => rfl
  | cons length lengths ih =>
      rw [List.sum_cons] at whole
      rw [group, List.map_cons, ih _ (by rw [List.length_drop]; omega), List.length_take]
      congr 1
      omega

theorem wrongLength?_of_lengths (total index : Nat) (lengths : List Nat) (groups : List (List Char))
    (same : groups.map List.length = lengths) : wrongLength? total index lengths groups = none := by
  induction groups generalizing lengths index with
  | nil =>
      subst same
      rfl
  | cons group groups ih =>
      subst same
      rw [List.map_cons, wrongLength?, if_pos rfl]
      exact ih _ _ rfl

/-! ### Digits -/

theorem length_digits (id : Identifier) : id.digits.length = 32 := by
  have short : (Nat.toDigits 16 id.bits.toNat).length ≤ 32 :=
    (Nat.length_toDigits_le_iff (by decide) (by decide)).mpr id.bits.isLt
  unfold digits
  rw [List.length_append, List.length_replicate]
  omega

theorem hexValue?_of_mem_digits {id : Identifier} {c : Char} (member : c ∈ id.digits) :
    (Json.hexValue? c).isSome = true := by
  unfold digits at member
  rw [List.mem_append] at member
  rcases member with zero | digit
  · rw [List.eq_of_mem_replicate zero]
    rfl
  · exact Text.hexValue?_of_mem digit

theorem ofDigits_digits (id : Identifier) : ofDigits id.digits = id := by
  have value : Text.hexValueOf id.digits = id.bits.toNat := Text.hexValueOf_padded _ _
  change (⟨BitVec.ofNat 128 (Text.hexValueOf id.digits)⟩ : Identifier) = id
  rw [value, BitVec.ofNat_toNat, BitVec.setWidth_eq]

/-! ### Reading back -/

theorem toList_write (id : Identifier) :
    id.write.toList = ['-'].intercalate (group groupLengths id.digits) := by
  unfold write
  rw [String.toList_intercalate, List.map_map]
  congr 1
  simp

theorem whole_digits (id : Identifier) : id.digits.length = groupLengths.sum := id.length_digits

/-- The groups are made of digits alone. -/
theorem digits_of_mem_group {id : Identifier} {part : List Char}
    (member : part ∈ group groupLengths id.digits) : ∀ c ∈ part, (Json.hexValue? c).isSome = true := by
  intro c shown
  have among : c ∈ id.digits := by
    rw [← flatten_group groupLengths id.digits id.whole_digits]
    exact List.mem_flatten.mpr ⟨part, member, shown⟩
  exact hexValue?_of_mem_digits among

theorem mem_intercalate {groups : List (List Char)} {c : Char}
    (member : c ∈ ['-'].intercalate groups) : c = '-' ∨ ∃ part ∈ groups, c ∈ part := by
  induction groups with
  | nil => exact absurd member List.not_mem_nil
  | cons part groups ih =>
      cases groups with
      | nil =>
          rw [List.intercalate_singleton] at member
          exact .inr ⟨part, List.mem_singleton_self part, member⟩
      | cons next groups =>
          rw [List.intercalate_cons_cons, List.mem_append, List.mem_append] at member
          rcases member with (first | hyphen) | later
          · exact .inr ⟨part, List.mem_cons_self, first⟩
          · exact .inl (List.mem_singleton.mp hyphen)
          · exact (ih later).imp_right fun ⟨other, among, shown⟩ =>
              ⟨other, List.mem_cons_of_mem _ among, shown⟩

theorem mem_write {id : Identifier} {c : Char} (member : c ∈ id.write.toList) :
    c = '-' ∨ (Json.hexValue? c).isSome = true := by
  rw [toList_write] at member
  exact (mem_intercalate member).imp_right fun ⟨_, among, shown⟩ => digits_of_mem_group among c shown

theorem wrongCharacter?_of_digits {text : List Char}
    (fine : ∀ c ∈ text, c = '-' ∨ (Json.hexValue? c).isSome = true) (place : Nat) :
    wrongCharacter? place text = none := by
  induction text generalizing place with
  | nil => rfl
  | cons c text ih =>
      obtain ⟨first, others⟩ := List.forall_mem_cons.mp fine
      rw [wrongCharacter?, if_pos (by simpa using first)]
      exact ih others _

/-- Neither a brace nor a prefix starts with a digit or a hyphen. -/
theorem body_of_digits {text : List Char}
    (fine : ∀ c ∈ text, c = '-' ∨ (Json.hexValue? c).isSome = true) : body text = (text, 0, true) := by
  cases text with
  | nil => rfl
  | cons c text =>
      have first := fine c List.mem_cons_self
      have brace : c ≠ '\x7b' := by
        rintro rfl
        exact absurd first (by decide)
      have urn : c ≠ 'u' := by
        rintro rfl
        exact absurd first (by decide)
      unfold body
      split
      · rename_i same
        exact absurd (List.cons.inj same).1 brace
      · rw [if_neg]
        intro same
        exact urn (List.cons.inj same).1

theorem read_write (id : Identifier) : read id.write = .ok id := by
  have solid : ∀ part ∈ group groupLengths id.digits, '-' ∉ part := fun part member hyphen =>
    absurd (digits_of_mem_group member _ hyphen) (by decide)
  have groups : splitGroups id.write.toList = group groupLengths id.digits := by
    rw [toList_write]
    exact splitGroups_intercalate (List.cons_ne_nil _ _) solid
  have five : (group groupLengths id.digits).length = 5 := rfl
  unfold read
  rw [body_of_digits fun _ => mem_write]
  simp only [groups, wrongCharacter?_of_digits fun _ => mem_write]
  rw [five, if_neg (by decide), if_neg (by decide),
    wrongLength?_of_lengths _ _ _ _ (lengths_group _ _ id.whole_digits)]
  simp only [flatten_group _ _ id.whole_digits, ofDigits_digits]

end AccessPolicy.Identifier
