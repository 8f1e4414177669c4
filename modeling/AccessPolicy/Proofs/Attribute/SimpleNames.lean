/-
The simple name of a type, told from its full name. The arguments are cut off first, so what they are made of does
not count; what is left is cut behind its last separator. The name is the full one where nothing would be left, and
it is its own simple name, whatever it has been taken from.
-/

import AccessPolicy.Attribute.TypeName
import Mathlib.Data.Bool.AllAny
import Mathlib.Data.List.Infix
import Mathlib.Data.List.TakeWhile

namespace AccessPolicy.TypeName

theorem opensArguments_eq_false_iff {c : Char} :
    opensArguments c = false ↔ c ∉ ['<', '(', '[', ';'] := by
  simp [opensArguments, and_assoc]

/-! ### The last separator -/

def separator : List Char := [':', ':']

theorem separator_infix_cons {c : Char} {rest : List Char} : separator <:+: c :: rest ↔
    (c = ':' ∧ ∃ behind, rest = ':' :: behind) ∨ separator <:+: rest := by
  unfold separator
  rw [List.infix_cons_iff, List.cons_prefix_cons]
  refine or_congr_left (and_congr eq_comm ?_)
  cases rest with
  | nil => simp
  | cons d rest => simp [List.cons_prefix_cons, eq_comm]

theorem afterSeparator?_of_later {c : Char} {rest found : List Char}
    (later : afterSeparator? rest = some found) : afterSeparator? (c :: rest) = some found := by
  unfold afterSeparator?
  rw [later]

theorem afterSeparator?_of_last {c : Char} {rest found : List Char}
    (last : afterSeparator? rest = none) :
    afterSeparator? (c :: rest) = some found ↔ c = ':' ∧ rest = ':' :: found := by
  unfold afterSeparator?
  rw [last]
  dsimp only
  split <;> simp_all

theorem afterSeparator?_eq_none_iff {path : List Char} :
    afterSeparator? path = none ↔ ¬separator <:+: path := by
  induction path with
  | nil => exact iff_of_true rfl (by decide)
  | cons c rest ih =>
      rw [separator_infix_cons, not_or, ← ih]
      cases later : afterSeparator? rest with
      | some found =>
          rw [afterSeparator?_of_later later]
          exact iff_of_false nofun fun none => nomatch none.2
      | none =>
          constructor
          · intro none
            refine ⟨?_, rfl⟩
            rintro ⟨rfl, behind, rfl⟩
            rw [(afterSeparator?_of_last later).mpr ⟨rfl, rfl⟩] at none
            cases none
          · rintro ⟨other, -⟩
            rw [Option.eq_none_iff_forall_ne_some]
            intro found after
            obtain ⟨rfl, rfl⟩ := (afterSeparator?_of_last later).mp after
            exact other ⟨rfl, found, rfl⟩

theorem split_of_afterSeparator? {path found : List Char} (after : afterSeparator? path = some found) :
    (∃ before, path = before ++ separator ++ found) ∧ ¬separator <:+: found := by
  induction path with
  | nil => cases after
  | cons c rest ih =>
      cases later : afterSeparator? rest with
      | some other =>
          rw [afterSeparator?_of_later later] at after
          cases after
          obtain ⟨⟨before, same⟩, none⟩ := ih later
          exact ⟨⟨c :: before, congrArg (c :: ·) same⟩, none⟩
      | none =>
          obtain ⟨rfl, rfl⟩ := (afterSeparator?_of_last later).mp after
          have whole := afterSeparator?_eq_none_iff.mp later
          rw [separator_infix_cons, not_or] at whole
          exact ⟨⟨[], rfl⟩, whole.2⟩

theorem not_infix_separator {segment : List Char} (solid : ':' ∉ segment) : ¬separator <:+: segment :=
  fun within => solid (within.subset (by decide))

theorem afterSeparator?_append {segment : List Char} (solid : ':' ∉ segment) (before : List Char) :
    afterSeparator? (before ++ separator ++ segment) = some segment := by
  induction before with
  | nil =>
      have none : afterSeparator? (':' :: segment) = none := by
        rw [afterSeparator?_eq_none_iff, separator_infix_cons, not_or]
        refine ⟨?_, not_infix_separator solid⟩
        rintro ⟨-, behind, rfl⟩
        exact solid List.mem_cons_self
      exact (afterSeparator?_of_last none).mpr ⟨rfl, rfl⟩
  | cons c before ih => exact afterSeparator?_of_later ih

/-! ### The last segment -/

theorem lastSegment_append {segment : List Char} (solid : ':' ∉ segment) (before : List Char) :
    lastSegment (before ++ separator ++ segment) = segment := by
  rw [lastSegment, afterSeparator?_append solid, Option.getD_some]

theorem lastSegment_of_whole {path : List Char} (whole : ¬separator <:+: path) :
    lastSegment path = path := by
  rw [lastSegment, afterSeparator?_eq_none_iff.mpr whole, Option.getD_none]

theorem lastSegment_cases (path : List Char) :
    lastSegment path <:+ path ∧ ¬separator <:+: lastSegment path := by
  unfold lastSegment
  cases after : afterSeparator? path with
  | none => exact ⟨List.suffix_refl path, afterSeparator?_eq_none_iff.mp after⟩
  | some found =>
      obtain ⟨⟨before, same⟩, none⟩ := split_of_afterSeparator? after
      exact ⟨⟨before ++ separator, same.symm⟩, none⟩

/-! ### Arguments -/

theorem withoutArguments_append {path : List Char} (bare : ∀ c ∈ path, opensArguments c = false)
    {opening : Char} (opens : opensArguments opening = true) (inner : List Char) :
    withoutArguments (path ++ opening :: inner) = path := by
  unfold withoutArguments
  rw [List.takeWhile_append_of_pos fun c member => by rw [bare c member]; rfl,
    List.takeWhile_cons_of_neg (by rw [opens]; decide), List.append_nil]

theorem withoutArguments_of_bare {path : List Char} (bare : ∀ c ∈ path, opensArguments c = false) :
    withoutArguments path = path :=
  List.takeWhile_eq_self_iff.mpr fun c member => by rw [bare c member]; rfl

theorem bare_withoutArguments (full : List Char) :
    ∀ c ∈ withoutArguments full, opensArguments c = false := by
  intro c member
  simpa using List.mem_takeWhile_imp member

/-! ### Simple names -/

theorem simpleChars_eq {full name : List Char} (last : lastSegment (withoutArguments full) = name)
    (some : name ≠ []) : simpleChars full = name := by
  unfold simpleChars
  rw [last]
  cases name with
  | nil => exact absurd rfl some
  | cons c rest => rfl

theorem simpleChars_of_nothing {full : List Char} (last : lastSegment (withoutArguments full) = []) :
    simpleChars full = full := by
  unfold simpleChars
  rw [last]

theorem simpleChars_cases (full : List Char) : simpleChars full = full ∨
    simpleChars full ≠ [] ∧ simpleChars full <:+: full ∧ ¬separator <:+: simpleChars full ∧
      ∀ c ∈ simpleChars full, opensArguments c = false := by
  obtain ⟨suffix, whole⟩ := lastSegment_cases (withoutArguments full)
  by_cases nothing : lastSegment (withoutArguments full) = []
  · exact .inl (simpleChars_of_nothing nothing)
  · rw [simpleChars_eq rfl nothing]
    have front : withoutArguments full <+: full := List.takeWhile_prefix _
    exact .inr ⟨nothing, suffix.isInfix.trans front.isInfix, whole,
      fun c member => bare_withoutArguments full c (suffix.subset member)⟩

theorem simpleChars_of_plain {name : List Char} (some : name ≠ []) (whole : ¬separator <:+: name)
    (bare : ∀ c ∈ name, opensArguments c = false) : simpleChars name = name := by
  refine simpleChars_eq ?_ some
  rw [withoutArguments_of_bare bare, lastSegment_of_whole whole]

theorem simpleChars_simpleChars (full : List Char) :
    simpleChars (simpleChars full) = simpleChars full := by
  rcases simpleChars_cases full with same | ⟨some, -, whole, bare⟩
  · rw [same, same]
  · exact simpleChars_of_plain some whole bare

theorem simpleChars_of_opening {opening : Char} (opens : opensArguments opening = true)
    (inner : List Char) : simpleChars (opening :: inner) = opening :: inner := by
  refine simpleChars_of_nothing ?_
  unfold withoutArguments
  rw [List.takeWhile_cons_of_neg (by rw [opens]; decide)]
  rfl

/-! ### Paths -/

def delimiters : List Char := [':', '<', '>', '(', ')', '[', ']', ';', ',', '&', '*', ' ']

structure Segment where
  letters : List Char
  named : letters ≠ []
  solid : ∀ c ∈ letters, c ∉ delimiters

namespace Segment

def text (segment : Segment) : String := String.ofList segment.letters

theorem no_colon (segment : Segment) : ':' ∉ segment.letters :=
  fun member => segment.solid _ member (by decide)

theorem bare (segment : Segment) : ∀ c ∈ segment.letters, opensArguments c = false := by
  have among : ['<', '(', '[', ';'] ⊆ delimiters := by decide
  intro c member
  rw [opensArguments_eq_false_iff]
  exact fun opens => segment.solid c member (among opens)

end Segment

def pathChars : List Segment → Segment → List Char
  | [], last => last.letters
  | segment :: inner, last => segment.letters ++ separator ++ pathChars inner last

theorem bare_pathChars (outer : List Segment) (last : Segment) :
    ∀ c ∈ pathChars outer last, opensArguments c = false := by
  have separators : ∀ c ∈ separator, opensArguments c = false :=
    List.all_iff_forall_prop.mp (by decide)
  induction outer with
  | nil => exact last.bare
  | cons segment inner ih =>
      unfold pathChars
      rw [List.forall_mem_append, List.forall_mem_append]
      exact ⟨⟨segment.bare, separators⟩, ih⟩

theorem lastSegment_behind (front : List Char) (outer : List Segment) (last : Segment) :
    lastSegment (front ++ separator ++ pathChars outer last) = last.letters := by
  induction outer generalizing front with
  | nil => exact lastSegment_append last.no_colon front
  | cons segment inner ih =>
      unfold pathChars
      rw [← List.append_assoc, ← List.append_assoc]
      exact ih (front ++ separator ++ segment.letters)

/-- What stands in front of a path belongs to its first segment, and so to the last one only if there is no other. -/
def markedName (marks : List Char) : List Segment → Segment → List Char
  | [], last => marks ++ last.letters
  | _ :: _, last => last.letters

theorem markedName_ne_nil (marks : List Char) (outer : List Segment) (last : Segment) :
    markedName marks outer last ≠ [] := by
  cases outer with
  | nil => exact List.append_ne_nil_of_right_ne_nil _ last.named
  | cons segment inner => exact last.named

theorem lastSegment_path {marks : List Char} (solid : ':' ∉ marks) (outer : List Segment)
    (last : Segment) : lastSegment (marks ++ pathChars outer last) = markedName marks outer last := by
  cases outer with
  | nil =>
      refine lastSegment_of_whole (not_infix_separator ?_)
      rw [pathChars, List.mem_append, not_or]
      exact ⟨solid, last.no_colon⟩
  | cons segment inner =>
      unfold pathChars
      rw [← List.append_assoc, ← List.append_assoc]
      exact lastSegment_behind (marks ++ segment.letters) inner last

theorem lastSegment_pathChars (outer : List Segment) (last : Segment) :
    lastSegment (pathChars outer last) = last.letters := by
  have found : lastSegment ([] ++ pathChars outer last) = _ :=
    lastSegment_path List.not_mem_nil outer last
  cases outer <;> exact found

/-! ### Names of types -/

theorem toList_simple (full : String) : (simple full).toList = simpleChars full.toList := by
  unfold simple
  rw [String.toList_ofList]

theorem simple_eq_iff {full name : String} :
    simple full = name ↔ simpleChars full.toList = name.toList := by
  rw [← String.toList_inj, toList_simple]

theorem simple_eq_empty_iff {full : String} : simple full = "" ↔ full = "" := by
  rw [simple_eq_iff, ← String.toList_inj]
  rcases simpleChars_cases full.toList with same | ⟨some, part, -⟩
  · rw [same]
  · refine iff_of_false some fun nothing => some ?_
    rw [nothing] at part ⊢
    exact List.infix_nil.mp part

theorem simple_path (outer : List Segment) (last : Segment) :
    simple (String.ofList (pathChars outer last)) = last.text := by
  rw [simple_eq_iff, Segment.text, String.toList_ofList, String.toList_ofList]
  refine simpleChars_eq ?_ last.named
  rw [withoutArguments_of_bare (bare_pathChars outer last), lastSegment_pathChars]

theorem simple_path_arguments (outer : List Segment) (last : Segment) (arguments : String) :
    simple (String.ofList (pathChars outer last) ++ "<" ++ arguments) = last.text := by
  have cut : withoutArguments (pathChars outer last ++ '<' :: arguments.toList) =
      pathChars outer last := withoutArguments_append (bare_pathChars outer last) rfl _
  have name : simpleChars (pathChars outer last ++ '<' :: arguments.toList) = last.letters :=
    simpleChars_eq (by rw [cut, lastSegment_pathChars]) last.named
  rw [simple_eq_iff, Segment.text, String.toList_ofList (l := last.letters), ← name,
    String.toList_append, String.toList_append, String.toList_ofList (l := pathChars outer last),
    List.append_assoc]
  rfl

/-- A path is named by its last segment, with arguments or without, and a text that opens with a bracket by the whole
of it. Every name is the whole text or a bare part of it without a separator, and it is its own name. -/
theorem simple_names :
    (∀ outer last, simple (String.ofList (pathChars outer last)) = last.text ∧
      ∀ arguments, simple (String.ofList (pathChars outer last) ++ "<" ++ arguments) = last.text) ∧
    (∀ inner, simple ("(" ++ inner) = "(" ++ inner ∧ simple ("[" ++ inner) = "[" ++ inner) ∧
    ∀ text, (simple text = "" ↔ text = "") ∧
      (simple text = text ∨ (simple text).toList <:+: text.toList ∧
        ¬separator <:+: (simple text).toList ∧
        ∀ c ∈ (simple text).toList, c ∉ ['<', '(', '[', ';']) ∧
      simple (simple text) = simple text := by
  refine ⟨fun outer last => ⟨simple_path outer last, simple_path_arguments outer last⟩,
    fun inner => ⟨?_, ?_⟩, fun text => ⟨simple_eq_empty_iff, ?_, ?_⟩⟩
  · rw [simple_eq_iff, String.toList_append]
    exact simpleChars_of_opening rfl inner.toList
  · rw [simple_eq_iff, String.toList_append]
    exact simpleChars_of_opening rfl inner.toList
  · rw [simple_eq_iff, toList_simple]
    refine (simpleChars_cases text.toList).imp_right fun ⟨_, part, whole, bare⟩ =>
      ⟨part, whole, fun c member => opensArguments_eq_false_iff.mp (bare c member)⟩
  · rw [simple_eq_iff, toList_simple]
    exact simpleChars_simpleChars text.toList

end AccessPolicy.TypeName
