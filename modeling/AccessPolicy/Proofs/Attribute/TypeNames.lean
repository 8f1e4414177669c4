/-
Which types have names of their own. A type without a path has brackets, and it keeps its whole text as long as these
stand first. Behind a pointer they do not: then the name is what stands in front of them, the marks of the pointers,
and all types without a path have the same name behind the same marks.
-/

import AccessPolicy.Proofs.Attribute.TypeForms

namespace AccessPolicy.TypeForm

open AccessPolicy.TypeName (Segment pathChars opensArguments simple simpleChars withoutArguments
  lastSegment)

/-! ### Pointers -/

def pointers : TypeForm → List Pointer
  | .pointer kind target => kind :: target.pointers
  | _ => []

def pointee : TypeForm → TypeForm
  | .pointer _ target => target.pointee
  | type => type

def marks (type : TypeForm) : List Char := type.pointers.flatMap Pointer.mark

theorem chars_eq_marks (type : TypeForm) : type.chars = type.marks ++ type.pointee.chars := by
  induction type using induct with
  | pointer kind target ih =>
      unfold marks at ih ⊢
      rw [chars, ih, pointers, pointee, List.flatMap_cons, List.append_assoc]
  | _ => rfl

theorem mark_solid (kind : Pointer) : ':' ∉ kind.mark ∧ ∀ c ∈ kind.mark, opensArguments c = false := by
  constructor
  · cases kind <;> decide
  · exact List.all_iff_forall_prop.mp (by cases kind <;> decide)

theorem marks_solid (type : TypeForm) : ':' ∉ type.marks ∧ ∀ c ∈ type.marks, opensArguments c = false := by
  unfold marks
  constructor
  · rw [List.mem_flatMap]
    rintro ⟨kind, -, colon⟩
    exact (mark_solid kind).1 colon
  · intro c member
    obtain ⟨kind, -, within⟩ := List.mem_flatMap.mp member
    exact (mark_solid kind).2 c within

theorem marks_starts {type : TypeForm} (some : type.pointers ≠ []) :
    ∃ c rest, type.marks = c :: rest ∧ opening c = .mark := by
  obtain ⟨kind, others, shape⟩ := List.exists_cons_of_ne_nil some
  unfold marks
  rw [shape, List.flatMap_cons]
  cases kind <;> exact ⟨_, _, rfl, rfl⟩

def leading (kinds : List Pointer) : TypeForm := kinds.foldr pointer (tuple [])

theorem pointers_leading (kinds : List Pointer) : (leading kinds).pointers = kinds := by
  induction kinds with
  | nil => rfl
  | cons kind kinds ih => exact congrArg (kind :: ·) ih

theorem pointee_leading (kinds : List Pointer) : (leading kinds).pointee = tuple [] := by
  induction kinds with
  | nil => rfl
  | cons kind kinds ih => exact ih

theorem marks_inj {type other : TypeForm} :
    type.marks = other.marks ↔ type.pointers = other.pointers := by
  constructor
  · intro same
    have texts : (leading type.pointers).chars = (leading other.pointers).chars := by
      rw [chars_eq_marks, chars_eq_marks (leading other.pointers), pointee_leading, pointee_leading,
        marks, marks, pointers_leading, pointers_leading]
      exact congrArg (· ++ _) same
    have pointers := congrArg TypeForm.pointers (chars_injective texts)
    rwa [pointers_leading, pointers_leading] at pointers
  · exact congrArg (List.flatMap Pointer.mark)

/-! ### What the pointers lead to -/

def named : TypeForm → Bool
  | .path _ _ _ => true
  | .pointer _ target => target.named
  | _ => false

def segments : TypeForm → List Segment
  | .path outer last _ => outer ++ [last]
  | .pointer _ target => target.segments
  | _ => []

theorem path_of_named {type : TypeForm} (isNamed : type.named = true) :
    ∃ outer last arguments, type.pointee = path outer last arguments ∧
      type.segments = outer ++ [last] := by
  induction type using induct with
  | path outer last arguments ih => exact ⟨outer, last, arguments, rfl, rfl⟩
  | pointer kind target ih => exact ih isNamed
  | _ => cases isNamed

theorem bracket_of_unnamed {type : TypeForm} (unnamed : type.named = false) :
    type.segments = [] ∧ ∃ c rest, type.pointee.chars = c :: rest ∧ opensArguments c = true := by
  induction type using induct with
  | path outer last arguments ih => cases unnamed
  | tuple items ih =>
      cases items with
      | nil => exact ⟨rfl, '(', _, rfl, rfl⟩
      | cons first others => exact ⟨rfl, '(', _, rfl, rfl⟩
  | array item length ih => exact ⟨rfl, '[', _, rfl, rfl⟩
  | slice item ih => exact ⟨rfl, '[', _, rfl, rfl⟩
  | pointer kind target ih => exact ih unnamed

/-! ### Simple names -/

section

variable {type : TypeForm}

theorem simpleChars_of_unnamed (unnamed : type.named = false) : simpleChars type.chars =
    if type.pointers = [] then type.chars else type.marks := by
  obtain ⟨-, c, rest, shape, opens⟩ := bracket_of_unnamed unnamed
  have whole := type.chars_eq_marks
  rw [shape] at whole
  split_ifs with none
  · have empty : type.marks = [] := congrArg (List.flatMap Pointer.mark) none
    rw [whole, empty, List.nil_append]
    exact TypeName.simpleChars_of_opening opens rest
  · obtain ⟨d, others, starts, -⟩ := marks_starts none
    refine TypeName.simpleChars_eq ?_ (by rw [starts]; exact List.cons_ne_nil d others)
    rw [whole, TypeName.withoutArguments_append type.marks_solid.2 opens,
      TypeName.lastSegment_of_whole (TypeName.not_infix_separator type.marks_solid.1)]

theorem simpleChars_of_path {outer : List Segment} {last : Segment} {arguments : List TypeForm}
    (leads : type.pointee = path outer last arguments) :
    simpleChars type.chars = TypeName.markedName type.marks outer last := by
  have bare : ∀ c ∈ type.marks ++ pathChars outer last, opensArguments c = false :=
    List.forall_mem_append.mpr ⟨type.marks_solid.2, TypeName.bare_pathChars outer last⟩
  have cut : withoutArguments type.chars = type.marks ++ pathChars outer last := by
    rw [chars_eq_marks, leads]
    cases arguments with
    | nil => exact TypeName.withoutArguments_of_bare bare
    | cons first others =>
        rw [chars, ← List.append_assoc]
        exact TypeName.withoutArguments_append bare rfl _
  refine TypeName.simpleChars_eq ?_ (TypeName.markedName_ne_nil _ outer last)
  rw [cut, TypeName.lastSegment_path type.marks_solid.1]

end

/-! ### Names of their own -/

def Bracketed : TypeForm → Prop
  | .path [] _ (_ :: _) => True
  | .path _ _ _ => False
  | _ => True

/-- The name is cut out of what stands in front of a bracket, and the marks of pointers are in it. -/
def Cut (type : TypeForm) : Prop := type.pointers ≠ [] ∧ type.pointee.Bracketed

def stem : TypeForm → List Char
  | .path _ last _ => last.letters
  | .pointer _ target => target.stem
  | _ => []

section

variable {type : TypeForm}

theorem marks_eq_nil (none : type.pointers = []) : type.marks = [] :=
  congrArg (List.flatMap Pointer.mark) none

theorem marks_ne_nil (some : type.pointers ≠ []) : type.marks ≠ [] := by
  obtain ⟨c, rest, shape, -⟩ := marks_starts some
  rw [shape]
  exact List.cons_ne_nil c rest

theorem bracketed_of_unnamed (unnamed : type.named = false) : type.pointee.Bracketed := by
  induction type using induct with
  | path outer last arguments ih => cases unnamed
  | pointer kind target ih => exact ih unnamed
  | _ => trivial

theorem stem_of_unnamed (unnamed : type.named = false) : type.stem = [] := by
  induction type using induct with
  | path outer last arguments ih => cases unnamed
  | pointer kind target ih => exact ih unnamed
  | _ => rfl

theorem stem_of_path {outer : List Segment} {last : Segment} {arguments : List TypeForm}
    (leads : type.pointee = path outer last arguments) : type.stem = last.letters := by
  induction type using induct with
  | path outer last arguments ih =>
      cases leads
      rfl
  | pointer kind target ih => exact ih leads
  | _ => cases leads

/-- A path is cut only if it is a single segment and has arguments. -/
theorem cut_iff_of_path {outer : List Segment} {last : Segment} {arguments : List TypeForm}
    (leads : type.pointee = path outer last arguments) :
    type.Cut ↔ type.pointers ≠ [] ∧ outer = [] ∧ arguments ≠ [] := by
  unfold Cut
  rw [leads]
  cases outer <;> cases arguments <;> simp [Bracketed]

theorem simpleChars_of_cut (cut : type.Cut) : simpleChars type.chars = type.marks ++ type.stem := by
  cases isNamed : type.named with
  | false =>
      rw [simpleChars_of_unnamed isNamed, if_neg cut.1, stem_of_unnamed isNamed, List.append_nil]
  | true =>
      obtain ⟨outer, last, arguments, leads, -⟩ := path_of_named isNamed
      obtain ⟨-, rfl, -⟩ := (cut_iff_of_path leads).mp cut
      rw [simpleChars_of_path leads, stem_of_path leads]
      rfl

theorem whole_or_segment_of_uncut (uncut : ¬type.Cut) : simpleChars type.chars = type.chars ∨
    ∃ segment ∈ type.segments, simpleChars type.chars = segment.letters := by
  cases isNamed : type.named with
  | false =>
      have none : type.pointers = [] :=
        not_not.mp fun some => uncut ⟨some, bracketed_of_unnamed isNamed⟩
      rw [simpleChars_of_unnamed isNamed, if_pos none]
      exact .inl rfl
  | true =>
      obtain ⟨outer, last, arguments, leads, segments⟩ := path_of_named isNamed
      have member : last ∈ type.segments := by simp [segments]
      rw [cut_iff_of_path leads] at uncut
      rw [simpleChars_of_path leads]
      cases outer with
      | cons segment inner => exact .inr ⟨last, member, rfl⟩
      | nil =>
          by_cases none : type.pointers = []
          · refine .inr ⟨last, member, ?_⟩
            rw [TypeName.markedName, marks_eq_nil none, List.nil_append]
          · have bare : arguments = [] := not_not.mp fun some => uncut ⟨none, rfl, some⟩
            subst bare
            rw [chars_eq_marks, leads]
            exact .inl rfl

/-- The text goes on behind what has been cut out, and no identifier has marks in it. -/
theorem uncut_of_whole_or_segment (fits : simpleChars type.chars = type.chars ∨
    ∃ segment ∈ type.segments, simpleChars type.chars = segment.letters) : ¬type.Cut := by
  intro cut
  rw [simpleChars_of_cut cut] at fits
  cases isNamed : type.named with
  | false =>
      obtain ⟨noSegments, c, rest, shape, -⟩ := bracket_of_unnamed isNamed
      rw [stem_of_unnamed isNamed, chars_eq_marks, shape, noSegments] at fits
      simp at fits
  | true =>
      obtain ⟨outer, last, arguments, leads, segments⟩ := path_of_named isNamed
      obtain ⟨-, rfl, some⟩ := (cut_iff_of_path leads).mp cut
      obtain ⟨first, others, rfl⟩ := List.exists_cons_of_ne_nil some
      rw [stem_of_path leads, chars_eq_marks, leads, segments, chars] at fits
      simp [pathChars, marks_ne_nil cut.1] at fits

theorem chars_ne_marks {other : TypeForm} (none : type.pointers = []) (some : other.pointers ≠ []) :
    type.chars ≠ other.marks := by
  intro same
  obtain ⟨c, rest, shape, starts⟩ := marks_starts some
  have texts : type.chars ++ [] = c :: rest := by rw [same, shape, List.append_nil]
  have opens := opens_of_cons texts
  rw [starts] at opens
  cases type with
  | pointer kind target => exact absurd none (List.cons_ne_nil _ _)
  | _ => cases opens

theorem simpleChars_eq_iff_of_unnamed {other : TypeForm} (unnamed : type.named = false)
    (unnamedToo : other.named = false) : simpleChars type.chars = simpleChars other.chars ↔
      type = other ∨ type.pointers ≠ [] ∧ type.pointers = other.pointers := by
  rw [simpleChars_of_unnamed unnamed, simpleChars_of_unnamed unnamedToo]
  by_cases none : type.pointers = []
  · rw [if_pos none, or_iff_left fun shared => shared.1 none]
    by_cases noneToo : other.pointers = []
    · rw [if_pos noneToo, chars_injective.eq_iff]
    · rw [if_neg noneToo]
      refine iff_of_false (chars_ne_marks none noneToo) ?_
      rintro rfl
      exact noneToo none
  · rw [if_neg none]
    by_cases noneToo : other.pointers = []
    · rw [if_pos noneToo]
      refine iff_of_false (chars_ne_marks noneToo none).symm ?_
      rintro (rfl | ⟨-, same⟩)
      · exact none noneToo
      · exact none (same.trans noneToo)
    · rw [if_neg noneToo, marks_inj]
      constructor
      · exact fun same => .inr ⟨none, same⟩
      · rintro (rfl | ⟨-, same⟩)
        · rfl
        · exact same

end

theorem simple_ofList (full : List Char) :
    simple (String.ofList full) = String.ofList (simpleChars full) := by
  unfold simple
  rw [String.toList_ofList]

/-- A type is named by its whole text or by an identifier of its path, unless the name is cut out behind the marks of
pointers. Types without a path share their name only behind the same marks, and there they all do. -/
theorem own_name_iff (type other : TypeForm) :
    ((simple type.text = type.text ∨ ∃ segment ∈ type.segments, simple type.text = segment.text) ↔
      ¬type.Cut) ∧
    (type.Cut → simple type.text = String.ofList (type.marks ++ type.stem)) ∧
    (type.named = false → other.named = false →
      (simple type.text = simple other.text ↔
        type = other ∨ type.pointers ≠ [] ∧ type.pointers = other.pointers)) := by
  simp only [text, Segment.text, simple_ofList, String.ofList_inj]
  exact ⟨⟨uncut_of_whole_or_segment, whole_or_segment_of_uncut⟩, simpleChars_of_cut,
    simpleChars_eq_iff_of_unnamed⟩

private def byte : TypeForm := path [] ⟨['u', '8'], by decide, List.all_iff_forall_prop.mp (by decide)⟩ []

/-- A reference to a slice and a reference to a tuple are both called by the ampersand. -/
theorem own_name_iff_references :
    (pointer .shared (slice byte)).named = false ∧ (pointer .shared (tuple [byte])).named = false ∧
      (pointer .shared (slice byte)).Cut ∧
      (pointer .shared (slice byte)).text = "&[u8]" ∧
      simple (pointer .shared (slice byte)).text = "&" ∧
      simple (pointer .shared (slice byte)).text = simple (pointer .shared (tuple [byte])).text := by
  have cut : (pointer .shared (slice byte)).Cut := ⟨List.cons_ne_nil _ _, trivial⟩
  obtain ⟨-, name, shared⟩ := own_name_iff (pointer .shared (slice byte)) (pointer .shared (tuple [byte]))
  exact ⟨rfl, rfl, cut, rfl, name cut, (shared rfl rfl).mpr (.inr ⟨List.cons_ne_nil _ _, rfl⟩)⟩

/-- The ampersand is neither a text of a type nor an identifier, and more than one type is called by it. -/
theorem not_own_name :
    (¬∀ type : TypeForm,
      simple type.text = type.text ∨ ∃ segment ∈ type.segments, simple type.text = segment.text) ∧
    ¬∀ type other : TypeForm, type.named = false → other.named = false →
      simple type.text = simple other.text → type = other := by
  constructor
  · intro law
    rcases law (pointer .shared (slice byte)) with whole | ⟨segment, member, -⟩
    · exact absurd whole (by decide +kernel)
    · cases member
  · intro law
    cases law (pointer .shared (slice byte)) (pointer .shared (tuple [byte])) rfl rfl rfl

end AccessPolicy.TypeForm
