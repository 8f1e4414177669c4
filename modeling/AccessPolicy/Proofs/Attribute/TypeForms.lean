/-
Types by their form, and the text of a type. A text can be read in one way only: what a type begins with tells its
kind, and where it ends is told by the character behind it.
-/

import AccessPolicy.Proofs.Attribute.SimpleNames
import AccessPolicy.Proofs.Text.Numerals

namespace AccessPolicy

open AccessPolicy.TypeName (Segment delimiters separator pathChars)

inductive Pointer
  | shared
  | exclusive
  | constant
  | mutable
  deriving DecidableEq

def Pointer.mark : Pointer → List Char
  | .shared => ['&']
  | .exclusive => ['&', 'm', 'u', 't', ' ']
  | .constant => ['*', 'c', 'o', 'n', 's', 't', ' ']
  | .mutable => ['*', 'm', 'u', 't', ' ']

inductive TypeForm
  | path (outer : List Segment) (last : Segment) (arguments : List TypeForm)
  | tuple (items : List TypeForm)
  | array (item : TypeForm) (length : Nat)
  | slice (item : TypeForm)
  | pointer (kind : Pointer) (target : TypeForm)

namespace TypeForm

/-- A tuple of one item has a comma behind it. -/
def tupleEnd : List TypeForm → List Char
  | [] => [',', ')']
  | _ :: _ => [')']

mutual

def chars : TypeForm → List Char
  | .path outer last [] => pathChars outer last
  | .path outer last (first :: others) =>
    pathChars outer last ++ '<' :: (first.chars ++ (charsBehind others ++ ['>']))
  | .tuple [] => ['(', ')']
  | .tuple (first :: others) => '(' :: (first.chars ++ (charsBehind others ++ tupleEnd others))
  | .array item length => '[' :: (item.chars ++ ';' :: ' ' :: (Nat.toDigits 10 length ++ [']']))
  | .slice item => '[' :: (item.chars ++ [']'])
  | .pointer kind target => kind.mark ++ target.chars

def charsBehind : List TypeForm → List Char
  | [] => []
  | next :: others => ',' :: ' ' :: (next.chars ++ charsBehind others)

end

def text (type : TypeForm) : String := String.ofList type.chars

theorem induct {motive : TypeForm → Prop}
    (path : ∀ outer last arguments, (∀ argument ∈ arguments, motive argument) →
      motive (.path outer last arguments))
    (tuple : ∀ items, (∀ item ∈ items, motive item) → motive (.tuple items))
    (array : ∀ item length, motive item → motive (.array item length))
    (slice : ∀ item, motive item → motive (.slice item))
    (pointer : ∀ kind target, motive target → motive (.pointer kind target))
    (type : TypeForm) : motive type :=
  match type with
  | .path outer last arguments =>
    path outer last arguments fun argument _ => induct path tuple array slice pointer argument
  | .tuple items => tuple items fun item _ => induct path tuple array slice pointer item
  | .array item length => array item length (induct path tuple array slice pointer item)
  | .slice item => slice item (induct path tuple array slice pointer item)
  | .pointer kind target => pointer kind target (induct path tuple array slice pointer target)

end TypeForm

/-! ### Segments and paths -/

namespace TypeName

def StartsIn (among rest : List Char) : Prop := ∀ c ∈ rest.head?, c ∈ among

theorem StartsIn.cons {among : List Char} {c : Char} (member : c ∈ among) (rest : List Char) :
    StartsIn among (c :: rest) := by
  intro d first
  cases first
  exact member

theorem append_inj_of_stops {inside : Char → Prop} {word other rest behind : List Char}
    (all : ∀ c ∈ word, inside c) (allToo : ∀ c ∈ other, inside c) (stops : ∀ c ∈ rest.head?, ¬inside c)
    (stopsToo : ∀ c ∈ behind.head?, ¬inside c) (same : word ++ rest = other ++ behind) :
    word = other ∧ rest = behind := by
  induction word generalizing other with
  | nil =>
      cases other with
      | nil => exact ⟨rfl, same⟩
      | cons d other =>
          rw [List.nil_append] at same
          exact absurd (allToo d List.mem_cons_self) (stops d (by rw [same]; rfl))
  | cons c word ih =>
      cases other with
      | nil =>
          rw [List.nil_append] at same
          exact absurd (all c List.mem_cons_self) (stopsToo c (by rw [← same]; rfl))
      | cons d other =>
          obtain ⟨rfl, tails⟩ := List.cons.inj same
          obtain ⟨rfl, rests⟩ := ih (fun e member => all e (List.mem_cons_of_mem _ member))
            (fun e member => allToo e (List.mem_cons_of_mem _ member)) tails
          exact ⟨rfl, rests⟩

theorem Segment.append_inj {segment other : Segment} {rest behind : List Char}
    (stops : StartsIn delimiters rest) (stopsToo : StartsIn delimiters behind)
    (same : segment.letters ++ rest = other.letters ++ behind) : segment = other ∧ rest = behind := by
  obtain ⟨letters, named, solid⟩ := segment
  obtain ⟨letters', named', solid'⟩ := other
  obtain ⟨rfl, rests⟩ := append_inj_of_stops solid solid' (fun c first => not_not.mpr (stops c first))
    (fun c first => not_not.mpr (stopsToo c first)) same
  exact ⟨rfl, rests⟩

/-- The delimiters that cannot be the first half of a separator. -/
def pathEnds : List Char := ['<', ',', ';', '>', ')', ']', ' ']

theorem stops_of_pathEnds {rest : List Char} (ends : StartsIn pathEnds rest) :
    StartsIn delimiters rest :=
  fun c first => (by decide : pathEnds ⊆ delimiters) (ends c first)

theorem stops_separator (rest : List Char) : StartsIn delimiters (separator ++ rest) :=
  .cons (by decide) _

theorem not_ends_separator {rest : List Char} : ¬StartsIn pathEnds (separator ++ rest) :=
  fun ends => absurd (ends ':' rfl) (by decide)

theorem pathChars_append_inj {outer outer' : List Segment} {last last' : Segment}
    {rest behind : List Char} (ends : StartsIn pathEnds rest) (endsToo : StartsIn pathEnds behind)
    (same : pathChars outer last ++ rest = pathChars outer' last' ++ behind) :
    outer = outer' ∧ last = last' ∧ rest = behind := by
  have stops := stops_of_pathEnds ends
  have stopsToo := stops_of_pathEnds endsToo
  induction outer generalizing outer' with
  | nil =>
      cases outer' with
      | nil =>
          obtain ⟨rfl, rfl⟩ := Segment.append_inj stops stopsToo same
          exact ⟨rfl, rfl, rfl⟩
      | cons segment inner =>
          simp only [pathChars, List.append_assoc] at same
          obtain ⟨-, rfl⟩ := Segment.append_inj stops (stops_separator _) same
          exact absurd ends not_ends_separator
  | cons segment inner ih =>
      cases outer' with
      | nil =>
          simp only [pathChars, List.append_assoc] at same
          obtain ⟨-, rfl⟩ := Segment.append_inj (stops_separator _) stopsToo same
          exact absurd endsToo not_ends_separator
      | cons segment' inner' =>
          simp only [pathChars, List.append_assoc] at same
          obtain ⟨rfl, later⟩ := Segment.append_inj (stops_separator _) (stops_separator _) same
          obtain ⟨rfl, rfl, rfl⟩ := ih (List.append_cancel_left later)
          exact ⟨rfl, rfl, rfl⟩

end TypeName

open AccessPolicy.TypeName (StartsIn pathEnds pathChars_append_inj)

/-! ### Reading a type -/

namespace TypeForm

def ends : List Char := [',', ';', '>', ')', ']']

theorem pathEnds_of_ends {rest : List Char} (ended : StartsIn ends rest) : StartsIn pathEnds rest :=
  fun c first => (by decide : ends ⊆ pathEnds) (ended c first)

/-- What a text starts with tells the kinds of types apart, but for the two in square brackets. -/
inductive Opening
  | letter
  | round
  | square
  | mark
  | nothing
  deriving DecidableEq

def opening (c : Char) : Opening :=
  if c = '(' then .round
  else if c = '[' then .square
  else if c = '&' ∨ c = '*' then .mark
  else if c ∈ delimiters then .nothing
  else .letter

def opens : TypeForm → Opening
  | .path _ _ _ => .letter
  | .tuple _ => .round
  | .array _ _ => .square
  | .slice _ => .square
  | .pointer _ _ => .mark

theorem opening_of_letter {c : Char} (solid : c ∉ delimiters) : opening c = .letter := by
  have round : c ≠ '(' := by
    rintro rfl
    exact solid (by decide)
  have square : c ≠ '[' := by
    rintro rfl
    exact solid (by decide)
  have mark : ¬(c = '&' ∨ c = '*') := by
    rintro (rfl | rfl) <;> exact solid (by decide)
  unfold opening
  rw [if_neg round, if_neg square, if_neg mark, if_neg solid]

theorem pathChars_starts (outer : List Segment) (last : Segment) :
    ∃ c rest, pathChars outer last = c :: rest ∧ opening c = .letter := by
  have starts (segment : Segment) (behind : List Char) :
      ∃ c rest, segment.letters ++ behind = c :: rest ∧ opening c = .letter := by
    obtain ⟨c, rest, shape⟩ := List.exists_cons_of_ne_nil segment.named
    refine ⟨c, rest ++ behind, by rw [shape, List.cons_append], opening_of_letter ?_⟩
    exact segment.solid c (by rw [shape]; exact List.mem_cons_self)
  cases outer with
  | nil =>
      obtain ⟨c, rest, shape, letter⟩ := starts last []
      exact ⟨c, rest, by rw [pathChars, ← shape, List.append_nil], letter⟩
  | cons segment inner =>
      obtain ⟨c, rest, shape, letter⟩ := starts segment (separator ++ pathChars inner last)
      exact ⟨c, rest, by rw [pathChars, ← shape, List.append_assoc], letter⟩

theorem chars_starts (type : TypeForm) :
    ∃ c rest, type.chars = c :: rest ∧ opening c = type.opens := by
  cases type with
  | path outer last arguments =>
      obtain ⟨c, rest, shape, letter⟩ := pathChars_starts outer last
      cases arguments with
      | nil => exact ⟨c, rest, by rw [chars, shape], letter⟩
      | cons first others => exact ⟨c, _, by rw [chars, shape, List.cons_append], letter⟩
  | tuple items => cases items <;> exact ⟨'(', _, by rw [chars], rfl⟩
  | array item length => exact ⟨'[', _, by rw [chars], rfl⟩
  | slice item => exact ⟨'[', _, by rw [chars], rfl⟩
  | pointer kind target => cases kind <;> exact ⟨_, _, by rw [chars]; rfl, rfl⟩

theorem opens_of_cons {type : TypeForm} {c : Char} {rest behind : List Char}
    (same : type.chars ++ rest = c :: behind) : type.opens = opening c := by
  obtain ⟨d, tail, shape, starts⟩ := type.chars_starts
  rw [shape] at same
  rw [← starts, (List.cons.inj same).1]

theorem opens_eq {type other : TypeForm} {rest behind : List Char}
    (same : type.chars ++ rest = other.chars ++ behind) : type.opens = other.opens := by
  obtain ⟨c, tail, shape, starts⟩ := other.chars_starts
  rw [shape] at same
  rw [opens_of_cons same, starts]

theorem opens_ne_nothing (type : TypeForm) : type.opens ≠ .nothing := by
  cases type <;> exact nofun

/-- From a text that starts with the type and goes on behind its end, the type can be read in one way. -/
def Readable (type : TypeForm) : Prop :=
  ∀ other rest behind, StartsIn ends rest → StartsIn ends behind →
    type.chars ++ rest = other.chars ++ behind → type = other ∧ rest = behind

theorem ended_behind {close : Char} (closes : close ∈ ends) (types : List TypeForm)
    (rest : List Char) : StartsIn ends (charsBehind types ++ close :: rest) := by
  cases types with
  | nil => exact .cons closes rest
  | cons type types => exact .cons (by decide) _

theorem charsBehind_append_inj {types others : List TypeForm}
    (readable : ∀ type ∈ types, type.Readable) {close : Char} (closes : close ∈ ends)
    (apart : close ≠ ',') {rest behind : List Char}
    (same : charsBehind types ++ close :: rest = charsBehind others ++ close :: behind) :
    types = others ∧ rest = behind := by
  induction types generalizing others with
  | nil =>
      cases others with
      | nil => exact ⟨rfl, (List.cons.inj same).2⟩
      | cons other others => exact absurd (List.cons.inj same).1 apart
  | cons type types ih =>
      cases others with
      | nil => exact absurd (List.cons.inj same).1.symm apart
      | cons other others =>
          obtain ⟨first, later⟩ := List.forall_mem_cons.mp readable
          simp only [charsBehind, List.cons_append, List.append_assoc, List.cons.injEq,
            true_and] at same
          obtain ⟨rfl, next⟩ := first other _ _ (ended_behind closes types rest)
            (ended_behind closes others behind) same
          obtain ⟨rfl, rfl⟩ := ih later next
          exact ⟨rfl, rfl⟩

/-! ### Each kind of type -/

theorem readable_path (outer : List Segment) (last : Segment) {arguments : List TypeForm}
    (readable : ∀ argument ∈ arguments, argument.Readable) :
    (path outer last arguments).Readable := by
  intro other rest behind ended endedToo same
  cases other with
  | path outer' last' arguments' =>
      cases arguments with
      | nil =>
          cases arguments' with
          | nil =>
              simp only [chars] at same
              obtain ⟨rfl, rfl, rfl⟩ := pathChars_append_inj (pathEnds_of_ends ended)
                (pathEnds_of_ends endedToo) same
              exact ⟨rfl, rfl⟩
          | cons first others =>
              simp only [chars, List.append_assoc, List.cons_append] at same
              obtain ⟨-, -, rfl⟩ := pathChars_append_inj (pathEnds_of_ends ended)
                (.cons (by decide) _) same
              exact absurd (ended '<' rfl) (by decide)
      | cons first others =>
          cases arguments' with
          | nil =>
              simp only [chars, List.append_assoc, List.cons_append] at same
              obtain ⟨-, -, rfl⟩ := pathChars_append_inj (.cons (by decide) _)
                (pathEnds_of_ends endedToo) same
              exact absurd (endedToo '<' rfl) (by decide)
          | cons first' others' =>
              simp only [chars, List.append_assoc, List.cons_append, List.nil_append] at same
              obtain ⟨rfl, rfl, inside⟩ := pathChars_append_inj (.cons (by decide) _)
                (.cons (by decide) _) same
              obtain ⟨firstReadable, later⟩ := List.forall_mem_cons.mp readable
              have closes : '>' ∈ ends := by decide
              obtain ⟨rfl, next⟩ := firstReadable _ _ _ (ended_behind closes others rest)
                (ended_behind closes others' behind) (List.cons.inj inside).2
              obtain ⟨rfl, rfl⟩ := charsBehind_append_inj later closes (by decide) next
              exact ⟨rfl, rfl⟩
  | _ => cases opens_eq same

theorem ended_tuple (others : List TypeForm) (rest : List Char) :
    StartsIn ends (charsBehind others ++ (tupleEnd others ++ rest)) := by
  cases others with
  | nil => exact .cons (by decide) _
  | cons next others => exact .cons (by decide) _

theorem tupleBehind_append_inj {others others' : List TypeForm}
    (readable : ∀ other ∈ others, other.Readable) {rest behind : List Char}
    (same : charsBehind others ++ (tupleEnd others ++ rest) =
      charsBehind others' ++ (tupleEnd others' ++ behind)) : others = others' ∧ rest = behind := by
  cases others with
  | nil =>
      cases others' with
      | nil => exact ⟨rfl, List.append_cancel_left same⟩
      | cons next' more' => exact absurd (List.cons.inj (List.cons.inj same).2).1 (by decide)
  | cons next more =>
      cases others' with
      | nil => exact absurd (List.cons.inj (List.cons.inj same).2).1 (by decide)
      | cons next' more' => exact charsBehind_append_inj readable (by decide) (by decide) same

theorem readable_tuple {items : List TypeForm} (readable : ∀ item ∈ items, item.Readable) :
    (tuple items).Readable := by
  intro other rest behind ended endedToo same
  cases other with
  | tuple items' =>
      cases items with
      | nil =>
          cases items' with
          | nil => exact ⟨rfl, List.append_cancel_left same⟩
          | cons first' others' =>
              simp only [chars, List.append_assoc, List.cons_append] at same
              exact absurd (opens_of_cons (List.cons.inj same).2.symm) first'.opens_ne_nothing
      | cons first others =>
          cases items' with
          | nil =>
              simp only [chars, List.append_assoc, List.cons_append] at same
              exact absurd (opens_of_cons (List.cons.inj same).2) first.opens_ne_nothing
          | cons first' others' =>
              simp only [chars, List.append_assoc, List.cons_append] at same
              obtain ⟨firstReadable, later⟩ := List.forall_mem_cons.mp readable
              obtain ⟨rfl, next⟩ := firstReadable _ _ _ (ended_tuple others rest)
                (ended_tuple others' behind) (List.cons.inj same).2
              obtain ⟨rfl, rfl⟩ := tupleBehind_append_inj later next
              exact ⟨rfl, rfl⟩
  | _ => cases opens_eq same

theorem toDigits_append_inj {length other : Nat} {rest behind : List Char}
    (same : Nat.toDigits 10 length ++ ']' :: rest = Nat.toDigits 10 other ++ ']' :: behind) :
    length = other ∧ rest = behind := by
  have stops (rest : List Char) : ∀ c ∈ (']' :: rest).head?, ¬Text.isDigit c = true := by
    rintro c ⟨⟩
    decide
  obtain ⟨digits, brackets⟩ := TypeName.append_inj_of_stops (fun c => Text.isDigit_of_mem)
    (fun c => Text.isDigit_of_mem) (stops rest) (stops behind) same
  refine ⟨?_, (List.cons.inj brackets).2⟩
  rw [← Text.digitsValue_toDigits length, digits, Text.digitsValue_toDigits]

theorem readable_array {item : TypeForm} (readable : item.Readable) (length : Nat) :
    (array item length).Readable := by
  intro other rest behind ended endedToo same
  cases other with
  | array item' length' =>
      simp only [chars, List.append_assoc, List.cons_append, List.nil_append] at same
      obtain ⟨rfl, next⟩ := readable _ _ _ (.cons (by decide) _) (.cons (by decide) _)
        (List.cons.inj same).2
      obtain ⟨rfl, rfl⟩ := toDigits_append_inj (List.cons.inj (List.cons.inj next).2).2
      exact ⟨rfl, rfl⟩
  | slice item' =>
      simp only [chars, List.append_assoc, List.cons_append, List.nil_append] at same
      obtain ⟨-, next⟩ := readable _ _ _ (.cons (by decide) _) (.cons (by decide) _)
        (List.cons.inj same).2
      exact absurd (List.cons.inj next).1 (by decide)
  | _ => cases opens_eq same

theorem readable_slice {item : TypeForm} (readable : item.Readable) : (slice item).Readable := by
  intro other rest behind ended endedToo same
  cases other with
  | array item' length' =>
      simp only [chars, List.append_assoc, List.cons_append, List.nil_append] at same
      obtain ⟨-, next⟩ := readable _ _ _ (.cons (by decide) _) (.cons (by decide) _)
        (List.cons.inj same).2
      exact absurd (List.cons.inj next).1 (by decide)
  | slice item' =>
      simp only [chars, List.append_assoc, List.cons_append, List.nil_append] at same
      obtain ⟨rfl, next⟩ := readable _ _ _ (.cons (by decide) _) (.cons (by decide) _)
        (List.cons.inj same).2
      exact ⟨rfl, (List.cons.inj next).2⟩
  | _ => cases opens_eq same

/-- The word that makes a reference exclusive. -/
def word : Segment where
  letters := ['m', 'u', 't']
  named := by decide
  solid := List.all_iff_forall_prop.mp (by decide)

/-- It has a blank behind it, and so it is no path. -/
theorem chars_ne_word (type : TypeForm) {rest : List Char} (ended : StartsIn ends rest)
    (behind : List Char) : type.chars ++ rest ≠ 'm' :: 'u' :: 't' :: ' ' :: behind := by
  intro same
  have blank : StartsIn pathEnds (' ' :: behind) := .cons (by decide) behind
  cases type with
  | path outer last arguments =>
      change _ = pathChars [] word ++ ' ' :: behind at same
      cases arguments with
      | nil =>
          simp only [chars] at same
          obtain ⟨-, -, rfl⟩ := pathChars_append_inj (pathEnds_of_ends ended) blank same
          exact absurd (ended ' ' rfl) (by decide)
      | cons first others =>
          simp only [chars, List.append_assoc, List.cons_append] at same
          obtain ⟨-, -, next⟩ := pathChars_append_inj (.cons (by decide) _) blank same
          exact absurd (List.cons.inj next).1 (by decide)
  | _ => cases opens_of_cons same

theorem mark_append_inj {kind kind' : Pointer} {target target' : TypeForm} {rest behind : List Char}
    (ended : StartsIn ends rest) (endedToo : StartsIn ends behind)
    (same : kind.mark ++ (target.chars ++ rest) = kind'.mark ++ (target'.chars ++ behind)) :
    kind = kind' ∧ target.chars ++ rest = target'.chars ++ behind := by
  cases kind <;> cases kind'
  case shared.exclusive => exact absurd (List.cons.inj same).2 (target.chars_ne_word ended _)
  case exclusive.shared =>
      exact absurd (List.cons.inj same).2.symm (target'.chars_ne_word endedToo _)
  case shared.shared => exact ⟨rfl, List.append_cancel_left same⟩
  case exclusive.exclusive => exact ⟨rfl, List.append_cancel_left same⟩
  case constant.constant => exact ⟨rfl, List.append_cancel_left same⟩
  case mutable.mutable => exact ⟨rfl, List.append_cancel_left same⟩
  case constant.mutable => exact absurd (List.cons.inj (List.cons.inj same).2).1 (by decide)
  case mutable.constant => exact absurd (List.cons.inj (List.cons.inj same).2).1 (by decide)
  -- A reference against a pointer.
  all_goals exact absurd (List.cons.inj same).1 (by decide)

theorem readable_pointer (kind : Pointer) {target : TypeForm} (readable : target.Readable) :
    (pointer kind target).Readable := by
  intro other rest behind ended endedToo same
  cases other with
  | pointer kind' target' =>
      simp only [chars, List.append_assoc] at same
      obtain ⟨rfl, next⟩ := mark_append_inj ended endedToo same
      obtain ⟨rfl, rfl⟩ := readable _ _ _ ended endedToo next
      exact ⟨rfl, rfl⟩
  | _ => cases opens_eq same

theorem readable (type : TypeForm) : type.Readable := by
  induction type using induct with
  | path outer last arguments ih => exact readable_path outer last ih
  | tuple items ih => exact readable_tuple ih
  | array item length ih => exact readable_array ih length
  | slice item ih => exact readable_slice ih
  | pointer kind target ih => exact readable_pointer kind ih

theorem chars_injective : Function.Injective chars := by
  intro type other same
  have ended : StartsIn ends [] := nofun
  exact (type.readable other [] [] ended ended (by rw [same])).1

end TypeForm

end AccessPolicy
