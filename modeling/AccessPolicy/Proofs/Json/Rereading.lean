/-
Reading what has been written. A value is read back from its text, with the fields of its objects in the order of their
names and with each number as that is read back from a text of its own, unless it is deeper than the reader goes.
-/

import AccessPolicy.Json.Reader
import AccessPolicy.Proofs.Json.Scanning
import AccessPolicy.Proofs.Text.Numerals

namespace AccessPolicy.Json

section

-- What each number is read back as.
variable (turn : Json → Json)

mutual

/-- A value with its numbers turned into others and with the fields of its objects in the order of
their names. -/
def reread : Json → Json
  | .integer value => turn (.integer value)
  | .real value => turn (.real value)
  | .array items => .array (rereadItems items)
  | .object fields => .object (sortFields (rereadFields fields))
  | other => other

def rereadItems : List Json → List Json
  | [] => []
  | item :: items => item.reread :: rereadItems items

def rereadFields : List (String × Json) → List (String × Json)
  | [] => []
  | (name, value) :: fields => (name, value.reread) :: rereadFields fields

end

mutual

/-- The numbers of a value are read back from their own texts as they are turned. -/
def Legible : Json → Prop
  | .integer value => read (Json.integer value).write = .ok (turn (.integer value))
  | .real value => read (Json.real value).write = .ok (turn (.real value))
  | .array items => LegibleItems items
  | .object fields => LegibleFields fields
  | _ => True

def LegibleItems : List Json → Prop
  | [] => True
  | item :: items => item.Legible ∧ LegibleItems items

def LegibleFields : List (String × Json) → Prop
  | [] => True
  | (_, value) :: fields => value.Legible ∧ LegibleFields fields

end

end

mutual

def depth : Json → Nat
  | .array items => itemsDepth items + 1
  | .object fields => fieldsDepth fields + 1
  | _ => 0

def itemsDepth : List Json → Nat
  | [] => 0
  | item :: items => max item.depth (itemsDepth items)

def fieldsDepth : List (String × Json) → Nat
  | [] => 0
  | (_, value) :: fields => max value.depth (fieldsDepth fields)

end

/-! ### Tokens -/

theorem tokens_cons {c : Char} (shown : isBlank c = false) (rest : List Char) :
    tokens (c :: rest) =
      ((scan c rest).token, rest.length + 1) :: tokens (rest.drop (scan c rest).length) := by
  rw [tokens, if_neg (by simp [shown])]

theorem tokens_append_of_nil {text : List Char} (none : tokens text = []) (more : List Char) :
    tokens (text ++ more) = tokens more := by
  induction text with
  | nil => rfl
  | cons c text ih =>
      rw [tokens] at none
      split_ifs at none with blank
      rw [List.cons_append, tokens, if_pos blank]
      exact ih none

theorem tokens_quote (text : String) (rest : List Char) :
    ∃ left, tokens (quote text ++ rest) = (.text text, left) :: tokens rest := by
  have scanned := scanText_quoted text rest
  have shape : quote text ++ rest = '"' :: (text.toList.flatMap escapeChar ++ '"' :: rest) := by
    simp [quote]
  rw [shape, tokens_cons rfl]
  change ∃ left, ((scanText _).token, _) :: tokens (List.drop (scanText _).length _) = _
  rw [scanned]
  refine ⟨_, congrArg _ (congrArg tokens ?_)⟩
  rw [← List.drop_drop, List.drop_left]
  rfl

theorem run_finished {value found : Json} {rest : List (Token × Nat)}
    (reads : run (.finished value) rest = .ok found) : rest = [] ∧ found = value := by
  cases rest with
  | nil =>
      simp only [run, finish, Except.ok.injEq] at reads
      exact ⟨rfl, reads.symm⟩
  | cons token rest => cases reads

/-! ### Numbers -/

theorem StartsNumber.shown {c : Char} (number : StartsNumber c) : isBlank c = false := by
  unfold isBlank
  rcases number with rfl | digit
  · rfl
  · by_contra blank
    simp only [Bool.not_eq_false, Bool.or_eq_true, decide_eq_true_eq] at blank
    rcases blank with ((rfl | rfl) | rfl) | rfl <;> exact absurd digit (by decide)

/-- A number that is read from a text of its own is the only token of that text, also in front of
what closes it. -/
theorem tokens_number {c : Char} {text : List Char} {value : Json} (number : StartsNumber c)
    (reads : run (.value []) (tokens (c :: text)) = .ok value) {more : List Char}
    (closes : Closes more) :
    ∃ left, tokens (c :: text ++ more) = (.scalar value, left) :: tokens more := by
  rw [tokens_cons number.shown] at reads
  rcases scan_numeric number text with ⟨found, scalar, _⟩ | ⟨failure, broken⟩
  · obtain ⟨size, same⟩ := scan_local number scalar
    rw [scalar] at reads
    obtain ⟨nothing, rfl⟩ : tokens (text.drop _) = [] ∧ value = found := run_finished reads
    rw [List.cons_append, tokens_cons number.shown, same more closes, scalar,
      List.drop_append_of_le_length size, tokens_append_of_nil nothing]
    exact ⟨_, rfl⟩
  · rw [broken] at reads
    cases reads

theorem run_of_read {text : List Char} {value : Json}
    (reads : read (String.ofList text) = .ok value) : run (.value []) (tokens text) = .ok value := by
  unfold read at reads
  rw [String.toList_ofList] at reads
  cases outcome : run (.value []) (tokens text) with
  | error failure =>
      rw [outcome] at reads
      cases reads
  | ok found =>
      rw [outcome] at reads
      cases reads
      rfl

/-- The text of a double that is read back starts as a number does: no number goes by a name. -/
theorem real_starts {x : Float} {value : Json} (reads : read (Json.real x).write = .ok value) :
    ∃ c rest, (Json.real x).chars = c :: rest ∧ StartsNumber c := by
  have outcome := run_of_read reads
  simp only [chars, Text.FloatForm.write, String.toList_ofList] at outcome ⊢
  revert outcome
  cases Text.Shortest.classify x with
  | nan =>
      intro outcome
      change run (.value []) (tokens ['N', 'a', 'N']) = _ at outcome
      rw [tokens_cons rfl] at outcome
      cases outcome
  | infinite negative =>
      intro outcome
      cases negative with
      | true => exact ⟨'-', _, rfl, .inl rfl⟩
      | false =>
          change run (.value []) (tokens ['i', 'n', 'f']) = _ at outcome
          rw [tokens_cons rfl] at outcome
          cases outcome
  | zero negative =>
      intro _
      cases negative with
      | true => exact ⟨'-', _, rfl, .inl rfl⟩
      | false => exact ⟨'0', _, rfl, .inr rfl⟩
  | finite negative binary =>
      intro _
      cases negative with
      | true => exact ⟨'-', _, rfl, .inl rfl⟩
      | false =>
          obtain ⟨c, rest, shape, digit⟩ := Text.FloatForm.json.finite_starts binary
          exact ⟨c, rest, shape, .inr digit⟩

/-! ### Values -/

/-- A state of the reader that goes on with a value inside of what is open. -/
def Awaits (expect : Expect) (outer : List Open) : Prop :=
  ∀ token left, token ≠ .listClose → step expect token left = startValue outer token left

theorem awaits_value (outer : List Open) : Awaits (.value outer) outer := fun _ _ _ => rfl

theorem awaits_listStart (outer : List Open) : Awaits (.listStart outer) (.list [] :: outer) := by
  intro token left other
  cases token <;> first | rfl | exact absurd rfl other

theorem awaits_item (items : List Json) (outer : List Open) :
    Awaits (.item items outer) (.list items :: outer) := by
  intro token left other
  cases token <;> first | rfl | exact absurd rfl other

section

variable {expect : Expect} {outer : List Open}

/-- One token of a value that is awaited. -/
theorem run_token (awaits : Awaits expect outer) (token : Token) (value : token ≠ .listClose)
    (left : Nat) (rest : List (Token × Nat)) {next : Expect}
    (begins : startValue outer token left = .ok next) :
    run expect ((token, left) :: rest) = run next rest := by
  rw [run, awaits token left value, begins]

theorem run_scalar (awaits : Awaits expect outer) (value : Json) (left : Nat)
    (rest : List (Token × Nat)) :
    run expect ((.scalar value, left) :: rest) = run (settle value outer) rest :=
  run_token awaits (.scalar value) nofun left rest rfl

theorem run_text (awaits : Awaits expect outer) (text : String) (left : Nat)
    (rest : List (Token × Nat)) :
    run expect ((.text text, left) :: rest) = run (settle (.text text) outer) rest :=
  run_token awaits (.text text) nofun left rest rfl

theorem run_listOpen (awaits : Awaits expect outer) (room : outer.length < depthLimit) (left : Nat)
    (rest : List (Token × Nat)) :
    run expect ((.listOpen, left) :: rest) = run (.listStart outer) rest :=
  run_token awaits .listOpen nofun left rest (if_pos room)

theorem run_objectOpen (awaits : Awaits expect outer) (room : outer.length < depthLimit)
    (left : Nat) (rest : List (Token × Nat)) :
    run expect ((.objectOpen, left) :: rest) = run (.objectStart outer) rest :=
  run_token awaits .objectOpen nofun left rest (if_pos room)

theorem tokens_mark {c : Char} {token : Token} (mark : ∀ rest, scan c rest = { token, length := 0 })
    (shown : isBlank c = false) (rest : List Char) :
    tokens (c :: rest) = (token, rest.length + 1) :: tokens rest := by
  rw [tokens_cons shown, mark]
  rfl

theorem closes_comma (rest : List Char) : Closes (',' :: rest) := by
  intro c first
  exact .inl (Option.some.inj first).symm

theorem closes_list (rest : List Char) : Closes (']' :: rest) := by
  intro c first
  exact .inr (.inl (Option.some.inj first).symm)

theorem closes_object (rest : List Char) : Closes ('\x7d' :: rest) := by
  intro c first
  exact .inr (.inr (Option.some.inj first).symm)

theorem run_number (awaits : Awaits expect outer) (number : Json) {value : Json}
    (starts : ∃ c rest, number.chars = c :: rest ∧ StartsNumber c)
    (reads : read number.write = .ok value) {rest : List Char} (closes : Closes rest) :
    run expect (tokens (number.chars ++ rest)) = run (settle value outer) (tokens rest) := by
  obtain ⟨c, text, shape, first⟩ := starts
  have alone := run_of_read reads
  rw [shape] at alone ⊢
  obtain ⟨left, same⟩ := tokens_number first alone closes
  rw [same, run_scalar awaits]

end

theorem fieldChars_cons_cons (first next : String × Json) (fields : List (String × Json)) :
    fieldChars (first :: next :: fields) =
      quote first.1 ++ ':' :: (first.2.chars ++ ',' :: fieldChars (next :: fields)) := by
  rw [fieldChars]
  · simp
  · exact nofun

section

variable {turn : Json → Json}

mutual

/-- The induction is on the value. What is read in front of `rest` does not depend on `rest`, so the
entries of a list or an object can be taken one after the other. -/
theorem run_chars {expect : Expect} {outer : List Open} (awaits : Awaits expect outer) (value : Json)
    (legible : value.Legible turn) (room : outer.length + value.depth ≤ depthLimit) (rest : List Char)
    (closes : Closes rest) :
    run expect (tokens (value.chars ++ rest)) = run (settle (value.reread turn) outer) (tokens rest) := by
  cases value with
  | null =>
      change run expect (tokens ('n' :: _)) = _
      rw [tokens_cons rfl]
      exact run_scalar awaits .null _ _
  | bool value =>
      cases value with
      | true =>
          change run expect (tokens ('t' :: _)) = _
          rw [tokens_cons rfl]
          exact run_scalar awaits (.bool true) _ _
      | false =>
          change run expect (tokens ('f' :: _)) = _
          rw [tokens_cons rfl]
          exact run_scalar awaits (.bool false) _ _
  | integer value =>
      exact run_number awaits (.integer value) (Text.integer_starts value) legible closes
  | real value =>
      exact run_number awaits (.real value) (real_starts legible) legible closes
  | text value =>
      obtain ⟨left, same⟩ := tokens_quote value rest
      change run expect (tokens (quote value ++ rest)) = _
      rw [same]
      exact run_text awaits value left _
  | array items =>
      have inner : outer.length + (itemsDepth items + 1) ≤ depthLimit := room
      have shape : (Json.array items).chars ++ rest = '[' :: (itemChars items ++ ']' :: rest) := by
        simp [chars]
      rw [shape, tokens_mark (fun _ => rfl) rfl, run_listOpen awaits (by omega)]
      cases items with
      | nil =>
          change run (.listStart outer) (tokens (']' :: rest)) = _
          rw [tokens_mark (fun _ => rfl) rfl]
          rfl
      | cons item items =>
          exact run_itemChars (awaits_listStart outer) item items legible (by omega) rest
  | object fields =>
      have inner : outer.length + (fieldsDepth fields + 1) ≤ depthLimit := room
      have shape : (Json.object fields).chars ++ rest =
          '\x7b' :: (fieldChars fields ++ '\x7d' :: rest) := by
        simp [chars]
      rw [shape, tokens_mark (fun _ => rfl) rfl, run_objectOpen awaits (by omega)]
      cases fields with
      | nil =>
          change run (.objectStart outer) (tokens ('\x7d' :: rest)) = _
          rw [tokens_mark (fun _ => rfl) rfl]
          rfl
      | cons field fields =>
          have deeper : outer.length + 1 + fieldsDepth ((field.1, field.2) :: fields) ≤ depthLimit := by
            change outer.length + 1 + fieldsDepth (field :: fields) ≤ depthLimit
            omega
          have awaits : ∀ name left, step (.objectStart outer) (.text name) left =
              .ok (.colon [] name outer) := fun _ _ => rfl
          exact run_fieldChars awaits field.1 field.2 fields legible deeper rest
termination_by sizeOf value

theorem run_itemChars {expect : Expect} {outer : List Open} {done : List Json}
    (awaits : Awaits expect (.list done :: outer)) (item : Json) (items : List Json)
    (legible : LegibleItems turn (item :: items))
    (room : outer.length + 1 + itemsDepth (item :: items) ≤ depthLimit) (rest : List Char) :
    run expect (tokens (itemChars (item :: items) ++ ']' :: rest)) =
      run (settle (.array (done.reverse ++ rereadItems turn (item :: items))) outer) (tokens rest) := by
  have inner : outer.length + 1 + max item.depth (itemsDepth items) ≤ depthLimit := room
  have first : (Open.list done :: outer).length + item.depth ≤ depthLimit := by
    rw [List.length_cons]
    omega
  cases items with
  | nil =>
      change run expect (tokens (item.chars ++ ']' :: rest)) = _
      rw [run_chars awaits item legible.1 first _ (closes_list rest),
        tokens_mark (fun _ => rfl) rfl]
      change run (settle (.array (item.reread turn :: done).reverse) outer) _ = _
      rw [List.reverse_cons]
      rfl
  | cons next items =>
      have shape : itemChars (item :: next :: items) ++ ']' :: rest =
          item.chars ++ ',' :: (itemChars (next :: items) ++ ']' :: rest) := by
        rw [itemChars, List.append_assoc, List.cons_append]
        exact nofun
      rw [shape, run_chars awaits item legible.1 first _ (closes_comma _),
        tokens_mark (fun _ => rfl) rfl]
      change run (.item (item.reread turn :: done) outer) _ = _
      rw [run_itemChars (awaits_item _ outer) next items legible.2 (by omega) rest,
        List.reverse_cons, List.append_assoc]
      rfl
termination_by sizeOf (item :: items)

theorem run_fieldChars {expect : Expect} {outer : List Open} {done : List (String × Json)}
    (awaits : ∀ name left, step expect (.text name) left = .ok (.colon done name outer))
    (name : String) (value : Json) (fields : List (String × Json))
    (legible : LegibleFields turn ((name, value) :: fields))
    (room : outer.length + 1 + fieldsDepth ((name, value) :: fields) ≤ depthLimit)
    (rest : List Char) :
    run expect (tokens (fieldChars ((name, value) :: fields) ++ '\x7d' :: rest)) =
      run (settle (.object (sortFields
          (done.reverse ++ rereadFields turn ((name, value) :: fields)))) outer) (tokens rest) := by
  have inner : outer.length + 1 + max value.depth (fieldsDepth fields) ≤ depthLimit := room
  have first : (Open.object done name :: outer).length + value.depth ≤ depthLimit := by
    rw [List.length_cons]
    omega
  have opening (behind : List Char) :
      run expect (tokens (quote name ++ ':' :: behind)) =
        run (.value (.object done name :: outer)) (tokens behind) := by
    obtain ⟨left, same⟩ := tokens_quote name (':' :: behind)
    rw [same, run, awaits name left, tokens_mark (fun _ => rfl) rfl]
    rfl
  cases fields with
  | nil =>
      have shape : fieldChars [(name, value)] ++ '\x7d' :: rest =
          quote name ++ ':' :: (value.chars ++ '\x7d' :: rest) := by
        simp [fieldChars]
      rw [shape, opening, run_chars (awaits_value _) value legible.1 first _ (closes_object rest),
        tokens_mark (fun _ => rfl) rfl]
      change run (settle (.object (sortFields ((name, value.reread turn) :: done).reverse)) outer) _ = _
      rw [List.reverse_cons]
      rfl
  | cons next fields =>
      have shape : fieldChars ((name, value) :: next :: fields) ++ '\x7d' :: rest =
          quote name ++ ':' ::
            (value.chars ++ ',' ::
              (fieldChars (next :: fields) ++ '\x7d' :: rest)) := by
        rw [fieldChars_cons_cons]
        simp
      rw [shape, opening, run_chars (awaits_value _) value legible.1 first _ (closes_comma _),
        tokens_mark (fun _ => rfl) rfl]
      change run (.field ((name, value.reread turn) :: done) outer) _ = _
      have deeper : outer.length + 1 + fieldsDepth ((next.1, next.2) :: fields) ≤ depthLimit := by
        change outer.length + 1 + fieldsDepth (next :: fields) ≤ depthLimit
        omega
      rw [run_fieldChars (fun _ _ => rfl) next.1 next.2 fields legible.2 deeper rest,
        List.reverse_cons, List.append_assoc]
      rfl
termination_by sizeOf ((name, value) :: fields)

end

theorem read_write (value : Json) (legible : value.Legible turn) (room : value.depth ≤ depthLimit) :
    read value.write = .ok (value.reread turn) := by
  have outcome := run_chars (awaits_value []) value legible (by simpa using room) [] nofun
  rw [List.append_nil, tokens] at outcome
  unfold read write
  rw [String.toList_ofList, outcome]
  rfl

end

end AccessPolicy.Json
