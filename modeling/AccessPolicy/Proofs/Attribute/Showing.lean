/-
What a shown value is made of. The texts in a value are quoted wherever they are, as data, as keys of maps or
in fields, and everything around them is names, brackets and commas. So nothing that a value shows is an ASCII
control character.
-/

import AccessPolicy.Attribute.Debug
import AccessPolicy.Proofs.Text.Plain

namespace AccessPolicy

open Text (Plain plain_toList_append plain_quote plain_quoteChar plain_natural plain_integer)

theorem plain_showBool (b : Bool) : Plain (showBool b).toList := by
  cases b <;> decide

section

variable {α : Type} {shown : α → String}

theorem plain_showItems {items : List α}
    (each : ∀ item ∈ items, Plain (shown item).toList) :
    Plain (showItems (items.map shown)).toList := by
  rw [showItems, String.toList_intercalate, List.map_map]
  refine Plain.intercalate (by decide) fun piece member => ?_
  obtain ⟨item, within, rfl⟩ := List.mem_map.mp member
  exact each item within

theorem plain_showOption (each : ∀ datum, Plain (shown datum).toList) (held : Option α) :
    Plain (showOption shown held).toList := by
  cases held with
  | none => exact (by decide : Plain "None".toList)
  | some datum =>
      rw [showOption, plain_toList_append, plain_toList_append]
      exact ⟨⟨by decide, each datum⟩, by decide⟩

theorem plain_showList (each : ∀ datum, Plain (shown datum).toList) (items : List α) :
    Plain (showList shown items).toList := by
  rw [showList, plain_toList_append, plain_toList_append]
  exact ⟨⟨by decide, plain_showItems fun datum _ => each datum⟩, by decide⟩

end

theorem plain_labelled {label content : String} (named : Plain label.toList)
    (held : Plain content.toList) : Plain (label ++ ": " ++ content).toList := by
  rw [plain_toList_append, plain_toList_append]
  exact ⟨⟨named, by decide⟩, held⟩

theorem plain_showFields {name : String} {fields : List (String × String)}
    (named : Plain name.toList)
    (each : ∀ field ∈ fields, Plain field.1.toList ∧ Plain field.2.toList) :
    Plain (showFields name fields).toList := by
  rw [showFields, plain_toList_append, plain_toList_append, plain_toList_append]
  refine ⟨⟨⟨named, by decide⟩, plain_showItems fun field within => ?_⟩, by decide⟩
  exact plain_labelled (each field within).1 (each field within).2

theorem Subject.plain_debug (subject : Subject) : Plain subject.debug.toList := by
  refine plain_showFields (by decide) ?_
  simp only [List.forall_mem_cons]
  exact ⟨⟨by decide, plain_quote subject.id⟩, ⟨by decide, plain_natural subject.age.toNat⟩,
    ⟨by decide, plain_showList plain_quote subject.roles⟩,
    ⟨by decide, plain_showOption plain_quote subject.unit⟩, nofun⟩

theorem Level.plain_debug (level : Level) : Plain level.debug.toList := by
  cases level with
  | low => decide
  | high value =>
      rw [debug, plain_toList_append, plain_toList_append]
      exact ⟨⟨by decide, plain_integer value.toInt⟩, by decide⟩
  | range first last =>
      refine plain_showFields (by decide) ?_
      simp only [List.forall_mem_cons]
      exact ⟨⟨by decide, plain_integer first.toInt⟩, ⟨by decide, plain_integer last.toInt⟩, nofun⟩

theorem Kind.plain_debug (kind : Kind) (datum : kind.Datum) : Plain (kind.debug datum).toList := by
  -- What a container holds is of a smaller kind, and its data are any data of that kind.
  induction kind with
  | text => exact plain_quote datum
  | int64 => exact plain_integer _
  | word64 | size | word32 => exact plain_natural _
  | bool => exact plain_showBool datum
  | float => exact Text.FloatForm.debug.plain_write datum
  | char => exact plain_quoteChar datum
  | unit => exact (by decide : Plain "()".toList)
  | subject => exact Subject.plain_debug datum
  | level => exact Level.plain_debug datum
  | option held ih => exact plain_showOption ih datum
  | list item ih => exact plain_showList ih datum
  | pair first second ihFirst ihSecond =>
      rw [debug, plain_toList_append, plain_toList_append, plain_toList_append,
        plain_toList_append]
      exact ⟨⟨⟨⟨by decide, ihFirst datum.1⟩, by decide⟩, ihSecond datum.2⟩, by decide⟩
  | map value ih =>
      rw [debug, plain_toList_append, plain_toList_append]
      refine ⟨⟨by decide, plain_showItems fun entry _ => ?_⟩, by decide⟩
      exact plain_labelled (plain_quote entry.1) (ih entry.2)

theorem Value.plain_debug (value : Value) : Plain value.debug.toList :=
  value.kind.plain_debug value.datum

end AccessPolicy
