/-
What a report is made of. A call on a report writes a line or moves the margin, so the text is made of the
lines of the calls so far, each behind the margin of its moment. A message is written as it is: cutting the
text at its newlines gives these lines back exactly if there is no newline in a message, and each one that
there is begins a line of its own, without a margin, which nobody can tell from a written one.
-/

import AccessPolicy.Proofs.Policy.Printing

namespace AccessPolicy

theorem TraceLine.newline_mem_shown (line : TraceLine) :
    '\n' ∈ line.shown ↔ '\n' ∈ line.message.toList := by
  have other : '\n' ∉ List.replicate line.depth '\t' := by
    intro member
    cases (List.mem_replicate.mp member).2
  unfold shown
  rw [List.mem_append]
  exact or_iff_right other

namespace Report

/-! ### Calls -/

def margin (depth : Nat) : List Call → Nat
  | [] => depth
  | .write _ :: rest => margin depth rest
  | .indent :: rest => margin (depth + 1) rest
  | .unindent :: rest => margin (depth - 1) rest

/-- The lines that calls write, each at the margin of its moment. -/
def written (depth : Nat) : List Call → List TraceLine
  | [] => []
  | .write message :: rest => ⟨depth, message⟩ :: written depth rest
  | .indent :: rest => written (depth + 1) rest
  | .unindent :: rest => written (depth - 1) rest

theorem margin_append (depth : Nat) (early late : List Call) :
    margin depth (early ++ late) = margin (margin depth early) late := by
  induction early generalizing depth with
  | nil => rfl
  | cons call rest ih => cases call <;> exact ih _

theorem written_append (depth : Nat) (early late : List Call) :
    written depth (early ++ late) = written depth early ++ written (margin depth early) late := by
  induction early generalizing depth with
  | nil => rfl
  | cons call rest ih =>
      cases call with
      | write message => exact congrArg (TraceLine.mk depth message :: ·) (ih depth)
      | indent => exact ih (depth + 1)
      | unindent => exact ih (depth - 1)

theorem applyAll_append (report : Report) (early late : List Call) :
    report.applyAll (early ++ late) = (report.applyAll early).applyAll late :=
  List.foldl_append ..

theorem applyAll_eq_print (report : Report) (calls : List Call) :
    report.applyAll calls =
      { report.print (written report.depth calls) with depth := margin report.depth calls } := by
  induction calls generalizing report with
  | nil => rfl
  | cons call rest ih =>
      change (report.apply call).applyAll rest = _
      rw [ih]
      cases call <;> rfl

/-! ### Lines -/

/-- The pieces of the text, each ended by a newline. -/
def cut (report : Report) : List (List Char) := (report.text.toList.splitOn '\n').dropLast

theorem splitOn_lines (lines : List TraceLine) :
    (lines.flatMap fun line => line.shown ++ ['\n']).splitOn '\n' =
      (lines.flatMap fun line => line.shown.splitOn '\n') ++ [[]] := by
  induction lines with
  | nil => rfl
  | cons line rest ih =>
      rw [List.flatMap_cons, List.flatMap_cons, List.append_assoc]
      change (line.shown ++ '\n' :: rest.flatMap fun line => line.shown ++ ['\n']).splitOn '\n' = _
      rw [List.splitOn_append_cons_self, ih, List.append_assoc]

theorem splitOn_append_ne {shown : List Char} (broken : '\n' ∈ shown)
    (pieces lines : List (List Char)) : shown.splitOn '\n' ++ pieces ≠ shown :: lines := by
  obtain ⟨before, after, same, first⟩ := List.eq_append_cons_of_mem broken
  intro whole
  rw [same, List.splitOn_append_cons_self_of_not_mem first] at whole
  have shorter := congrArg List.length (List.cons.inj whole).1
  rw [List.length_append, List.length_cons] at shorter
  omega

/-- There is one piece for each line, and it is this line, exactly if no message has a newline. -/
theorem flatMap_splitOn_eq_iff (lines : List TraceLine) :
    (lines.flatMap fun line => line.shown.splitOn '\n') = lines.map TraceLine.shown ↔
      ∀ line ∈ lines, '\n' ∉ line.message.toList := by
  induction lines with
  | nil => exact iff_of_true rfl fun _ within => nomatch within
  | cons line rest ih =>
      rw [List.flatMap_cons, List.map_cons, List.forall_mem_cons, ← line.newline_mem_shown]
      by_cases broken : '\n' ∈ line.shown
      · exact iff_of_false (splitOn_append_ne broken _ _) fun whole => whole.1 broken
      · rw [List.splitOn_eq_singleton broken, List.singleton_append, List.cons_inj_right, ih]
        exact (and_iff_right broken).symm

/-- The text is cut where a line ends, and where a newline of its message breaks it. -/
theorem cut_applyAll (calls : List Call) :
    (({} : Report).applyAll calls).cut =
      (written 0 calls).flatMap fun line => line.shown.splitOn '\n' := by
  unfold cut
  rw [applyAll_eq_print]
  change ((({} : Report).print (written 0 calls)).text.toList.splitOn '\n').dropLast = _
  rw [toList_text_print]
  change (((written 0 calls).flatMap fun line => line.shown ++ ['\n']).splitOn '\n').dropLast = _
  rw [splitOn_lines, List.dropLast_concat]

/-- A written line without a newline of its own is one piece, between what has been written before it and what
is written after it. -/
theorem cut_write (early late : List Call) {message : String} (whole : '\n' ∉ message.toList) :
    let left := ({} : Report).applyAll early
    ((left.write message).applyAll late).cut =
      left.cut ++ TraceLine.shown ⟨left.depth, message⟩ ::
        (written left.depth late).flatMap fun line => line.shown.splitOn '\n' := by
  intro left
  have depth : left.depth = margin 0 early := congrArg Report.depth (applyAll_eq_print {} early)
  have single : (TraceLine.shown ⟨margin 0 early, message⟩).splitOn '\n' =
      [TraceLine.shown ⟨margin 0 early, message⟩] :=
    List.splitOn_eq_singleton (mt (TraceLine.newline_mem_shown _).mp whole)
  have calls : (left.write message).applyAll late =
      ({} : Report).applyAll (early ++ .write message :: late) := by
    rw [applyAll_append]
    rfl
  rw [calls, cut_applyAll, cut_applyAll, written_append, List.flatMap_append, depth]
  change _ ++ ((TraceLine.shown ⟨margin 0 early, message⟩).splitOn '\n' ++ _) = _
  rw [single]
  rfl

end Report

end AccessPolicy
