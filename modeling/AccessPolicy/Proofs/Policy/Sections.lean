/-
What a section does to the margin. It indents once before its body and unindents once after it, whichever way
the body ends, and has no other part in the margin: nothing remembers where it was. So the lines after a
section stand where those before it do just if the body leaves the margin that it has begun with, and else
they are shifted by what policies and points have indented and not taken back. An unindent at depth zero does
nothing, and whether one comes to that depends on the own calls of policies and points alone, as every
section has indented before it unindents.
-/

import AccessPolicy.Proofs.Engine.Writing

namespace AccessPolicy

/-! ### Calls -/

namespace Report

def Call.isIndent : Call → Bool
  | .indent => true
  | _ => false

def Call.isUnindent : Call → Bool
  | .unindent => true
  | _ => false

def indents (calls : List Call) : Nat := calls.countP Call.isIndent

def unindents (calls : List Call) : Nat := calls.countP Call.isUnindent

/-- From this depth no unindent is made at zero: at no moment there have been more of them than the depth and
the indents so far allow. -/
def Covers (depth : Nat) (calls : List Call) : Prop :=
  ∀ early, early <+: calls → unindents early ≤ depth + indents early

theorem margin_writes (depth : Nat) (messages : List String) :
    margin depth (messages.map .write) = depth := by
  induction messages with
  | nil => rfl
  | cons message rest ih => exact ih

theorem margin_closing (depth : Nat) (result : Except Error Decision) :
    margin (depth + 1) (closing result) = depth := by
  cases result <;> rfl

namespace Covers

variable {depth : Nat} {calls : List Call}

theorem mono (covers : Covers depth calls) (more : Nat) : Covers (depth + more) calls := by
  intro early before
  have allowed := covers early before
  omega

theorem tail {call : Call} (covers : Covers depth (call :: calls)) :
    Covers (margin depth [call]) calls := by
  intro early before
  have allowed := covers (call :: early) (List.cons_prefix_cons.mpr ⟨rfl, before⟩)
  unfold unindents indents at allowed ⊢
  rw [List.countP_cons, List.countP_cons] at allowed
  cases call with
  | write message => exact allowed
  | indent =>
      simp only [Call.isIndent, Call.isUnindent, margin, if_true, Bool.false_eq_true, if_false]
        at allowed ⊢
      omega
  | unindent =>
      simp only [Call.isIndent, Call.isUnindent, margin, if_true, Bool.false_eq_true, if_false]
        at allowed ⊢
      omega

theorem append {early late : List Call} (covers : Covers depth (early ++ late)) :
    Covers depth early ∧ Covers (margin depth early) late := by
  constructor
  · exact fun first before => covers first (before.trans (List.prefix_append early late))
  · induction early generalizing depth with
    | nil => exact covers
    | cons call rest ih =>
        have later : Covers (margin (margin depth [call]) rest) late := ih covers.tail
        rwa [← margin_append] at later

/-- Where no unindent is made at zero, the margin adds up. -/
theorem margin_add (covers : Covers depth calls) :
    margin depth calls + unindents calls = depth + indents calls := by
  induction calls generalizing depth with
  | nil => rfl
  | cons call rest ih =>
      have later := ih covers.tail
      have first := covers [call] (List.prefix_append [call] rest)
      unfold unindents indents at later first ⊢
      rw [List.countP_cons, List.countP_cons]
      cases call with
      | write message => exact later
      | indent =>
          simp only [Call.isIndent, Call.isUnindent, margin, if_true, Bool.false_eq_true, if_false]
            at later ⊢
          omega
      | unindent =>
          simp only [Call.isIndent, Call.isUnindent, margin, if_true, Bool.false_eq_true, if_false,
            List.countP_cons, List.countP_nil] at later first ⊢
          omega

theorem margin_shift (covers : Covers depth calls) (more : Nat) :
    margin (depth + more) calls = margin depth calls + more := by
  have low := covers.margin_add
  have high := (covers.mono more).margin_add
  omega

end Covers

end Report

/-! ### Steps -/

def Frame.isSection : Frame → Bool
  | .member => true
  | .enforcement _ _ _ _ => true
  | _ => false

namespace Machine

open Report (margin Covers)

def sections (machine : Machine) : Nat := machine.frames.countP Frame.isSection

theorem margin_requestCalls (machine : Machine) (depth : Nat) :
    margin depth machine.requestCalls = depth := by
  unfold requestCalls Finding.calls
  split
  · split
    · exact Report.margin_writes depth _
    · rfl
  · split
    · rfl
    · exact Report.margin_writes depth _
  · exact Report.margin_writes depth _
  · rfl

variable {frames : List Frame} {scene : Scene}

theorem sections_request (name : String) :
    (request name frames scene).sections = frames.countP Frame.isSection := by
  unfold request
  cases scene.context with
  | foreign trace => rfl
  | resolution context =>
      dsimp only
      cases context.memory.cache.find? name with
      | some value => rfl
      | none =>
          dsimp only
          split
          · rfl
          · rfl

theorem sections_lookUp (name : String) :
    (lookUp name frames scene).sections = frames.countP Frame.isSection := by
  unfold lookUp
  cases scene.context with
  | foreign trace => rfl
  | resolution context =>
      dsimp only
      cases registered? context.points name with
      | none => rfl
      | some point => rfl

theorem sections_provide (name : String) (program : Program Value) :
    (provide name frames scene program).sections = frames.countP Frame.isSection := by
  cases program with
  | done result => cases result <;> rfl
  | ask request next => cases request <;> rfl

theorem sections_decide (body : Procedure) :
    (decide frames scene body).sections = frames.countP Frame.isSection := by
  cases body with
  | done result => rfl
  | ask request next => cases request <;> rfl
  | evaluate policy next => rfl
  | enforce point bias policy next => rfl

theorem sections_proceed (algorithm : Algorithm) (tally : Algorithm.Tally) (rest : List Policy)
    (result : Except Error Decision) :
    (proceed algorithm tally rest frames scene result).sections =
      frames.countP Frame.isSection := by
  cases result with
  | error error => rfl
  | ok decision =>
      unfold proceed
      dsimp only
      split
      · rfl
      · rfl

/-- Where a section begins or ends, the margin goes with the number of sections. -/
theorem margin_sectionCalls {first second : Machine} (stepped : first.step = some second)
    (depth : Nat) :
    margin (depth + first.sections) first.sectionCalls = depth + second.sections := by
  obtain ⟨focus, frames, scene⟩ := first
  cases focus with
  | request name =>
      rw [← Option.some.inj stepped, sections_request]
      rfl
  | lookUp name =>
      rw [← Option.some.inj stepped, sections_lookUp]
      rfl
  | provide name program =>
      rw [← Option.some.inj stepped, sections_provide]
      rfl
  | leave name answer =>
      rw [← Option.some.inj stepped]
      rfl
  | decide body =>
      rw [← Option.some.inj stepped, sections_decide]
      rfl
  | evaluate policy =>
      cases policy <;> rw [← Option.some.inj stepped] <;> rfl
  | enforce point bias policy =>
      rw [← Option.some.inj stepped]
      exact congrArg (depth + ·) (List.countP_cons_of_pos rfl).symm
  | combine algorithm tally members =>
      rw [← Option.some.inj stepped]
      cases members with
      | nil => rfl
      | cons member rest => exact congrArg (depth + ·) (List.countP_cons_of_pos rfl).symm
  | answer answer =>
      rcases step_answer_inv stepped with ⟨_, _, _, same, next⟩ | ⟨_, _, same, next⟩
      · rw [same, next]
        rfl
      · rw [same, next]
        rfl
  | decision result =>
      rcases step_decision_inv stepped with ⟨_, _, same, next⟩ | ⟨rest, same, next⟩ |
        ⟨algorithm, tally, others, rest, same, next⟩ |
        ⟨point, bias, name, before, rest, same, next⟩
      · rw [same, next]
        rfl
      · have one : (Frame.member :: rest).countP Frame.isSection =
            rest.countP Frame.isSection + 1 := List.countP_cons_of_pos rfl
        rw [same, next]
        unfold sections
        rw [one]
        exact Report.margin_closing _ result
      · rw [same, next, sections_proceed]
        rfl
      · have one : (Frame.enforcement point bias name before :: rest).countP Frame.isSection =
            rest.countP Frame.isSection + 1 := List.countP_cons_of_pos rfl
        rw [same, next]
        unfold sections
        rw [one]
        exact Report.margin_closing _ _

theorem margin_of_step {first second : Machine} (stepped : first.step = some second) {depth : Nat}
    (covers : Covers depth first.ownCalls) :
    margin (depth + first.sections) first.calls = margin depth first.ownCalls + second.sections := by
  unfold calls
  rw [Report.margin_append, Report.margin_append, covers.margin_shift, margin_requestCalls,
    margin_sectionCalls stepped]

/-- Outside of all sections, the margin is what the own calls of policies and points have made of it. -/
theorem Path.margin_eq {first last : Machine} {states : List Machine}
    (path : Path first states last) {depth : Nat}
    (covers : Covers depth (states.flatMap ownCalls)) :
    margin (depth + first.sections) (states.flatMap calls) =
      margin depth (states.flatMap ownCalls) + last.sections := by
  induction path generalizing depth with
  | refl machine => rfl
  | step stepped rest ih =>
      rw [List.flatMap_cons] at covers
      obtain ⟨own, later⟩ := covers.append
      rw [List.flatMap_cons, List.flatMap_cons, Report.margin_append, Report.margin_append,
        margin_of_step stepped own]
      exact ih later

theorem Path.depth_eq {focus last : Focus} {scene final : Scene} {states : List Machine}
    (path : Path ⟨focus, [], scene⟩ states ⟨last, [], final⟩) {context now : Context}
    (own : scene.context = .resolution context) (ends : final.context = .resolution now)
    (covers : Covers context.memory.report.depth (states.flatMap ownCalls)) :
    now.memory.report.depth = margin context.memory.report.depth (states.flatMap ownCalls) := by
  obtain ⟨after, same, called⟩ := path.called context own
  cases ends.symm.trans same
  rw [called, Report.applyAll_eq_print]
  exact path.margin_eq covers

end Machine

/-! ### Sections -/

theorem Report.depth_close (report : Report) (result : Except Error Decision) :
    (report.close result).depth = report.depth - 1 := by
  cases result <;> rfl

/-- A section takes one level off what its body has left, if it is evaluated and if it is enforced. So it keeps
the margin exactly if the body does; and where policies and points make no unindent at zero, it moves the
margin by what they have indented more often than unindented. -/
theorem EnforcementPoint.margin_after_section (point : EnforcementPoint) (bias : Option Bias)
    (policy : Policy) (context : Context) (host : Host) :
    let scene := host.scene (.resolution context)
    let depth := context.memory.report.depth
    let opened := (scene.write policy.name).indent
    let body := policy.evaluate opened
    ∃ states inside sectioned enforced,
      Machine.Path ⟨.evaluate policy, [], opened⟩ states ⟨.decision body.1, [], body.2⟩ ∧
      body.2.context = .resolution inside ∧
      (traced policy.name policy.evaluate scene).2.context = .resolution sectioned ∧
      (point.evaluateInContext bias policy scene).2.context = .resolution enforced ∧
      inside.memory.report.depth = Report.margin (depth + 1) (states.flatMap Machine.calls) ∧
      sectioned.memory.report.depth = inside.memory.report.depth - 1 ∧
      enforced.memory.report.depth = inside.memory.report.depth - 1 ∧
      (sectioned.memory.report.depth = depth ↔ inside.memory.report.depth = depth + 1 ∨
        depth = 0 ∧ inside.memory.report.depth = 0) ∧
      (Report.Covers depth (states.flatMap Machine.ownCalls) →
        sectioned.memory.report.depth + Report.unindents (states.flatMap Machine.ownCalls) =
          depth + Report.indents (states.flatMap Machine.ownCalls)) := by
  intro scene depth opened body
  let call : Call := ⟨point, bias, policy, scene⟩
  obtain ⟨states, path⟩ := Machine.Path.of_leads (Machine.evaluate_leads policy [] opened)
  obtain ⟨inside, last, called⟩ := path.called _ rfl
  have margin : inside.memory.report.depth =
      Report.margin (depth + 1) (states.flatMap Machine.calls) := by
    rw [called, Report.applyAll_eq_print]
    rfl
  have closed := Scene.closes_traced policy.name policy.evaluate scene inside last
  have concluded := Scene.closes_call call inside last
  refine ⟨states, inside, _, _, path, last, closed, concluded, margin, Report.depth_close _ _,
    Report.depth_close _ _, ?_, ?_⟩
  · change (Report.close _ _).depth = depth ↔ _
    rw [Report.depth_close]
    omega
  · intro covers
    change (Report.close _ _).depth + _ = _
    have own := path.depth_eq rfl last (covers.mono 1)
    have shifted := covers.margin_shift 1
    have total := covers.margin_add
    change inside.memory.report.depth = Report.margin (depth + 1) _ at own
    rw [Report.depth_close, own, shifted]
    exact total

namespace EnforcementPoint

/-- Fails between an indent and the unindent that it would have made. -/
private def forsaking : Policy :=
  .rule "forsaking" (.ask .indent fun _ => .done (.error (.missingInformationPoint "role")))

/-- What comes after it is shifted. -/
theorem not_margin_kept :
    ¬∀ (point : EnforcementPoint) (policy : Policy) (context : Context) (host : Host),
      let scene := host.scene (.resolution context)
      (∀ now, (traced policy.name policy.evaluate scene).2.context = .resolution now →
        now.memory.report.depth = context.memory.report.depth) ∧
      ∀ now, (point.evaluateInContext none policy scene).2.context = .resolution now →
        now.memory.report.depth = context.memory.report.depth := by
  intro law
  have kept := (law { bias := .deny } forsaking (.new []) {}).1 _ rfl
  exact absurd kept (by decide +kernel)

end EnforcementPoint

end AccessPolicy
