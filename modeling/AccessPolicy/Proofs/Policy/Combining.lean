/-
Combining algorithms as tables. The members are visited one after the other, each on what the one before it
has left. The first outcome that ends the combination is its outcome, with the state at that moment; where
there is none, every member has been visited and the decisions are looked up together. The run of a combined
policy begins the visited members and no others.
-/

import AccessPolicy.Proofs.Engine.Path

namespace AccessPolicy

/-- What evaluations come to one after the other, each with the state that it leaves to the next. -/
def Evaluation.visits {σ : Type} : List (Evaluation σ) → σ → List (Except Error Decision × σ)
  | [], _ => []
  | evaluate :: rest, state => evaluate state :: visits rest (evaluate state).2

namespace Algorithm

def endedBy : Algorithm → Except Error Decision → Bool
  | _, .error _ => true
  | .firstApplicable, .ok decision => !decision.isNotApplicable
  | .permitOverride, .ok _ => false
  | .denyOverride, .ok _ => false

theorem endedBy_error (algorithm : Algorithm) (error : Error) :
    algorithm.endedBy (.error error) = true := by
  cases algorithm <;> rfl

/-- What members decide together if none of them has ended the combination. -/
def verdict : Algorithm → List Decision → Decision
  | .permitOverride, decisions =>
    if .permit ∈ decisions then .permit
    else (decisions.find? Decision.isDeny).getD (notApplicable .permitOverride)
  | .denyOverride, decisions =>
    (decisions.find? Decision.isDeny).getD
      (if .permit ∈ decisions then .permit else notApplicable .denyOverride)
  | .firstApplicable, _ => notApplicable .firstApplicable

section

variable {σ : Type}

/-- The first visit that ends the combination, or else the judgement on all decisions and the last
state. -/
def tableBy (algorithm : Algorithm) (settle : List Decision → Decision)
    (visits : List (Except Error Decision × σ)) (start : σ) : Except Error Decision × σ :=
  match visits.find? fun visit => algorithm.endedBy visit.1 with
  | some visit => visit
  | none =>
    (.ok (settle (visits.filterMap fun visit => visit.1.toOption)),
      (visits.map Prod.snd).getLastD start)

def table (algorithm : Algorithm) (visits : List (Except Error Decision × σ)) (start : σ) :
    Except Error Decision × σ := algorithm.tableBy algorithm.verdict visits start

/-- What an override that remembers something makes of the decisions that are left. -/
def judge (algorithm : Algorithm) (tally : Tally) (decisions : List Decision) : Decision :=
  algorithm.conclude (decisions.foldl Tally.add tally)

theorem message_of_verdict {decisions : List Decision} {algorithm : Algorithm} {message : String}
    (silent : algorithm.verdict decisions = .notApplicable message) :
    message = "No applicable policy found (" ++ algorithm.name ++ ")" := by
  have denies (decision : Decision) (first : decisions.find? Decision.isDeny = some decision) :
      decision ≠ .notApplicable message := by
    intro same
    have found := List.find?_some first
    rw [same] at found
    cases found
  cases algorithm with
  | firstApplicable => exact (Decision.notApplicable.inj silent).symm
  | permitOverride =>
      simp only [verdict] at silent
      split at silent
      · cases silent
      · cases first : decisions.find? Decision.isDeny with
        | none =>
            rw [first] at silent
            exact (Decision.notApplicable.inj silent).symm
        | some decision =>
            rw [first] at silent
            exact absurd silent (denies decision first)
  | denyOverride =>
      simp only [verdict] at silent
      cases first : decisions.find? Decision.isDeny with
      | some decision =>
          rw [first] at silent
          exact absurd silent (denies decision first)
      | none =>
          rw [first, Option.getD_none] at silent
          split at silent
          · cases silent
          · exact (Decision.notApplicable.inj silent).symm

theorem message_of_table {algorithm : Algorithm} {visits : List (Except Error Decision × σ)}
    {start : σ} {message : String}
    (silent : (algorithm.table visits start).1 = .ok (.notApplicable message)) :
    message = "No applicable policy found (" ++ algorithm.name ++ ")" := by
  unfold table tableBy at silent
  cases first : visits.find? fun visit => algorithm.endedBy visit.1 with
  | none =>
      rw [first] at silent
      exact message_of_verdict (Except.ok.inj silent)
  | some visit =>
      rw [first] at silent
      have ended := List.find?_some first
      dsimp only at silent ended
      rw [silent] at ended
      cases algorithm <;> cases ended

/-! ### What is remembered -/

theorem permitted_foldl_add (decisions : List Decision) (tally : Tally) :
    (decisions.foldl Tally.add tally).permitted =
      (tally.permitted || decide (.permit ∈ decisions)) := by
  induction decisions generalizing tally with
  | nil => simp
  | cons decision rest ih =>
      rw [List.foldl_cons, ih]
      cases decision <;> simp [Tally.add]

theorem deny?_foldl_add (decisions : List Decision) (tally : Tally) :
    (decisions.foldl Tally.add tally).deny? = tally.deny?.or (decisions.find? Decision.isDeny) := by
  induction decisions generalizing tally with
  | nil => simp
  | cons decision rest ih =>
      rw [List.foldl_cons, ih]
      cases decision with
      | permit => rfl
      | notApplicable message => rfl
      | deny message code =>
          obtain ⟨permitted, firstDeny⟩ := tally
          cases firstDeny <;> rfl

theorem judge_empty (algorithm : Algorithm) : algorithm.judge {} = algorithm.verdict := by
  funext decisions
  have permitted : (decisions.foldl Tally.add {}).permitted = decide (.permit ∈ decisions) :=
    permitted_foldl_add decisions {}
  have denied : (decisions.foldl Tally.add {}).deny? = decisions.find? Decision.isDeny :=
    deny?_foldl_add decisions {}
  cases algorithm with
  | firstApplicable => rfl
  | permitOverride =>
      simp only [judge, conclude, verdict, Tally.permit?, permitted, denied]
      by_cases permits : .permit ∈ decisions
      · simp [permits]
      · simp [permits]
  | denyOverride =>
      simp only [judge, conclude, verdict, Tally.permit?, permitted, denied]
      cases decisions.find? Decision.isDeny with
      | some deny => rfl
      | none =>
          by_cases permits : .permit ∈ decisions
          · simp [permits]
          · simp [permits]

/-! ### One visit after the other -/

variable {algorithm : Algorithm} (settle : List Decision → Decision)
  (visits : List (Except Error Decision × σ)) (start : σ)

theorem tableBy_of_ended {visit : Except Error Decision × σ}
    (ended : algorithm.endedBy visit.1 = true) :
    algorithm.tableBy settle (visit :: visits) start = visit := by
  simp only [tableBy, List.find?_cons, ended]

theorem tableBy_of_goes_on {decision : Decision}
    (goesOn : algorithm.endedBy (.ok decision) = false) (next : σ) :
    algorithm.tableBy settle ((.ok decision, next) :: visits) start =
      algorithm.tableBy (fun decisions => settle (decision :: decisions)) visits next := by
  simp only [tableBy, List.find?_cons, goesOn, List.map_cons, List.getLastD_cons]
  rfl

theorem tallyAll_eq_tableBy (runsAll : ∀ decision, algorithm.endedBy (.ok decision) = false)
    (evaluations : List (Evaluation σ)) (tally : Tally) (state : σ) :
    ((tallyAll evaluations tally state).1.map algorithm.conclude,
        (tallyAll evaluations tally state).2) =
      algorithm.tableBy (algorithm.judge tally) (Evaluation.visits evaluations state) state := by
  induction evaluations generalizing tally state with
  | nil => rfl
  | cons evaluate rest ih =>
      unfold tallyAll Evaluation.visits
      cases evaluate state with
      | mk outcome next =>
          cases outcome with
          | error error => exact (tableBy_of_ended _ _ _ (endedBy_error algorithm error)).symm
          | ok decision =>
              rw [tableBy_of_goes_on _ _ _ (runsAll decision)]
              exact ih (tally.add decision) next

theorem firstOpinion_eq_tableBy (evaluations : List (Evaluation σ)) (tally : Tally) (state : σ) :
    firstOpinion (notApplicable .firstApplicable) evaluations state =
      firstApplicable.tableBy (firstApplicable.judge tally)
        (Evaluation.visits evaluations state) state := by
  induction evaluations generalizing tally state with
  | nil => rfl
  | cons evaluate rest ih =>
      unfold firstOpinion Evaluation.visits
      cases evaluate state with
      | mk outcome next =>
          cases outcome with
          | error error => rfl
          | ok decision =>
              cases decision with
              | permit => rfl
              | deny message code => rfl
              | notApplicable message =>
                  rw [tableBy_of_goes_on _ _ _ rfl]
                  exact ih _ next

theorem combine_eq_table (algorithm : Algorithm) (evaluations : List (Evaluation σ)) (state : σ) :
    algorithm.combine evaluations state =
      algorithm.table (Evaluation.visits evaluations state) state := by
  unfold table
  rw [← judge_empty]
  cases algorithm with
  | permitOverride =>
      have runsAll (decision : Decision) : permitOverride.endedBy (.ok decision) = false := rfl
      exact tallyAll_eq_tableBy runsAll evaluations {} state
  | denyOverride =>
      have runsAll (decision : Decision) : denyOverride.endedBy (.ok decision) = false := rfl
      exact tallyAll_eq_tableBy runsAll evaluations {} state
  | firstApplicable => exact firstOpinion_eq_tableBy evaluations {} state

example : Algorithm.denyOverride.combine
    [fun n => (.ok .permit, n + 1), fun n => (.ok (.deny "first" "A"), n + 1),
      fun n => (.ok (.deny "second" "B"), n + 1)] 0 = (.ok (.deny "first" "A"), 3) := rfl

end

end Algorithm

/-! ### Runs -/

namespace Machine

/-- The member that a combination with so many frames under it begins now. -/
def begins? (depth : Nat) (machine : Machine) : Option Policy :=
  match machine.focus with
  | .combine _ _ (member :: _) => if machine.frames.length = depth then some member else none
  | _ => none

theorem begins?_above {depth : Nat} {base : List Frame} (below : depth < base.length)
    (machine : Machine) : (machine.above base).begins? depth = none := by
  have deeper : (machine.above base).frames.length ≠ depth := by
    change (machine.frames ++ base).length ≠ depth
    rw [List.length_append]
    omega
  unfold begins?
  split
  · exact if_neg deeper
  · rfl

theorem filterMap_begins?_above {depth : Nat} {base : List Frame} (below : depth < base.length)
    (states : List Machine) : (states.map (above base)).filterMap (begins? depth) = [] := by
  apply List.filterMap_eq_nil_iff.mpr
  intro state within
  obtain ⟨inner, _, same⟩ := List.mem_map.mp within
  rw [← same]
  exact begins?_above below inner

theorem traced_path (member : Policy) (frames : List Frame) (scene : Scene) :
    let visit := traced member.name member.evaluate scene
    ∃ states, Path ⟨.evaluate member, .member :: frames, (scene.write member.name).indent⟩ states
        ⟨.decision visit.1, frames, visit.2⟩ ∧
      ∀ depth ≤ frames.length, states.filterMap (begins? depth) = [] := by
  obtain ⟨inside, path⟩ := Path.of_leads
    (evaluate_leads member [] (scene.write member.name).indent)
  have closing : step ⟨.decision (member.evaluate (scene.write member.name).indent).1,
      .member :: frames, (member.evaluate (scene.write member.name).indent).2⟩ =
      some ⟨.decision (traced member.name member.evaluate scene).1, frames,
        (traced member.name member.evaluate scene).2⟩ := by
    unfold traced
    cases member.evaluate (scene.write member.name).indent with
    | mk result after => cases result <;> rfl
  refine ⟨_, (path.above (.member :: frames)).trans (.step closing (.refl _)), ?_⟩
  intro depth within
  rw [List.filterMap_append, filterMap_begins?_above (Nat.lt_succ_of_le within)]
  rfl

theorem proceed_of_ended {algorithm : Algorithm} {outcome : Except Error Decision}
    (ended : algorithm.endedBy outcome = true) (tally : Algorithm.Tally) (rest : List Policy)
    (frames : List Frame) (scene : Scene) :
    proceed algorithm tally rest frames scene outcome = ⟨.decision outcome, frames, scene⟩ := by
  cases outcome with
  | error error => rfl
  | ok decision =>
      cases algorithm with
      | permitOverride => cases ended
      | denyOverride => cases ended
      | firstApplicable =>
          cases decision with
          | permit => rfl
          | deny message code => rfl
          | notApplicable message => cases ended

theorem proceed_of_goes_on {algorithm : Algorithm} {decision : Decision}
    (goesOn : algorithm.endedBy (.ok decision) = false) (tally : Algorithm.Tally)
    (rest : List Policy) (frames : List Frame) (scene : Scene) :
    proceed algorithm tally rest frames scene (.ok decision) =
      ⟨.combine algorithm (tally.add decision) rest, frames, scene⟩ := by
  cases algorithm with
  | permitOverride => rfl
  | denyOverride => rfl
  | firstApplicable =>
      cases decision with
      | permit => cases goesOn
      | deny message code => cases goesOn
      | notApplicable message => rfl

/-- A combination that has come to some of its members goes on with the visits of those. -/
theorem combine_path (algorithm : Algorithm) (members : List Policy) (tally : Algorithm.Tally)
    (frames : List Frame) (scene : Scene) :
    let visits := Evaluation.visits (Policy.sections members) scene
    let outcome := algorithm.tableBy (algorithm.judge tally) visits scene
    ∃ states, Path ⟨.combine algorithm tally members, frames, scene⟩ states
        ⟨.decision outcome.1, frames, outcome.2⟩ ∧
      states.filterMap (begins? frames.length) =
        members.take (visits.findIdx (fun visit => algorithm.endedBy visit.1) + 1) := by
  induction members generalizing tally scene with
  | nil => exact ⟨_, .step rfl (.refl _), rfl⟩
  | cons member rest ih =>
      obtain ⟨inside, path, silent⟩ :=
        traced_path member (.members algorithm tally rest :: frames) scene
      have nothing := silent frames.length (Nat.le_succ _)
      let start : Machine := ⟨.combine algorithm tally (member :: rest), frames, scene⟩
      have begun : start.begins? frames.length = some member := if_pos rfl
      unfold Policy.sections Evaluation.visits
      cases visit : traced member.name member.evaluate scene with
      | mk outcome next =>
          rw [visit] at path
          let told : Machine :=
            ⟨.decision outcome, .members algorithm tally rest :: frames, next⟩
          -- Inside the section of the member everything is deeper, so only `start` begins one here.
          have passing (after : List Machine) :
              (start :: (inside ++ told :: after)).filterMap (begins? frames.length) =
                member :: after.filterMap (begins? frames.length) := by
            rw [List.filterMap_cons_some begun, List.filterMap_append, nothing]
            rfl
          by_cases ended : algorithm.endedBy outcome = true
          · have stops : told.step = some ⟨.decision outcome, frames, next⟩ :=
              congrArg some (proceed_of_ended ended tally rest frames next)
            dsimp only
            rw [Algorithm.tableBy_of_ended _ _ _ ended, List.findIdx_cons, ended]
            refine ⟨_, .step rfl (path.trans (.step stops (.refl _))), ?_⟩
            exact passing []
          · cases outcome with
            | error error => exact absurd (Algorithm.endedBy_error algorithm error) ended
            | ok decision =>
                have goesOn : algorithm.endedBy (.ok decision) = false :=
                  Bool.eq_false_iff.mpr ended
                have stepped : told.step =
                    some ⟨.combine algorithm (tally.add decision) rest, frames, next⟩ :=
                  congrArg some (proceed_of_goes_on goesOn tally rest frames next)
                obtain ⟨after, later, begunLater⟩ := ih (tally.add decision) next
                dsimp only
                rw [Algorithm.tableBy_of_goes_on _ _ _ goesOn, List.findIdx_cons, goesOn]
                refine ⟨_, .step rfl (path.trans (.step stepped later)), ?_⟩
                rw [passing, begunLater]
                rfl

end Machine

/-- A combined policy comes to what its table says, with the changes of the visited members, and begins
just these, in order. -/
theorem Policy.combined_follows_table (algorithm : Algorithm) (members : List Policy)
    (frames : List Frame) (scene : Scene) :
    let combination := Policy.combined algorithm members
    let visits := Evaluation.visits (Policy.sections members) scene
    combination.evaluate scene = algorithm.table visits scene ∧
      (∀ message, (combination.evaluate scene).1 = .ok (.notApplicable message) →
        message = "No applicable policy found (" ++ algorithm.name ++ ")") ∧
      ∃ states, Machine.Path ⟨.evaluate combination, frames, scene⟩ states
          ⟨.decision (combination.evaluate scene).1, frames, (combination.evaluate scene).2⟩ ∧
        states.filterMap (Machine.begins? frames.length) =
          members.take (visits.findIdx (fun visit => algorithm.endedBy visit.1) + 1) := by
  intro combination visits
  have evaluated : combination.evaluate scene = algorithm.table visits scene :=
    Algorithm.combine_eq_table algorithm (Policy.sections members) scene
  refine ⟨evaluated, ?_, ?_⟩
  · intro message silent
    rw [evaluated] at silent
    exact Algorithm.message_of_table silent
  · obtain ⟨states, path, begun⟩ := Machine.combine_path algorithm members {} frames scene
    rw [Algorithm.judge_empty] at path
    rw [evaluated]
    exact ⟨_, .step rfl path, begun⟩

end AccessPolicy
