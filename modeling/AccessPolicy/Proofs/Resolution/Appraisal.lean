/-
Resolution without a cache, together with its effort: the keys that come to a value on the way, and the
answered requests. A point that comes to a value runs once in a context, whoever asks for its key, so
its requests are a charge on the cache and not on the request that happens to start it; a point that
fails runs at every request and is charged each time.

A discipline says which keys may be asked for under which keys in flight, such that a value, once it has
come about, does not hang on them. Points that pass on every failure have one, and so have points whose
requests descend in rank.
-/

import AccessPolicy.Proofs.Resolution.Requests
import Mathlib.Algebra.Ring.Nat

namespace AccessPolicy

structure Effort where
  /-- The keys that have come to a value. -/
  kept : List String := []
  /-- The answered requests, apart from those of points that have come to a value. -/
  answered : Nat := 0

namespace Effort

def add (first second : Effort) : Effort :=
  { kept := first.kept ++ second.kept, answered := first.answered + second.answered }

theorem add_empty (effort : Effort) : effort.add {} = effort := by
  simp [add]

theorem add_assoc (first second third : Effort) :
    (first.add second).add third = first.add (second.add third) := by
  simp [add, Nat.add_assoc]

def total (appraise : String → Except Error Value × Effort) : List String → Effort
  | [] => {}
  | name :: names => (appraise name).2.add (total appraise names)

theorem mem_kept_total {appraise : String → Except Error Value × Effort} {names : List String}
    {key : String} :
    key ∈ (total appraise names).kept ↔ ∃ name ∈ names, key ∈ (appraise name).2.kept := by
  induction names with
  | nil => simp [total]
  | cons name names ih => simp [total, add, ih]

theorem answered_total (appraise : String → Except Error Value × Effort) (names : List String) :
    (total appraise names).answered = (names.map fun name => (appraise name).2.answered).sum := by
  induction names with
  | nil => rfl
  | cons name names ih => simp [total, add, ih]

def answer (appraise : String → Except Error Value × Effort) :
    (request : Request) → Effort → request.Answer × Effort
  | .resolve name, effort => ((appraise name).1, effort.add (appraise name).2)
  | .report _, effort => ((), effort)
  | .indent, effort => ((), effort)
  | .unindent, effort => ((), effort)
  | .stats, effort => (({} : ResolutionStats), effort)
  | .trace, effort => ("", effort)
  | .count _, effort => ((0 : Nat), effort)

/-- A point that comes to a value takes its requests upon itself. -/
def settle (name : String) : Except Error Value × Effort → Except Error Value × Effort
  | (.ok value, effort) => (.ok value, { kept := name :: effort.kept, answered := 1 })
  | (.error error, effort) => (.error error, effort)

theorem settle_fst (name : String) (result : Except Error Value × Effort) :
    (settle name result).1 = result.1 := by
  obtain ⟨outcome, effort⟩ := result
  cases outcome <;> rfl

theorem answer_aside (appraise : String → Except Error Value × Effort) (request : Request)
    (aside : request.Aside) (effort : Effort) : (answer appraise request effort).2 = effort := by
  cases request with
  | resolve name => exact absurd rfl (aside name)
  | report message => rfl
  | indent => rfl
  | unindent => rfl
  | stats => rfl
  | trace => rfl
  | count counter => rfl

theorem kept_answer (appraise : String → Except Error Value × Effort) (request : Request)
    (effort : Effort) : effort.kept ⊆ (answer appraise request effort).2.kept := by
  rcases request.resolve_or_aside with ⟨name, same⟩ | aside
  · subst same
    exact List.subset_append_left _ _
  · rw [answer_aside appraise request aside]
    exact List.Subset.refl _

theorem kept_run {α : Type} (appraise : String → Except Error Value × Effort) (program : Program α)
    (effort : Effort) : effort.kept ⊆ (program.run (answer appraise) effort).2.kept :=
  program.run_related (fun before after => before.kept ⊆ after.kept)
    (fun _ => List.Subset.refl _) (fun _ _ _ => List.Subset.trans) (kept_answer appraise) effort

end Effort

/-- The outcome of a key while the keys `inFlight` are being resolved, and the effort. -/
def appraise (points : List InformationPoint) (inFlight : List String) (name : String) :
    Except Error Value × Effort :=
  if _member : name ∈ inFlight then
    (.error (.cyclicDependencies (cyclePath inFlight name)), {})
  else
    match _found : registered? points name with
    | none => (.error (.missingInformationPoint name), {})
    | some point =>
      Effort.settle name
        (point.provide.run (Effort.answer fun key => appraise points (inFlight ++ [name]) key) {})
termination_by pending points inFlight
decreasing_by exact pending_lt _found _member

def appraisePoint (points : List InformationPoint) (inFlight : List String) (name : String)
    (point : InformationPoint) : Except Error Value × Effort :=
  point.provide.run (Effort.answer (appraise points (inFlight ++ [name]))) {}

section

variable {points : List InformationPoint} {inFlight : List String} {name : String}

theorem appraise_of_inFlight (member : name ∈ inFlight) :
    appraise points inFlight name =
      (.error (.cyclicDependencies (cyclePath inFlight name)), {}) := by
  rw [appraise]
  exact dif_pos member

theorem appraise_of_missing (fresh : name ∉ inFlight) (missing : registered? points name = none) :
    appraise points inFlight name = (.error (.missingInformationPoint name), {}) := by
  rw [appraise]
  simp only [dif_neg fresh]
  split
  · rfl
  · rename_i found
    rw [missing] at found
    cases found

theorem appraise_of_registered {point : InformationPoint} (fresh : name ∉ inFlight)
    (found : registered? points name = some point) :
    appraise points inFlight name =
      Effort.settle name (appraisePoint points inFlight name point) := by
  rw [appraise]
  simp only [dif_neg fresh]
  split
  · rename_i missing
    rw [found] at missing
    cases missing
  · rename_i other same
    rw [found] at same
    cases same
    rfl

theorem appraise_ok_inv {value : Value} (came : (appraise points inFlight name).1 = .ok value) :
    name ∉ inFlight ∧ ∃ point, registered? points name = some point ∧
      (appraisePoint points inFlight name point).1 = .ok value := by
  by_cases member : name ∈ inFlight
  · rw [appraise_of_inFlight member] at came
    cases came
  · refine ⟨member, ?_⟩
    cases found : registered? points name with
    | none =>
        rw [appraise_of_missing member found] at came
        cases came
    | some point =>
        rw [appraise_of_registered member found, Effort.settle_fst] at came
        exact ⟨point, rfl, came⟩

theorem mem_kept_of_appraise {value : Value} {effort : Effort}
    (appraised : appraise points inFlight name = (.ok value, effort)) : name ∈ effort.kept := by
  have came : (appraise points inFlight name).1 = .ok value := congrArg Prod.fst appraised
  obtain ⟨fresh, point, found, ran⟩ := appraise_ok_inv came
  rw [appraise_of_registered fresh found] at appraised
  unfold Effort.settle at appraised
  split at appraised
  · cases appraised
    exact List.mem_cons_self
  · cases appraised

end

/-! ### Disciplines -/

/-- `may inFlight name` says that a key may be asked for under some keys in flight. The outcome of a
point that comes to a value is then the same under all keys in flight, so far as the keys are that it
has got a value for. -/
structure Discipline (points : List InformationPoint) (may : List String → String → Prop) :
    Prop where
  top : ∀ name, may [] name
  below : ∀ inFlight name point, may inFlight name → registered? points name = some point →
    point.provide.AsksOnly (may (inFlight ++ [name]))
  steady : ∀ (known : String → Prop) first second name point value effort,
    may first name → may second name → registered? points name = some point →
    (∀ key, known key → may (first ++ [name]) key → may (second ++ [name]) key →
      appraise points (first ++ [name]) key = appraise points (second ++ [name]) key) →
    appraisePoint points first name point = (.ok value, effort) →
    (∀ key ∈ effort.kept, known key) →
    appraisePoint points second name point = (.ok value, effort)

/-- A forwarding program that comes to a value has got a value at every request. -/
theorem Program.Forwarding.run_eq_of_agree {α : Type} {program : Program α}
    (forwards : program.Forwarding) {first second : String → Except Error Value × Effort}
    {known : String → Prop} (agree : ∀ key, known key → first key = second key)
    (keeps : ∀ key value effort, first key = (.ok value, effort) → key ∈ effort.kept)
    {start : Effort} {value : α} {effort : Effort}
    (ran : program.run (Effort.answer first) start = (.ok value, effort))
    (within : ∀ key ∈ effort.kept, known key) :
    program.run (Effort.answer second) start = (.ok value, effort) := by
  induction forwards generalizing start with
  | done result => exact ran
  | resolve name next passes goes ih =>
      change (next (first name).1).run (Effort.answer first) (start.add (first name).2) =
        (.ok value, effort) at ran
      cases answered : first name with
      | mk answer cost =>
          rw [answered] at ran
          cases answer with
          | error error =>
              have failed := (passes error).run_eq (Effort.answer first) (start.add cost)
              rw [ran] at failed
              cases failed
          | ok held =>
              have grown := Effort.kept_run first (next (.ok held)) (start.add cost)
              rw [ran] at grown
              have kept : name ∈ effort.kept :=
                grown (List.mem_append_right _ (keeps name held cost answered))
              have same : second name = (.ok held, cost) :=
                (agree name (within name kept)).symm.trans answered
              change (next (second name).1).run (Effort.answer second)
                (start.add (second name).2) = (.ok value, effort)
              rw [same]
              exact ih held ran
  | aside request isAside next goes ih =>
      change next.run (Effort.answer first) (Effort.answer first request start).2 =
        (.ok value, effort) at ran
      change next.run (Effort.answer second) (Effort.answer second request start).2 =
        (.ok value, effort)
      rw [Effort.answer_aside first request isAside] at ran
      rw [Effort.answer_aside second request isAside]
      exact ih ran

theorem Discipline.of_forwarding {points : List InformationPoint}
    (forwarding : ∀ name point, registered? points name = some point →
      point.provide.Forwarding) :
    Discipline points fun _ _ => True where
  top _ := trivial
  below _ name point _ found := (forwarding name point found).asksOnly
  steady _ _ _ name point _ _ _ _ found agree appraised within :=
    (forwarding name point found).run_eq_of_agree
      (fun key isKnown => agree key isKnown trivial trivial)
      (fun _ _ _ => mem_kept_of_appraise) appraised within

def Ranked (rank : String → Nat) (points : List InformationPoint) : Prop :=
  ∀ point ∈ points, point.provide.AsksOnly fun key => rank key < rank point.name

def Above (rank : String → Nat) (inFlight : List String) (name : String) : Prop :=
  ∀ key ∈ inFlight, rank name < rank key

section

variable {rank : String → Nat} {points : List InformationPoint}

theorem Above.snoc {inFlight : List String} {name key : String}
    (above : Above rank inFlight name) (lower : rank key < rank name) :
    Above rank (inFlight ++ [name]) key := by
  intro other member
  rcases List.mem_append.mp member with earlier | last
  · exact Nat.lt_trans lower (above other earlier)
  · rw [List.mem_singleton.mp last]
    exact lower

theorem Above.fresh {inFlight : List String} {name : String}
    (above : Above rank inFlight name) : name ∉ inFlight :=
  fun member => Nat.lt_irrefl _ (above name member)

theorem Ranked.asksOnly (ranked : Ranked rank points) {name : String} {point : InformationPoint}
    (found : registered? points name = some point) :
    point.provide.AsksOnly fun key => rank key < rank name := by
  have asks := ranked point (registered?_mem found)
  rwa [registered?_name found] at asks

theorem appraisePoint_eq_of_agree {names : String → Prop} {first second : List String}
    {name : String} {point : InformationPoint} (asks : point.provide.AsksOnly names)
    (agree : ∀ key, names key →
      appraise points (first ++ [name]) key = appraise points (second ++ [name]) key) :
    appraisePoint points first name point = appraisePoint points second name point := by
  have both := asks.run_related (Effort.answer (appraise points (first ++ [name])))
    (Effort.answer (appraise points (second ++ [name]))) Eq
    (fun key before after allowed same => by
      subst same
      have outcome := congrArg Prod.fst (agree key allowed)
      have cost := congrArg (fun both => before.add both.2) (agree key allowed)
      exact ⟨outcome, cost⟩)
    (fun request aside before after same => by
      rw [Effort.answer_aside _ request aside, Effort.answer_aside _ request aside]
      exact same)
    {} {} rfl
  exact Prod.ext both.1 both.2

/-- No key is asked for while it is in flight, so the keys in flight make no difference. -/
theorem Ranked.appraise_eq (ranked : Ranked rank points) {first second : List String}
    {name : String} (aboveFirst : Above rank first name) (aboveSecond : Above rank second name) :
    appraise points first name = appraise points second name := by
  cases found : registered? points name with
  | none =>
      rw [appraise_of_missing aboveFirst.fresh found, appraise_of_missing aboveSecond.fresh found]
  | some point =>
      rw [appraise_of_registered aboveFirst.fresh found,
        appraise_of_registered aboveSecond.fresh found,
        appraisePoint_eq_of_agree (ranked.asksOnly found) fun key lower =>
          ranked.appraise_eq (aboveFirst.snoc lower) (aboveSecond.snoc lower)]
termination_by rank name
decreasing_by exact lower

theorem Discipline.of_ranked (ranked : Ranked rank points) : Discipline points (Above rank) where
  top _ _ member := by cases member
  below _ _ _ above found := (ranked.asksOnly found).widen fun _ lower => above.snoc lower
  steady _ first second _ _ _ _ aboveFirst aboveSecond found _ appraised _ := by
    rw [← appraised]
    exact appraisePoint_eq_of_agree (ranked.asksOnly found) fun key lower =>
      ranked.appraise_eq (aboveSecond.snoc lower) (aboveFirst.snoc lower)

end

end AccessPolicy
