/-
What a meter stands for. It records the enforcements that count on it one after the other, so its counters are
the numbers of these enforcements by what they have come to, and its requests are what their contexts have
counted between their beginning and their end.
-/

import AccessPolicy.Proofs.Enforcement.Calls
import Mathlib.Data.List.Induction

namespace AccessPolicy

/-! ### Errors by category -/

theorem Error.Category.name_injective {category other : Error.Category}
    (same : category.name = other.name) : category = other := by
  cases category <;> cases other <;> first | rfl | exact absurd same (by decide)

namespace Meter

theorem getD_lookup_countCategory (category other : Error.Category)
    (entries : List (Error.Category × UInt64)) :
    ((countCategory category entries).lookup other).getD 0 =
      (entries.lookup other).getD 0 + UInt64.ofNat (decide (category = other)).toNat := by
  by_cases same : category = other
  · subst same
    rw [lookup_countCategory_self, decide_eq_true rfl]
    rfl
  · rw [lookup_countCategory_of_ne (Ne.symm same), decide_eq_false same]
    exact (UInt64.add_zero _).symm

/-- A category has an entry of its own, made when it is first counted. -/
theorem keys_countCategory (category : Error.Category) (entries : List (Error.Category × UInt64)) :
    (countCategory category entries).map Prod.fst =
      if category ∈ entries.map Prod.fst then entries.map Prod.fst
      else entries.map Prod.fst ++ [category] := by
  induction entries with
  | nil => rfl
  | cons entry rest ih =>
      unfold countCategory
      by_cases found : entry.1 = category
      · rw [if_pos found, List.map_cons, List.map_cons,
          if_pos (List.mem_cons.mpr (.inl found.symm)), found]
      · have elsewhere : category ∈ (entry :: rest).map Prod.fst ↔ category ∈ rest.map Prod.fst := by
          simp [Ne.symm found]
        rw [if_neg found, List.map_cons, ih]
        simp only [elsewhere]
        split <;> rfl

theorem nodup_countCategory {entries : List (Error.Category × UInt64)}
    (distinct : (entries.map Prod.fst).Nodup) (category : Error.Category) :
    ((countCategory category entries).map Prod.fst).Nodup := by
  rw [keys_countCategory]
  by_cases known : category ∈ entries.map Prod.fst
  · rw [if_pos known]
    exact distinct
  · rw [if_neg known]
    exact List.nodup_append.mpr ⟨distinct, List.nodup_singleton category, fun one among other same =>
      fun equal => known ((List.mem_singleton.mp same) ▸ equal ▸ among)⟩

/-- All the errors that the entries tell of. -/
def counted {α : Type} (entries : List (α × UInt64)) : Nat :=
  (entries.map fun entry => entry.2.toNat).sum

theorem counted_countCategory (category : Error.Category)
    {entries : List (Error.Category × UInt64)} (fits : counted entries + 1 < 2 ^ 64) :
    counted (countCategory category entries) = counted entries + 1 := by
  induction entries with
  | nil => rfl
  | cons entry rest ih =>
      have split : counted (entry :: rest) = entry.2.toNat + counted rest := List.sum_cons
      rw [split] at fits ⊢
      unfold countCategory
      by_cases found : entry.1 = category
      · have raised : (entry.2 + 1).toNat = entry.2.toNat + 1 := by
          rw [UInt64.toNat_add]
          exact Nat.mod_eq_of_lt (by change entry.2.toNat + 1 < 2 ^ 64; omega)
        rw [if_pos found]
        change (entry.2 + 1).toNat + counted rest = _
        omega
      · rw [if_neg found]
        change entry.2.toNat + counted (countCategory category rest) = _
        rw [ih (by omega)]
        omega

theorem lookup_named (category : Error.Category) (entries : List (Error.Category × UInt64)) :
    (entries.map fun entry => (entry.1.name, entry.2)).lookup category.name =
      entries.lookup category := by
  induction entries with
  | nil => rfl
  | cons entry rest ih =>
      rw [List.map_cons]
      by_cases same : category = entry.1
      · rw [same, List.lookup_cons_self]
        exact List.lookup_cons_self.symm
      · rw [lookup_cons_of_ne fun equal => same (Error.Category.name_injective equal), ih]
        exact (lookup_cons_of_ne same _ _).symm

end Meter

/-! ### Enforcements by what they come to -/

namespace Call

def succeeds (kind : Outcome → Bool) (call : Call) : Bool :=
  match call.outcome with
  | .ok outcome => kind outcome
  | .error _ => false

def fails (kind : Error → Bool) (call : Call) : Bool :=
  match call.outcome with
  | .ok _ => false
  | .error error => kind error

/-- What the context counts of a successful enforcement. -/
def requests (kind : RequestKind) (call : Call) : Nat :=
  match call.outcome with
  | .ok _ => kind.recorded call.last.stats - kind.recorded call.scene.stats
  | .error _ => 0

variable {call : Call}

section

variable {outcome : Outcome} (came : call.outcome = .ok outcome)

include came

theorem succeeds_of_ok (kind : Outcome → Bool) : call.succeeds kind = kind outcome := by
  unfold succeeds
  rw [came]

theorem fails_of_ok (kind : Error → Bool) : call.fails kind = false := by
  unfold fails
  rw [came]

theorem requests_of_ok (kind : RequestKind) :
    call.requests kind = kind.recorded call.last.stats - kind.recorded call.scene.stats := by
  unfold requests
  rw [came]

/-- The bias leaves no decision open. -/
theorem permits_or_denies : outcome.decision.isPermit = !outcome.decision.isDeny := by
  rw [call.outcome_eq] at came
  cases decided : call.visit.result with
  | error error =>
      rw [decided] at came
      cases came
  | ok own =>
      rw [decided] at came
      cases came
      cases own with
      | permit => rfl
      | deny message code => rfl
      | notApplicable message => cases call.point.biasFor call.bias <;> rfl

end

section

variable {error : Error} (came : call.outcome = .error error)

include came

theorem succeeds_of_error (kind : Outcome → Bool) : call.succeeds kind = false := by
  unfold succeeds
  rw [came]

theorem fails_of_error (kind : Error → Bool) : call.fails kind = kind error := by
  unfold fails
  rw [came]

theorem requests_of_error (kind : RequestKind) : call.requests kind = 0 := by
  unfold requests
  rw [came]

end

theorem succeeds_of_kind {kind : Outcome → Bool} (some : call.succeeds kind = true) :
    (call.succeeds fun _ => true) = true := by
  cases came : call.outcome with
  | ok outcome => exact succeeds_of_ok came _
  | error error =>
      rw [succeeds_of_error came] at some
      cases some

theorem fails_of_kind {kind : Error → Bool} (some : call.fails kind = true) :
    (call.fails fun _ => true) = true := by
  cases came : call.outcome with
  | error error => exact fails_of_error came _
  | ok outcome =>
      rw [fails_of_ok came] at some
      cases some

theorem countP_succeeds (calls : List Call) :
    calls.countP (Call.succeeds fun _ => true) =
      calls.countP (Call.succeeds fun came => came.decision.isPermit) +
        calls.countP (Call.succeeds fun came => came.decision.isDeny) := by
  induction calls with
  | nil => rfl
  | cons call rest ih =>
      simp only [List.countP_cons, ih]
      cases came : call.outcome with
      | ok outcome =>
          simp only [succeeds_of_ok came, permits_or_denies came]
          cases outcome.decision.isDeny <;> simp <;> omega
      | error error => simp only [succeeds_of_error came, Bool.false_eq_true, if_false, Nat.add_zero]

end Call

/-- No counter of these enforcements goes beyond a word. -/
structure Fits (calls : List Call) : Prop where
  successes : calls.countP (Call.succeeds fun _ => true) < 2 ^ 64
  failures : calls.countP (Call.fails fun _ => true) < 2 ^ 64
  requests : ∀ kind : RequestKind, (calls.map (Call.requests kind)).sum < 2 ^ 64

/-- Metrics that are the numbers of some enforcements. -/
structure Accounts (calls : List Call) (metrics : Metrics) : Prop where
  permits : metrics.permits.toNat = calls.countP (Call.succeeds fun came => came.decision.isPermit)
  denies : metrics.denies.toNat = calls.countP (Call.succeeds fun came => came.decision.isDeny)
  successes : metrics.totalEvaluations.toNat = calls.countP (Call.succeeds fun _ => true)
  biased : metrics.biasApplied.toNat =
    calls.countP (Call.succeeds fun came => came.own.isNotApplicable)
  biased_le_successes : metrics.biasApplied.toNat ≤ metrics.totalEvaluations.toNat
  failures : metrics.errors.toNat = calls.countP (Call.fails fun _ => true)
  categories : ∀ category : Error.Category,
    ((metrics.errorsByCategory.lookup category.name).getD 0).toNat =
      calls.countP (Call.fails fun error => error.category = category)
  distinct : (metrics.errorsByCategory.map Prod.fst).Nodup
  counted : Meter.counted metrics.errorsByCategory = metrics.errors.toNat
  requests : ∀ kind : RequestKind,
    (kind.shown metrics).toNat = (calls.map (Call.requests kind)).sum

namespace Fits

variable {calls : List Call} {call : Call}

theorem succeeds (fits : Fits calls) (kind : Outcome → Bool) :
    calls.countP (Call.succeeds kind) < 2 ^ 64 :=
  Nat.lt_of_le_of_lt (List.countP_mono_left fun _ _ => Call.succeeds_of_kind) fits.successes

theorem fails (fits : Fits calls) (kind : Error → Bool) :
    calls.countP (Call.fails kind) < 2 ^ 64 :=
  Nat.lt_of_le_of_lt (List.countP_mono_left fun _ _ => Call.fails_of_kind) fits.failures

theorem init (fits : Fits (calls ++ [call])) : Fits calls where
  successes := Nat.lt_of_le_of_lt (by rw [List.countP_append]; exact Nat.le_add_right _ _)
    fits.successes
  failures := Nat.lt_of_le_of_lt (by rw [List.countP_append]; exact Nat.le_add_right _ _)
    fits.failures
  requests kind := Nat.lt_of_le_of_lt
    (by rw [List.map_append, List.sum_append]; exact Nat.le_add_right _ _) (fits.requests kind)

end Fits

/-! ### Recording -/

private theorem toNat_add {word : UInt64} {count more : Nat} (same : word.toNat = count)
    (fits : count + more < 2 ^ 64) : (word + UInt64.ofNat more).toNat = count + more := by
  have small : (UInt64.ofNat more).toNat = more :=
    UInt64.toNat_ofNat_of_lt' (Nat.lt_of_le_of_lt (Nat.le_add_left more count) fits)
  rw [UInt64.toNat_add, same, small]
  exact Nat.mod_eq_of_lt fits

private theorem countP_concat (test : Call → Bool) (calls : List Call) (call : Call) :
    (calls ++ [call]).countP test = calls.countP test + (test call).toNat := by
  rw [List.countP_append, List.countP_singleton]
  cases test call <;> rfl

private theorem sum_requests_concat (kind : RequestKind) (calls : List Call) (call : Call) :
    ((calls ++ [call]).map (Call.requests kind)).sum =
      (calls.map (Call.requests kind)).sum + call.requests kind := by
  rw [List.map_append, List.sum_append]
  rfl

/-- A counter that is raised by those that pass a test still is their number. -/
private theorem toNat_counted {word : UInt64} {test : Call → Bool} {calls : List Call} {call : Call}
    (same : word.toNat = calls.countP test) (fits : (calls ++ [call]).countP test < 2 ^ 64) :
    (word + UInt64.ofNat (test call).toNat).toNat = (calls ++ [call]).countP test := by
  rw [countP_concat] at fits ⊢
  exact toNat_add same fits

/-- What a meter keeps up while it records one enforcement after the other. -/
structure Meter.Tallies (meter : Meter) (calls : List Call) : Prop where
  permits : meter.permits.toNat = calls.countP (Call.succeeds fun came => came.decision.isPermit)
  denies : meter.denies.toNat = calls.countP (Call.succeeds fun came => came.decision.isDeny)
  biased : meter.biasApplied.toNat =
    calls.countP (Call.succeeds fun came => came.own.isNotApplicable)
  failures : meter.errors.toNat = calls.countP (Call.fails fun _ => true)
  categories : ∀ category : Error.Category,
    ((meter.errorsByCategory.lookup category).getD 0).toNat =
      calls.countP (Call.fails fun error => error.category = category)
  distinct : (meter.errorsByCategory.map Prod.fst).Nodup
  counted : Meter.counted meter.errorsByCategory = calls.countP (Call.fails fun _ => true)
  requests : ∀ kind : RequestKind,
    (kind.counter meter).toNat = (calls.map (Call.requests kind)).sum

namespace Meter.Tallies

theorem fresh (service : String) : Tallies { service } [] where
  permits := rfl
  denies := rfl
  biased := rfl
  failures := rfl
  categories _ := rfl
  distinct := List.nodup_nil
  counted := rfl
  requests kind := by cases kind <;> rfl

variable {meter : Meter} {calls : List Call} {call : Call}

theorem record_ok (tallies : meter.Tallies calls) (fits : Fits (calls ++ [call]))
    {outcome : Outcome} (came : call.outcome = .ok outcome) :
    (meter.record call).Tallies (calls ++ [call]) := by
  have counts (kind : Outcome → Bool) {word : UInt64}
      (same : word.toNat = calls.countP (Call.succeeds kind)) :
      (word + UInt64.ofNat (kind outcome).toNat).toNat =
        (calls ++ [call]).countP (Call.succeeds kind) := by
    rw [← Call.succeeds_of_ok came kind]
    exact toNat_counted same (fits.succeeds kind)
  have unfailing (kind : Error → Bool) :
      (calls ++ [call]).countP (Call.fails kind) = calls.countP (Call.fails kind) := by
    rw [countP_concat, Call.fails_of_ok came]
    rfl
  obtain ⟨errors, byCategory⟩ := meter.errors_recordEvaluation outcome.own outcome.decision 0.0
    (call.last.stats.since call.scene.stats)
  rw [meter.record_of_ok came]
  constructor
  case permits =>
    rw [permits_recordEvaluation]
    exact counts (fun came => came.decision.isPermit) tallies.permits
  case denies =>
    rw [denies_recordEvaluation]
    exact counts (fun came => came.decision.isDeny) tallies.denies
  case biased =>
    rw [biasApplied_recordEvaluation]
    exact counts (fun came => came.own.isNotApplicable) tallies.biased
  case failures =>
    rw [errors, unfailing]
    exact tallies.failures
  case categories =>
    intro category
    rw [byCategory, unfailing]
    exact tallies.categories category
  case distinct =>
    rw [byCategory]
    exact tallies.distinct
  case counted =>
    rw [byCategory, unfailing]
    exact tallies.counted
  case requests =>
    intro kind
    have bound := fits.requests kind
    rw [sum_requests_concat] at bound ⊢
    rw [kind.counter_recordEvaluation, kind.recorded_since, ← Call.requests_of_ok came kind]
    exact toNat_add (tallies.requests kind) bound

theorem record_error (tallies : meter.Tallies calls) (fits : Fits (calls ++ [call]))
    {error : Error} (came : call.outcome = .error error) :
    (meter.record call).Tallies (calls ++ [call]) := by
  have unsuccessful (kind : Outcome → Bool) :
      (calls ++ [call]).countP (Call.succeeds kind) = calls.countP (Call.succeeds kind) := by
    rw [countP_concat, Call.succeeds_of_error came]
    rfl
  have counts (kind : Error → Bool) {word : UInt64}
      (same : word.toNat = calls.countP (Call.fails kind)) :
      (word + UInt64.ofNat (kind error).toNat).toNat =
        (calls ++ [call]).countP (Call.fails kind) := by
    rw [← Call.fails_of_error came kind]
    exact toNat_counted same (fits.fails kind)
  rw [meter.record_of_error came]
  constructor
  case permits =>
    rw [unsuccessful]
    exact tallies.permits
  case denies =>
    rw [unsuccessful]
    exact tallies.denies
  case biased =>
    rw [unsuccessful]
    exact tallies.biased
  case failures => exact counts (fun _ => true) tallies.failures
  case categories =>
    intro category
    change (((countCategory error.category meter.errorsByCategory).lookup category).getD 0).toNat = _
    rw [getD_lookup_countCategory]
    exact counts (fun error => error.category = category) (tallies.categories category)
  case distinct => exact nodup_countCategory tallies.distinct error.category
  case counted =>
    -- The entries add up to the errors so far, so none of them is at its limit.
    have bound := fits.failures
    rw [countP_concat, Call.fails_of_error came, ← tallies.counted] at bound ⊢
    exact counted_countCategory error.category bound
  case requests =>
    intro kind
    rw [sum_requests_concat, Call.requests_of_error came, ← tallies.requests kind]
    exact kind.metered_recordError meter error

theorem record (tallies : meter.Tallies calls) (fits : Fits (calls ++ [call])) :
    (meter.record call).Tallies (calls ++ [call]) := by
  cases came : call.outcome with
  | ok outcome => exact tallies.record_ok fits came
  | error error => exact tallies.record_error fits came

theorem foldl_record (service : String) (calls : List Call) (fits : Fits calls) :
    (calls.foldl Meter.record { service }).Tallies calls := by
  induction calls using List.reverseRecOn with
  | nil => exact fresh service
  | append_singleton calls call ih =>
      rw [List.foldl_concat]
      exact (ih fits.init).record fits

theorem metrics_iff (tallies : meter.Tallies calls) (fits : Fits calls) :
    (∃ metrics, meter.metrics = some metrics) ↔
      (calls.map (Call.requests .hit)).sum + (calls.map (Call.requests .miss)).sum < 2 ^ 64 := by
  have hits : meter.cacheHits.toNat = (calls.map (Call.requests .hit)).sum := tallies.requests .hit
  have misses : meter.cacheMisses.toNat = (calls.map (Call.requests .miss)).sum :=
    tallies.requests .miss
  have decided := fits.successes
  rw [Call.countP_succeeds, ← tallies.permits, ← tallies.denies] at decided
  rw [metrics_isSome_iff, hits, misses]
  exact and_iff_right decided

theorem accounts (tallies : meter.Tallies calls) {metrics : Metrics}
    (taken : meter.metrics = some metrics) : Accounts calls metrics := by
  have requests (kind : RequestKind) := Meter.shown_of_metrics taken kind
  obtain ⟨evaluations, asked, decided, -, rfl⟩ := metrics_eq_some_iff.mp taken
  have successes : evaluations.toNat = calls.countP (Call.succeeds fun _ => true) := by
    rw [checkedSum_eq_some_iff.mp decided, Call.countP_succeeds, tallies.permits, tallies.denies]
  constructor
  case permits => exact tallies.permits
  case denies => exact tallies.denies
  case successes => exact successes
  case biased => exact tallies.biased
  case biased_le_successes =>
    change meter.biasApplied.toNat ≤ evaluations.toNat
    rw [successes, tallies.biased]
    exact List.countP_mono_left fun _ _ => Call.succeeds_of_kind
  case failures => exact tallies.failures
  case categories =>
    intro category
    unfold snapshot
    dsimp only
    rw [lookup_named]
    exact tallies.categories category
  case distinct =>
    have names : (meter.snapshot evaluations asked).errorsByCategory.map Prod.fst =
        (meter.errorsByCategory.map Prod.fst).map Error.Category.name := by
      unfold snapshot
      rw [List.map_map, List.map_map]
      rfl
    rw [names]
    exact tallies.distinct.map fun _ _ => Error.Category.name_injective
  case counted =>
    have values : Meter.counted (meter.snapshot evaluations asked).errorsByCategory =
        Meter.counted meter.errorsByCategory := congrArg List.sum List.map_map
    rw [values, tallies.counted]
    exact tallies.failures.symm
  case requests =>
    intro kind
    rw [requests]
    exact tallies.requests kind

end Meter.Tallies

/-! ### Runs -/

def Scene.CountsOn (before after : Scene) : Prop :=
  ∀ kind : RequestKind, kind.recorded before.stats ≤ kind.recorded after.stats

namespace Scene.CountsOn

theorem closed : Scene.Closed Scene.CountsOn where
  refl _ _ := Nat.le_refl _
  trans early late kind := Nat.le_trans (early kind) (late kind)
  answer request scene kind := recorded_answer_le kind request scene

theorem closedUnder : Scene.ClosedUnder (fun _ _ => True) Scene.CountsOn := by
  refine { closed with enforced := ?_ }
  intro point bias policy _ evaluated scene
  refine closed.enforce ?_ ?_ bias policy.name evaluated scene
  · exact fun event scene kind => Nat.le_refl _
  · intro update scene kind
    exact Nat.le_of_eq (by rw [stats_updateMeter])

end Scene.CountsOn

theorem Call.countsOn (call : Call) : call.scene.CountsOn call.last := by
  have closed := Scene.CountsOn.closedUnder
  have evaluated := call.policy.evaluate_related closed call.policy.enforcesOnly_all
  exact closed.enforced call.point call.bias call.policy trivial evaluated call.scene

namespace Service

/-- A new meter of an enforcement point accounts for every enforcement on it exactly once: whoever is served,
however the enforcements stand inside each other, fail, and are caught. What it takes up of the counts of a
context is what these have grown by, as they never go down. Its snapshot shows these numbers, and there is one
as long as the hits and the misses together are a word. -/
theorem metrics_account {service : Service} {place : Nat} {name : String}
    (fresh : service.host.meters[place]? = some { service := name })
    (clients : List (Nat × Procedure))
    (fits : Fits (Node.countedCalls place (service.nodes clients))) :
    let calls := Node.countedCalls place (service.nodes clients)
    (∃ meter, (service.serve clients).host.meters[place]? = some meter ∧ meter.Tallies calls ∧
      (∀ metrics, meter.metrics = some metrics → Accounts calls metrics) ∧
      ((∃ metrics, meter.metrics = some metrics) ↔
        (calls.map (Call.requests .hit)).sum + (calls.map (Call.requests .miss)).sum < 2 ^ 64)) ∧
    ∀ call ∈ calls, call.scene.CountsOn call.last := by
  intro calls
  have tallies : (calls.foldl Meter.record { service := name }).Tallies calls :=
    Meter.Tallies.foldl_record name calls fits
  refine ⟨⟨calls.foldl Meter.record { service := name }, ?_, tallies, ?_, ?_⟩, ?_⟩
  · rw [service.serve_records, fresh]
    rfl
  · exact fun metrics taken => tallies.accounts taken
  · exact tallies.metrics_iff fits
  · exact fun call _ => call.countsOn

private def registrar : EnforcementPoint := { bias := .deny, meter := some 0 }

private def grownUp : Policy :=
  .rule "grown up" (.ask (.resolve "age") fun answer => .done (answer.map fun _ => .permit))

private def undecided : Policy := .rule "undecided" (.done (.ok (.notApplicable "undecided")))

private def indulgent (policy : Policy) : Policy :=
  .rule "indulgent" (.enforce registrar none policy fun _ => .done (.ok .permit))

private def registry : Service where
  host := { meters := [{ service := "engine" }] }
  contexts := [.resolution (.new [{ name := "age", provide := .done (.ok .unit) }]), .foreign ""]

private def applicants : List (Nat × Procedure) :=
  [(0, indulgent grownUp), (0, indulgent undecided), (1, indulgent grownUp), (1, grownUp)].map
    fun (room, policy) => (room, .enforce registrar none policy .done)

/-- Two clients share a context; in the other one the last enforcement fails, and one before it, which is
caught. -/
theorem metrics_account_registry :
    ∃ meter metrics, (registry.serve applicants).host.meters[0]? = some meter ∧
      meter.metrics = some metrics ∧
      metrics.permits.toNat = 4 ∧ metrics.denies.toNat = 1 ∧
      metrics.biasApplied.toNat = 1 ∧ metrics.errors.toNat = 2 ∧
      (metrics.errorsByCategory.lookup "missing_information_point").getD 0 = 2 ∧
      metrics.cacheMisses.toNat = 2 := by
  have fresh : registry.host.meters[0]? = some { service := "engine" } := rfl
  have fits : Fits (Node.countedCalls 0 (registry.nodes applicants)) := by
    refine ⟨?_, ?_, fun kind => ?_⟩
    · decide +kernel
    · decide +kernel
    · cases kind <;> decide +kernel
  obtain ⟨⟨meter, last, -, shows, taken⟩, -⟩ := metrics_account fresh applicants fits
  obtain ⟨metrics, shown⟩ := taken.mpr (by decide +kernel)
  have accounts := shows metrics shown
  refine ⟨meter, metrics, last, shown, ?_, ?_, ?_, ?_, ?_, ?_⟩
  · rw [accounts.permits]
    decide +kernel
  · rw [accounts.denies]
    decide +kernel
  · rw [accounts.biased]
    decide +kernel
  · rw [accounts.failures]
    decide +kernel
  · apply UInt64.toNat_inj.mp
    refine (accounts.categories .missingInformationPoint).trans ?_
    decide +kernel
  · refine (accounts.requests .miss).trans ?_
    decide +kernel

end Service

end AccessPolicy
