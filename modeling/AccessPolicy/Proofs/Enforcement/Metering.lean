/-
Meters against the counts of contexts. An enforcement puts on its meter what its context has counted
while it ran, and so once more what enforcements inside it have put there already. A request is therefore
counted at most as often as counted enforcements stand inside each other around it: once where none
stands inside another, and twice where one does.
-/

import AccessPolicy.Proofs.Engine.Frame
import AccessPolicy.Proofs.Enforcement.Service
import AccessPolicy.Proofs.Policy.Effects
import AccessPolicy.Proofs.Telemetry.Counters

namespace AccessPolicy

/-- At most so many enforcements that the meter counts stand inside each other, this one included. -/
def EnforcementPoint.Nests (place : Nat) : Nat → EnforcementPoint → Policy → Prop
  | 0, point, _ => point.meter ≠ some place
  | depth + 1, point, policy =>
    point.meter = some place → policy.EnforcesOnly (Nests place depth)

/-! ### Counts -/

namespace RequestKind

def metered (kind : RequestKind) (meter : Meter) : Nat := (kind.counter meter).toNat

private theorem toNat_add_ofNat_le (word : UInt64) (n : Nat) :
    (word + UInt64.ofNat n).toNat ≤ word.toNat + n := by
  have wrapped : (word + UInt64.ofNat n).toNat ≤ word.toNat + (UInt64.ofNat n).toNat := by
    rw [UInt64.toNat_add]
    exact Nat.mod_le _ _
  have small : (UInt64.ofNat n).toNat ≤ n := by
    rw [UInt64.toNat_ofNat']
    exact Nat.mod_le _ _
  omega

/-- A meter takes up what it is told, or less if its counter wraps. -/
theorem metered_recordEvaluation_le (kind : RequestKind) (meter : Meter) (own decision : Decision)
    (milliseconds : Float) (stats : ResolutionStats) :
    kind.metered (meter.recordEvaluation own decision milliseconds stats) ≤
      kind.metered meter + kind.recorded stats := by
  unfold metered
  rw [counter_recordEvaluation]
  exact toNat_add_ofNat_le _ _

theorem metered_recordError (kind : RequestKind) (meter : Meter) (error : Error) :
    kind.metered (meter.recordError error) = kind.metered meter := by
  cases kind <;> rfl

theorem recorded_since (kind : RequestKind) (stats before : ResolutionStats) :
    kind.recorded (stats.since before) = kind.recorded stats - kind.recorded before := by
  cases kind <;> rfl

end RequestKind

/-- What is recorded has grown, and what is metered by at most so many times as much. -/
def Follows (depth metered recorded meteredThen recordedThen : Nat) : Prop :=
  ∃ more, recordedThen = recorded + more ∧ meteredThen ≤ metered + depth * more

namespace Follows

variable {depth a b c x y z : Nat}

theorem of_recorded (grown : x ≤ y) : Follows depth a x a y :=
  ⟨y - x, (Nat.add_sub_of_le grown).symm, Nat.le_add_right _ _⟩

theorem trans (first : Follows depth a x b y) (second : Follows depth b y c z) :
    Follows depth a x c z := by
  obtain ⟨early, grown, bound⟩ := first
  obtain ⟨late, grownAgain, boundAgain⟩ := second
  refine ⟨early + late, by omega, ?_⟩
  rw [Nat.mul_add]
  omega

theorem enclose (follows : Follows depth a x b y) (metered : c ≤ b + (y - x)) :
    Follows (depth + 1) a x c y := by
  obtain ⟨more, grown, bound⟩ := follows
  refine ⟨more, grown, ?_⟩
  rw [Nat.succ_mul]
  omega

end Follows

/-! ### Scenes -/

/-- The meter at a place is still there and has followed the counts of the context. -/
def Scene.Metered (place depth : Nat) (before after : Scene) : Prop :=
  ∀ old, before.meters[place]? = some old → ∃ new, after.meters[place]? = some new ∧
    ∀ kind : RequestKind,
      Follows depth (kind.metered old) (kind.recorded before.stats)
        (kind.metered new) (kind.recorded after.stats)

namespace Scene

theorem recorded_answer_le (kind : RequestKind) (request : Request) (scene : Scene) :
    kind.recorded scene.stats ≤ kind.recorded (scene.answer request).2.stats := by
  obtain ⟨host, context⟩ := scene
  cases context with
  | foreign trace => cases kind <;> exact Nat.zero_le _
  | resolution context =>
      have grown := Store.Grows.answer (resolve_grows context.points context.inFlight) request
        (context.store host.journal)
      cases kind with
      | hit => exact grown.hits
      | miss => exact grown.misses

theorem getElem?_updateMeter (scene : Scene) (index place : Nat) (update : Meter → Meter) :
    (scene.updateMeter (some index) update).meters[place]? =
      if index = place then scene.meters[place]?.map update else scene.meters[place]? := by
  change (scene.meters.modify index update)[place]? = _
  rw [List.getElem?_modify]
  by_cases same : index = place
  · simp [same]
  · simp [same]

namespace Metered

variable {place depth : Nat} {first second third : Scene}

theorem of_same (meters : second.meters = first.meters)
    (grown : ∀ kind : RequestKind, kind.recorded first.stats ≤ kind.recorded second.stats) :
    Metered place depth first second := by
  intro old found
  exact ⟨old, meters ▸ found, fun kind => .of_recorded (grown kind)⟩

theorem trans (left : Metered place depth first second) (right : Metered place depth second third) :
    Metered place depth first third := by
  intro old found
  obtain ⟨between, kept, follows⟩ := left old found
  obtain ⟨new, last, followsOn⟩ := right between kept
  exact ⟨new, last, fun kind => (follows kind).trans (followsOn kind)⟩

theorem closed (place depth : Nat) : Scene.Closed (Metered place depth) where
  refl _ := of_same rfl fun _ => Nat.le_refl _
  trans := trans
  answer request scene := of_same rfl fun kind => recorded_answer_le kind request scene

theorem log (event : Event) (scene : Scene) : Metered place depth scene (scene.log event) :=
  of_same rfl fun _ => Nat.le_refl _

theorem updateMeter_other {meter : Option Nat} (other : meter ≠ some place)
    (update : Meter → Meter) (scene : Scene) :
    Metered place depth scene (scene.updateMeter meter update) := by
  cases meter with
  | none => exact of_same rfl fun _ => Nat.le_refl _
  | some index =>
      have apart : index ≠ place := fun same => other (congrArg some same)
      intro old found
      refine ⟨old, ?_, fun kind => .of_recorded (Nat.le_refl _)⟩
      rw [getElem?_updateMeter, if_neg apart, found]

theorem enclose (ran : Metered place depth first second) (update : Meter → Meter)
    (within : ∀ (kind : RequestKind) meter, kind.metered (update meter) ≤
      kind.metered meter + (kind.recorded second.stats - kind.recorded first.stats)) :
    Metered place (depth + 1) first (second.updateMeter (some place) update) := by
  intro old found
  obtain ⟨new, last, follows⟩ := ran old found
  refine ⟨update new, ?_, fun kind => (follows kind).enclose (within kind new)⟩
  rw [getElem?_updateMeter, if_pos rfl, last]
  rfl

theorem fail {point : EnforcementPoint} (counted : point.meter = some place)
    (ran : Metered place depth first second) (name : String) (error : Error) :
    Metered place (depth + 1) first (point.fail name error second) := by
  unfold EnforcementPoint.fail
  rw [counted]
  apply (ran.trans (log (.failed name error) second)).enclose
  intro kind meter
  rw [kind.metered_recordError]
  exact Nat.le_add_right _ _

theorem succeed {point : EnforcementPoint} (counted : point.meter = some place)
    (ran : Metered place depth first second) (bias : Bias) (name : String) (outcome : Outcome) :
    Metered place (depth + 1) first (point.succeed bias name outcome first.stats second) := by
  unfold EnforcementPoint.succeed
  rw [counted]
  apply (ran.trans (log (.evaluated name outcome.decision bias outcome.own.isNotApplicable)
    second)).enclose
  intro kind meter
  have told := kind.metered_recordEvaluation_le meter outcome.own outcome.decision 0.0
    (second.stats.since first.stats)
  rw [kind.recorded_since] at told
  exact told

theorem enforce {point : EnforcementPoint} (counted : point.meter = some place)
    {evaluate : Evaluation Scene} (evaluated : ∀ scene, Metered place depth scene (evaluate scene).2)
    (bias : Option Bias) (name : String) (scene : Scene) :
    Metered place (depth + 1) scene (point.enforce bias name evaluate scene).2 := by
  have closed := closed place depth
  have opened := closed.open_section scene name
  have inside := evaluated (scene.write name).indent
  unfold EnforcementPoint.enforce
  cases result : evaluate (scene.write name).indent with
  | mk outcome after =>
      rw [result] at inside
      have through := opened.trans inside
      cases outcome with
      | ok own =>
          have shut := closed.close_section after (own.withBias (point.biasFor bias))
          exact (through.trans shut).succeed counted _ name _
      | error error => exact (through.trans (closed.unindent after)).fail counted name error

theorem closedUnder (place depth : Nat) :
    Scene.ClosedUnder (EnforcementPoint.Nests place depth) (Metered place depth) := by
  induction depth with
  | zero =>
      refine { closed place 0 with enforced := ?_ }
      intro point bias policy other evaluated scene
      exact (closed place 0).enforce log (updateMeter_other other) bias policy.name evaluated scene
  | succ depth ih =>
      refine { closed place (depth + 1) with enforced := ?_ }
      intro point bias policy nests evaluated scene
      by_cases counted : point.meter = some place
      · have inside (scene : Scene) : Metered place depth scene (policy.evaluate scene).2 :=
          policy.evaluate_related ih (nests counted) scene
        exact enforce counted inside bias policy.name scene
      · exact (closed place (depth + 1)).enforce log (updateMeter_other counted) bias policy.name
          evaluated scene

end Metered

end Scene

/-! ### Services -/

namespace Service

def recorded (service : Service) (kind : RequestKind) : Nat :=
  (service.contexts.map fun context => kind.recorded context.stats).sum

private theorem sum_map_set {α : Type} (measure : α → Nat) {items : List α} {place : Nat}
    {old : α} (found : items[place]? = some old) (new : α) :
    ((items.set place new).map measure).sum + measure old =
      (items.map measure).sum + measure new := by
  induction items generalizing place with
  | nil => cases found
  | cons item rest ih =>
      cases place with
      | zero =>
          cases found
          simp only [List.set_cons_zero, List.map_cons, List.sum_cons]
          omega
      | succ place =>
          have later := ih found
          simp only [List.set_cons_succ, List.map_cons, List.sum_cons]
          omega

def Metered (place depth : Nat) (before after : Service) : Prop :=
  ∀ old, before.host.meters[place]? = some old → ∃ new, after.host.meters[place]? = some new ∧
    ∀ kind : RequestKind,
      Follows depth (kind.metered old) (before.recorded kind)
        (kind.metered new) (after.recorded kind)

theorem attend_metered {place depth : Nat} (service : Service) (room : Nat) {client : Procedure}
    (nests : client.EnforcesOnly (EnforcementPoint.Nests place depth)) :
    Metered place depth service (service.attend room client) := by
  unfold attend
  cases found : service.contexts[room]? with
  | none => exact fun old present => ⟨old, present, fun kind => .of_recorded (Nat.le_refl _)⟩
  | some context =>
      have ran := client.run_related (Scene.Metered.closedUnder place depth) nests
        (service.host.scene context)
      intro old present
      obtain ⟨new, last, follows⟩ := ran old present
      refine ⟨new, last, fun kind => ?_⟩
      obtain ⟨more, grown, bound⟩ := follows kind
      have all := sum_map_set (fun context => kind.recorded context.stats) found
        (client.run (service.host.scene context)).2.context
      refine ⟨more, ?_, bound⟩
      change kind.recorded (client.run (service.host.scene context)).2.context.stats =
        kind.recorded context.stats + more at grown
      unfold recorded
      dsimp only
      omega

theorem serve_metered {place depth : Nat} (service : Service) (clients : List (Nat × Procedure))
    (nests : ∀ client ∈ clients,
      client.2.EnforcesOnly (EnforcementPoint.Nests place depth)) :
    Metered place depth service (service.serve clients) := by
  induction clients generalizing service with
  | nil => exact fun old present => ⟨old, present, fun kind => .of_recorded (Nat.le_refl _)⟩
  | cons client clients ih =>
      have first := service.attend_metered client.1 (nests client List.mem_cons_self)
      have rest := ih (service.attend client.1 client.2) fun other within =>
        nests other (List.mem_cons_of_mem _ within)
      intro old present
      obtain ⟨between, kept, follows⟩ := first old present
      obtain ⟨new, last, followsOn⟩ := rest between kept
      exact ⟨new, last, fun kind => (follows kind).trans (followsOn kind)⟩

/-- However the clients of a meter share contexts, fail and catch failures: where at most so many counted
enforcements stand inside each other, what is metered is at most so many times what the contexts have
recorded. -/
theorem metered_le_recorded {place depth : Nat} {service : Service} {old : Meter}
    (present : service.host.meters[place]? = some old) (clients : List (Nat × Procedure))
    (nests : ∀ client ∈ clients,
      client.2.EnforcesOnly (EnforcementPoint.Nests place depth)) :
    ∃ new, (service.serve clients).host.meters[place]? = some new ∧ ∀ kind : RequestKind,
      service.recorded kind ≤ (service.serve clients).recorded kind ∧
      kind.metered new ≤ kind.metered old +
        depth * ((service.serve clients).recorded kind - service.recorded kind) := by
  obtain ⟨new, last, follows⟩ := service.serve_metered clients nests old present
  refine ⟨new, last, fun kind => ?_⟩
  obtain ⟨more, grown, bound⟩ := follows kind
  rw [grown, Nat.add_sub_cancel_left]
  exact ⟨Nat.le_add_right _ _, bound⟩

end Service

/-! ### Enforcements inside each other -/

namespace Scene

@[simp]
theorem stats_write (scene : Scene) (message : String) :
    (scene.write message).stats = scene.stats := by
  obtain ⟨host, context⟩ := scene
  cases context <;> rfl

@[simp]
theorem stats_indent (scene : Scene) : scene.indent.stats = scene.stats := by
  obtain ⟨host, context⟩ := scene
  cases context <;> rfl

@[simp]
theorem stats_unindent (scene : Scene) : scene.unindent.stats = scene.stats := by
  obtain ⟨host, context⟩ := scene
  cases context <;> rfl

@[simp]
theorem stats_log (scene : Scene) (event : Event) : (scene.log event).stats = scene.stats := rfl

@[simp]
theorem stats_updateMeter (scene : Scene) (meter : Option Nat) (update : Meter → Meter) :
    (scene.updateMeter meter update).stats = scene.stats := by
  cases meter <;> rfl

end Scene

def Scene.Shows (place : Nat) (stats : ResolutionStats) (meter : Meter) (scene : Scene) : Prop :=
  scene.stats = stats ∧ scene.meters[place]? = some meter

/-- A counted enforcement that succeeds meters exactly what has been recorded since its beginning. -/
theorem EnforcementPoint.enforce_shows {point : EnforcementPoint} {place : Nat}
    (counted : point.meter = some place) {evaluate : Evaluation Scene} {name : String}
    {scene after : Scene} {own : Decision}
    (evaluated : evaluate (scene.write name).indent = (.ok own, after)) {stats : ResolutionStats}
    {old : Meter} (shown : after.Shows place stats old) (bias : Option Bias) :
    ∃ decision last new, point.enforce bias name evaluate scene = (.ok ⟨own, decision⟩, last) ∧
      last.Shows place stats new ∧ ∀ kind : RequestKind,
        kind.counter new = kind.counter old +
          UInt64.ofNat (kind.recorded stats - kind.recorded scene.stats) := by
  obtain ⟨same, present⟩ := shown
  let decision := own.withBias (point.biasFor bias)
  let closed := (after.write (resultLine decision)).unindent
  let new := old.recordEvaluation own decision 0.0 (closed.stats.since scene.stats)
  have enforced : point.enforce bias name evaluate scene = (.ok ⟨own, decision⟩,
      point.succeed (point.biasFor bias) name ⟨own, decision⟩ scene.stats closed) := by
    unfold EnforcementPoint.enforce
    rw [evaluated]
  refine ⟨decision, _, new, enforced, ⟨?_, ?_⟩, fun kind => ?_⟩
  · simp [EnforcementPoint.succeed, closed, same]
  · unfold EnforcementPoint.succeed
    rw [counted, Scene.getElem?_updateMeter, if_pos rfl]
    exact congrArg (Option.map _) present
  · rw [kind.counter_recordEvaluation, kind.recorded_since]
    simp [closed, same]

/-- Leaves its decision to another policy, which is enforced by a point. -/
def Policy.delegating (name : String) (point : EnforcementPoint) (policy : Policy) : Policy :=
  .rule name (.enforce point none policy .done)

/-- The counts of one enforcement are metered twice if it stands in another one. -/
theorem EnforcementPoint.enforce_delegating {point : EnforcementPoint} {place : Nat}
    (counted : point.meter = some place) {policy : Policy} {name : String} {scene after : Scene}
    {own : Decision} (evaluated :
      policy.evaluate (((scene.write name).indent.write policy.name).indent) = (.ok own, after))
    {stats : ResolutionStats} {old : Meter} (shown : after.Shows place stats old) :
    ∃ outcome last new,
      point.enforcePolicy none (.delegating name point policy) scene = (.ok outcome, last) ∧
      last.Shows place stats new ∧ ∀ kind : RequestKind,
        kind.counter new = kind.counter old +
          UInt64.ofNat (kind.recorded stats - kind.recorded scene.stats) +
          UInt64.ofNat (kind.recorded stats - kind.recorded scene.stats) := by
  obtain ⟨decision, between, kept, inner, shownInside, metered⟩ :=
    enforce_shows counted evaluated shown none
  have body : (Policy.delegating name point policy).evaluate (scene.write name).indent =
      (.ok decision, between) := by
    simp only [Policy.delegating, Policy.evaluate, Procedure.run, inner]
    rfl
  obtain ⟨outermost, last, new, outer, shownOutside, meteredAgain⟩ :=
    enforce_shows counted body shownInside none
  refine ⟨_, last, new, outer, shownOutside, fun kind => ?_⟩
  rw [meteredAgain, metered, Scene.stats_indent, Scene.stats_write]

namespace Service

private def metering : EnforcementPoint := { bias := .deny, meter := some 0 }

private def adult : Policy := .rule "adult" (.ask (.resolve "age") fun _ => .done (.ok .permit))

private def guardian : Policy := .delegating "guardian" metering adult

private def enforcing (policy : Policy) : Procedure := .enforce metering none policy .done

private def office : Service where
  host := { meters := [{ service := "engine" }] }
  contexts := [.resolution (.new [{ name := "age", provide := .done (.ok .unit) }]), .foreign ""]

private theorem adult_nests (depth : Nat) :
    adult.EnforcesOnly (EnforcementPoint.Nests 0 depth) :=
  .rule _ _ (.ask _ _ fun _ => .done _)

private theorem enforcing_nests {policy : Policy} {depth : Nat}
    (inside : policy.EnforcesOnly (EnforcementPoint.Nests 0 depth))
    (own : policy.EnforcesOnly (EnforcementPoint.Nests 0 (depth + 1))) :
    (enforcing policy).EnforcesOnly (EnforcementPoint.Nests 0 (depth + 1)) :=
  .enforce _ _ _ _ (fun _ => inside) own fun _ => .done _

/-- The second client asks for what the first one has, and the third one fails. -/
theorem metered_le_recorded_guardian :
    let later := office.serve [(0, enforcing guardian), (0, enforcing adult), (1, enforcing adult)]
    ∃ new, later.host.meters[0]? = some new ∧
      RequestKind.miss.metered new ≤ 2 * later.recorded .miss := by
  intro later
  have guardian_nests (depth : Nat) :
      guardian.EnforcesOnly (EnforcementPoint.Nests 0 (depth + 1)) :=
    .rule _ _ (enforcing_nests (adult_nests depth) (adult_nests (depth + 1)))
  have nests : ∀ client ∈ [(0, enforcing guardian), (0, enforcing adult), (1, enforcing adult)],
      client.2.EnforcesOnly (EnforcementPoint.Nests 0 2) := by
    intro client member
    simp only [List.mem_cons, List.not_mem_nil, or_false] at member
    rcases member with rfl | rfl | rfl
    · exact enforcing_nests (guardian_nests 0) (guardian_nests 1)
    · exact enforcing_nests (adult_nests 1) (adult_nests 2)
    · exact enforcing_nests (adult_nests 1) (adult_nests 2)
  have present : office.host.meters[0]? = some { service := "engine" } := rfl
  obtain ⟨new, last, bounds⟩ := metered_le_recorded present _ nests
  have bound := (bounds .miss).2
  refine ⟨new, last, ?_⟩
  have silent : RequestKind.miss.metered { service := "engine" } = 0 := rfl
  rw [silent, Nat.zero_add] at bound
  exact bound

/-- A guardian has one request recorded and two metered. -/
theorem not_metered_le_recorded :
    ¬∀ (service : Service) (clients : List (Nat × Procedure)) (old new : Meter),
      service.host.meters[0]? = some old →
      (service.serve clients).host.meters[0]? = some new → ∀ kind : RequestKind,
      kind.metered new ≤ kind.metered old +
        ((service.serve clients).recorded kind - service.recorded kind) := by
  intro law
  let scene : Scene :=
    office.host.scene (.resolution (.new [{ name := "age", provide := .done (.ok .unit) }]))
  let inner : Scene := ((scene.write "guardian").indent.write "adult").indent
  have evaluated : adult.evaluate inner = (.ok .permit, (inner.answer (.resolve "age")).2) := rfl
  have counted : metering.meter = some 0 := rfl
  have shown : (inner.answer (.resolve "age")).2.Shows 0 { cacheMisses := 1 }
      { service := "engine" } := ⟨by decide +kernel, rfl⟩
  obtain ⟨outcome, last, new, enforced, ⟨stats, present⟩, metered⟩ :=
    EnforcementPoint.enforce_delegating counted evaluated shown
  have ran : ((enforcing guardian).run scene).2 = last := by
    change (metering.enforcePolicy none guardian scene).2 = last
    exact congrArg Prod.snd enforced
  have served : office.serve [(0, enforcing guardian)] =
      { host := last.toHost, contexts := [last.context, .foreign ""] } := by
    rw [← ran]
    rfl
  have twice : RequestKind.miss.metered new = 2 := congrArg UInt64.toNat (metered .miss)
  have once : (office.serve [(0, enforcing guardian)]).recorded .miss = 1 := by
    rw [served]
    change last.stats.cacheMisses + 0 = 1
    rw [stats]
  have bound := law office [(0, enforcing guardian)] { service := "engine" } new rfl
    (by rw [served]; exact present) .miss
  rw [twice, once] at bound
  exact absurd bound (by decide)

end Service

end AccessPolicy
