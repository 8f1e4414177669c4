/-
How often the point of a key runs in a context made anew. While it runs the key is in flight, so nobody
can start it again; when it has come to a value the key is in the cache for good, and the same value
answers all later requests. It is put there before the key is taken out of flight, so there is no moment
in between. Only after a failure is there nothing left of the run, and the point may be started again.
-/

import AccessPolicy.Proofs.Engine.Representation

namespace AccessPolicy

/-! ### Runs of a point -/

def runs (name : String) (occurrences : List Occurrence) : List Occurrence :=
  occurrences.filter fun occurrence => occurrence.run? = some name

def failedRuns (name : String) (failures : List Error) : List Occurrence :=
  failures.flatMap fun error => [.started name, .ended name (.error error)]

theorem runs_chronicle (name : String) (focus : Focus) (machine : Machine)
    (earlier : List Machine) :
    runs name (chronicle focus (machine :: earlier)) =
      runs name (chronicle machine.focus earlier) ++
        runs name (Occurrence.between machine.focus focus).toList :=
  List.filter_append _ _

theorem runs_of_quiet {name : String} {focus next : Focus}
    (nothing : (Occurrence.between focus next).bind Occurrence.run? ≠ some name) :
    runs name (Occurrence.between focus next).toList = [] := by
  refine List.filter_eq_nil_iff.mpr fun occurrence occurs => ?_
  rw [Option.mem_toList.mp occurs] at nothing
  exact fun same => nothing (of_decide_eq_true same)

theorem failedRuns_concat (name : String) (failures : List Error) (error : Error) :
    failedRuns name (failures ++ [error]) =
      failedRuns name failures ++ [.started name, .ended name (.error error)] := by
  unfold failedRuns
  rw [List.flatMap_append]
  rfl

/-- Whether the point of a key runs, at what the run is at or in what waits for it. -/
def Focus.Runs (focus : Focus) (frames : List Frame) (name : String) : Prop :=
  focus.provides? = some name ∨ name ∈ frames.filterMap Frame.key?

theorem Machine.mem_running {machine : Machine} {name : String} :
    name ∈ machine.running ↔ machine.focus.Runs machine.frames name := by
  unfold running waiting Focus.Runs
  rw [List.mem_append, List.mem_reverse, Option.mem_toList]
  exact Or.comm

theorem Focus.runs_point {focus : Focus} {key name : String} {frames : List Frame}
    {next : Except Error Value → Program Value} (elsewhere : focus.provides? = none) :
    focus.Runs (.point key next :: frames) name ↔
      key = name ∨ name ∈ frames.filterMap Frame.key? := by
  have keys : (Frame.point key next :: frames).filterMap Frame.key? =
      key :: frames.filterMap Frame.key? := List.filterMap_cons_some rfl
  unfold Focus.Runs
  rw [elsewhere, keys, List.mem_cons]
  exact (or_iff_right nofun).trans (or_congr_left eq_comm)

theorem Focus.runs_provide {key name : String} {program : Program Value} {frames : List Frame} :
    (Focus.provide key program).Runs frames name ↔
      key = name ∨ name ∈ frames.filterMap Frame.key? :=
  or_congr_left Option.some_inj

theorem Focus.runs_of_elsewhere {focus : Focus} {name : String} {frames : List Frame}
    (elsewhere : focus.provides? = none) :
    focus.Runs frames name ↔ name ∈ frames.filterMap Frame.key? := by
  unfold Focus.Runs
  rw [elsewhere]
  exact or_iff_right nofun

/-- What there has been of the point of a key since its last failure. -/
inductive LastRun (name : String) (focus : Focus) (frames : List Frame) (now : Context) :
    List Occurrence → Prop
  | none (uncached : now.memory.cache.find? name = none) (idle : ¬ focus.Runs frames name) :
      LastRun name focus frames now []
  | unfinished (uncached : now.memory.cache.find? name = none)
      (running : focus.Runs frames name) : LastRun name focus frames now [.started name]
  | finished {value : Value} (cached : now.memory.cache.find? name = some value)
      (idle : ¬ focus.Runs frames name) :
      LastRun name focus frames now [.started name, .ended name (.ok value)]

/-- The runs of the point of a key have all failed, but for the last one. -/
def Context.Produces (name : String) (focus : Focus) (frames : List Frame) (now : Context)
    (earlier : List Machine) : Prop :=
  ∃ failures last, runs name (chronicle focus earlier) = failedRuns name failures ++ last ∧
    LastRun name focus frames now last

/-! ### What a step does to the runs -/

namespace Context

/-- The request for a key that is not answered is the only one for it, and has kept nothing yet. -/
theorem History.apart {start now : Context} (created : start.Created) {machine : Machine}
    {earlier : List Machine} (history : start.History machine earlier)
    (own : machine.scene.context = .resolution now) {name : String}
    (focused : machine.focus.key? = some name) (unkept : machine.focus.kept? = none) :
    now.memory.cache.find? name = none ∧ name ∉ machine.frames.filterMap Frame.key? := by
  have stacked := history.stacked created.idle
  have sound := created.sound history own
  have stack := stacked.of_context own
  have distinct := stacked.distinct
  rw [focused] at stack distinct
  constructor
  · refine sound.absent name ?_ (by rw [unkept]; exact nofun)
    rw [stack.2]
    exact List.mem_append_right _ (List.mem_singleton_self name)
  · intro waits
    have member : name ∈ start.inFlight ++ machine.waiting :=
      List.mem_append_right _ (List.mem_reverse.mpr waits)
    exact (List.nodup_append.mp distinct).2.2 name member name (List.mem_singleton_self name) rfl

theorem History.keeps {start now after : Context} (created : start.Created) {machine : Machine}
    {earlier : List Machine} (history : start.History machine earlier)
    (own : machine.scene.context = .resolution now) {focus : Focus} {rest : List Frame}
    (moved : Move machine.focus machine.frames now focus rest after) {name : String}
    {value : Value} (cached : now.memory.cache.find? name = some value) :
    after.memory.cache.find? name = some value := by
  obtain ⟨place, frames, scene⟩ := machine
  dsimp only at own moved
  cases moved with
  | @keep key fresh _ _ report =>
      have uncached := (history.apart created own rfl rfl).1
      have other : name ≠ key := by
        intro same
        rw [← same, cached] at uncached
        cases uncached
      change (now.memory.cache.insert key fresh).find? name = some value
      rw [Cache.find?_insert uncached, if_neg other]
      exact cached
  | _ => exact cached

/-- A request is answered from the cache, or with what its point has just come to. -/
theorem answered_of_move {focus next : Focus} {frames rest : List Frame} {now after : Context}
    (moved : Move focus frames now next rest after) {name : String} {value : Value}
    (occurs : Occurrence.between focus next = some (.answered name (.ok value))) :
    now.memory.cache.find? name = some value ∨ focus = .leave name (.ok value) := by
  cases moved with
  | hit cached report =>
      cases occurs
      exact .inl cached
  | leave =>
      cases occurs
      exact .inr rfl
  | policy before after keys report =>
      rw [Occurrence.between_of_decides before] at occurs
      cases occurs
  | _ => cases occurs

namespace Produces

variable {name : String} {focus : Focus} {frames : List Frame} {scene : Scene} {now : Context}
  {earlier : List Machine}

theorem of_quiet (produces : Produces name focus frames now earlier) {next : Focus}
    {rest : List Frame} {after : Context}
    (nothing : (Occurrence.between focus next).bind Occurrence.run? ≠ some name)
    (cache : after.memory.cache.find? name = now.memory.cache.find? name)
    (same : next.Runs rest name ↔ focus.Runs frames name) :
    Produces name next rest after (⟨focus, frames, scene⟩ :: earlier) := by
  obtain ⟨failures, last, told, lastRun⟩ := produces
  refine ⟨failures, last, ?_, ?_⟩
  · rw [runs_chronicle, runs_of_quiet nothing, List.append_nil]
    exact told
  · cases lastRun with
    | none uncached idle => exact .none (cache.trans uncached) fun running => idle (same.mp running)
    | unfinished uncached running => exact .unfinished (cache.trans uncached) (same.mpr running)
    | finished cached idle =>
        exact .finished (cache.trans cached) fun running => idle (same.mp running)

theorem start {point : InformationPoint}
    (produces : Produces name (.lookUp name) frames now earlier)
    (uncached : now.memory.cache.find? name = none)
    (apart : name ∉ frames.filterMap Frame.key?) :
    Produces name (.provide name point.provide) frames now
      (⟨.lookUp name, frames, scene⟩ :: earlier) := by
  obtain ⟨failures, last, told, lastRun⟩ := produces
  cases lastRun with
  | none _ idle =>
      refine ⟨failures, [.started name], ?_, .unfinished uncached (.inl rfl)⟩
      rw [runs_chronicle, told, List.append_nil]
      simp [runs, Occurrence.between, Occurrence.run?]
  | unfinished _ running =>
      rcases running with elsewhere | waits
      · cases elsewhere
      · exact absurd waits apart
  | finished cached _ => cases uncached.symm.trans cached

/-- A point that ends has been started, and not ended since. -/
theorem open_run {program : Program Value}
    (produces : Produces name (.provide name program) frames now earlier)
    (uncached : now.memory.cache.find? name = none) :
    ∃ failures, runs name (chronicle (.provide name program) earlier) =
      failedRuns name failures ++ [.started name] := by
  obtain ⟨failures, last, told, lastRun⟩ := produces
  cases lastRun with
  | none _ idle => exact absurd (.inl rfl) idle
  | unfinished _ running => exact ⟨failures, told⟩
  | finished cached _ => cases uncached.symm.trans cached

theorem keep {value : Value}
    (produces : Produces name (.provide name (.done (.ok value))) frames now earlier)
    (uncached : now.memory.cache.find? name = none)
    (apart : name ∉ frames.filterMap Frame.key?) (report : Report) :
    Produces name (.leave name (.ok value)) frames (now.keep report name value)
      (⟨.provide name (.done (.ok value)), frames, scene⟩ :: earlier) := by
  obtain ⟨failures, told⟩ := produces.open_run uncached
  refine ⟨failures, [.started name, .ended name (.ok value)], ?_, .finished ?_ ?_⟩
  · rw [runs_chronicle, told, List.append_assoc]
    simp [runs, Occurrence.between, Occurrence.run?]
  · change (now.memory.cache.insert name value).find? name = some value
    rw [Cache.find?_insert uncached, if_pos rfl]
  · rwa [Focus.runs_of_elsewhere rfl]

theorem fail {error : Error}
    (produces : Produces name (.provide name (.done (.error error))) frames now earlier)
    (uncached : now.memory.cache.find? name = none)
    (apart : name ∉ frames.filterMap Frame.key?) :
    Produces name (.leave name (.error error)) frames now
      (⟨.provide name (.done (.error error)), frames, scene⟩ :: earlier) := by
  obtain ⟨failures, told⟩ := produces.open_run uncached
  refine ⟨failures ++ [error], [], ?_, .none uncached ?_⟩
  · rw [runs_chronicle, told, failedRuns_concat, List.append_assoc, List.append_nil]
    simp [runs, Occurrence.between, Occurrence.run?]
  · rwa [Focus.runs_of_elsewhere rfl]

theorem move {start : Context} (created : start.Created) {machine : Machine}
    (history : start.History machine earlier) (own : machine.scene.context = .resolution now)
    (produces : Produces name machine.focus machine.frames now earlier) {rest : List Frame}
    {after : Context} (moved : Move machine.focus machine.frames now focus rest after) :
    Produces name focus rest after (machine :: earlier) := by
  have alone {key : String} (focused : machine.focus.key? = some key)
      (unkept : machine.focus.kept? = none) := history.apart created own focused unkept
  obtain ⟨place, frames, scene⟩ := machine
  dsimp only at own produces moved alone
  cases moved with
  | hit cached report => exact produces.of_quiet nofun rfl Iff.rfl
  | cyclic uncached member => exact produces.of_quiet nofun rfl Iff.rfl
  | enter uncached fresh => exact produces.of_quiet nofun rfl Iff.rfl
  | missing absent report => exact produces.of_quiet nofun rfl Iff.rfl
  | @start key point _ _ found =>
      obtain ⟨uncached, apart⟩ := alone rfl rfl
      by_cases same : key = name
      · subst same
        exact produces.start uncached apart
      · refine produces.of_quiet (fun started => same (Option.some.inj started)) rfl ?_
        rw [Focus.runs_provide, Focus.runs_of_elsewhere rfl]
        exact or_iff_right same
  | @keep key value _ _ report =>
      obtain ⟨uncached, apart⟩ := alone rfl rfl
      by_cases same : key = name
      · subst same
        exact produces.keep uncached apart report
      · refine produces.of_quiet (fun ended => same (Option.some.inj ended)) ?_ ?_
        · change (now.memory.cache.insert key value).find? name = _
          rw [Cache.find?_insert uncached, if_neg fun other => same other.symm]
        · rw [Focus.runs_provide, Focus.runs_of_elsewhere rfl]
          exact (or_iff_right same).symm
  | @fail key error _ _ =>
      obtain ⟨uncached, apart⟩ := alone rfl rfl
      by_cases same : key = name
      · subst same
        exact produces.fail uncached apart
      · refine produces.of_quiet (fun ended => same (Option.some.inj ended)) rfl ?_
        rw [Focus.runs_provide, Focus.runs_of_elsewhere rfl]
        exact (or_iff_right same).symm
  | ask =>
      refine produces.of_quiet nofun rfl ?_
      rw [Focus.runs_point rfl, Focus.runs_provide]
  | aside isAside answer report => exact produces.of_quiet nofun rfl Iff.rfl
  | leave => exact produces.of_quiet nofun rfl Iff.rfl
  | resume =>
      refine produces.of_quiet nofun rfl ?_
      rw [Focus.runs_point rfl, Focus.runs_provide]
  | consult => exact produces.of_quiet nofun rfl Iff.rfl
  | told => exact produces.of_quiet nofun rfl Iff.rfl
  | policy onPolicy still keys report =>
      refine produces.of_quiet ?_ rfl ?_
      · rw [Occurrence.between_of_decides onPolicy]
        exact nofun
      · rw [Focus.runs_of_elsewhere (Focus.provides?_of_decides still),
          Focus.runs_of_elsewhere (Focus.provides?_of_decides onPolicy), keys]

end Produces

/-! ### Histories of a new context -/

variable {points : List InformationPoint} {machine : Machine} {earlier : List Machine}
  {now : Context}

theorem History.produces (history : (new points).History machine earlier)
    (own : machine.scene.context = .resolution now) (name : String) :
    Produces name machine.focus machine.frames now earlier := by
  refine history.invariant
    (motive := fun focus frames now earlier => Produces name focus frames now earlier) ?_ ?_ ?_ own
  · intro client
    refine ⟨[], [], rfl, .none rfl ?_⟩
    rw [Focus.runs_of_elsewhere rfl]
    exact nofun
  · intro machine earlier now focus frames after before own produces moved
    exact produces.move (.new points) before own moved
  · intro result scene now client earlier produces
    exact produces.of_quiet nofun rfl Iff.rfl

theorem History.answered_cached (history : (new points).History machine earlier)
    (own : machine.scene.context = .resolution now) (name : String) (value : Value) :
    .answered name (.ok value) ∈ chronicle machine.focus earlier →
      now.memory.cache.find? name = some value := by
  have created : (new points).Created := .new points
  refine history.invariant
    (motive := fun focus _ now earlier => .answered name (.ok value) ∈ chronicle focus earlier →
      now.memory.cache.find? name = some value) ?_ ?_ ?_ own
  · intro client answered
    cases answered
  · intro machine earlier now focus frames after before own cached moved answered
    rcases List.mem_append.mp answered with already | last
    · exact before.keeps created own moved (cached already)
    · refine before.keeps created own moved ?_
      rcases answered_of_move moved (Option.mem_toList.mp last) with found | leaving
      · exact found
      · exact (created.sound before own).held name value leaving
  · intro result scene now client earlier cached answered
    rcases List.mem_append.mp answered with already | last
    · exact cached already
    · cases last

/-- The runs of a point come one after the other; all but the last one have failed. A value that the
last one has come to answers every request. -/
theorem produced_once (points : List InformationPoint) {machine : Machine}
    {earlier : List Machine} (history : (new points).History machine earlier) (name : String) :
    ∃ failures last,
      runs name (chronicle machine.focus earlier) = failedRuns name failures ++ last ∧
      ((last = [] ∧ name ∉ machine.running) ∨
        (last = [.started name] ∧ name ∈ machine.running) ∨
        ∃ value, last = [.started name, .ended name (.ok value)] ∧ name ∉ machine.running) ∧
      ∀ value, .answered name (.ok value) ∈ chronicle machine.focus earlier →
        last = [.started name, .ended name (.ok value)] := by
  obtain ⟨now, own⟩ := history.exists_context
  obtain ⟨failures, last, told, lastRun⟩ := history.produces own name
  refine ⟨failures, last, told, ?_, ?_⟩
  · rw [Machine.mem_running]
    cases lastRun with
    | none uncached idle => exact .inl ⟨rfl, idle⟩
    | unfinished uncached running => exact .inr (.inl ⟨rfl, running⟩)
    | @finished value cached idle => exact .inr (.inr ⟨value, rfl, idle⟩)
  · intro value answered
    have found := history.answered_cached own name value answered
    cases lastRun with
    | none uncached idle => cases uncached.symm.trans found
    | unfinished uncached running => cases uncached.symm.trans found
    | finished held idle =>
        cases held.symm.trans found
        rfl

/-- One point fails the first time it runs, and another one asks for it again when it fails. -/
private def wavering : List InformationPoint :=
  [{ name := "flaky",
     provide := (Program.count "runs").bind fun n =>
       .done (if n = 1 then .error (.policy (.failure "busy")) else .ok .unit) },
    { name := "outer", provide := (Program.resolve "flaky").orElse (.resolve "flaky") }]

private def wavered : Machine := ((new wavering).asked ["outer", "flaky"]).after 24

private def waveredBefore : List Machine :=
  ((new wavering).asked ["outer", "flaky"]).passed [] 24

theorem produced_once_wavering :
    (new wavering).History wavered waveredBefore ∧
      runs "flaky" (chronicle wavered.focus waveredBefore) =
        failedRuns "flaky" [.policy (.failure "busy")] ++
          [.started "flaky", .ended "flaky" (.ok .unit)] ∧
      "flaky" ∉ wavered.running ∧
      ∀ value, .answered "flaky" (.ok value) ∈ chronicle wavered.focus waveredBefore →
        value = .unit := by
  have history : (new wavering).History wavered waveredBefore :=
    (History.begin (.asking ["outer", "flaky"]) {}).after 24
  obtain ⟨failures, last, told, state, answers⟩ := produced_once wavering history "flaky"
  have answered : .answered "flaky" (.ok .unit) ∈ chronicle wavered.focus waveredBefore := by
    have whole : chronicle wavered.focus waveredBefore =
        [.started "outer", .started "flaky", .ended "flaky" (.error (.policy (.failure "busy"))),
          .answered "flaky" (.error (.policy (.failure "busy"))), .started "flaky",
          .ended "flaky" (.ok .unit), .answered "flaky" (.ok .unit), .ended "outer" (.ok .unit),
          .answered "outer" (.ok .unit), .answered "flaky" (.ok .unit)] := by rfl
    simp [whole]
  have finished := answers .unit answered
  refine ⟨history, by rfl, ?_, ?_⟩
  · rcases state with ⟨empty, _⟩ | ⟨started, _⟩ | ⟨_, _, idle⟩
    · cases empty.symm.trans finished
    · cases started.symm.trans finished
    · exact idle
  · intro value again
    cases (answers value again).symm.trans finished
    rfl

end Context

end AccessPolicy
