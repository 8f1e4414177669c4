/-
What holds of a context at every moment: which keys can be in flight and which in the cache, and what the
counts amount to. The parts hang together. A key enters the cache at the end of its own point, and that
point only runs for a key that is in flight and was not cached; so an insertion is always a new entry.

For one moment a key is both in flight and in the cache: its point has come to a value and its request is
not answered yet. No point and no policy runs at that moment.
-/

import AccessPolicy.Proofs.Engine.History

namespace AccessPolicy

/-! ### Registered points -/

theorem registered?_eq_some_iff {points : List InformationPoint} {name : String}
    {point : InformationPoint} :
    registered? points name = some point ↔
      ∃ before after, points = before ++ point :: after ∧ point.name = name ∧
        ∀ other ∈ after, other.name ≠ name := by
  unfold registered?
  rw [List.find?_eq_some_iff_append]
  constructor
  · rintro ⟨named, after, before, reversed, others⟩
    refine ⟨before.reverse, after.reverse, ?_, of_decide_eq_true named, ?_⟩
    · have shape := congrArg List.reverse reversed
      simpa [List.append_assoc] using shape
    · intro other member same
      have differs := others other (List.mem_reverse.mp member)
      simp [same] at differs
  · rintro ⟨before, after, shape, named, others⟩
    refine ⟨decide_eq_true named, after.reverse, before.reverse, ?_, ?_⟩
    · rw [shape]
      simp
    · intro other member
      have differs := others other (List.mem_reverse.mp member)
      simp [differs]

theorem registered?_isSome_iff {points : List InformationPoint} {name : String} :
    (registered? points name).isSome ↔ name ∈ points.map InformationPoint.name := by
  unfold registered?
  rw [List.find?_isSome, List.mem_map]
  constructor
  · rintro ⟨point, member, named⟩
    exact ⟨point, List.mem_reverse.mp member, of_decide_eq_true named⟩
  · rintro ⟨point, member, named⟩
    exact ⟨point, List.mem_reverse.mpr member, decide_eq_true named⟩

theorem registered?_append_isSome {first second : List InformationPoint} {name : String} :
    (registered? (first ++ second) name).isSome ↔
      (registered? first name).isSome ∨ (registered? second name).isSome := by
  rw [registered?_isSome_iff, registered?_isSome_iff, registered?_isSome_iff, List.map_append,
    List.mem_append]

/-! ### Caches -/

namespace Cache

variable {left right : Cache} {name : String}

theorem holds_of_union (held : (left.union right).Holds name) :
    left.Holds name ∨ right.Holds name := by
  have member := holds_iff_mem.mp held
  unfold names union at member
  rw [List.map_append] at member
  rcases List.mem_append.mp member with inRight | kept
  · exact Or.inr (holds_iff_mem.mpr inRight)
  · obtain ⟨entry, present, same⟩ := List.mem_map.mp kept
    exact Or.inl (holds_iff_mem.mpr
      (List.mem_map.mpr ⟨entry, (List.mem_filter.mp present).1, same⟩))

theorem union_distinct (leftDistinct : left.names.Nodup) (rightDistinct : right.names.Nodup) :
    (left.union right).names.Nodup := by
  unfold names union
  rw [List.map_append]
  refine List.nodup_append.mpr ⟨rightDistinct, ?_, ?_⟩
  · exact leftDistinct.sublist (List.filter_sublist.map Prod.fst)
  · intro key inRight other kept same
    obtain ⟨entry, present, named⟩ := List.mem_map.mp kept
    have absent := (List.mem_filter.mp present).2
    obtain ⟨value, found⟩ := holds_iff_mem.mpr inRight
    rw [named, ← same, found] at absent
    cases absent

end Cache

/-! ### Contexts -/

/-- Whatever is in the cache is registered, and there once. -/
structure Context.Whole (context : Context) : Prop where
  registered : ∀ name, context.memory.cache.Holds name →
    (registered? context.points name).isSome
  distinct : context.memory.cache.names.Nodup

namespace Context.Whole

theorem new (points : List InformationPoint) : (Context.new points).Whole where
  registered name held := by
    obtain ⟨value, found⟩ := held
    cases found
  distinct := List.nodup_nil

theorem merge {left right : Context} (leftWhole : left.Whole) (rightWhole : right.Whole) :
    (left.merge right).Whole where
  registered name held := by
    refine registered?_append_isSome.mpr ?_
    rcases Cache.holds_of_union held with inLeft | inRight
    · exact Or.inl (leftWhole.registered name inLeft)
    · exact Or.inr (rightWhole.registered name inRight)
  distinct := Cache.union_distinct leftWhole.distinct rightWhole.distinct

theorem keep {context : Context} (whole : context.Whole) {name : String}
    (uncached : context.memory.cache.find? name = none)
    (registered : (registered? context.points name).isSome) (report : Report) (value : Value) :
    (context.keep report name value).Whole where
  registered key held := by
    rcases (Cache.holds_insert uncached value key).mp held with same | already
    · rwa [same]
    · exact whole.registered key already
  distinct := by
    change (context.memory.cache.insert name value).names.Nodup
    rw [Cache.names_insert uncached]
    refine List.nodup_cons.mpr ⟨fun member => ?_, whole.distinct⟩
    exact Cache.not_holds_iff.mpr uncached (Cache.holds_iff_mem.mpr member)

theorem cachedLen_le {context : Context} (whole : context.Whole) :
    context.cachedLen ≤ context.registeredLen := by
  have bound : context.memory.cache.names.length ≤ context.registeredLen :=
    Context.length_le_registeredLen whole.distinct fun name member =>
      whole.registered name (Cache.holds_iff_mem.mpr member)
  rwa [Cache.names, List.length_map] at bound

end Context.Whole

/-! ### Moments -/

/-- The key whose value has just been kept and whose request is not answered yet. -/
def Focus.kept? : Focus → Option String
  | .leave name (.ok _) => some name
  | _ => none

theorem Focus.kept?_of_decides {focus : Focus} (decides : focus.decides = true) :
    focus.kept? = none := by
  cases focus <;> first | rfl | cases decides

def successes (focus : Focus) (earlier : List Machine) : Nat :=
  (chronicle focus earlier).countP Occurrence.succeeds

theorem successes_cons (focus : Focus) (machine : Machine) (earlier : List Machine) :
    successes focus (machine :: earlier) =
      successes machine.focus earlier +
        (Occurrence.between machine.focus focus).toList.countP Occurrence.succeeds :=
  List.countP_append

structure Context.Sound (start : Context) (focus : Focus) (now : Context)
    (earlier : List Machine) : Prop extends now.Whole where
  absent : ∀ name ∈ now.inFlight, focus.kept? ≠ some name → now.memory.cache.find? name = none
  held : ∀ name value, focus = .leave name (.ok value) →
    now.memory.cache.find? name = some value
  size : now.cachedLen = start.cachedLen + now.memory.stats.cacheMisses
  answered : now.memory.stats.answered = successes focus earlier + focus.kept?.toList.length

namespace Context.Sound

variable {start now : Context} {earlier : List Machine} {frames : List Frame} {scene : Scene}

theorem of_quiet {focus next : Focus} (sound : start.Sound focus now earlier)
    (before : focus.kept? = none) (after : next.kept? = none)
    (nothing : (Occurrence.between focus next).toList.countP Occurrence.succeeds = 0)
    (report : Report) :
    start.Sound next (now.reported report) (⟨focus, frames, scene⟩ :: earlier) where
  registered := sound.registered
  distinct := sound.distinct
  absent name member _ := sound.absent name member (by rw [before]; exact nofun)
  held name value same := by
    rw [same] at after
    cases after
  size := sound.size
  answered := by
    have counted := sound.answered
    rw [before] at counted
    rw [successes_cons, nothing, after]
    exact counted

theorem hit {name : String} {value : Value} (sound : start.Sound (.request name) now earlier)
    (report : Report) :
    start.Sound (.answer (.ok value)) (now.hit report)
      (⟨.request name, frames, scene⟩ :: earlier) where
  registered := sound.registered
  distinct := sound.distinct
  absent key member _ := sound.absent key member nofun
  held _ _ impossible := nomatch impossible
  size := sound.size
  answered := by
    have counted : now.memory.stats.cacheHits + now.memory.stats.cacheMisses =
        successes (.request name) earlier := sound.answered
    rw [successes_cons]
    change now.memory.stats.cacheHits + 1 + now.memory.stats.cacheMisses =
      successes (.request name) earlier + 1
    omega

theorem enter {name : String} (sound : start.Sound (.request name) now earlier)
    (uncached : now.memory.cache.find? name = none) :
    start.Sound (.lookUp name) (now.enter name) (⟨.request name, frames, scene⟩ :: earlier) where
  registered := sound.registered
  distinct := sound.distinct
  absent key member _ := by
    rcases List.mem_append.mp member with earlier | last
    · exact sound.absent key earlier nofun
    · rw [List.mem_singleton.mp last]
      exact uncached
  held _ _ impossible := nomatch impossible
  size := sound.size
  answered := by
    rw [successes_cons]
    exact sound.answered

theorem keep {name : String} {value : Value}
    (sound : start.Sound (.provide name (.done (.ok value))) now earlier)
    (flying : name ∈ now.inFlight) (known : (registered? now.points name).isSome)
    (report : Report) :
    start.Sound (.leave name (.ok value)) (now.keep report name value)
      (⟨.provide name (.done (.ok value)), frames, scene⟩ :: earlier) := by
  have uncached := sound.absent name flying nofun
  refine { sound.toWhole.keep uncached known report value with
    absent := ?_, held := ?_, size := ?_, answered := ?_ }
  · intro key member another
    change (now.memory.cache.insert name value).find? key = none
    rw [Cache.find?_insert uncached, if_neg fun same => another (congrArg some same.symm)]
    exact sound.absent key member nofun
  · intro key held same
    cases same
    change (now.memory.cache.insert name value).find? name = some value
    rw [Cache.find?_insert uncached, if_pos rfl]
  · have counted : now.memory.cache.entries.length =
        start.cachedLen + now.memory.stats.cacheMisses := sound.size
    change (now.memory.cache.insert name value).entries.length =
      start.cachedLen + (now.memory.stats.cacheMisses + 1)
    rw [Cache.entries_insert uncached, List.length_cons]
    omega
  · have counted : now.memory.stats.cacheHits + now.memory.stats.cacheMisses =
        successes (.provide name (.done (.ok value))) earlier := sound.answered
    rw [successes_cons]
    change now.memory.stats.cacheHits + (now.memory.stats.cacheMisses + 1) =
      successes (.provide name (.done (.ok value))) earlier + 0 + 1
    omega

theorem leave {name : String} {answer : Except Error Value}
    (sound : start.Sound (.leave name answer) now earlier) (distinct : now.inFlight.Nodup)
    (last : now.inFlight.getLast? = some name) :
    start.Sound (.answer answer) now.exit (⟨.leave name answer, frames, scene⟩ :: earlier) where
  registered := sound.registered
  distinct := sound.distinct
  absent key member _ := by
    obtain ⟨outer, shape⟩ := List.getLast?_eq_some_iff.mp last
    change key ∈ now.inFlight.dropLast at member
    rw [shape, List.dropLast_concat] at member
    rw [shape] at distinct
    have other : name ≠ key := by
      intro same
      rw [same] at distinct
      exact (List.nodup_append.mp distinct).2.2 key member key (List.mem_singleton_self key) rfl
    refine sound.absent key (by rw [shape]; exact List.mem_append_left _ member) ?_
    cases answer with
    | ok value => exact fun same => other (Option.some.inj same)
    | error error => exact nofun
  held _ _ impossible := nomatch impossible
  size := sound.size
  answered := by
    have counted := sound.answered
    rw [successes_cons]
    cases answer with
    | ok value => exact counted
    | error error => exact counted

theorem move {machine : Machine} {focus : Focus} {rest : List Frame} {after : Context}
    (stacked : Machine.Stacked start machine) (own : machine.scene.context = .resolution now)
    (sound : start.Sound machine.focus now earlier)
    (moved : Move machine.focus machine.frames now focus rest after) :
    start.Sound focus after (machine :: earlier) := by
  have stack := stacked.of_context own
  have distinct : now.inFlight.Nodup := stack.2 ▸ stacked.distinct
  obtain ⟨place, frames, scene⟩ := machine
  dsimp only at own sound moved stack
  cases moved with
  | hit cached report => exact sound.hit report
  | cyclic uncached member => exact sound.of_quiet rfl rfl rfl now.memory.report
  | enter uncached fresh => exact sound.enter uncached
  | missing absent report => exact sound.of_quiet rfl rfl rfl report
  | start found => exact sound.of_quiet rfl rfl rfl now.memory.report
  | @keep name value _ _ report =>
      have flying : name ∈ now.inFlight := by
        rw [stack.2]
        exact List.mem_append_right _ (List.mem_singleton_self name)
      have known := stacked.registered name
        (List.mem_append_right _ (List.mem_singleton_self name))
      rw [← stack.1] at known
      exact sound.keep flying known report
  | fail => exact sound.of_quiet rfl rfl rfl now.memory.report
  | ask => exact sound.of_quiet rfl rfl rfl now.memory.report
  | aside isAside answer report => exact sound.of_quiet rfl rfl rfl report
  | @leave name answer =>
      have last : now.inFlight.getLast? = some name := by
        rw [stack.2]
        exact List.getLast?_concat
      exact sound.leave distinct last
  | resume => exact sound.of_quiet rfl rfl rfl now.memory.report
  | consult => exact sound.of_quiet rfl rfl rfl now.memory.report
  | told => exact sound.of_quiet rfl rfl rfl now.memory.report
  | policy before after keys report =>
      have nothing : Occurrence.between place focus = none :=
        Occurrence.between_of_decides before
      refine sound.of_quiet (Focus.kept?_of_decides before) (Focus.kept?_of_decides after) ?_ report
      rw [nothing]
      rfl

end Context.Sound

namespace Context

theorem History.sound {start : Context} (idle : start.inFlight = []) (whole : start.Whole)
    (uncounted : start.memory.stats = {}) {machine : Machine} {earlier : List Machine}
    (history : start.History machine earlier) {now : Context}
    (own : machine.scene.context = .resolution now) : start.Sound machine.focus now earlier := by
  refine history.invariant (motive := fun focus _ now earlier => start.Sound focus now earlier)
    ?_ ?_ ?_ own
  · intro client
    refine { whole with absent := ?_, held := nofun, size := ?_, answered := ?_ }
    · intro name member
      rw [idle] at member
      cases member
    · rw [uncounted]
      rfl
    · rw [uncounted]
      rfl
  · intro machine earlier now focus frames after before own sound moved
    exact sound.move (before.stacked idle) own moved
  · intro result scene now client earlier sound
    exact sound.of_quiet rfl rfl rfl now.memory.report

theorem Created.whole {context : Context} (created : context.Created) : context.Whole := by
  induction created with
  | new points => exact .new points
  | @merge first second left right leftCreated leftReached rightCreated rightReached ihLeft ihRight =>
      have reached {start context : Context} (created : start.Created) (whole : start.Whole)
          (comes : start.ComesTo context) : context.Whole := by
        obtain ⟨machine, earlier, history, own⟩ := comes
        exact (history.sound created.idle whole created.stats_eq own).toWhole
      exact (reached leftCreated ihLeft leftReached).merge (reached rightCreated ihRight rightReached)

theorem Created.sound {start now : Context} (created : start.Created) {machine : Machine}
    {earlier : List Machine} (history : start.History machine earlier)
    (own : machine.scene.context = .resolution now) : start.Sound machine.focus now earlier :=
  history.sound created.idle created.whole created.stats_eq own

/-- The keys in flight and the cached ones are kept apart, both are registered under the last point of
their name, and the counts tell the entries and the answered requests. -/
theorem Created.representation {start : Context} (created : start.Created) {machine : Machine}
    {earlier : List Machine} (history : start.History machine earlier) :
    ∃ now, machine.scene.context = .resolution now ∧
      now.inFlight.Nodup ∧
      (∀ name ∈ now.memory.cache.names, (registered? now.points name).isSome) ∧
      now.cachedLen ≤ now.registeredLen ∧
      (∀ name point, registered? now.points name = some point ↔
        ∃ before after, now.points = before ++ point :: after ∧ point.name = name ∧
          ∀ other ∈ after, other.name ≠ name) ∧
      now.cachedLen = start.cachedLen + now.memory.stats.cacheMisses ∧
      (machine.focus.kept? = none →
        (∀ name ∈ now.inFlight, name ∉ now.memory.cache.names) ∧
        now.memory.stats.cacheHits + now.memory.stats.cacheMisses =
          successes machine.focus earlier) := by
  obtain ⟨now, own⟩ := history.exists_context
  have sound := created.sound history own
  refine ⟨now, own, history.inFlight_distinct created.idle own, ?_, sound.toWhole.cachedLen_le, ?_,
    sound.size, ?_⟩
  · intro name member
    exact sound.registered name (Cache.holds_iff_mem.mpr member)
  · intro name point
    exact registered?_eq_some_iff
  · intro settled
    constructor
    · intro name flying cached
      have absent := sound.absent name flying (by rw [settled]; exact nofun)
      exact Cache.not_holds_iff.mpr absent (Cache.holds_iff_mem.mpr cached)
    · have counted := sound.answered
      rw [settled] at counted
      exact counted

/-- Two keys ask for each other; one goes on after the cycle, with a third one. -/
private def crossed : List InformationPoint :=
  [{ name := "base", provide := .askAll [] .unit },
    { name := "left", provide := .askAll ["base", "right"] .unit },
    { name := "right", provide := (Program.resolve "left").orElse (.resolve "base") }]

/-- The key `base` is cached on one side; on the other the point of `left` is running. -/
private def joined : Context :=
  ((Context.new crossed).resolve "base" {}).2.1.merge ((Context.new crossed).enter "left")

private theorem joined_created : joined.Created := by
  refine .merge (.new crossed) ⟨_, _, (History.begin (.asking ["base"]) {}).after 7, ?_⟩
    (.new crossed) ⟨_, _, (History.begin (.asking ["left"]) {}).after 3, ?_⟩
  · with_unfolding_all rfl
  · rfl

private def later : Machine := (joined.asked ["left"]).after 18

/-- The point of `left` is running again, and has got two of its three answers from the cache. -/
theorem representation_joined :
    joined.Created ∧ later.focus.provides? = some "left" ∧
      ∃ now, later.scene.context = .resolution now ∧ now.inFlight = ["left"] ∧
        "left" ∉ now.memory.cache.names ∧ now.cachedLen = 1 + now.memory.stats.cacheMisses ∧
        now.memory.stats.cacheHits + now.memory.stats.cacheMisses = 3 := by
  have history : joined.History later ((joined.asked ["left"]).passed [] 18) :=
    (History.begin (.asking ["left"]) {}).after 18
  obtain ⟨now, own, distinct, registered, bound, last, size, settled⟩ :=
    joined_created.representation history
  have stack : (later.scene.stack.map Prod.snd) = some ["left"] := by decide +kernel
  rw [Scene.stack_of_context own] at stack
  have flying : now.inFlight = ["left"] := Option.some.inj stack
  obtain ⟨apart, counted⟩ := settled (by decide +kernel)
  have cached : joined.cachedLen = 1 := by decide +kernel
  have answers : successes later.focus ((joined.asked ["left"]).passed [] 18) = 3 := by decide +kernel
  refine ⟨joined_created, by decide +kernel, now, own, flying, apart "left" (by simp [flying]), ?_, ?_⟩
  · rw [size, cached]
  · rw [counted, answers]

end Context

end AccessPolicy
