/-
Requests at a kind. A key is resolved by its name alone and the value that it comes to is looked at afterwards,
so what a request does to its context is the same for all kinds, and a value of another kind is kept and counted
like any other. The failure that tells of it is raised by the reading; a point may also have failed with such an
error of its own making, which is passed on.
-/

import AccessPolicy.Proofs.Engine.Failures
import AccessPolicy.Proofs.Engine.Stack

namespace AccessPolicy

/-! ### Reading -/

namespace Key

variable {kind : Kind} (key : Key kind)

def mismatch : Error := .attributeType key.name kind.typeName

theorem make_of_ne {name : String} (named : name ≠ "") :
    Key.make name = .ok (⟨name⟩ : Key kind) := by
  have filled : name.isEmpty = false := by simpa using named
  simp [make, checkName, filled, Except.map]

theorem read_error (error : Error) : key.read (.error error) = .error error := rfl

theorem read_eq_ok_iff {answer : Except Error Value} {datum : kind.Datum} :
    key.read answer = .ok datum ↔ answer = .ok ⟨kind, datum⟩ := by
  cases answer with
  | error error => simp [read_error]
  | ok value =>
      rw [Except.ok.injEq, ← Value.as?_eq_some_iff]
      cases found : value.as? kind with
      | none => simp [read, found]
      | some other => simp [read, found]

theorem read_eq_mismatch_iff {answer : Except Error Value} :
    key.read answer = .error key.mismatch ↔
      (∃ value, answer = .ok value ∧ value.kind ≠ kind) ∨ answer = .error key.mismatch := by
  cases answer with
  | error error => simp [read_error]
  | ok value =>
      by_cases same : value.kind = kind
      · subst same
        have told : read key (.ok value) = .ok value.datum := key.read_eq_ok_iff.mpr rfl
        simp [told]
      · have told : key.read (.ok value) = .error key.mismatch := key.read_of_other same
        simp [told, same]

end Key

/-! ### Requests on their way -/

namespace Machine

variable {kind : Kind} (key : Key kind) (frames : List Frame) (scene : Scene)

/-- A point that asks at a kind goes on where a request for the name has left its scene. -/
theorem provide_get_leads (caller : String) (next : Except Error kind.Datum → Program Value) :
    Leads ⟨.provide caller ((Program.get key).handle next), frames, scene⟩
      ⟨.provide caller (next (key.read (scene.answer (.resolve key.name)).1)), frames,
        (scene.answer (.resolve key.name)).2⟩ := by
  let resume (answer : Except Error Value) : Program Value := next (key.read answer)
  have answered := request_leads_scene key.name scene (.point caller resume :: frames)
  apply Leads.step rfl
  apply answered.trans
  exact .step rfl (.refl _)

theorem decide_get_leads (next : Except Error kind.Datum → Procedure) :
    Leads ⟨.decide (.after (Program.get key) next), frames, scene⟩
      ⟨.decide (next (key.read (scene.answer (.resolve key.name)).1)), frames,
        (scene.answer (.resolve key.name)).2⟩ := by
  let resume (answer : Except Error Value) : Procedure := next (key.read answer)
  have answered := request_leads_scene key.name scene (.rule resume :: frames)
  apply Leads.step rfl
  apply answered.trans
  exact .step rfl (.refl _)

end Machine

/-! ### Requests in a context -/

/-- A request that comes to a value has found it in the cache, or its point has come to it. -/
theorem resolve_ok_inv {points : List InformationPoint} {inFlight : List String} {name : String}
    {store : Store} {value : Value}
    (resolved : (resolve points inFlight name store).1 = .ok value) :
    (store.find? name = some value ∧ (resolve points inFlight name store).2 = store.hit name) ∨
    ∃ point inside, store.find? name = none ∧ registered? points name = some point ∧
      produce points inFlight name point store = (.ok value, inside) ∧
      (resolve points inFlight name store).2 = inside.keep name value := by
  cases cached : store.find? name with
  | some found =>
      rw [resolve_of_cached cached] at resolved ⊢
      cases resolved
      exact .inl ⟨rfl, rfl⟩
  | none =>
      right
      by_cases member : name ∈ inFlight
      · rw [resolve_of_inFlight cached member] at resolved
        cases resolved
      · cases found : registered? points name with
        | none =>
            rw [resolve_of_missing cached member found] at resolved
            cases resolved
        | some point =>
            rw [resolve_of_registered cached member found] at resolved ⊢
            cases produced : produce points inFlight name point store with
            | mk outcome inside =>
                rw [produced] at resolved
                cases outcome with
                | error error => cases resolved
                | ok own =>
                    cases resolved
                    exact ⟨point, inside, rfl, rfl, produced, rfl⟩

namespace Context

/-- A request that has come to a value has been counted once itself: as a hit, or as a miss on top of what its
point has left of the counts. -/
def CountedOnce (context : Context) (name : String) (journal : Journal) : Prop :=
  let after := (context.resolve name journal).2.1.memory.stats
  ((context.memory.cache.find? name).isSome ∧
    after = { context.memory.stats with cacheHits := context.memory.stats.cacheHits + 1 }) ∨
  ∃ point inside, context.memory.cache.find? name = none ∧
    registered? context.points name = some point ∧
    (produce context.points context.inFlight name point (context.store journal)).2 = inside ∧
    after = { inside.memory.stats with cacheMisses := inside.memory.stats.cacheMisses + 1 }

variable {context : Context} {journal : Journal} {name : String} {value : Value}

theorem resolve_of_held (held : context.memory.cache.find? name = some value) (journal : Journal) :
    context.resolve name journal =
      context.withStore (fun store => (.ok value, store.hit name)) journal := by
  have cached : (context.store journal).find? name = some value := held
  have same : AccessPolicy.resolve context.points context.inFlight name (context.store journal) =
      (.ok value, (context.store journal).hit name) := resolve_of_cached cached
  unfold resolve withStore
  exact congrArg (fun result : Except Error Value × Store =>
    (result.1, { context with memory := result.2.memory }, result.2.journal)) same

theorem counted_of_resolved (resolved : (context.resolve name journal).1 = .ok value) :
    context.CountedOnce name journal ∧
      (context.resolve name journal).2.1.memory.cache.find? name = some value := by
  have memory : (context.resolve name journal).2.1.memory =
      (AccessPolicy.resolve context.points context.inFlight name (context.store journal)).2.memory :=
    rfl
  unfold CountedOnce
  rw [memory]
  have came : (AccessPolicy.resolve context.points context.inFlight name
    (context.store journal)).1 = .ok value := resolved
  rcases resolve_ok_inv came with ⟨cached, left⟩ | ⟨point, inside, uncached, found, ran, left⟩
  · rw [left]
    exact ⟨.inl ⟨Option.isSome_of_eq_some cached, rfl⟩, cached⟩
  · rw [left]
    exact ⟨.inr ⟨point, inside, uncached, found, by rw [ran], rfl⟩, List.lookup_cons_self⟩

/-- A request at a kind does to its context what the request for the name does, whatever the kind, and tells
what this one tells but for a value of another kind: for a client, for a point or a rule that goes on with it,
and no matter which keys are in flight. A value of any kind is counted once and kept, and from then on a request at
its own kind is answered from the cache. -/
theorem getValue_typed (context : Context) (host : Host) {name : String} (named : name ≠ "") :
    let resolved := context.resolve name host.journal
    let left : Scene := { host with journal := resolved.2.2, context := .resolution resolved.2.1 }
    (∀ kind : Kind, ∃ key : Key kind, Key.make name = .ok key ∧
      let got := context.getValue key host.journal
      got.2 = resolved.2 ∧
      (∀ datum, got.1 = .ok datum ↔ resolved.1 = .ok ⟨kind, datum⟩) ∧
      (got.1 = .error (.attributeType name kind.typeName) ↔
        (∃ value, resolved.1 = .ok value ∧ value.kind ≠ kind) ∨
          resolved.1 = .error (.attributeType name kind.typeName)) ∧
      (∀ error, resolved.1 = .error error → got.1 = .error error) ∧
      (∀ caller next frames, Machine.Leads
        ⟨.provide caller ((Program.get key).handle next), frames, host.scene (.resolution context)⟩
        ⟨.provide caller (next got.1), frames, left⟩) ∧
      ∀ next frames, Machine.Leads
        ⟨.decide (.after (Program.get key) next), frames, host.scene (.resolution context)⟩
        ⟨.decide (next got.1), frames, left⟩) ∧
    ∀ value, resolved.1 = .ok value →
      context.CountedOnce name host.journal ∧
      ∀ now, resolved.2.1.Reaches now → now.memory.cache.find? name = some value ∧
        ∀ key : Key value.kind, Key.make name = .ok key → ∀ journal, now.getValue key journal =
          now.withStore (fun store => (.ok value.datum, store.hit name)) journal := by
  intro resolved left
  constructor
  · intro kind
    let key : Key kind := ⟨name⟩
    refine ⟨key, Key.make_of_ne named, rfl, ?_, ?_, ?_, ?_, ?_⟩
    · intro datum
      exact key.read_eq_ok_iff
    · exact key.read_eq_mismatch_iff
    · intro error failed
      change key.read resolved.1 = _
      rw [failed, key.read_error]
    · intro caller next frames
      exact Machine.provide_get_leads key frames (host.scene (.resolution context)) caller next
    · intro next frames
      exact Machine.decide_get_leads key frames (host.scene (.resolution context)) next
  · intro value came
    obtain ⟨counted, kept⟩ := counted_of_resolved came
    refine ⟨counted, fun now reached => ?_⟩
    have held := reached.find?_eq kept
    refine ⟨held, fun key made journal => ?_⟩
    rw [Key.make_of_ne named] at made
    cases made
    unfold getValue
    rw [resolve_of_held held journal]
    have read : Key.read (⟨name⟩ : Key value.kind) (.ok value) = .ok value.datum :=
      Key.read_eq_ok_iff _ |>.mpr rfl
    unfold withStore
    dsimp only
    rw [read]

/-- One point asks another one for a number, is told that there is none, and goes on. -/
private def careless : List InformationPoint :=
  [{ name := "age", provide := .done (.ok .unit) },
    { name := "adult",
      provide := (Program.get (⟨"age"⟩ : Key .int64)).handle fun outcome =>
        .done (.ok (.bool outcome.isOk)) }]

private theorem careless_resolved :
    let resolved := (new careless).resolve "adult" {}
    resolved.1 = .ok (.bool false) ∧ resolved.2.1.memory.stats.cacheMisses = 2 ∧
      resolved.2.1.memory.cache.find? "age" = some .unit := by
  let scene := Host.scene {} (.resolution (new careless))
  let start := Task.start (.resolve "adult") scene
  obtain ⟨n, reached⟩ := Task.leads (.resolve "adult") scene
  have ends : (start.after n).step = none := by
    rw [reached]
    rfl
  have last := Machine.eq_of_halted ends (rfl : (start.after 12).step = none)
  rw [reached] at last
  have answered := Focus.answer.inj (congrArg Machine.focus last)
  have context := EvaluationContext.resolution.inj
    (congrArg (fun machine : Machine => machine.scene.context) last)
  refine ⟨answered, ?_, ?_⟩
  · exact congrArg (fun context : Context => context.memory.stats.cacheMisses) context
  · exact congrArg (fun context : Context => context.memory.cache.find? "age") context

theorem getValue_typed_careless :
    "adult" ≠ "" ∧
      let resolved := (new careless).resolve "adult" {}
      let got := (new careless).getValue (⟨"adult"⟩ : Key .text) {}
      got.1 = .error (.attributeType "adult" "alloc::string::String") ∧ got.2 = resolved.2 ∧
      (new careless).CountedOnce "adult" {} ∧ got.2.1.memory.stats.cacheMisses = 2 ∧
      got.2.1.memory.cache.find? "age" = some .unit ∧
      (got.2.1.getValue (⟨"adult"⟩ : Key .bool) {}).1 = .ok false := by
  have named : "adult" ≠ "" := by decide
  obtain ⟨kinds, values⟩ := getValue_typed (new careless) {} named
  obtain ⟨came, misses, age⟩ := careless_resolved
  obtain ⟨key, made, same, _, mismatch, _⟩ := kinds .text
  rw [Key.make_of_ne named] at made
  cases made
  obtain ⟨counted, later⟩ := values _ came
  obtain ⟨_, cached⟩ := later _ .refl
  have again := cached ⟨"adult"⟩ (Key.make_of_ne named) {}
  refine ⟨named, mismatch.mpr (.inl ⟨_, came, by decide⟩), same, counted, ?_, ?_, ?_⟩
  · exact misses
  · exact age
  · exact congrArg Prod.fst again

/-- Fails as a reading of its own key at a kind does. -/
private def pretending : InformationPoint :=
  { name := "age", provide := .done (.error (.attributeType "age" Kind.int64.typeName)) }

/-- The failure of a point is passed on, also where it is the one that tells of a value of another kind. -/
theorem not_mismatch_iff_other_kind :
    ¬∀ (points : List InformationPoint) (context : Context), (new points).Reaches context →
      ∀ (journal : Journal) (name : String) (kind : Kind) (key : Key kind),
        Key.make name = .ok key →
        ((context.getValue key journal).1 = .error (.attributeType name kind.typeName) ↔
          ∃ value, (context.resolve name journal).1 = .ok value ∧ value.kind ≠ kind) := by
  intro law
  let context := new [pretending]
  have uncached : (context.store {}).find? "age" = none := rfl
  have fresh : "age" ∉ context.inFlight := List.not_mem_nil
  have found : registered? context.points "age" = some pretending := rfl
  have failed : (context.resolve "age" {}).1 = .error (.attributeType "age" Kind.int64.typeName) := by
    change (AccessPolicy.resolve context.points context.inFlight "age" (context.store {})).1 = _
    rw [resolve_of_registered uncached fresh found]
    rfl
  have named : Key.make "age" = .ok (⟨"age"⟩ : Key .int64) := Key.make_of_ne (by decide)
  have got : (context.getValue (⟨"age"⟩ : Key .int64) {}).1 =
      .error (.attributeType "age" Kind.int64.typeName) := by
    change Key.read _ (context.resolve "age" {}).1 = _
    rw [failed, Key.read_error]
  obtain ⟨value, resolved, -⟩ := (law [pretending] context .refl {} "age" .int64 _ named).mp got
  rw [failed] at resolved
  cases resolved

end Context

end AccessPolicy
