/-
Points that each ask for one key and pass its failure on. The keys in flight then follow one from the
other, until one is in flight already. The keys from its first occurrence on are the loop that has been
entered; the keys that have led to it are not on it. With nothing in the cache no point comes to a value,
so every request ends in this way.
-/

import AccessPolicy.Proofs.Engine.Waiting
import Mathlib.Data.List.Iterate
import Mathlib.Dynamics.PeriodicPts.Defs

namespace AccessPolicy

/-! ### Programs -/

namespace Program

/-- Asks for no more keys, and comes to one of the outcomes. -/
inductive Rests (outcomes : Except Error Value → Prop) : Program Value → Prop
  | done (outcome : Except Error Value) (ends : outcomes outcome) : Rests outcomes (.done outcome)
  | aside (request : Request) (isAside : request.Aside) (next : request.Answer → Program Value)
      (goes : ∀ answer, Rests outcomes (next answer)) : Rests outcomes (.ask request next)

/-- Asks for the key and for no other one, and if this fails, ends in the failure. -/
inductive Relays (key : String) : Program Value → Prop
  | ask (next : Except Error Value → Program Value)
      (passes : ∀ error, (next (.error error)).Rests fun outcome => outcome = .error error)
      (goes : ∀ value, (next (.ok value)).Rests fun _ => True) :
      Relays key (.ask (.resolve key) next)
  | aside (request : Request) (isAside : request.Aside) (next : request.Answer → Program Value)
      (goes : ∀ answer, Relays key (next answer)) : Relays key (.ask request next)

variable {σ : Type} {program : Program Value}

theorem Rests.mono {outcomes wider : Except Error Value → Prop} (rests : program.Rests outcomes)
    (wide : ∀ outcome, outcomes outcome → wider outcome) : program.Rests wider := by
  induction rests with
  | done outcome ends => exact .done outcome (wide outcome ends)
  | aside request isAside next goes ih => exact .aside request isAside next ih

theorem Rests.run_fst {outcomes : Except Error Value → Prop} (rests : program.Rests outcomes)
    (answer : (request : Request) → σ → request.Answer × σ) (state : σ) :
    outcomes (program.run answer state).1 := by
  induction rests generalizing state with
  | done outcome ends => exact ends
  | aside request isAside next goes ih => exact ih _ (answer request state).2

theorem Relays.run_fst {key : String} (relays : program.Relays key)
    (answer : (request : Request) → σ → request.Answer × σ) (kept : σ → Prop)
    (asides : ∀ request : Request, request.Aside → ∀ state, kept state →
      kept (answer request state).2)
    (state : σ) (start : kept state) :
    ∃ later, kept later ∧ ∀ error, (answer (.resolve key) later).1 = .error error →
      (program.run answer state).1 = .error error := by
  induction relays generalizing state with
  | ask next passes goes =>
      refine ⟨state, start, fun error failed => ?_⟩
      unfold run
      dsimp only
      rw [failed]
      exact (passes error).run_fst answer _
  | aside request isAside next goes ih =>
      exact ih _ (answer request state).2 (asides request isAside state start)

end Program

/-- Each registered point asks for one registered key and passes its failure on. -/
structure Relaying (points : List InformationPoint) (next : String → String) : Prop where
  relays : ∀ name point, registered? points name = some point →
    point.provide.Relays (next name)
  registered : ∀ name, (registered? points name).isSome → (registered? points (next name)).isSome

/-! ### Loops -/

/-- The first key on a loop, when one goes on from `start`. -/
def Enters (next : String → String) (start entry : String) : Prop :=
  ∃ tail, entry = next^[tail] start ∧ entry ∈ Function.periodicPts next ∧
    ∀ n < tail, next^[n] start ∉ Function.periodicPts next

theorem cyclePath_append {before others : List String} {name : String} (fresh : name ∉ before) :
    cyclePath (before ++ name :: others) name = name :: others ++ [name] := by
  unfold cyclePath
  rw [List.dropWhile_append_of_pos, List.dropWhile_cons_of_neg (by simp)]
  intro key member
  exact decide_eq_true fun same => fresh (same ▸ member)

section

variable {next : String → String} {start : String} {tail n : Nat}

theorem iterate_injective (distinct : (List.iterate next start n).Nodup) {first second : Nat}
    (left : first < n) (right : second < n) (same : next^[first] start = next^[second] start) :
    first = second := by
  have leftBound : first < (List.iterate next start n).length := by rwa [List.length_iterate]
  have rightBound : second < (List.iterate next start n).length := by rwa [List.length_iterate]
  have items : (List.iterate next start n)[first] = (List.iterate next start n)[second] := by
    rw [List.getElem_iterate, List.getElem_iterate]
    exact same
  exact distinct.getElem_inj_iff.mp items

/-- Where the first repetition leads back to, all keys from there on are the loop. -/
theorem minimalPeriod_of_repetition (distinct : (List.iterate next start n).Nodup)
    (before : tail < n) (again : next^[n] start = next^[tail] start) :
    Function.minimalPeriod next (next^[tail] start) = n - tail := by
  have back : Function.IsPeriodicPt next (n - tail) (next^[tail] start) := by
    change next^[n - tail] (next^[tail] start) = next^[tail] start
    rw [← Function.iterate_add_apply, Nat.sub_add_cancel before.le, again]
  have positive := back.minimalPeriod_pos (Nat.sub_pos_of_lt before)
  refine Nat.le_antisymm (back.minimalPeriod_le (Nat.sub_pos_of_lt before)) ?_
  by_contra shorter
  have early : next^[Function.minimalPeriod next (next^[tail] start) + tail] start =
      next^[tail] start := by
    rw [Function.iterate_add_apply, Function.iterate_minimalPeriod]
  have equal := iterate_injective distinct (by omega) before early
  omega

theorem enters_of_repetition (distinct : (List.iterate next start n).Nodup) (before : tail < n)
    (again : next^[n] start = next^[tail] start) : Enters next start (next^[tail] start) := by
  have period := minimalPeriod_of_repetition distinct before again
  have positive : 0 < Function.minimalPeriod next (next^[tail] start) := by omega
  refine ⟨tail, rfl, Function.minimalPeriod_pos_iff_mem_periodicPts.mp positive, ?_⟩
  intro early earlier periodic
  -- A key of the tail that were on a loop would be on this one, and repeat too early.
  have onward : next^[tail - early] (next^[early] start) = next^[tail] start := by
    rw [← Function.iterate_add_apply, Nat.sub_add_cancel earlier.le]
  have same := Function.minimalPeriod_apply_iterate periodic (tail - early)
  rw [onward, period] at same
  have repeated : next^[n - tail + early] start = next^[early] start := by
    rw [Function.iterate_add_apply, same, Function.iterate_minimalPeriod]
  have equal := iterate_injective distinct (by omega) (by omega) repeated
  omega

theorem cyclePath_of_repetition (distinct : (List.iterate next start n).Nodup) (before : tail < n)
    (again : next^[n] start = next^[tail] start) :
    cyclePath (List.iterate next start n) (next^[n] start) =
      List.iterate next (next^[tail] start)
        (Function.minimalPeriod next (next^[tail] start) + 1) := by
  have fresh : next^[tail] start ∉ List.iterate next start tail := by
    intro member
    obtain ⟨early, earlier, same⟩ := List.mem_iterate.mp member
    have equal := iterate_injective distinct before (by omega) same
    omega
  obtain ⟨rest, rfl⟩ := Nat.exists_eq_add_of_lt before
  have period : Function.minimalPeriod next (next^[tail] start) = rest + 1 :=
    (minimalPeriod_of_repetition distinct before again).trans (by omega)
  have around : next^[rest + 1] (next^[tail] start) = next^[tail] start := by
    rw [← period, Function.iterate_minimalPeriod]
  have split : List.iterate next start (tail + rest + 1) = List.iterate next start tail ++
      next^[tail] start :: List.iterate next (next (next^[tail] start)) rest := by
    rw [Nat.add_assoc, List.iterate_add]
    rfl
  have closed : List.iterate next (next^[tail] start) (rest + 1 + 1) =
      List.iterate next (next^[tail] start) (rest + 1) ++ [next^[tail] start] := by
    rw [List.iterate_add next _ (rest + 1) 1, around]
    rfl
  rw [period, closed, again, split, cyclePath_append fresh]
  rfl

theorem loop_of_repetition (distinct : (List.iterate next start n).Nodup)
    (again : next^[n] start ∈ List.iterate next start n) :
    ∃ entry, Enters next start entry ∧
      cyclePath (List.iterate next start n) (next^[n] start) =
        List.iterate next entry (Function.minimalPeriod next entry + 1) := by
  obtain ⟨tail, before, same⟩ := List.mem_iterate.mp again
  exact ⟨next^[tail] start, enters_of_repetition distinct before same,
    cyclePath_of_repetition distinct before same⟩

theorem eq_iterate_of_isChain {others : List String}
    (chain : (start :: others).IsChain fun key other => other = next key) :
    start :: others = List.iterate next start (others.length + 1) := by
  induction others generalizing start with
  | nil => rfl
  | cons other others ih =>
      obtain ⟨same, rest⟩ := List.isChain_cons_cons.mp chain
      subst same
      exact congrArg (start :: ·) (ih rest)

theorem loop_of_isChain {others : List String} {name : String}
    (chain : (start :: others ++ [name]).IsChain fun key other => other = next key)
    (distinct : (start :: others).Nodup) (member : name ∈ start :: others) :
    ∃ entry, Enters next start entry ∧
      cyclePath (start :: others) name =
        List.iterate next entry (Function.minimalPeriod next entry + 1) := by
  have keys := eq_iterate_of_isChain chain.left_of_append
  have last : name = next^[others.length + 1] start := by
    have onward : start :: (others ++ [name]) =
        List.iterate next start ((others ++ [name]).length + 1) := eq_iterate_of_isChain chain
    have longer : (others ++ [name]).length = others.length + 1 := List.length_append
    rw [longer, List.iterate_add next start (others.length + 1) 1] at onward
    have whole : start :: others ++ [name] = List.iterate next start (others.length + 1) ++
        [next^[others.length + 1] start] := onward
    exact (List.cons.inj (List.append_inj' whole rfl).2).1
  rw [last, keys] at member ⊢
  rw [keys] at distinct
  exact loop_of_repetition distinct member

end

/-! ### Requests -/

namespace Relaying

variable {points : List InformationPoint} {next : String → String} {inFlight : List String}
  {name : String}

/-- The request for the next key fails, and this is what the request for the key comes to. -/
theorem resolve_next (relaying : Relaying points next) (fresh : name ∉ inFlight)
    (known : (registered? points name).isSome) (store : Store)
    (empty : store.memory.cache = {}) :
    ∃ later : Store, later.memory.cache = {} ∧
      ∀ error, (resolve points (inFlight ++ [name]) (next name) later).1 = .error error →
        (resolve points inFlight name store).1 = .error error := by
  obtain ⟨point, found⟩ := Option.isSome_iff_exists.mp known
  have uncached : store.find? name = none := by
    unfold Store.find?
    rw [empty]
    rfl
  have asides : ∀ request : Request, request.Aside → ∀ store : Store,
      store.memory.cache = {} →
      (Store.answer (resolve points (inFlight ++ [name])) request store).2.memory.cache = {} := by
    intro request aside store empty
    rw [(Store.answer_aside _ request aside store).1]
    exact empty
  obtain ⟨later, still, fails⟩ := (relaying.relays name point found).run_fst
    (Store.answer (resolve points (inFlight ++ [name])))
    (fun store => store.memory.cache = {}) asides
    (store.log (.resolving name (inFlight.length + 1))) empty
  refine ⟨later, still, fun error failed => ?_⟩
  have outcome : (produce points inFlight name point store).1 = .error error := fails error failed
  rw [resolve_of_registered uncached fresh found, Store.settle_fst, outcome]

/-- From a key that is reached after `n` others the requests go on until a key is repeated. -/
theorem resolve_repeats (relaying : Relaying points next) (start : String) (n : Nat)
    (store : Store) (distinct : (List.iterate next start n).Nodup)
    (known : (registered? points (next^[n] start)).isSome)
    (empty : store.memory.cache = {}) :
    ∃ m, (List.iterate next start m).Nodup ∧ next^[m] start ∈ List.iterate next start m ∧
      (resolve points (List.iterate next start n) (next^[n] start) store).1 =
        .error (.cyclicDependencies (cyclePath (List.iterate next start m) (next^[m] start))) := by
  by_cases member : next^[n] start ∈ List.iterate next start n
  · have uncached : store.find? (next^[n] start) = none := by
      unfold Store.find?
      rw [empty]
      rfl
    refine ⟨n, distinct, member, ?_⟩
    rw [resolve_of_inFlight uncached member]
  · have onward : List.iterate next start (n + 1) =
        List.iterate next start n ++ [next^[n] start] := List.iterate_add next start n 1
    have further : next^[n + 1] start = next (next^[n] start) :=
      Function.iterate_succ_apply' next n start
    obtain ⟨later, still, fails⟩ := relaying.resolve_next member known store empty
    have more : (List.iterate next start (n + 1)).Nodup := by
      rw [onward]
      exact List.nodup_append_comm.mpr (List.nodup_cons.mpr ⟨member, distinct⟩)
    have ahead : (registered? points (next^[n + 1] start)).isSome := by
      rw [further]
      exact relaying.registered _ known
    obtain ⟨m, unrepeated, again, failed⟩ :=
      relaying.resolve_repeats start (n + 1) later more ahead still
    rw [onward, further] at failed
    exact ⟨m, unrepeated, again, fails _ failed⟩
termination_by pending points (List.iterate next start n)
decreasing_by
  obtain ⟨point, found⟩ := Option.isSome_iff_exists.mp known
  rw [List.iterate_add next start n 1]
  exact pending_lt found member

/-- A request that no other one waits for fails with the loop that is entered from its key. -/
theorem resolve_loop (relaying : Relaying points next) (known : (registered? points name).isSome)
    (store : Store) (empty : store.memory.cache = {}) :
    ∃ entry, Enters next name entry ∧
      (resolve points [] name store).1 =
        .error (.cyclicDependencies
          (List.iterate next entry (Function.minimalPeriod next entry + 1))) := by
  obtain ⟨n, distinct, again, failed⟩ :=
    relaying.resolve_repeats name 0 store List.nodup_nil known empty
  obtain ⟨entry, enters, path⟩ := loop_of_repetition distinct again
  rw [path] at failed
  exact ⟨entry, enters, failed⟩

end Relaying

/-! ### Histories -/

/-- What can come of a request: a failure, or also a value if some have been in the cache from the
start. -/
def Context.Allows (start : Context) (outcome : Except Error Value) : Prop :=
  start.memory.cache = {} → ∃ error, outcome = .error error

theorem Context.Allows.of_error (start : Context) (error : Error) :
    start.Allows (.error error) := fun _ => ⟨error, rfl⟩

def Focus.Relayed (start : Context) (next : String → String) : Focus → Prop
  | .provide name program => program.Relays (next name) ∨ program.Rests start.Allows
  | .leave _ outcome => start.Allows outcome
  | .answer outcome => start.Allows outcome
  | _ => True

/-- A point that waits has made its only request. -/
def Frame.Relayed (start : Context) : Frame → Prop
  | .point _ onward => ∀ outcome, start.Allows outcome → (onward outcome).Rests start.Allows
  | _ => True

theorem Frame.relayed_of_keyless (start : Context) {frames : List Frame}
    (keyless : frames.filterMap Frame.key? = []) : ∀ frame ∈ frames, frame.Relayed start := by
  intro frame member
  cases frame with
  | point name onward => cases List.filterMap_eq_nil_iff.mp keyless _ member
  | _ => trivial

theorem Focus.Relayed.ask {start : Context} {next : String → String} {name key : String}
    {onward : Except Error Value → Program Value}
    (relayed : (Focus.provide name (.ask (.resolve key) onward)).Relayed start next) :
    key = next name ∧ (Frame.point name onward).Relayed start := by
  rcases relayed with relays | rests
  · cases relays with
    | ask _ passes goes =>
        refine ⟨rfl, fun outcome allowed => ?_⟩
        cases outcome with
        | error error =>
            exact (passes error).mono fun outcome same => same ▸ .of_error start error
        | ok value =>
            refine (goes value).mono fun outcome _ empty => ?_
            obtain ⟨error, impossible⟩ := allowed empty
            cases impossible
    | aside _ isAside => exact absurd rfl (isAside key)
  · cases rests with
    | aside _ isAside => exact absurd rfl (isAside key)

structure Context.Relayed (start : Context) (next : String → String) (focus : Focus)
    (frames : List Frame) (now : Context) : Prop where
  empty : start.memory.cache = {} → now.memory.cache = {}
  focus : focus.Relayed start next
  frames : ∀ frame ∈ frames, frame.Relayed start

theorem Context.Relayed.move {start : Context} {next : String → String} {machine : Machine}
    {focus : Focus} {rest : List Frame} {now after : Context} {earlier : List Machine}
    (relaying : Relaying now.points next) (lined : Lined earlier machine.focus machine.frames)
    (relayed : start.Relayed next machine.focus machine.frames now)
    (moved : Move machine.focus machine.frames now focus rest after) :
    start.Relayed next focus rest after := by
  obtain ⟨empty, focused, framed⟩ := relayed
  obtain ⟨place, frames, scene⟩ := machine
  dsimp only at lined focused framed moved
  cases moved with
  | @hit name value _ _ cached report =>
      refine ⟨empty, fun bare => ?_, framed⟩
      rw [empty bare] at cached
      cases cached
  | cyclic uncached member => exact ⟨empty, .of_error start _, framed⟩
  | enter uncached fresh => exact ⟨empty, trivial, framed⟩
  | missing absent report => exact ⟨empty, .of_error start _, framed⟩
  | start found => exact ⟨empty, .inl (relaying.relays _ _ found), framed⟩
  | keep report =>
      rcases focused with relays | rests
      · cases relays
      · cases rests with
        | done _ allowed =>
            refine ⟨fun bare => ?_, allowed, framed⟩
            obtain ⟨error, impossible⟩ := allowed bare
            cases impossible
  | fail => exact ⟨empty, .of_error start _, framed⟩
  | ask => exact ⟨empty, trivial, List.forall_mem_cons.mpr ⟨focused.ask.2, framed⟩⟩
  | @aside name request isAside onward answer _ _ report =>
      refine ⟨empty, ?_, framed⟩
      rcases focused with relays | rests
      · cases relays with
        | ask _ _ _ => exact absurd rfl (isAside _)
        | aside _ _ _ goes => exact .inl (goes answer)
      · cases rests with
        | aside _ _ _ goes => exact .inr (goes answer)
  | leave => exact ⟨empty, focused, framed⟩
  | @resume answer name onward _ _ =>
      obtain ⟨top, below⟩ := List.forall_mem_cons.mp framed
      exact ⟨empty, .inr (top answer focused), below⟩
  | consult => exact ⟨empty, trivial, List.forall_mem_cons.mpr ⟨trivial, framed⟩⟩
  | told => exact ⟨empty, trivial, (List.forall_mem_cons.mp framed).2⟩
  | policy before after keys report =>
      refine ⟨empty, ?_, Frame.relayed_of_keyless start (keys.trans (lined.policies before))⟩
      cases focus <;> trivial

theorem Context.History.relayed {start : Context} {next : String → String}
    (idle : start.inFlight = []) (relaying : Relaying start.points next) {machine : Machine}
    {earlier : List Machine} (history : start.History machine earlier) {now : Context}
    (own : machine.scene.context = .resolution now) :
    start.Relayed next machine.focus machine.frames now := by
  refine history.invariant
    (motive := fun focus frames now _ => start.Relayed next focus frames now) ?_ ?_ ?_ own
  · intro client
    exact ⟨id, trivial, nofun⟩
  · intro machine earlier now focus frames after before own relayed moved
    rw [← ((before.stacked idle).of_context own).1] at relaying
    exact relayed.move relaying before.lined moved
  · intro result scene now client earlier relayed
    exact ⟨relayed.empty, trivial, nofun⟩

theorem Waits.eq_next {start : Context} {next : String → String} (idle : start.inFlight = [])
    (relaying : Relaying start.points next) {machine : Machine} {earlier : List Machine}
    (history : start.History machine earlier) {name key : String}
    (waits : Waits (machine :: earlier) name key) : key = next name := by
  obtain ⟨onward, frames, later, asking, before, passed, focused, _, _⟩ := waits
  have moment := history.of_passed passed
  obtain ⟨now, own⟩ := moment.exists_context
  have asked := (moment.relayed idle relaying own).focus
  rw [focused] at asked
  exact asked.ask.1

end AccessPolicy
