/-
Success of resolution is acyclicity. On a new context a key whose requests are fixed is resolved exactly
if what can be reached from it is registered and on no cycle. All reachable keys are in the cache then,
each after one run of its point, and all other requests are hits. Values that are supplied for keys on
every reachable cycle leave none.
-/

import AccessPolicy.Proofs.Resolution.Reaches
import AccessPolicy.Proofs.Resolution.RequestGraph
import AccessPolicy.Proofs.Resolution.Simulation

namespace AccessPolicy

section

variable {points : List InformationPoint} {requests : String → List String}
variable {kinds : String → Option Kind} {inFlight : List String} {name key : String}

namespace Listed

/-! ### Counts -/

theorem answered_of_comes (listed : Listed points kinds requests)
    (comes : Comes points inFlight name) : (appraise points inFlight name).2.answered = 1 := by
  obtain ⟨fresh, point, found, _all, value, ran⟩ := listed.comes_inv comes
  rw [appraise_of_registered fresh found, ran]
  rfl

theorem requestsOf_eq_length (listed : Listed points kinds requests)
    (comes : Comes points [] name) : requestsOf points name = (requests name).length := by
  obtain ⟨_fresh, point, found, all, value, ran⟩ := listed.comes_inv comes
  unfold requestsOf
  rw [found]
  change (appraisePoint points [] name point).2.answered = _
  rw [ran, Effort.answered_total]
  have once : ∀ key ∈ requests name, (appraise points ([] ++ [name]) key).2.answered = 1 :=
    fun key member => listed.answered_of_comes (all key member)
  rw [List.map_congr_left once, List.map_const', List.sum_replicate_nat, Nat.mul_one]

theorem resolve_matches (listed : Listed points kinds requests) (name : String) (store : Store)
    (empty : store.memory.cache = {}) :
    Matches points (fun _ _ => True) store (resolve points [] name store)
      (appraise points [] name) := by
  refine (Discipline.of_forwarding listed.forwarding).resolve_matches [] name store ?_
    (fun _ member => nomatch member) trivial
  rw [empty]
  exact Cache.faithful_empty points _

/-- Each reachable key is in the cache after one run of its point; all other requests are hits. -/
theorem resolve_counts (listed : Listed points kinds requests) (comes : Comes points [] name)
    (journal : Journal) :
    let after := (resolve points [] name ((Context.new points).store journal)).2
    after.memory.cache.names.Nodup ∧
      (∀ key, after.Holds key ↔ Reachable points requests name key) ∧
      after.memory.stats.cacheMisses = after.memory.cache.names.length ∧
      after.memory.stats.cacheHits + after.memory.cache.names.length =
        1 + (after.memory.cache.names.map fun key => (requests key).length).sum := by
  intro after
  have matched := listed.resolve_matches name ((Context.new points).store journal) rfl
  have extended := resolve_extends points [] name ((Context.new points).store journal)
  have holds (key : String) : after.Holds key ↔ Reachable points requests name key := by
    rw [← listed.kept_iff_reachable comes key, matched.accounts.kept]
    exact or_iff_right fun held => Store.not_holds_iff.mpr rfl held
  have counted : after.memory.stats.cacheMisses + 0 = 0 + after.memory.cache.size :=
    extended.counted
  have answered : after.memory.stats.cacheHits + after.memory.stats.cacheMisses + 0 =
      0 + after.memory.cache.charge points + (appraise points [] name).2.answered :=
    matched.accounts.answered
  rw [listed.answered_of_comes comes] at answered
  -- Each cached key is charged for the list of its point.
  have charge : after.memory.cache.charge points =
      (after.memory.cache.names.map fun key => (requests key).length).sum := by
    refine congrArg List.sum (List.map_congr_left fun key member => ?_)
    have reachable := (holds key).mp (Cache.holds_iff_mem.mpr member)
    exact listed.requestsOf_eq_length (listed.comes_of_reachable comes reachable)
  have size : after.memory.cache.names.length = after.memory.cache.size := List.length_map _
  have misses : after.memory.stats.cacheMisses = after.memory.cache.names.length := by
    omega
  refine ⟨extended.distinct List.nodup_nil, holds, misses, ?_⟩
  rw [← charge]
  omega

end Listed

/-! ### Supplied values -/

def supply (supplied : List ((kind : Kind) × AttributeValue kind)) : List InformationPoint :=
  supplied.map fun bound => bound.2.point

/-- What is asked for once the points of the supplied values come last. -/
def requestsBeside (supplied : List ((kind : Kind) × AttributeValue kind))
    (requests : String → List String) (name : String) : List String :=
  if (registered? (supply supplied) name).isSome then [] else requests name

theorem registered?_append (first second : List InformationPoint) (name : String) :
    registered? (first ++ second) name =
      (registered? second name).or (registered? first name) := by
  unfold registered?
  rw [List.reverse_append, List.find?_append]

variable {supplied : List ((kind : Kind) × AttributeValue kind)}

theorem registered?_supply {bound : (kind : Kind) × AttributeValue kind}
    (member : bound ∈ supplied) : (registered? (supply supplied) bound.2.key.name).isSome := by
  refine List.find?_isSome.mpr ⟨bound.2.point, ?_, decide_eq_true rfl⟩
  exact List.mem_reverse.mpr (List.mem_map.mpr ⟨bound, member, rfl⟩)

theorem asks_of_supply
    (asks : Asks (points ++ supply supplied) (requestsBeside supplied requests) name key) :
    registered? (supply supplied) name = none ∧ Asks points requests name key := by
  obtain ⟨present, asked⟩ := asks
  unfold requestsBeside at asked
  rw [registered?_append] at present
  cases found : registered? (supply supplied) name with
  | some point =>
      rw [found] at asked
      exact absurd asked List.not_mem_nil
  | none =>
      rw [found] at asked present
      exact ⟨rfl, present, asked⟩

theorem asks_of_mem_of_isChain {asks : String → String → Prop} {keys : List String}
    {last key : String} (chain : (keys ++ [last]).IsChain asks) (member : key ∈ keys) :
    ∃ other, asks key other := by
  induction keys with
  | nil => cases member
  | cons first others ih =>
      rcases List.mem_cons.mp member with same | later
      · rw [same]
        cases others with
        | nil => exact ⟨last, (List.isChain_cons_cons.mp chain).1⟩
        | cons second rest => exact ⟨second, (List.isChain_cons_cons.mp chain).1⟩
      · exact ih chain.tail later

theorem Cycle.asks_of_mem {path : List String} (cycle : Cycle points requests path)
    (member : key ∈ path) : ∃ other, Asks points requests key other := by
  obtain ⟨first, others, same, _distinct, chain⟩ := cycle
  rw [same] at chain
  apply asks_of_mem_of_isChain chain
  rw [same] at member
  rcases List.mem_append.mp member with earlier | last
  · exact earlier
  · rw [List.mem_singleton.mp last]
    exact List.mem_cons_self

namespace Listed

theorem beside (listed : Listed points kinds requests)
    (kinded : ∀ bound ∈ supplied, kinds bound.2.key.name = some bound.1) :
    Listed (points ++ supply supplied) kinds (requestsBeside supplied requests) := by
  intro name point found
  rw [registered?_append] at found
  unfold requestsBeside
  cases given : registered? (supply supplied) name with
  | some own =>
      rw [given] at found
      cases found
      obtain ⟨bound, member, same⟩ := List.mem_map.mp (registered?_mem given)
      have named : bound.2.key.name = name := by
        rw [← registered?_name given, ← same]
        rfl
      refine ⟨bound.1, named ▸ kinded bound member, ?_⟩
      rw [← same]
      exact .done bound.2.value
  | none =>
      rw [given] at found
      exact listed name point found

theorem comes_of_supplied (listed : Listed points kinds requests)
    (kinded : ∀ bound ∈ supplied, kinds bound.2.key.name = some bound.1)
    (registered : ∀ key, Reachable points requests name key → (registered? points key).isSome)
    (met : ∀ path, Cycle points requests path →
      (∀ key ∈ path, Reachable points requests name key) →
      ∃ bound ∈ supplied, bound.2.key.name ∈ path) :
    Comes (points ++ supply supplied) [] name := by
  have narrower : Asks (points ++ supply supplied) (requestsBeside supplied requests) ≤
      Asks points requests := fun _ _ asks => (asks_of_supply asks).2
  cases outcome : (appraise (points ++ supply supplied) [] name).1 with
  | ok value => exact ⟨value, outcome⟩
  | error error =>
      rcases (listed.beside kinded).obstructs_of_failed outcome with missing | cyclic
      · obtain ⟨other, _same, reachable, absent⟩ := missing
        have present := registered other (Relation.ReflTransGen.mono narrower _ _ reachable)
        rw [registered?_append] at absent
        rw [(Option.or_eq_none_iff.mp absent).2] at present
        cases present
      · obtain ⟨path, _same, cycle, reachable⟩ := cyclic
        have before : Cycle points requests path := by
          obtain ⟨first, others, same, distinct, chain⟩ := cycle
          exact ⟨first, others, same, distinct, chain.imp fun _ _ asks => narrower _ _ asks⟩
        obtain ⟨bound, member, within⟩ := met path before fun key within =>
          Relation.ReflTransGen.mono narrower _ _ (reachable key within)
        -- On the cycle each key asks for the next one, but a supplied key asks for nothing.
        obtain ⟨other, asks⟩ := cycle.asks_of_mem within
        have given := registered?_supply member
        rw [(asks_of_supply asks).1] at given
        cases given

end Listed

end

/-- A new context resolves a key exactly if all that is reachable is registered and on no cycle; the
cache and the counts are then those of the reachable keys. A failure names an obstacle on the way, and
values for keys on every reachable cycle take the cycles away. -/
theorem Context.resolve_ok_iff_acyclic {points : List InformationPoint}
    {kinds : String → Option Kind} {requests : String → List String}
    (listed : Listed points kinds requests) (name : String) (journal : Journal) :
    let result := (Context.new points).resolve name journal
    let after := result.2.1.memory
    let reachable := Reachable points requests name
    ((∃ value, result.1 = .ok value) ↔
      (∀ key, reachable key → (registered? points key).isSome) ∧
      ∀ key, reachable key → ¬Relation.TransGen (Asks points requests) key key) ∧
    (∀ value, result.1 = .ok value → ∃ keys : List String, keys.Nodup ∧
      (∀ key, key ∈ keys ↔ reachable key) ∧ (∀ key, after.cache.Holds key ↔ key ∈ keys) ∧
      after.stats.cacheMisses = keys.length ∧
      after.stats.cacheHits + keys.length =
        1 + (keys.map fun key => (requests key).length).sum) ∧
    (∀ error, result.1 = .error error → Obstructs points requests name error) ∧
    ∀ supplied : List ((kind : Kind) × AttributeValue kind),
      (∀ bound ∈ supplied, kinds bound.2.key.name = some bound.1) →
      (∀ key, reachable key → (registered? points key).isSome) →
      (∀ path, Cycle points requests path → (∀ key ∈ path, reachable key) →
        ∃ bound ∈ supplied, bound.2.key.name ∈ path) →
      ∃ value, ((Context.new (points ++ supply supplied)).resolve name journal).1 = .ok value := by
  intro result after reachable
  have outcome : result.1 = (appraise points [] name).1 :=
    (listed.resolve_matches name ((Context.new points).store journal) rfl).outcome
  refine ⟨?_, ?_, ?_, ?_⟩
  · rw [outcome]
    exact listed.comes_iff
  · intro value resolved
    have comes : Comes points [] name := ⟨value, outcome.symm.trans resolved⟩
    obtain ⟨distinct, holds, misses, hits⟩ := listed.resolve_counts comes journal
    exact ⟨_, distinct, fun key => Cache.holds_iff_mem.symm.trans (holds key),
      fun _ => Cache.holds_iff_mem, misses, hits⟩
  · intro error failed
    exact listed.obstructs_of_failed (outcome.symm.trans failed)
  · intro supplied kinded registered met
    obtain ⟨value, came⟩ := listed.comes_of_supplied kinded registered met
    have matched := (listed.beside kinded).resolve_matches name
      ((Context.new (points ++ supply supplied)).store journal) rfl
    exact ⟨value, matched.outcome.trans came⟩

private def getUnits : List String → Program Value
  | [] => .done (.ok .unit)
  | name :: names => (Program.get (⟨name⟩ : Key .unit)).bind fun _ => getUnits names

private theorem getUnits_lists (names : List String) :
    (getUnits names).Lists (fun _ => some .unit) .unit names := by
  induction names with
  | nil =>
      have nothing : Kind.unit.Datum := ()
      exact .done nothing
  | cons name names ih =>
      exact .get (⟨name⟩ : Key .unit) (fun _ same => (Option.some.inj same).symm) fun _ => ih

/-- A key that is shared, a key that is asked for twice, and a cycle below the top. -/
private def crossing : List (String × List String) :=
  [("top", ["left", "right", "left"]), ("left", ["base"]), ("right", ["base", "ring"]),
    ("ring", ["right"]), ("base", [])]

private def crossingPoints : List InformationPoint :=
  crossing.map fun entry => { name := entry.1, provide := getUnits entry.2 }

private def crossingRequests (name : String) : List String := (crossing.lookup name).getD []

private theorem crossing_listed :
    Listed crossingPoints (fun _ => some .unit) crossingRequests := by
  intro name point found
  have named := registered?_name found
  have member := registered?_mem found
  simp only [crossingPoints, crossing, List.map_cons, List.map_nil, List.mem_cons,
    List.not_mem_nil, or_false] at member
  subst named
  rcases member with rfl | rfl | rfl | rfl | rfl <;> exact ⟨.unit, rfl, getUnits_lists _⟩

private def ringSupplied : List ((kind : Kind) × AttributeValue kind) :=
  [⟨.unit, { key := ⟨"ring"⟩, value := () }⟩]

/-- The cycle is found from the top, and is gone once a value is supplied for a key on it. -/
theorem resolve_ok_iff_acyclic_crossing :
    Listed crossingPoints (fun _ => some .unit) crossingRequests ∧
      Obstructs crossingPoints crossingRequests "top"
        (.cyclicDependencies ["right", "ring", "right"]) ∧
      let points := crossingPoints ++ supply ringSupplied
      let requests := requestsBeside ringSupplied crossingRequests
      Listed points (fun _ => some .unit) requests ∧
        (∀ key, Reachable points requests "top" key → (registered? points key).isSome) ∧
        (∀ key, Reachable points requests "top" key →
          ¬Relation.TransGen (Asks points requests) key key) ∧
        ((Context.new points).resolve "top" {}).2.1.memory.stats =
          { cacheHits := 2, cacheMisses := 5 } := by
  have beside : Listed (crossingPoints ++ supply ringSupplied) (fun _ => some .unit)
      (requestsBeside ringSupplied crossingRequests) := by
    refine crossing_listed.beside fun bound member => ?_
    rw [List.mem_singleton.mp member]
  have failing := Context.resolve_ok_iff_acyclic crossing_listed "top" {}
  have resolved := Context.resolve_ok_iff_acyclic beside "top" {}
  have acyclic := resolved.1.mp ⟨.unit, by with_unfolding_all rfl⟩
  exact ⟨crossing_listed, failing.2.2.1 _ (by with_unfolding_all rfl), beside, acyclic.1, acyclic.2,
    by decide +kernel⟩

end AccessPolicy
