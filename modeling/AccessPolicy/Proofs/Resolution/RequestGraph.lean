/-
The graph of requests. Where points ask for fixed lists of keys, a key comes to a value exactly if no
missing point and no cycle can be reached from it, and a failure names one that can.

A value needs the whole of what is reachable, as a key that comes to a value does so under fewer keys in
flight as well. In the other direction the keys in flight are a path of the graph, which a cycle closes.
-/

import AccessPolicy.Proofs.Resolution.Listing
import Mathlib.Data.List.Chain
import Mathlib.Logic.Relation

namespace AccessPolicy

def Asks (points : List InformationPoint) (requests : String → List String)
    (name other : String) : Prop :=
  (registered? points name).isSome ∧ other ∈ requests name

def Reachable (points : List InformationPoint) (requests : String → List String) :
    String → String → Prop :=
  Relation.ReflTransGen (Asks points requests)

/-- A path from a key back to itself that meets no other key twice. -/
def Cycle (points : List InformationPoint) (requests : String → List String)
    (path : List String) : Prop :=
  ∃ name others, path = name :: others ++ [name] ∧ (name :: others).Nodup ∧
    path.IsChain (Asks points requests)

/-- The failure names an obstacle that can be reached from the key. -/
def Obstructs (points : List InformationPoint) (requests : String → List String) (name : String)
    (error : Error) : Prop :=
  (∃ other, error = .missingInformationPoint other ∧ Reachable points requests name other ∧
    registered? points other = none) ∨
  ∃ path, error = .cyclicDependencies path ∧ Cycle points requests path ∧
    ∀ key ∈ path, Reachable points requests name key

section

variable {points : List InformationPoint} {requests : String → List String}

theorem transGen_of_isChain {asks : String → String → Prop} {first last : String}
    {others : List String} (chain : (first :: others ++ [last]).IsChain asks) :
    Relation.TransGen asks first last := by
  induction others generalizing first with
  | nil => exact .single (List.isChain_cons_cons.mp chain).1
  | cons other others ih =>
      have both := List.isChain_cons_cons.mp chain
      exact .head both.1 (ih both.2)

theorem Cycle.transGen {path : List String} (cycle : Cycle points requests path) :
    ∃ key ∈ path, Relation.TransGen (Asks points requests) key key := by
  obtain ⟨name, others, same, _distinct, chain⟩ := cycle
  subst same
  exact ⟨name, List.mem_cons_self, transGen_of_isChain chain⟩

theorem cyclePath_eq {inFlight : List String} {name : String} (member : name ∈ inFlight) :
    ∃ others, cyclePath inFlight name = name :: others ++ [name] ∧ name :: others <:+ inFlight := by
  induction inFlight with
  | nil => cases member
  | cons key keys ih =>
      by_cases same : key = name
      · subst same
        refine ⟨keys, ?_, List.suffix_refl _⟩
        unfold cyclePath
        rw [List.dropWhile_cons_of_neg (by simp)]
      · obtain ⟨others, path, suffix⟩ := ih ((List.mem_cons.mp member).resolve_left fun equal =>
          same equal.symm)
        refine ⟨others, ?_, suffix.trans (List.suffix_cons key keys)⟩
        unfold cyclePath at path ⊢
        rw [List.dropWhile_cons_of_pos (by simpa using same), path]

theorem cycle_of_cyclePath {inFlight : List String} {name : String} (member : name ∈ inFlight)
    (distinct : inFlight.Nodup) (chain : (inFlight ++ [name]).IsChain (Asks points requests)) :
    Cycle points requests (cyclePath inFlight name) := by
  obtain ⟨others, path, suffix⟩ := cyclePath_eq member
  obtain ⟨before, same⟩ := suffix
  refine ⟨name, others, path, ?_, ?_⟩
  · rw [← same] at distinct
    exact (List.nodup_append.mp distinct).2.1
  · rw [← same, List.append_assoc] at chain
    rw [path]
    exact chain.right_of_append

/-! ### Keys that come to a value -/

variable {kinds : String → Option Kind} {inFlight : List String} {name key : String}

namespace Listed

theorem registered_of_comes (listed : Listed points kinds requests)
    (comes : Comes points inFlight name) : (registered? points name).isSome := by
  obtain ⟨_fresh, point, found, _all⟩ := listed.comes_inv comes
  exact Option.isSome_of_eq_some found

theorem comes_of_asks (listed : Listed points kinds requests)
    (comes : Comes points inFlight name) (asks : Asks points requests name key) :
    Comes points (inFlight ++ [name]) key := by
  obtain ⟨_fresh, _point, _found, all, _ran⟩ := listed.comes_inv comes
  exact all key asks.2

theorem comes_of_reachable (listed : Listed points kinds requests)
    (comes : Comes points [] name) (reachable : Reachable points requests name key) :
    Comes points [] key := by
  induction reachable with
  | refl => exact comes
  | tail earlier asks ih =>
      exact listed.comes_shorten (listed.comes_of_asks ih asks) (List.nil_subset _)

theorem comes_of_transGen (listed : Listed points kinds requests)
    (comes : Comes points inFlight name)
    (beyond : Relation.TransGen (Asks points requests) name key) :
    Comes points (inFlight ++ [name]) key := by
  induction beyond with
  | single asks => exact listed.comes_of_asks comes asks
  | tail earlier asks ih =>
      -- The last request has one key too many in flight; it does with fewer.
      exact listed.comes_shorten (listed.comes_of_asks ih asks) (List.subset_append_left _ _)

theorem not_transGen_of_comes (listed : Listed points kinds requests)
    (comes : Comes points inFlight name) :
    ¬Relation.TransGen (Asks points requests) name name := by
  intro round
  have fresh := (listed.comes_inv (listed.comes_of_transGen comes round)).1
  exact fresh (by simp)

theorem kept_iff_reachable (listed : Listed points kinds requests) {inFlight : List String}
    {name : String} (comes : Comes points inFlight name) (key : String) :
    key ∈ (appraise points inFlight name).2.kept ↔ Reachable points requests name key := by
  obtain ⟨fresh, point, found, all, value, ran⟩ := listed.comes_inv comes
  rw [appraise_of_registered fresh found, ran]
  change key ∈ name :: (Effort.total _ (requests name)).kept ↔ _
  rw [List.mem_cons, Effort.mem_kept_total]
  unfold Reachable
  rw [Relation.ReflTransGen.cases_head_iff]
  constructor
  · rintro (same | ⟨other, member, kept⟩)
    · exact Or.inl same.symm
    · refine Or.inr ⟨other, ⟨Option.isSome_of_eq_some found, member⟩, ?_⟩
      exact (listed.kept_iff_reachable (all other member) key).mp kept
  · rintro (same | ⟨other, asks, beyond⟩)
    · exact Or.inl same.symm
    · refine Or.inr ⟨other, asks.2, ?_⟩
      exact (listed.kept_iff_reachable (all other asks.2) key).mpr beyond
termination_by pending points inFlight
decreasing_by
  · exact pending_lt found fresh
  · exact pending_lt found fresh

/-! ### Failures -/

/-- The keys in flight are a path from the root, so that the failure of a key on it names what the path
leads to. -/
theorem obstructs_of_error (listed : Listed points kinds requests) {root : String} {error : Error}
    {inFlight : List String} {name : String} (distinct : inFlight.Nodup)
    (chain : (inFlight ++ [name]).IsChain (Asks points requests))
    (reachable : ∀ key ∈ inFlight ++ [name], Reachable points requests root key)
    (failed : (appraise points inFlight name).1 = .error error) :
    Obstructs points requests root error := by
  by_cases member : name ∈ inFlight
  · rw [appraise_of_inFlight member] at failed
    cases failed
    refine Or.inr ⟨_, rfl, cycle_of_cyclePath member distinct chain, ?_⟩
    intro key within
    apply reachable key
    rcases List.mem_append.mp within with earlier | last
    · exact List.mem_append_left _ ((List.dropWhile_suffix _).mem earlier)
    · exact List.mem_append_right _ last
  · cases found : registered? points name with
    | none =>
        rw [appraise_of_missing member found] at failed
        cases failed
        exact Or.inl ⟨name, rfl, reachable name (by simp), found⟩
    | some point =>
        rcases listed.appraise_cases member found with ⟨_all, value, ran⟩ | below
        · rw [appraise_of_registered member found, ran] at failed
          cases failed
        · obtain ⟨key, asked, cause, wrong, same⟩ := below
          rw [same] at failed
          cases failed
          -- The request that has failed makes the path one edge longer.
          have asks : Asks points requests name key :=
            ⟨Option.isSome_of_eq_some found, asked⟩
          refine listed.obstructs_of_error
            (List.nodup_append_comm.mpr (List.nodup_cons.mpr ⟨member, distinct⟩)) ?_ ?_ wrong
          · rw [List.append_assoc]
            exact List.isChain_split.mpr ⟨chain, List.isChain_pair.mpr asks⟩
          · intro other within
            rcases List.mem_append.mp within with earlier | last
            · exact reachable other earlier
            · rw [List.mem_singleton.mp last]
              exact .tail (reachable name (by simp)) asks
termination_by pending points inFlight
decreasing_by exact pending_lt found member

theorem obstructs_of_failed (listed : Listed points kinds requests) {error : Error}
    (failed : (appraise points [] name).1 = .error error) :
    Obstructs points requests name error := by
  refine listed.obstructs_of_error List.nodup_nil (List.isChain_singleton name) ?_ failed
  intro key member
  rw [List.mem_singleton.mp member]
  exact .refl

theorem comes_iff (listed : Listed points kinds requests) :
    Comes points [] name ↔
      (∀ key, Reachable points requests name key → (registered? points key).isSome) ∧
      ∀ key, Reachable points requests name key →
        ¬Relation.TransGen (Asks points requests) key key := by
  constructor
  · intro comes
    constructor
    · exact fun key reachable =>
        listed.registered_of_comes (listed.comes_of_reachable comes reachable)
    · exact fun key reachable =>
        listed.not_transGen_of_comes (listed.comes_of_reachable comes reachable)
  · rintro ⟨registered, acyclic⟩
    cases outcome : (appraise points [] name).1 with
    | ok value => exact ⟨value, outcome⟩
    | error error =>
        rcases listed.obstructs_of_failed outcome with missing | cyclic
        · obtain ⟨other, _same, reachable, absent⟩ := missing
          have present := registered other reachable
          rw [absent] at present
          cases present
        · obtain ⟨path, _same, cycle, reachable⟩ := cyclic
          obtain ⟨key, member, round⟩ := cycle.transGen
          exact absurd round (acyclic key (reachable key member))

end Listed

end

end AccessPolicy
