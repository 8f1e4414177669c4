/-
Failures with a cycle. A request fails in this way exactly if its key is in flight and not in the cache,
and then it changes nothing. The keys that are named are those in flight from this key on, and the points
of each two neighbours wait one for the other; so what is named is a real cycle, without the keys that
have led to it.
-/

import AccessPolicy.Proofs.Engine.Relays
import AccessPolicy.Proofs.Engine.Representation
import AccessPolicy.Proofs.Resolution.RequestGraph

namespace AccessPolicy

theorem Machine.step_request_eq_cyclic_iff {scene last : Scene} {now : Context}
    (own : scene.context = .resolution now) {name : String} {path : List String}
    {frames rest : List Frame} :
    step ⟨.request name, frames, scene⟩ =
        some ⟨.answer (.error (.cyclicDependencies path)), rest, last⟩ ↔
      now.memory.cache.find? name = none ∧ name ∈ now.inFlight ∧
        path = cyclePath now.inFlight name ∧ rest = frames ∧ last = scene := by
  simp only [step, request, own]
  cases found : now.memory.cache.find? name with
  | some value => simp
  | none =>
      by_cases member : name ∈ now.inFlight
      · simp [member, eq_comm]
      · simp [member]

namespace Context

variable {start now : Context} {machine : Machine} {earlier : List Machine}

theorem request_cyclic (now : Context) (name : String) (frames : List Frame) (host : Host) :
    let asked : Machine := ⟨.request name, frames, host.scene (.resolution now)⟩
    ((∃ path rest last,
        asked.step = some ⟨.answer (.error (.cyclicDependencies path)), rest, last⟩) ↔
      now.memory.cache.find? name = none ∧ name ∈ now.inFlight) ∧
    ∀ path rest last,
      asked.step = some ⟨.answer (.error (.cyclicDependencies path)), rest, last⟩ →
      rest = frames ∧ last = asked.scene ∧
        now.resolve name host.journal =
          (.error (.cyclicDependencies path), now, host.journal) := by
  intro asked
  have own : asked.scene.context = .resolution now := rfl
  constructor
  · constructor
    · rintro ⟨path, rest, last, stepped⟩
      obtain ⟨uncached, member, _⟩ := (Machine.step_request_eq_cyclic_iff own).mp stepped
      exact ⟨uncached, member⟩
    · rintro ⟨uncached, member⟩
      exact ⟨_, _, _, (Machine.step_request_eq_cyclic_iff own).mpr
        ⟨uncached, member, rfl, rfl, rfl⟩⟩
  · intro path rest last stepped
    obtain ⟨uncached, member, named, same, still⟩ :=
      (Machine.step_request_eq_cyclic_iff own).mp stepped
    refine ⟨same, still, ?_⟩
    have absent : (now.store host.journal).find? name = none := uncached
    have answered : AccessPolicy.resolve now.points now.inFlight name ⟨now.memory, host.journal⟩ =
        (.error (.cyclicDependencies path), now.store host.journal) := by
      rw [named]
      exact resolve_of_inFlight absent member
    unfold Context.resolve Context.withStore
    rw [answered]
    rfl

/-- A step that makes such a failure, and does not hand one on, is one of a request. -/
theorem cyclic_of_move {path : List String} {place : Focus} {frames rest : List Frame}
    {after : Context}
    (moved : Move place frames now (.answer (.error (.cyclicDependencies path))) rest after)
    (own : ∀ name answer, place ≠ .leave name answer) :
    ∃ name, place = .request name ∧ name ∈ now.inFlight ∧
      path = cyclePath now.inFlight name := by
  cases moved with
  | cyclic uncached member => exact ⟨_, rfl, member, rfl⟩
  | leave => exact absurd rfl (own _ _)
  | policy before after keys report => cases after

/-- The keys that a failure names wait one for the other, and all of them are in flight. -/
theorem History.cyclePath_waits (idle : start.inFlight = [])
    (history : start.History machine earlier) (own : machine.scene.context = .resolution now)
    {name : String} (focused : machine.focus = .request name) (member : name ∈ now.inFlight) :
    ∃ outer others, cyclePath now.inFlight name = name :: others ++ [name] ∧
      now.inFlight = outer ++ name :: others ∧ (name :: others).Nodup ∧
      (∀ key ∈ name :: others, key ∈ machine.running) ∧
      (cyclePath now.inFlight name).IsChain (Waits (machine :: earlier)) := by
  have inFlight := history.inFlight_of_request idle own focused
  have distinct := history.inFlight_distinct idle own
  obtain ⟨others, path, outer, split⟩ := cyclePath_eq member
  refine ⟨outer, others, path, split.symm, ?_, ?_, ?_⟩
  · rw [← split] at distinct
    exact (List.nodup_append.mp distinct).2.1
  · intro key within
    refine List.mem_append_left _ ?_
    rw [← inFlight, ← split]
    exact List.mem_append_right _ within
  · have chain := history.waits focused
    rw [← inFlight, ← split, List.append_assoc] at chain
    rw [path]
    exact chain.right_of_append

/-- Where each point asks for one other key, this is the loop that is come to from the first key. -/
theorem History.cyclePath_loop (idle : start.inFlight = []) {next : String → String}
    (relaying : Relaying start.points next) (history : start.History machine earlier)
    (own : machine.scene.context = .resolution now) {name : String}
    (focused : machine.focus = .request name) (member : name ∈ now.inFlight) :
    ∃ first entry, now.inFlight.head? = some first ∧ Enters next first entry ∧
      cyclePath now.inFlight name =
        List.iterate next entry (Function.minimalPeriod next entry + 1) := by
  have inFlight := history.inFlight_of_request idle own focused
  have distinct := history.inFlight_distinct idle own
  have chain := (history.waits focused).imp fun key other waits =>
    waits.eq_next idle relaying history
  rw [← inFlight] at chain
  cases keys : now.inFlight with
  | nil =>
      rw [keys] at member
      cases member
  | cons first others =>
      rw [keys] at chain distinct member
      obtain ⟨entry, enters, path⟩ := loop_of_isChain chain distinct member
      exact ⟨first, entry, rfl, enters, path⟩

/-- A request fails with a cycle exactly if its key is in flight and not in the cache. Whenever the
engine makes such a failure it names a cycle of keys that wait for each other. Where each point only asks
for one other key, this is the loop that the requests come to, and from an empty cache they always do. -/
theorem Created.cyclic_path (created : start.Created) (history : start.History machine earlier) :
    ∃ now, machine.scene.context = .resolution now ∧
      (∀ name frames host,
        let asked : Machine := ⟨.request name, frames, Host.scene host (.resolution now)⟩
        ((∃ path rest last,
            asked.step = some ⟨.answer (.error (.cyclicDependencies path)), rest, last⟩) ↔
          now.memory.cache.find? name = none ∧ name ∈ now.inFlight) ∧
        ∀ path rest last,
          asked.step = some ⟨.answer (.error (.cyclicDependencies path)), rest, last⟩ →
          rest = frames ∧ last = asked.scene ∧
            now.resolve name host.journal = (.error (.cyclicDependencies path), now, host.journal)) ∧
      (∀ path rest last,
        machine.step = some ⟨.answer (.error (.cyclicDependencies path)), rest, last⟩ →
        (∀ name answer, machine.focus ≠ .leave name answer) →
        (∃ name outer others, machine.focus = .request name ∧ path = name :: others ++ [name] ∧
          now.inFlight = outer ++ name :: others ∧ (name :: others).Nodup ∧
          (∀ key ∈ name :: others, key ∈ machine.running) ∧
          path.IsChain (Waits (machine :: earlier))) ∧
        ∀ next, Relaying now.points next →
          ∃ first entry, now.inFlight.head? = some first ∧ Enters next first entry ∧
            path = List.iterate next entry (Function.minimalPeriod next entry + 1)) ∧
      ∀ next, Relaying now.points next → start.memory.cache = {} → now.inFlight = [] →
        ∀ name journal, (registered? now.points name).isSome →
          ∃ entry, Enters next name entry ∧
            (now.resolve name journal).1 =
              .error (.cyclicDependencies
                (List.iterate next entry (Function.minimalPeriod next entry + 1))) := by
  obtain ⟨now, own⟩ := history.exists_context
  have points := ((history.stacked created.idle).of_context own).1
  refine ⟨now, own, ?_, ?_, ?_⟩
  · exact fun name frames host => now.request_cyclic name frames host
  · intro path rest last stepped made
    obtain ⟨after, same, moved⟩ := Machine.step_moves stepped now own
    obtain ⟨name, focused, member, named⟩ := cyclic_of_move moved made
    rw [named]
    constructor
    · obtain ⟨outer, others, whole, split, distinct, running, chain⟩ :=
        history.cyclePath_waits created.idle own focused member
      exact ⟨name, outer, others, focused, whole, split, distinct, running, chain⟩
    · intro next relaying
      rw [points] at relaying
      exact history.cyclePath_loop created.idle relaying own focused member
  · intro next relaying empty settled name journal known
    have relayed := history.relayed created.idle (points ▸ relaying) own
    have failed := relaying.resolve_loop known (now.store journal) (relayed.empty empty)
    rw [← settled] at failed
    exact failed

/-- One key leads to a loop of three. -/
private def onward (name : String) : String :=
  if name = "root" then "key1" else if name = "key1" then "key2"
  else if name = "key2" then "key3" else "key1"

private def tailed : List InformationPoint :=
  ["root", "key1", "key2", "key3"].map fun name =>
    { name, provide := .askAll [onward name] .unit }

private theorem tailed_relaying : Relaying tailed onward where
  relays name point found := by
    obtain ⟨key, _, same⟩ := List.mem_map.mp (registered?_mem found)
    have named := registered?_name found
    rw [← same] at named ⊢
    rw [← named]
    exact .ask _ (fun error => .done _ rfl) fun value => .done _ trivial
  registered name _ := by
    have keys : tailed.map InformationPoint.name = ["root", "key1", "key2", "key3"] := rfl
    rw [registered?_isSome_iff, keys]
    unfold onward
    split_ifs <;> simp

private def turning : Machine := ((new tailed).asked ["root"]).after 13

private def turned : List Machine := ((new tailed).asked ["root"]).passed [] 13

theorem cyclic_path_tailed :
    (new tailed).Created ∧ (new tailed).History turning turned ∧
      ["key1", "key2", "key3", "key1"].IsChain (Waits (turning :: turned)) ∧
      ∃ entry, Enters onward "root" entry ∧
        ((new tailed).resolve "root" {}).1 =
          .error (.cyclicDependencies
            (List.iterate onward entry (Function.minimalPeriod onward entry + 1))) := by
  have created : (new tailed).Created := .new tailed
  have start : (new tailed).History ((new tailed).asked ["root"]) [] :=
    .begin (.asking ["root"]) {}
  have history : (new tailed).History turning turned := start.after 13
  refine ⟨created, history, ?_, ?_⟩
  · obtain ⟨now, own, _, named, _⟩ := created.cyclic_path history
    have last : (turning.step.map Machine.focus) = some (.answer (.error
        (.cyclicDependencies ["key1", "key2", "key3", "key1"]))) := by rfl
    obtain ⟨⟨focus, rest, scene⟩, stepped, answered⟩ := Option.map_eq_some_iff.mp last
    cases answered
    have place : turning.focus = .request "key1" := by rfl
    have made : ∀ name answer, turning.focus ≠ .leave name answer := by
      intro name answer leaving
      cases place.symm.trans leaving
    obtain ⟨⟨name, outer, others, _, _, _, _, _, chain⟩, _⟩ := named _ rest scene stepped made
    exact chain
  · obtain ⟨now, own, _, _, loops⟩ := created.cyclic_path start
    cases own
    exact loops onward tailed_relaying rfl rfl "root" {} (by rfl)

end Context

end AccessPolicy
