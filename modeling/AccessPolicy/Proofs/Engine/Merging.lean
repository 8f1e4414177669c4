/-
Merging is a union that the right side wins: of the cached values, and of the points where no value is cached.
A merged context has points and values of both sides from the beginning, and of these nothing is lost later: a
run only ever caches a key whose point has just produced its value. So until then every request for a key is
answered as the two sides have it, whether a client makes it or a point that runs.
-/

import AccessPolicy.Proofs.Engine.History
import AccessPolicy.Proofs.Resolution.Acyclic

namespace AccessPolicy

/-! ### Caches -/

theorem lookup_filter {β : Type} (entries : List (String × β)) (keeps : String → Bool)
    (name : String) :
    (entries.filter fun entry => keeps entry.1).lookup name =
      if keeps name then entries.lookup name else none := by
  induction entries with
  | nil => simp
  | cons entry rest ih =>
      obtain ⟨key, value⟩ := entry
      by_cases same : name = key
      · subst same
        by_cases kept : keeps name = true
        · simp [kept]
        · simp [kept, ih]
      · have other := beq_false_of_ne same
        by_cases kept : keeps key = true
        · simp [List.lookup_cons, kept, other, ih]
        · simp [List.lookup_cons, kept, other, ih]

theorem lookup_replace_of_ne {β : Type} (entries : List (String × β)) {name other : String}
    (apart : other ≠ name) (item : β) :
    ((name, item) :: entries.filter fun entry => entry.1 ≠ name).lookup other =
      entries.lookup other := by
  rw [List.lookup_cons, beq_false_of_ne apart]
  have kept := lookup_filter entries (fun key => decide (key ≠ name)) other
  rw [if_pos (decide_eq_true apart)] at kept
  exact kept

namespace Cache

theorem find?_insert_of_ne (cache : Cache) {name key : String} (value : Value) (other : key ≠ name) :
    (cache.insert name value).find? key = cache.find? key :=
  lookup_replace_of_ne cache.entries other value

theorem find?_union (left right : Cache) (name : String) :
    (left.union right).find? name = (right.find? name).or (left.find? name) := by
  unfold union find?
  rw [List.lookup_append, lookup_filter left.entries (fun key => (right.entries.lookup key).isNone)]
  cases right.entries.lookup name <;> rfl

theorem union_assoc (left middle right : Cache) :
    (left.union middle).union right = left.union (middle.union right) := by
  have beside : (fun entry : String × Value => ((middle.union right).find? entry.1).isNone) =
      fun entry => (right.find? entry.1).isNone && (middle.find? entry.1).isNone := by
    funext entry
    rw [find?_union]
    cases right.find? entry.1 <;> simp
  have entries : ((left.union middle).union right).entries =
      (left.union (middle.union right)).entries := by
    change right.entries ++ (middle.entries ++ left.entries.filter _).filter _ =
      (right.entries ++ middle.entries.filter _) ++ left.entries.filter _
    rw [beside, List.filter_append, List.filter_filter, List.append_assoc]
  exact congrArg Cache.mk entries

theorem union_empty (left : Cache) : left.union {} = left := by
  have entries : left.entries.filter (fun _ => true) = left.entries :=
    List.filter_eq_self.mpr fun _ _ => rfl
  exact congrArg Cache.mk entries

theorem empty_union (right : Cache) : ({} : Cache).union right = right :=
  congrArg Cache.mk (List.append_nil right.entries)

end Cache

/-! ### Requests -/

namespace Machine

/-- Of a request that stands at its beginning: it is answered with what is cached, at once; else the registered
point is started, or there is none. -/
def Answers (asked : Machine) (name : String) :
    Option Value → Option InformationPoint → Prop
  | some value, _ => ∃ scene, asked.step = some ⟨.answer (.ok value), asked.frames, scene⟩
  | none, some point =>
    ∃ scene, asked.after 2 = ⟨.provide name point.provide, asked.frames, scene⟩
  | none, none =>
    ∃ scene, asked.after 3 =
      ⟨.answer (.error (.missingInformationPoint name)), asked.frames, scene⟩

theorem request_answers {now : Context} {name : String} (fresh : name ∉ now.inFlight)
    (frames : List Frame) (host : Host) :
    Answers ⟨.request name, frames, host.scene (.resolution now)⟩ name
      (now.memory.cache.find? name) (registered? now.points name) := by
  let scene : Scene := host.scene (.resolution now)
  cases cached : now.memory.cache.find? name with
  | some value =>
      refine ⟨scene.changeStore now fun store => store.hit name, ?_⟩
      simp only [step, request, scene, Host.scene, cached]
  | none =>
      have entered : step ⟨.request name, frames, scene⟩ =
          some ⟨.lookUp name, frames, scene.push now name⟩ := by
        simp only [step, request, scene, Host.scene, cached, if_neg fresh]
      have own : (scene.push now name).context = .resolution (now.enter name) := rfl
      cases found : registered? now.points name with
      | some point =>
          have started : step ⟨.lookUp name, frames, scene.push now name⟩ =
              some ⟨.provide name point.provide, frames, scene.push now name⟩ := by
            simp only [step, lookUp, own]
            rw [show registered? (now.enter name).points name = some point from found]
          refine ⟨scene.push now name, ?_⟩
          rw [after_succ entered, after_succ started]
          rfl
      | none =>
          let unknown : Except Error Value := .error (.missingInformationPoint name)
          let last := (scene.push now name).changeStore (now.enter name) fun store => store.notFound name
          have missed : step ⟨.lookUp name, frames, scene.push now name⟩ =
              some ⟨.leave name unknown, frames, last⟩ := by
            simp only [step, lookUp, own]
            rw [show registered? (now.enter name).points name = none from found]
          have left : step ⟨.leave name unknown, frames, last⟩ =
              some ⟨.answer unknown, frames, last.pop⟩ := rfl
          refine ⟨last.pop, ?_⟩
          rw [after_succ entered, after_succ missed, after_succ left]
          rfl

end Machine

/-! ### Merged contexts -/

namespace Context

variable {start now : Context} {machine : Machine} {earlier : List Machine}

/-- What is cached for a key is as it was in the beginning, unless its point has come to a value since. -/
theorem History.find?_eq (history : start.History machine earlier)
    (own : machine.scene.context = .resolution now) {name : String}
    (unresolved : ∀ value, .ended name (.ok value) ∉ chronicle machine.focus earlier) :
    now.memory.cache.find? name = start.memory.cache.find? name := by
  refine history.invariant
    (motive := fun focus _ context earlier =>
      (∀ value, .ended name (.ok value) ∉ chronicle focus earlier) →
        context.memory.cache.find? name = start.memory.cache.find? name)
    ?_ ?_ ?_ own unresolved
  · exact fun _ _ => rfl
  · intro ⟨place, waiting, scene⟩ earlier context focus frames after history same before move unresolved
    have kept := before fun value member => unresolved value (List.mem_append_left _ member)
    rw [← kept]
    dsimp only at move
    cases move with
    | @keep key value frames context report =>
        apply Cache.find?_insert_of_ne
        intro same
        subst same
        have ended : .ended name (.ok value) ∈ chronicle (.leave name (.ok value))
            (⟨.provide name (.done (.ok value)), waiting, scene⟩ :: earlier) :=
          List.mem_append_right _ (List.mem_singleton_self _)
        exact unresolved value ended
    | hit cached report => rfl
    | cyclic uncached member => rfl
    | enter uncached fresh => rfl
    | missing absent report => rfl
    | start found => rfl
    | fail => rfl
    | ask => rfl
    | aside isAside answer report => rfl
    | leave => rfl
    | resume => rfl
    | consult => rfl
    | told => rfl
    | policy before after keys report => rfl
  · intro result scene now client earlier before unresolved
    exact before fun value member => unresolved value (List.mem_append_left _ member)

/-- A merged context begins without requests, trace and counts. At every moment from then on, a key that is not
in flight and has not been produced since is answered with the value that the right side has cached, or else
the left side, or else by the last point of the right side, or else of the left side, no matter what waits for
the answer: a client, a rule or a point. Merging is associative, and what has neither points nor values changes
nothing on either side. -/
theorem merge_right_biased (first second third : Context) :
    let merged := first.merge second
    (merged.inFlight = [] ∧ merged.memory.report = {} ∧ merged.memory.stats = {}) ∧
    (∀ machine earlier, merged.History machine earlier →
      ∃ now, machine.scene.context = .resolution now ∧
        ∀ name, name ∉ now.inFlight →
          (∀ value, .ended name (.ok value) ∉ chronicle machine.focus earlier) →
          ∀ (frames : List Frame) (host : Host),
            Machine.Answers ⟨.request name, frames, host.scene (.resolution now)⟩ name
              ((second.memory.cache.find? name).or (first.memory.cache.find? name))
              ((registered? second.points name).or (registered? first.points name))) ∧
    (first.merge second).merge third = first.merge (second.merge third) ∧
    ∀ bare : Context, bare.points = [] → bare.memory.cache = {} →
      (first.merge bare).points = first.points ∧ (bare.merge first).points = first.points ∧
      (first.merge bare).memory.cache = first.memory.cache ∧
      (bare.merge first).memory.cache = first.memory.cache := by
  intro merged
  refine ⟨⟨rfl, rfl, rfl⟩, ?_, ?_, ?_⟩
  · intro machine earlier history
    obtain ⟨now, own⟩ := history.exists_context
    refine ⟨now, own, fun name fresh unresolved frames host => ?_⟩
    have cached : now.memory.cache.find? name =
        (second.memory.cache.find? name).or (first.memory.cache.find? name) :=
      (history.find?_eq own unresolved).trans (Cache.find?_union _ _ _)
    have points : now.points = first.points ++ second.points :=
      ((history.stacked rfl).of_context own).1
    rw [← cached, ← registered?_append, ← points]
    exact Machine.request_answers fresh frames host
  · unfold merge
    rw [Cache.union_assoc, List.append_assoc]
  · intro bare points cache
    unfold merge
    rw [points, cache]
    exact ⟨List.append_nil _, rfl, Cache.union_empty _, Cache.empty_union _⟩

/-- A cached value goes before a point, on whichever side they are. -/
example :
    let holding : Context := { points := [], memory := { cache := { entries := [("age", .unit)] } } }
    let failing : Context := .new [{ name := "age", provide := .fail (.missingInformationPoint "age") }]
    ((holding.merge failing).resolve "age" {}).1 = .ok .unit := by
  cbv

end Context

end AccessPolicy
