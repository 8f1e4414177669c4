/-
Evaluation trees: what comes about in a run, in which order and inside of what. There is a node for each
request for a key, for each policy that is evaluated and for each enforcement. A node says where its part of
the run begins; what that part comes to is what evaluation gives there. Neither the text of a report nor a
meter has any part in a tree.
-/

import AccessPolicy.Proofs.Policy.Combining

namespace AccessPolicy

/-! ### Requests for keys -/

inductive Finding
  | hit
  | produced (value : Value)
  | missing
  | cyclic
  /-- The point of the key has failed. -/
  | failed

/-- A request for a key, and the requests that the point of the key has made on its way. -/
inductive Query
  | node (key : String) (finding : Finding) (asked : List Query)

def Finding.ofRun : Except Error Value → Finding
  | .ok value => .produced value
  | .error _ => .failed

def Request.queries (query : String → Query) : Request → List Query
  | .resolve name => [query name]
  | _ => []

def Program.queries {α : Type} (resolve : String → Store → Except Error Value × Store)
    (query : String → Store → Query) : Program α → Store → List Query
  | .done _, _ => []
  | .ask request next, store =>
    let answered := Store.answer resolve request store
    request.queries (fun name => query name store) ++
      (next answered.1).queries resolve query answered.2

def query (points : List InformationPoint) (inFlight : List String) (name : String)
    (store : Store) : Query :=
  match store.memory.cache.find? name with
  | some _ => .node name .hit []
  | none =>
    if _member : name ∈ inFlight then .node name .cyclic []
    else
      match _found : registered? points name with
      | none => .node name .missing []
      | some point =>
        let asked := point.provide.queries (resolve points (inFlight ++ [name]))
          (fun key store => query points (inFlight ++ [name]) key store)
          (store.log (.resolving name (inFlight.length + 1)))
        .node name (.ofRun (produce points inFlight name point store).1) asked
termination_by pending points inFlight
decreasing_by exact pending_lt _found _member

section

variable {points : List InformationPoint} {inFlight : List String} {name : String} {store : Store}

theorem query_of_cached {value : Value} (cached : store.find? name = some value) :
    query points inFlight name store = .node name .hit [] := by
  have found : store.memory.cache.find? name = some value := cached
  rw [query, found]

theorem query_of_inFlight (uncached : store.find? name = none) (member : name ∈ inFlight) :
    query points inFlight name store = .node name .cyclic [] := by
  have absent : store.memory.cache.find? name = none := uncached
  rw [query, absent]
  exact if_pos member

theorem query_of_missing (uncached : store.find? name = none) (fresh : name ∉ inFlight)
    (missing : registered? points name = none) :
    query points inFlight name store = .node name .missing [] := by
  have absent : store.memory.cache.find? name = none := uncached
  rw [query, absent]
  simp only [dif_neg fresh]
  split
  · rfl
  · rename_i found
    rw [missing] at found
    cases found

theorem query_of_registered {point : InformationPoint} (uncached : store.find? name = none)
    (fresh : name ∉ inFlight) (found : registered? points name = some point) :
    query points inFlight name store =
      .node name (.ofRun (produce points inFlight name point store).1)
        (point.provide.queries (resolve points (inFlight ++ [name]))
          (query points (inFlight ++ [name]))
          (store.log (.resolving name (inFlight.length + 1)))) := by
  have absent : store.memory.cache.find? name = none := uncached
  rw [query, absent]
  simp only [dif_neg fresh]
  split
  · rename_i missing
    rw [found] at missing
    cases missing
  · rename_i other same
    rw [found] at same
    cases same
    rfl

end

def Scene.query (scene : Scene) (name : String) : Query :=
  match scene.context with
  | .resolution context =>
    AccessPolicy.query context.points context.inFlight name (context.store scene.journal)
  | .foreign _ => .node name .missing []

/-! ### Policies -/

/-- A policy and the scene in which its evaluation begins. -/
structure Visit where
  policy : Policy
  scene : Scene

namespace Visit

def result (visit : Visit) : Except Error Decision := (visit.policy.evaluate visit.scene).1

def last (visit : Visit) : Scene := (visit.policy.evaluate visit.scene).2

end Visit

def Policy.inSection (policy : Policy) (scene : Scene) : Visit :=
  ⟨policy, (scene.write policy.name).indent⟩

/-- An enforcement and the scene in which it begins. -/
structure Call where
  point : EnforcementPoint
  bias : Option Bias
  policy : Policy
  scene : Scene

namespace Call

def outcome (call : Call) : Except Error Outcome :=
  (call.point.enforcePolicy call.bias call.policy call.scene).1

def last (call : Call) : Scene := (call.point.enforcePolicy call.bias call.policy call.scene).2

def visit (call : Call) : Visit := call.policy.inSection call.scene

end Call

inductive Node
  | request (query : Query)
  /-- A rule evaluates a policy, which then has no section of its own. -/
  | evaluation (visit : Visit) (inside : List Node)
  /-- A combined policy evaluates a member in its section. -/
  | member (visit : Visit) (inside : List Node)
  | enforcement (call : Call) (inside : List Node)

mutual

def Procedure.nodes : Procedure → Scene → List Node
  | .done _, _ => []
  | .ask request next, scene =>
    let answered := scene.answer request
    (request.queries scene.query).map .request ++ (next answered.1).nodes answered.2
  | .evaluate policy next, scene =>
    let visit : Visit := ⟨policy, scene⟩
    .evaluation visit (policy.nodes scene) :: (next visit.result).nodes visit.last
  | .enforce point bias policy next, scene =>
    let call : Call := ⟨point, bias, policy, scene⟩
    .enforcement call (policy.nodes call.visit.scene) ::
      (next (call.outcome.map Outcome.decision)).nodes call.last

def Policy.nodes : Policy → Scene → List Node
  | .rule _ body, scene => body.nodes scene
  | .combined algorithm members, scene => Policy.memberNodes algorithm members scene

/-- The members up to the one that ends the combination. -/
def Policy.memberNodes (algorithm : Algorithm) : List Policy → Scene → List Node
  | [], _ => []
  | member :: rest, scene =>
    let visited := traced member.name member.evaluate scene
    .member (member.inSection scene) (member.nodes (member.inSection scene).scene) ::
      if algorithm.endedBy visited.1 then [] else Policy.memberNodes algorithm rest visited.2

end

def Visit.nodes (visit : Visit) : List Node := visit.policy.nodes visit.scene

def Call.node (call : Call) : Node := .enforcement call call.visit.nodes

theorem traced_fst (policy : Policy) (scene : Scene) :
    (traced policy.name policy.evaluate scene).1 = (policy.inSection scene).result := by
  unfold traced Visit.result Policy.inSection
  cases policy.evaluate (scene.write policy.name).indent with
  | mk result after => cases result <;> rfl

theorem Call.outcome_eq (call : Call) :
    call.outcome = call.visit.result.map fun own =>
      { own, decision := own.withBias (call.point.biasFor call.bias) } := by
  obtain ⟨point, bias, policy, scene⟩ := call
  unfold outcome visit Visit.result Policy.inSection EnforcementPoint.enforcePolicy
    EnforcementPoint.enforce
  dsimp only
  cases policy.evaluate (scene.write policy.name).indent with
  | mk result after => cases result <;> rfl

theorem Call.last_of_ok {call : Call} {own : Decision} (came : call.visit.result = .ok own) :
    let bias := call.point.biasFor call.bias
    let decision := own.withBias bias
    call.last = call.point.succeed bias call.policy.name ⟨own, decision⟩ call.scene.stats
      (call.visit.last.write (resultLine decision)).unindent := by
  obtain ⟨point, bias, policy, scene⟩ := call
  change (policy.evaluate (scene.write policy.name).indent).1 = .ok own at came
  unfold last visit Visit.last Policy.inSection EnforcementPoint.enforcePolicy
    EnforcementPoint.enforce
  dsimp only
  cases ran : policy.evaluate (scene.write policy.name).indent with
  | mk result after =>
      rw [ran] at came
      cases came
      rfl

theorem Call.last_of_error {call : Call} {error : Error}
    (came : call.visit.result = .error error) :
    call.last = call.point.fail call.policy.name error call.visit.last.unindent := by
  obtain ⟨point, bias, policy, scene⟩ := call
  change (policy.evaluate (scene.write policy.name).indent).1 = .error error at came
  unfold last visit Visit.last Policy.inSection EnforcementPoint.enforcePolicy
    EnforcementPoint.enforce
  dsimp only
  cases ran : policy.evaluate (scene.write policy.name).indent with
  | mk result after =>
      rw [ran] at came
      cases came
      rfl

section

variable {algorithm : Algorithm} {member : Policy} {scene : Scene}

theorem Policy.memberNodes_of_ended (rest : List Policy)
    (ended : algorithm.endedBy (traced member.name member.evaluate scene).1 = true) :
    Policy.memberNodes algorithm (member :: rest) scene =
      [.member (member.inSection scene) (member.inSection scene).nodes] :=
  congrArg (List.cons _) (if_pos ended)

theorem Policy.memberNodes_of_goes_on (rest : List Policy)
    (goesOn : algorithm.endedBy (traced member.name member.evaluate scene).1 = false) :
    Policy.memberNodes algorithm (member :: rest) scene =
      .member (member.inSection scene) (member.inSection scene).nodes ::
        Policy.memberNodes algorithm rest (traced member.name member.evaluate scene).2 :=
  congrArg (List.cons _) (if_neg (Bool.eq_false_iff.mp goesOn))

end

/-! ### Runs along their trees -/

mutual

/-- Whatever a run asks of its scene, however deep inside, it may ask. -/
inductive Procedure.Within (may : Request → Prop) : Procedure → Prop
  | done (result : Except Error Decision) : Procedure.Within may (.done result)
  | ask (request : Request) (next : request.Answer → Procedure) (allowed : may request)
      (goes : ∀ answer, Procedure.Within may (next answer)) :
      Procedure.Within may (.ask request next)
  | evaluate (policy : Policy) (next : Except Error Decision → Procedure)
      (own : Policy.Within may policy) (goes : ∀ result, Procedure.Within may (next result)) :
      Procedure.Within may (.evaluate policy next)
  | enforce (point : EnforcementPoint) (bias : Option Bias) (policy : Policy)
      (next : Except Error Decision → Procedure) (own : Policy.Within may policy)
      (goes : ∀ result, Procedure.Within may (next result)) :
      Procedure.Within may (.enforce point bias policy next)

inductive Policy.Within (may : Request → Prop) : Policy → Prop
  | rule (name : String) (body : Procedure) (own : Procedure.Within may body) :
      Policy.Within may (.rule name body)
  | combined (algorithm : Algorithm) (members : List Policy)
      (all : ∀ member ∈ members, Policy.Within may member) :
      Policy.Within may (.combined algorithm members)

end

mutual

theorem Procedure.within_all (body : Procedure) : body.Within fun _ => True := by
  match body with
  | .done result => exact .done result
  | .ask request next => exact .ask request next trivial fun answer => (next answer).within_all
  | .evaluate policy next =>
      exact .evaluate policy next policy.within_all fun result => (next result).within_all
  | .enforce point bias policy next =>
      exact .enforce point bias policy next policy.within_all fun result =>
        (next result).within_all

theorem Policy.within_all (policy : Policy) : policy.Within fun _ => True := by
  match policy with
  | .rule name body => exact .rule name body body.within_all
  | .combined algorithm members =>
      exact .combined algorithm members (Policy.members_within_all members)

theorem Policy.members_within_all (members : List Policy) :
    ∀ member ∈ members, member.Within fun _ => True := by
  match members with
  | [] => exact fun _ within => nomatch within
  | policy :: rest =>
      intro member within
      rcases List.mem_cons.mp within with same | later
      · rw [same]
        exact policy.within_all
      · exact Policy.members_within_all rest member later

end

/-- What nodes tell of the scenes before and after them. It is put together along a tree: of nothing, of
nodes one after the other, of an answered request, and of a node from what is inside of it. -/
structure Scene.AlongTree (may : Request → Prop) (told : List Node → Scene → Scene → Prop) :
    Prop where
  refl : ∀ scene, told [] scene scene
  trans : ∀ {early late first second third}, told early first second → told late second third →
    told (early ++ late) first third
  answer : ∀ request, may request → ∀ scene,
    told ((request.queries (Scene.query scene)).map .request) scene (Scene.answer request scene).2
  evaluation : ∀ visit : Visit, told visit.nodes visit.scene visit.last →
    told [.evaluation visit visit.nodes] visit.scene visit.last
  member : ∀ (policy : Policy) (scene : Scene),
    told (policy.inSection scene).nodes (policy.inSection scene).scene
      (policy.inSection scene).last →
    told [.member (policy.inSection scene) (policy.inSection scene).nodes] scene
      (traced policy.name policy.evaluate scene).2
  enforcement : ∀ call : Call, told call.visit.nodes call.visit.scene call.visit.last →
    told [call.node] call.scene call.last

section

variable {may : Request → Prop} {told : List Node → Scene → Scene → Prop}

mutual

theorem Procedure.run_told (along : Scene.AlongTree may told) (body : Procedure)
    (within : body.Within may) (scene : Scene) : told (body.nodes scene) scene (body.run scene).2 := by
  match body, within with
  | .done result, _ => exact along.refl scene
  | .ask request next, .ask _ _ allowed goes =>
      have asked := along.answer request allowed scene
      exact along.trans asked (Procedure.run_told along (next _) (goes _) _)
  | .evaluate policy next, .evaluate _ _ own goes =>
      have first := along.evaluation ⟨policy, scene⟩ (Policy.evaluate_told along policy own scene)
      exact along.trans first (Procedure.run_told along (next _) (goes _) _)
  | .enforce point bias policy next, .enforce _ _ _ _ own goes =>
      have first := along.enforcement ⟨point, bias, policy, scene⟩
        (Policy.evaluate_told along policy own _)
      exact along.trans first (Procedure.run_told along (next _) (goes _) _)

theorem Policy.evaluate_told (along : Scene.AlongTree may told) (policy : Policy)
    (within : policy.Within may) (scene : Scene) :
    told (policy.nodes scene) scene (policy.evaluate scene).2 := by
  match policy, within with
  | .rule name body, .rule _ _ own => exact Procedure.run_told along body own scene
  | .combined algorithm members, .combined _ _ all =>
      have reached := Policy.members_told along algorithm members all algorithm.verdict scene
      change told _ scene (algorithm.combine (Policy.sections members) scene).2
      rw [Algorithm.combine_eq_table]
      exact reached

theorem Policy.members_told (along : Scene.AlongTree may told) (algorithm : Algorithm)
    (members : List Policy) (within : ∀ member ∈ members, member.Within may)
    (settle : List Decision → Decision) (scene : Scene) :
    told (Policy.memberNodes algorithm members scene) scene
      (algorithm.tableBy settle (Evaluation.visits (Policy.sections members) scene) scene).2 := by
  match members with
  | [] => exact along.refl scene
  | member :: rest =>
      have others (other : Policy) (among : other ∈ rest) : other.Within may :=
        within other (List.mem_cons_of_mem _ among)
      have first := along.member member scene
        (Policy.evaluate_told along member (within member List.mem_cons_self) _)
      unfold Policy.sections Evaluation.visits
      -- Members behind the one that ends the combination are neither run nor in the tree.
      by_cases ended : algorithm.endedBy (traced member.name member.evaluate scene).1 = true
      · rw [Algorithm.tableBy_of_ended _ _ _ ended, Policy.memberNodes_of_ended rest ended]
        exact first
      · have goesOn := Bool.eq_false_iff.mpr ended
        rw [Policy.memberNodes_of_goes_on rest goesOn]
        cases visited : traced member.name member.evaluate scene with
        | mk outcome next =>
            rw [visited] at first goesOn
            cases outcome with
            | error error =>
                rw [algorithm.endedBy_error error] at goesOn
                cases goesOn
            | ok decision =>
                rw [Algorithm.tableBy_of_goes_on _ _ _ goesOn]
                exact along.trans first (Policy.members_told along algorithm rest others _ next)

end

theorem Call.node_told (along : Scene.AlongTree may told) (call : Call)
    (within : call.policy.Within may) : told [call.node] call.scene call.last :=
  along.enforcement call (Policy.evaluate_told along call.policy within call.visit.scene)

end

end AccessPolicy
