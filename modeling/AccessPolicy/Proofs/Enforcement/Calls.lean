/-
The enforcements of a run. A tree tells which enforcements a run makes and in which order they end; along
every run a meter records the enforcements that count on it, each once and in this order, and nothing else.
-/

import AccessPolicy.Proofs.Engine.Tree
import AccessPolicy.Proofs.Enforcement.Metering

namespace AccessPolicy

/-! ### The enforcements of a run -/

mutual

/-- The enforcements in a tree in the order in which they end. -/
def Node.calls : Node → List Call
  | .request _ => []
  | .evaluation _ inside => Node.allCalls inside
  | .member _ inside => Node.allCalls inside
  | .enforcement call inside => Node.allCalls inside ++ [call]

def Node.allCalls : List Node → List Call
  | [] => []
  | node :: rest => node.calls ++ Node.allCalls rest

end

theorem Node.allCalls_append (early late : List Node) :
    Node.allCalls (early ++ late) = Node.allCalls early ++ Node.allCalls late := by
  induction early with
  | nil => rfl
  | cons node rest ih => exact (congrArg _ ih).trans (List.append_assoc _ _ _).symm

theorem Node.allCalls_requests (queries : List Query) :
    Node.allCalls (queries.map .request) = [] := by
  induction queries with
  | nil => rfl
  | cons query rest ih => exact ih

/-- The enforcements in a tree that the meter at a place counts. -/
def Node.countedCalls (place : Nat) (nodes : List Node) : List Call :=
  (Node.allCalls nodes).filter fun call => call.point.meter = some place

theorem Node.countedCalls_append (place : Nat) (early late : List Node) :
    Node.countedCalls place (early ++ late) =
      Node.countedCalls place early ++ Node.countedCalls place late := by
  unfold countedCalls
  rw [allCalls_append, List.filter_append]

theorem Node.countedCalls_requests (place : Nat) (queries : List Query) :
    Node.countedCalls place (queries.map .request) = [] := by
  unfold countedCalls
  rw [allCalls_requests]
  rfl

theorem Node.countedCalls_evaluation (place : Nat) (visit : Visit) (inside : List Node) :
    Node.countedCalls place [.evaluation visit inside] = Node.countedCalls place inside := by
  have same : Node.allCalls [.evaluation visit inside] = Node.allCalls inside := List.append_nil _
  unfold countedCalls
  rw [same]

theorem Node.countedCalls_member (place : Nat) (visit : Visit) (inside : List Node) :
    Node.countedCalls place [.member visit inside] = Node.countedCalls place inside :=
  Node.countedCalls_evaluation place visit inside

theorem Node.countedCalls_enforcement (place : Nat) (call : Call) (inside : List Node) :
    Node.countedCalls place [.enforcement call inside] =
      Node.countedCalls place inside ++ if call.point.meter = some place then [call] else [] := by
  have same : Node.allCalls [.enforcement call inside] = Node.allCalls inside ++ [call] :=
    List.append_nil _
  unfold countedCalls
  rw [same, List.filter_append]
  by_cases counted : call.point.meter = some place
  · simp [counted]
  · simp [counted]

/-! ### Recording -/

/-- A meter records what an enforcement has come to, and what its context has counted meanwhile. -/
def Meter.record (meter : Meter) (call : Call) : Meter :=
  match call.outcome with
  | .ok outcome =>
    meter.recordEvaluation outcome.own outcome.decision 0.0
      (call.last.stats.since call.scene.stats)
  | .error error => meter.recordError error

namespace Meter

variable {call : Call} (meter : Meter)

theorem record_of_ok {outcome : Outcome} (came : call.outcome = .ok outcome) :
    meter.record call = meter.recordEvaluation outcome.own outcome.decision 0.0
      (call.last.stats.since call.scene.stats) := by
  unfold record
  rw [came]

theorem record_of_error {error : Error} (came : call.outcome = .error error) :
    meter.record call = meter.recordError error := by
  unfold record
  rw [came]

end Meter

namespace Scene

/-- The meter at a place has recorded the enforcements that count on it, and nothing else. -/
def Records (place : Nat) (nodes : List Node) (before after : Scene) : Prop :=
  after.meters[place]? =
    before.meters[place]?.map fun meter => (Node.countedCalls place nodes).foldl Meter.record meter

namespace Records

variable {place : Nat} {first second third : Scene} {early late : List Node}

theorem of_same (meters : second.meters = first.meters)
    (none : Node.countedCalls place early = []) : Records place early first second := by
  unfold Records
  rw [meters, none]
  exact Option.map_id_apply.symm

theorem trans (left : Records place early first second) (right : Records place late second third) :
    Records place (early ++ late) first third := by
  unfold Records
  rw [right, left, Option.map_map, Node.countedCalls_append]
  congr 1
  funext meter
  exact (List.foldl_append ..).symm

end Records

theorem meters_traced (name : String) (evaluate : Evaluation Scene) (scene : Scene) :
    (traced name evaluate scene).2.meters = (evaluate (scene.write name).indent).2.meters := by
  unfold traced
  cases evaluate (scene.write name).indent with
  | mk result after => cases result <;> rfl

theorem getElem?_updateMeter_eq_ite (scene : Scene) (meter : Option Nat) (place : Nat)
    (update : Meter → Meter) :
    (scene.updateMeter meter update).meters[place]? =
      if meter = some place then scene.meters[place]?.map update else scene.meters[place]? := by
  cases meter with
  | none => rfl
  | some index =>
      rw [getElem?_updateMeter]
      by_cases same : index = place
      · rw [if_pos same, if_pos (congrArg some same)]
      · rw [if_neg same, if_neg fun other => same (Option.some.inj other)]

end Scene

theorem Call.meters_last (call : Call) (place : Nat) :
    call.last.meters[place]? =
      if call.point.meter = some place then
        call.visit.last.meters[place]?.map fun meter => meter.record call
      else call.visit.last.meters[place]? := by
  have outcome := call.outcome_eq
  cases came : call.visit.result with
  | ok own =>
      rw [came] at outcome
      simp only [Meter.record_of_ok _ outcome]
      -- The counts are read when the section has ended, which changes none of them.
      let line := resultLine (own.withBias (call.point.biasFor call.bias))
      have ended := last_of_ok came
      have stats : call.last.stats = (call.visit.last.write line).unindent.stats := by
        rw [ended]
        exact Scene.stats_updateMeter _ _ _
      rw [stats, ended]
      exact Scene.getElem?_updateMeter_eq_ite _ call.point.meter place _
  | error error =>
      rw [came] at outcome
      simp only [Meter.record_of_error _ outcome]
      rw [last_of_error came]
      exact Scene.getElem?_updateMeter_eq_ite _ call.point.meter place _

theorem Scene.Records.along (place : Nat) :
    Scene.AlongTree (fun _ => True) (Scene.Records place) where
  refl scene := .of_same rfl rfl
  trans := .trans
  answer request _ scene := .of_same rfl (Node.countedCalls_requests place _)
  evaluation visit inside := by
    unfold Records at inside ⊢
    rw [inside, Node.countedCalls_evaluation]
  member policy scene inside := by
    unfold Records at inside ⊢
    rw [Node.countedCalls_member, Scene.meters_traced]
    exact inside
  enforcement call inside := by
    have ended := call.meters_last place
    unfold Records at inside ⊢
    rw [ended, inside]
    unfold Call.node
    rw [Node.countedCalls_enforcement]
    by_cases counted : call.point.meter = some place
    · rw [if_pos counted, if_pos counted, Option.map_map]
      congr 1
      funext meter
      exact (List.foldl_concat ..).symm
    · rw [if_neg counted, if_neg counted, List.append_nil]
      rfl

/-! ### Services -/

namespace Service

/-- What comes about while a client is attended to. -/
def attendNodes (service : Service) (room : Nat) (client : Procedure) : List Node :=
  match service.contexts[room]? with
  | none => []
  | some context => client.nodes (service.host.scene context)

def nodes (service : Service) : List (Nat × Procedure) → List Node
  | [] => []
  | (room, client) :: clients =>
    service.attendNodes room client ++ (service.attend room client).nodes clients

theorem attend_records (service : Service) (room : Nat) (client : Procedure) (place : Nat) :
    (service.attend room client).host.meters[place]? = service.host.meters[place]?.map fun meter =>
      (Node.countedCalls place (service.attendNodes room client)).foldl Meter.record meter := by
  unfold attend attendNodes
  cases service.contexts[room]? with
  | none => exact Option.map_id_apply.symm
  | some context =>
      exact client.run_told (Scene.Records.along place) client.within_all
        (service.host.scene context)

theorem serve_records (service : Service) (clients : List (Nat × Procedure)) (place : Nat) :
    (service.serve clients).host.meters[place]? = service.host.meters[place]?.map fun meter =>
      (Node.countedCalls place (service.nodes clients)).foldl Meter.record meter := by
  induction clients generalizing service with
  | nil => exact Option.map_id_apply.symm
  | cons client clients ih =>
      have first := service.attend_records client.1 client.2 place
      have rest := ih (service.attend client.1 client.2)
      rw [first, Option.map_map] at rest
      unfold serve nodes
      rw [rest, Node.countedCalls_append]
      congr 1
      funext meter
      exact (List.foldl_append ..).symm

end Service

end AccessPolicy
