/-
Contexts that one host serves. Clients come one after the other, each to one of the contexts; the journal
and the meters of the host are common to all of them.
-/

import AccessPolicy.Enforcement.Evaluate

namespace AccessPolicy

structure Service where
  host : Host
  contexts : List EvaluationContext

namespace Service

def attend (service : Service) (place : Nat) (client : Procedure) : Service :=
  match service.contexts[place]? with
  | none => service
  | some context =>
    let scene := (client.run (service.host.scene context)).2
    { host := scene.toHost, contexts := service.contexts.set place scene.context }

def serve (service : Service) : List (Nat × Procedure) → Service
  | [] => service
  | (place, client) :: clients => (service.attend place client).serve clients

end Service

end AccessPolicy
