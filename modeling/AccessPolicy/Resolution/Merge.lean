/-
Merging contexts. The merged context has the points of both, so that the last point of a key comes
from the right one if it has any, and the cached values of both, where the right one wins again. It
starts with an empty trace and without counts.
-/

import AccessPolicy.Resolution.Context

namespace AccessPolicy.Context

def merge (left right : Context) : Context :=
  { points := left.points ++ right.points
    memory := { cache := left.memory.cache.union right.memory.cache } }

end AccessPolicy.Context
