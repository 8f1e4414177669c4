/-
The state of a resolution. A context has a fixed list of information points and remembers what it
has resolved, reported and counted; the keys in flight are those whose points are running, outermost
first. Around the context stands a journal: the counters of the host and the events for its log.
-/

import AccessPolicy.Attribute.Point
import AccessPolicy.Report
import AccessPolicy.Resolution.Cache
import AccessPolicy.Telemetry.Event

namespace AccessPolicy

/-! ### Registered points -/

/-- The point registered for a name is the last one of that name. -/
def registered? (points : List InformationPoint) (name : String) : Option InformationPoint :=
  points.reverse.find? fun point => point.name = name

def registeredNames (points : List InformationPoint) : List String :=
  (points.map InformationPoint.name).eraseDups

/-! ### Journal -/

structure Journal where
  counters : List (String × Nat) := []
  events : List Event := []

namespace Journal

def counter (journal : Journal) (name : String) : Nat := (journal.counters.lookup name).getD 0

def count (journal : Journal) (name : String) : Journal :=
  { journal with
    counters := (name, journal.counter name + 1)
      :: journal.counters.filter fun entry => entry.1 ≠ name }

def log (journal : Journal) (event : Event) : Journal :=
  { journal with events := journal.events ++ [event] }

end Journal

/-! ### What requests change -/

structure Memory where
  cache : Cache := {}
  report : Report := {}
  stats : ResolutionStats := {}

structure Store where
  memory : Memory
  journal : Journal

namespace Store

def write (store : Store) (message : String) : Store :=
  { store with memory.report := store.memory.report.write message }

def indent (store : Store) : Store :=
  { store with memory.report := store.memory.report.indent }

def unindent (store : Store) : Store :=
  { store with memory.report := store.memory.report.unindent }

def log (store : Store) (event : Event) : Store :=
  { store with journal := store.journal.log event }

def count (store : Store) (counter : String) : Store :=
  { store with journal := store.journal.count counter }

def hit (store : Store) (name : String) : Store :=
  let store := (store.log (.cacheHit name)).write ("Requested " ++ showKey name ++ ", cache-hit")
  { store with memory.stats.cacheHits := store.memory.stats.cacheHits + 1 }

def keep (store : Store) (name : String) (value : Value) : Store :=
  let store := store.write ("Requested " ++ showKey name ++ ", cache-miss: " ++ value.debug)
  { store with
    memory.cache := store.memory.cache.insert name value
    memory.stats.cacheMisses := store.memory.stats.cacheMisses + 1 }

def notFound (store : Store) (name : String) : Store :=
  store.write ("Requested " ++ showKey name ++ ", no provider found")

def answer (resolve : String → Store → Except Error Value × Store) :
    (request : Request) → Store → request.Answer × Store
  | .resolve name, store => resolve name store
  | .report message, store => ((), store.write message)
  | .indent, store => ((), store.indent)
  | .unindent, store => ((), store.unindent)
  | .stats, store => (store.memory.stats, store)
  | .trace, store => (store.memory.report.text, store)
  | .count counter, store => ((store.count counter).journal.counter counter, store.count counter)

end Store

/-! ### Contexts -/

structure Context where
  points : List InformationPoint
  inFlight : List String := []
  memory : Memory := {}

namespace Context

def new (points : List InformationPoint) : Context := { points }

def registeredLen (context : Context) : Nat := (registeredNames context.points).length

def cachedLen (context : Context) : Nat := context.memory.cache.size

def debug (context : Context) : String :=
  let stats := context.memory.stats
  let cached := context.memory.cache.names.mergeSort fun first second => first ≤ second
  showFields "ResolutionContext"
    [("providers", showList InformationPoint.debug context.points),
      ("cached", showList Text.quote cached),
      ("stats", showFields "ResolutionStats"
        [("cache_hits", Text.natural stats.cacheHits),
          ("cache_misses", Text.natural stats.cacheMisses)])]

end Context

end AccessPolicy
