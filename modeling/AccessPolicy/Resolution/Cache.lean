/-
The values that a context has resolved, by name.
-/

import AccessPolicy.Attribute.Kind

namespace AccessPolicy

structure Cache where
  entries : List (String × Value) := []

namespace Cache

def find? (cache : Cache) (name : String) : Option Value := cache.entries.lookup name

def size (cache : Cache) : Nat := cache.entries.length

def names (cache : Cache) : List String := cache.entries.map Prod.fst

def insert (cache : Cache) (name : String) (value : Value) : Cache :=
  { entries := (name, value) :: cache.entries.filter fun entry => entry.1 ≠ name }

/-- The entries of both; the right one wins. -/
def union (left right : Cache) : Cache :=
  { entries := right.entries ++ left.entries.filter fun entry => (right.find? entry.1).isNone }

end Cache

end AccessPolicy
