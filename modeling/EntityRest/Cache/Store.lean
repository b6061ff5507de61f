import EntityRest.Cache.Local

/-!
# Caches as a service sees them

The operations on a cache that answering requests needs. Each may fail, and then changes nothing.
-/

namespace EntityRest

/-- A cache with contents of type `κ`. The first argument of an operation that depends on the time
is the time at which it happens. -/
structure CacheStore (κ : Type) where
  /-- Looks up a key. -/
  get : Nat → String → κ → Option (Option String)
  /-- Stores a text under a key, for a time or for good. -/
  set : Nat → String → String → Option Nat → κ → Option κ
  /-- Takes out every key that starts with a text. -/
  sweep : String → κ → Option κ

namespace CacheStore

variable {κ : Type}

/-- No cache: nothing is found, and nothing is stored. -/
def disabled : CacheStore κ := ⟨fun _ _ _ => some none, fun _ _ _ _ c => some c, fun _ c => some c⟩

/-- The local cache, which never fails. -/
def ofLocal : CacheStore LocalCache where
  get now key c := some (c.get? now key)
  set now key value ttl c := some (c.set now key value ttl)
  sweep start c := some (c.deletePrefix start)

/-- A cache out of reach: every operation fails. -/
def unreachable : CacheStore κ := ⟨fun _ _ _ => none, fun _ _ _ _ _ => none, fun _ _ => none⟩

end CacheStore

end EntityRest
