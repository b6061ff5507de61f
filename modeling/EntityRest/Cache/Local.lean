import EntityRest.Text.Split

/-!
# The local cache

A map from keys to texts whose entries may expire. Expired entries are not seen; they are dropped
when anything is stored.
-/

namespace EntityRest

/-- A cached text, and the time from which it is no longer seen. -/
structure CacheEntry where
  key : String
  value : String
  expires : Option Nat
deriving DecidableEq

def CacheEntry.isLive (now : Nat) (e : CacheEntry) : Bool :=
  match e.expires with
  | some t => now < t
  | none => true

/-- A map with expiry, with one entry for a key. -/
structure LocalCache where
  entries : List CacheEntry := []
deriving DecidableEq

namespace LocalCache

def get? (c : LocalCache) (now : Nat) (key : String) : Option String :=
  match c.entries.find? fun e => e.key = key with
  | some e => if e.isLive now then some e.value else none
  | none => none

def delete (c : LocalCache) (key : String) : LocalCache :=
  ⟨c.entries.filter fun e => e.key ≠ key⟩

/-- Drops what has expired and stores a text, for a time or for good. -/
def set (c : LocalCache) (now : Nat) (key value : String) (ttl : Option Nat) : LocalCache :=
  let live : LocalCache := ⟨c.entries.filter fun e => e.isLive now⟩
  ⟨(live.delete key).entries ++ [⟨key, value, ttl.map (now + ·)⟩]⟩

def deletePrefix (c : LocalCache) (start : String) : LocalCache :=
  ⟨c.entries.filter fun e => !Text.startsWith start e.key⟩

/-- The number of entries, expired ones included. -/
def size (c : LocalCache) : Nat := c.entries.length

/-- How many entries go when every key that starts with the given text is taken out. -/
def removed (c : LocalCache) (start : String) : Nat := c.size - (c.deletePrefix start).size

/-- Takes out the given keys and every key that starts with the given text. -/
def invalidate (c : LocalCache) (start : String) (keys : List String) : LocalCache :=
  (keys.foldl delete c).deletePrefix start

end LocalCache

end EntityRest
