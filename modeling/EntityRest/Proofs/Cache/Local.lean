import EntityRest.Cache.Local
import EntityRest.Proofs.Schema.Registry

/-! # The local cache as a map with expiry

After any run of operations at times that do not go back, what is seen under a key is what the last
operation on that key stored there, until that expires. Expired entries may still be stored, but
they stay unseen, whichever operation drops them. -/

namespace EntityRest

/-- An operation on a cache. -/
inductive CacheOp where
  | get (key : String)
  | set (key value : String) (ttl : Option Nat)
  | delete (key : String)
  | deletePrefix (start : String)
  | invalidate (start : String) (keys : List String)
deriving DecidableEq

/-- Does the operation decide what is under the key? -/
def CacheOp.affects (key : String) : CacheOp → Bool
  | get _ => false
  | set k _ _ | delete k => k = key
  | deletePrefix start => Text.startsWith start key
  | invalidate start keys => Text.startsWith start key || keys.contains key

/-- Operations with their times, one after the other. -/
abbrev CacheRun := List (Nat × CacheOp)

namespace CacheRun

/-- The last operation that decides what is under the key. -/
def lastOn? (run : CacheRun) (key : String) : Option (Nat × CacheOp) :=
  (run.filter fun o => o.2.affects key).getLast?

theorem lastOn?_concat (run : CacheRun) (now : Nat) (op : CacheOp) (key : String) :
    lastOn? (run ++ [(now, op)]) key =
      if op.affects key then some (now, op) else run.lastOn? key := by
  unfold lastOn?
  rw [List.filter_append]
  by_cases h : op.affects key
  · simp [h]
  · simp [h]

end CacheRun

/-- The entry of a text that is stored at a time. -/
def CacheEntry.ofSet (now : Nat) (key value : String) (ttl : Option Nat) : CacheEntry :=
  ⟨key, value, ttl.map (now + ·)⟩

namespace CacheEntry

variable {now t : Nat} {key value : String} {ttl : Option Nat} {e : CacheEntry}

theorem isLive_ofSet : (ofSet now key value ttl).isLive t ↔ ∀ d ∈ ttl, t < now + d := by
  cases ttl <;> simp [isLive, ofSet]

theorem isLive_of_le (h : e.isLive t) (hnow : now ≤ t) : e.isLive now := by
  unfold isLive at *
  split at h
  · exact decide_eq_true (Nat.lt_of_le_of_lt hnow (of_decide_eq_true h))
  · rfl

end CacheEntry

namespace LocalCache

open CacheEntry (ofSet isLive_ofSet isLive_of_le)

variable {c : LocalCache} {now t : Nat} {key value start : String} {keys : List String}
  {ttl : Option Nat} {e : CacheEntry}

/-! ## What is stored after an operation -/

theorem mem_set : e ∈ (c.set now key value ttl).entries ↔
    (e ∈ c.entries ∧ e.isLive now ∧ e.key ≠ key) ∨ e = ofSet now key value ttl := by
  simp only [set, delete, ofSet, List.mem_append, List.mem_filter, List.mem_singleton, and_assoc,
    decide_eq_true_eq]

theorem mem_delete : e ∈ (c.delete key).entries ↔ e ∈ c.entries ∧ e.key ≠ key := by
  simp [delete]

theorem mem_deletePrefix :
    e ∈ (c.deletePrefix start).entries ↔ e ∈ c.entries ∧ ¬ Text.startsWith start e.key := by
  simp [deletePrefix]

theorem mem_deleteAll : e ∈ (keys.foldl delete c).entries ↔ e ∈ c.entries ∧ e.key ∉ keys := by
  induction keys generalizing c with
  | nil => simp
  | cons k keys ih => rw [List.foldl_cons, ih, mem_delete, List.mem_cons, not_or, and_assoc]

/-! ## One entry for a key -/

/-- No key has two entries. -/
def Distinct (c : LocalCache) : Prop := (c.entries.map CacheEntry.key).Nodup

namespace Distinct

theorem filter (h : c.Distinct) (p : CacheEntry → Bool) : Distinct ⟨c.entries.filter p⟩ :=
  h.sublist (List.filter_sublist.map _)

theorem deleteAll (h : c.Distinct) : (keys.foldl delete c).Distinct := by
  induction keys generalizing c with
  | nil => exact h
  | cons k keys ih => exact ih (h.filter _)

theorem set (h : c.Distinct) : (c.set now key value ttl).Distinct := by
  have hrest : (delete ⟨c.entries.filter fun e => e.isLive now⟩ key).Distinct :=
    (h.filter _).filter _
  unfold Distinct LocalCache.set
  rw [List.map_append, List.nodup_append]
  refine ⟨hrest, List.nodup_singleton _, ?_⟩
  rintro k hk k' hk' rfl
  obtain ⟨e, he, rfl⟩ := List.mem_map.mp hk
  exact (mem_delete.mp he).2 (List.mem_singleton.mp hk')

/-- A text is found exactly if it is stored and has not expired. -/
theorem get?_eq_some_iff (h : c.Distinct) :
    c.get? t key = some value ↔ ∃ e ∈ c.entries, e.key = key ∧ e.value = value ∧ e.isLive t := by
  unfold get?
  constructor
  · intro hget
    split at hget
    · rename_i e he
      obtain ⟨hmem, hkey⟩ := (find?_key_eq_some_iff h).mp he
      split at hget
      · exact ⟨e, hmem, hkey, Option.some.inj hget, ‹_›⟩
      · cases hget
    · cases hget
  · rintro ⟨e, he, hkey, rfl, hlive⟩
    rw [(find?_key_eq_some_iff h).mpr ⟨he, hkey⟩]
    exact if_pos hlive

end Distinct

/-! ## Runs -/

def apply (now : Nat) (c : LocalCache) : CacheOp → LocalCache
  | .get _ => c
  | .set key value ttl => c.set now key value ttl
  | .delete key => c.delete key
  | .deletePrefix start => c.deletePrefix start
  | .invalidate start keys => c.invalidate start keys

def applyAll (c : LocalCache) (run : CacheRun) : LocalCache :=
  run.foldl (fun c o => c.apply o.1 o.2) c

theorem Distinct.apply (h : c.Distinct) (op : CacheOp) : (c.apply now op).Distinct := by
  cases op with
  | get key => exact h
  | set key value ttl => exact h.set
  | delete key => exact h.filter _
  | deletePrefix start => exact h.filter _
  | invalidate start keys => exact h.deleteAll.filter _

theorem mem_apply {op : CacheOp} (h : e ∈ (c.apply now op).entries) :
    (∃ ttl, op = .set e.key e.value ttl ∧ e = ofSet now e.key e.value ttl) ∨
      e ∈ c.entries ∧ op.affects e.key = false := by
  cases op with
  | get key => exact .inr ⟨h, rfl⟩
  | set key value ttl =>
      obtain ⟨hmem, -, hkey⟩ | rfl := mem_set.mp h
      · exact .inr ⟨hmem, decide_eq_false hkey.symm⟩
      · exact .inl ⟨ttl, rfl, rfl⟩
  | delete key =>
      obtain ⟨hmem, hkey⟩ := mem_delete.mp h
      exact .inr ⟨hmem, decide_eq_false hkey.symm⟩
  | deletePrefix start =>
      obtain ⟨hmem, hstart⟩ := mem_deletePrefix.mp h
      exact .inr ⟨hmem, Bool.eq_false_iff.mpr hstart⟩
  | invalidate start keys =>
      obtain ⟨hmem, hstart⟩ := mem_deletePrefix.mp h
      obtain ⟨hmem, hkey⟩ := mem_deleteAll.mp hmem
      refine .inr ⟨hmem, ?_⟩
      simp [CacheOp.affects, hkey, hstart]

/-- An entry that an operation does not affect stays, unless it has expired. -/
theorem mem_apply_of_isLive {op : CacheOp} (h : e ∈ c.entries) (hlive : e.isLive now)
    (hop : op.affects e.key = false) : e ∈ (c.apply now op).entries := by
  cases op with
  | get key => exact h
  | set key value ttl => exact mem_set.mpr (.inl ⟨h, hlive, Ne.symm (of_decide_eq_false hop)⟩)
  | delete key => exact mem_delete.mpr ⟨h, Ne.symm (of_decide_eq_false hop)⟩
  | deletePrefix start => exact mem_deletePrefix.mpr ⟨h, Bool.eq_false_iff.mp hop⟩
  | invalidate start keys =>
      simp only [CacheOp.affects, Bool.or_eq_false_iff, List.contains_eq_mem,
        decide_eq_false_iff_not] at hop
      exact mem_deletePrefix.mpr ⟨mem_deleteAll.mpr ⟨h, hop.2⟩, Bool.eq_false_iff.mp hop.1⟩

/-- What is stored is what the run stored last, and all of that is stored which has not expired. -/
structure Reflects (c : LocalCache) (run : CacheRun) (now : Nat) : Prop where
  distinct : c.Distinct
  stored : ∀ e ∈ c.entries, ∃ s ttl,
    run.lastOn? e.key = some (s, .set e.key e.value ttl) ∧ e = ofSet s e.key e.value ttl
  kept : ∀ s key value ttl, run.lastOn? key = some (s, .set key value ttl) →
    (ofSet s key value ttl).isLive now → ofSet s key value ttl ∈ c.entries

theorem reflects_nil (now : Nat) : Reflects {} [] now where
  distinct := List.nodup_nil
  stored _ h := absurd h List.not_mem_nil
  kept _ _ _ _ h := by cases h

namespace Reflects

variable {run : CacheRun}

theorem mono (h : c.Reflects run now) (hnow : now ≤ t) : c.Reflects run t where
  distinct := h.distinct
  stored := h.stored
  kept s key value ttl hlast hlive := h.kept s key value ttl hlast (isLive_of_le hlive hnow)

theorem apply (h : c.Reflects run now) (op : CacheOp) :
    (c.apply now op).Reflects (run ++ [(now, op)]) now where
  distinct := h.distinct.apply op
  stored e he := by
    rw [CacheRun.lastOn?_concat]
    obtain ⟨ttl, rfl, heq⟩ | ⟨hold, hop⟩ := mem_apply he
    · exact ⟨now, ttl, if_pos (decide_eq_true rfl), heq⟩
    · rw [hop]
      exact h.stored e hold
  kept s key value ttl hlast hlive := by
    rw [CacheRun.lastOn?_concat] at hlast
    split at hlast
    · obtain ⟨rfl, rfl⟩ := Prod.mk.inj (Option.some.inj hlast)
      exact mem_set.mpr (.inr rfl)
    · rename_i hop
      have hold := h.kept s key value ttl hlast hlive
      exact mem_apply_of_isLive hold hlive (Bool.eq_false_iff.mpr hop)

theorem applyAll {more : CacheRun} (h : c.Reflects run now)
    (htimes : (now :: (more.map Prod.fst ++ [t])).Pairwise (· ≤ ·)) :
    (c.applyAll more).Reflects (run ++ more) t := by
  induction more generalizing c run now with
  | nil =>
      rw [List.append_nil]
      exact h.mono (List.rel_of_pairwise_cons htimes List.mem_cons_self)
  | cons o more ih =>
      have hnow : now ≤ o.1 := List.rel_of_pairwise_cons htimes List.mem_cons_self
      have hrest := ih ((h.mono hnow).apply o.2) htimes.of_cons
      rwa [List.append_assoc] at hrest

theorem get?_eq_some_iff (h : c.Reflects run t) :
    c.get? t key = some value ↔
      ∃ s ttl, run.lastOn? key = some (s, .set key value ttl) ∧ ∀ d ∈ ttl, t < s + d := by
  rw [h.distinct.get?_eq_some_iff]
  constructor
  · rintro ⟨e, he, rfl, rfl, hlive⟩
    obtain ⟨s, ttl, hlast, heq⟩ := h.stored e he
    rw [heq] at hlive
    exact ⟨s, ttl, hlast, isLive_ofSet.mp hlive⟩
  · rintro ⟨s, ttl, hlast, hlive⟩
    have hseen : (ofSet s key value ttl).isLive t := isLive_ofSet.mpr hlive
    exact ⟨_, h.kept s key value ttl hlast hseen, rfl, rfl, hseen⟩

end Reflects

/-! ## Purges and counts -/

theorem Distinct.get?_set_of_ne (h : c.Distinct) {other : String} (hne : other ≠ key)
    (hnow : now ≤ t) : (c.set now key value ttl).get? t other = c.get? t other := by
  refine Option.ext fun seen => ?_
  rw [h.get?_eq_some_iff, h.set.get?_eq_some_iff]
  refine exists_congr fun e => and_congr_left ?_
  rintro ⟨rfl, rfl, hlive⟩
  rw [mem_set]
  constructor
  · rintro (⟨he, -⟩ | rfl)
    · exact he
    · exact absurd rfl hne
  · exact fun he => .inl ⟨he, isLive_of_le hlive hnow, hne⟩

theorem removed_eq (c : LocalCache) (start : String) :
    c.removed start = (c.entries.filter fun e => Text.startsWith start e.key).length ∧
      c.removed start + (c.deletePrefix start).size = c.size := by
  have hlength := List.length_eq_length_filter_add (l := c.entries)
    fun e => Text.startsWith start e.key
  simp only [removed, size, deletePrefix]
  omega

/-- In a run of operations at times that do not go back, what is seen under a key is what the last
operation on that key stored, until it expires. Storing a text drops the expired entries of other
keys and no others, and what is seen under other keys stays the same. The number of entries taken
out is the number of those whose keys start with the text. -/
theorem isMapWithExpiry {run : CacheRun} {t : Nat}
    (htimes : (run.map Prod.fst ++ [t]).Pairwise (· ≤ ·)) :
    (∀ key value, (applyAll {} run).get? t key = some value ↔
      ∃ s ttl, run.lastOn? key = some (s, .set key value ttl) ∧ ∀ d ∈ ttl, t < s + d) ∧
    (∀ key value ttl,
      (∀ e, e.key ≠ key → (e ∈ ((applyAll {} run).set t key value ttl).entries ↔
        e ∈ (applyAll {} run).entries ∧ e.isLive t)) ∧
      ∀ other ≠ key, ∀ t' ≥ t, ((applyAll {} run).set t key value ttl).get? t' other =
        (applyAll {} run).get? t' other) ∧
    ∀ start, (applyAll {} run).removed start =
        ((applyAll {} run).entries.filter fun e => Text.startsWith start e.key).length ∧
      (applyAll {} run).removed start + ((applyAll {} run).deletePrefix start).size =
        (applyAll {} run).size := by
  have hstart : (0 :: (run.map Prod.fst ++ [t])).Pairwise (· ≤ ·) :=
    List.pairwise_cons.mpr ⟨fun _ _ => Nat.zero_le _, htimes⟩
  have hrun : (applyAll {} run).Reflects run t := (reflects_nil 0).applyAll hstart
  refine ⟨fun key value => hrun.get?_eq_some_iff, fun key value ttl => ⟨fun e hne => ?_, ?_⟩,
    removed_eq _⟩
  · have hnew : e ≠ ofSet t key value ttl := fun h => hne (congrArg CacheEntry.key h)
    simp [mem_set, hnew, hne]
  · exact fun other hne t' ht' => hrun.distinct.get?_set_of_ne hne ht'

/-! ## Pages of orders -/

/-- Two pages are stored, one of them for a while, and then another entity is swept. -/
def pagesRun : CacheRun :=
  [(1, .set "orders:" "all" none), (2, .set "orders:$page=2" "second" (some 5)),
    (4, .get "orders:"), (4, .set "users:" "ada" (some 0)), (5, .invalidate "users:" ["orders:"])]

/-- The page with a lifetime is seen until that ends, and the other one was taken out. -/
theorem isMapWithExpiry_pages : ((pagesRun.map Prod.fst) ++ [6]).Pairwise (· ≤ ·) ∧
    (applyAll {} pagesRun).get? 6 "orders:$page=2" = some "second" ∧
    (applyAll {} pagesRun).get? 6 "orders:" ≠ some "all" := by
  have htimes : ((pagesRun.map Prod.fst) ++ [6]).Pairwise (· ≤ ·) := by decide
  have hmap := (isMapWithExpiry htimes).1
  refine ⟨htimes, (hmap _ _).mpr ⟨2, some 5, by decide +kernel, by decide⟩, fun h => ?_⟩
  obtain ⟨s, ttl, hlast, -⟩ := (hmap _ _).mp h
  have hswept : pagesRun.lastOn? "orders:" = some (5, .invalidate "users:" ["orders:"]) := by
    decide +kernel
  cases hswept.symm.trans hlast

end LocalCache

end EntityRest
