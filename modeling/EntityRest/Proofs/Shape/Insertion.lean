import EntityRest.Proofs.Json.Sorted
import EntityRest.Proofs.Shape.Flat
import Mathlib.Data.Set.Finite.Lemmas

/-! # The leaves of what is put at paths

A leaf put at a path takes away the leaves on the way to it, and is not put at all where the path
leads into an object with entries. So whatever the order, of leaves put one after the other those
stay whose paths lead to no other one. -/

namespace EntityRest.Json

/-! ## Leaves below a key -/

/-- Everything but an object with entries, which stands under a path as it is. -/
def IsLeaf : Json → Prop
  | .object es => es = []
  | _ => True

theorem IsLeaf.leaves_eq {v : Json} (h : v.IsLeaf) : leaves v = [([], v)] := by
  cases v with
  | object es =>
      obtain rfl : es = [] := h
      rfl
  | _ => rfl

/-- The entries of the object under a key, if one is there. -/
def objectAt (k : String) (es : Entries Json) : Entries Json :=
  match es.get? k with
  | some (.object inner) => inner
  | _ => []

variable {es : Entries Json} {k : String} {p q : List String} {x y : Json}

theorem mem_leavesOfEntries_iff (hkeys : es.keys.Nodup) :
    (k :: p, x) ∈ leavesOfEntries es ↔ ∃ v, es.get? k = some v ∧ (p, x) ∈ leaves v := by
  simp only [mem_leavesOfEntries, Entries.get?_eq_some_iff hkeys]
  constructor
  · rintro ⟨e, he, l, hl, hleaf⟩
    obtain ⟨hpath, rfl⟩ := Prod.mk.inj hleaf
    obtain ⟨rfl, rfl⟩ := List.cons.inj hpath
    exact ⟨e.2, he, hl⟩
  · rintro ⟨v, hv, hl⟩
    exact ⟨(k, v), hv, (p, x), hl, rfl⟩

@[simp] theorem nil_notMem_leavesOfEntries : ([], x) ∉ leavesOfEntries es :=
  fun h => path_ne_nil h rfl

theorem mem_leavesOfEntries_objectAt (hkeys : es.keys.Nodup) (hp : p ≠ []) :
    (p, x) ∈ leavesOfEntries (objectAt k es) ↔ (k :: p, x) ∈ leavesOfEntries es := by
  rw [mem_leavesOfEntries_iff hkeys, objectAt]
  cases hget : es.get? k with
  | none => simp [leavesOfEntries]
  | some v =>
      simp only [Option.some.injEq, exists_eq_left']
      by_cases hv : v.IsLeaf
      · have hinner : (match some v with | some (.object inner) => inner | _ => []) = [] := by
          cases v with
          | object es => exact hv
          | _ => rfl
        simp [hinner, hv.leaves_eq, hp, leavesOfEntries]
      · cases v with
        | object inner =>
            have hinner : inner ≠ [] := hv
            simp [leaves_object hinner]
        | _ => exact absurd trivial hv

/-- Below its first key a path leads into the object there. -/
theorem putPath_cons (hp : p ≠ []) (x : Json) (k : String) (out : Entries Json) :
    putPath x (k :: p) out = out.put k (.object (putPath x p (objectAt k out))) := by
  cases p with
  | nil => exact absurd rfl hp
  | cons j p => rfl

/-! ## Keys of objects -/

/-- A property of the keys of an object that stays when a value is put under a suitable key. -/
structure KeptByPut (P : List String → Prop) (K : String → Prop) : Prop where
  nil : P []
  suitable : ∀ keys, P keys → ∀ k ∈ keys, K k
  put : ∀ (es : Entries Json) (k : String) (v : Json), P es.keys → K k → P (es.put k v).keys

theorem keptByPut_nodup : KeptByPut List.Nodup fun _ => True where
  nil := List.nodup_nil
  suitable _ _ _ _ := trivial
  put _ k v h _ := Entries.nodup_keys_put h k v

theorem keptByPut_forall (K : String → Prop) : KeptByPut (fun keys => ∀ k ∈ keys, K k) K where
  nil := by simp
  suitable _ h := h
  put es k v h hk := by
    intro j hj
    rcases Entries.mem_keys_put.mp hj with rfl | hold
    · exact hk
    · exact h j hold

namespace KeptByPut

variable {P : List String → Prop} {K : String → Prop} (h : KeptByPut P K)

include h

theorem everyObject_nil : EveryObject P (.object []) :=
  everyObject_object.mpr ⟨h.nil, by simp⟩

theorem everyObject_put (hes : EveryObject P (.object es)) (hk : K k) (hx : x.EveryObject P) :
    EveryObject P (.object (es.put k x)) := by
  obtain ⟨hkeys, hvalues⟩ := everyObject_object.mp hes
  refine everyObject_object.mpr ⟨h.put es k x hkeys hk, fun e he => ?_⟩
  rcases Entries.of_mem_put he with rfl | hold
  · exact hx
  · exact hvalues e hold

theorem everyObject_objectAt (hes : EveryObject P (.object es)) (k : String) :
    EveryObject P (.object (objectAt k es)) := by
  rw [objectAt]
  split
  · rename_i inner hget
    exact (everyObject_object.mp hes).2 (k, .object inner) (Entries.mem_of_get? hget)
  · exact h.everyObject_nil

omit h in
theorem everyObject_mergeInto {fs : Entries Json}
    (hfs : ∀ e ∈ fs, ∀ es : Entries Json, EveryObject P (.object es) →
      EveryObject P (.object (putWeak e.1 es e.2)))
    (hes : EveryObject P (.object es)) : EveryObject P (.object (mergeInto es fs)) := by
  induction fs generalizing es with
  | nil => exact hes
  | cons e fs ih =>
      obtain ⟨he, hfs⟩ := List.forall_mem_cons.mp hfs
      exact ih hfs (he es hes)

theorem everyObject_putWeak (hx : x.EveryObject P) (hk : K k) (hes : EveryObject P (.object es)) :
    EveryObject P (.object (putWeak k es x)) := by
  induction x using document_induction generalizing k es with
  | object fs ih =>
      obtain ⟨hkeys, hvalues⟩ := everyObject_object.mp hx
      rw [putWeak]
      split
      · rename_i old hget
        have hold := (everyObject_object.mp hes).2 (k, .object old) (Entries.mem_of_get? hget)
        refine h.everyObject_put hes hk (everyObject_mergeInto (fun e he es hes => ?_) hold)
        exact ih e he (hvalues e he) (h.suitable _ hkeys e.1 (List.mem_map_of_mem he)) hes
      · exact h.everyObject_put hes hk hx
  | _ =>
      rw [putWeak]
      · split
        · exact hes
        · exact h.everyObject_put hes hk hx
      · simp

theorem everyObject_putPath (hx : x.EveryObject P) (hp : ∀ k ∈ p, K k)
    (hes : EveryObject P (.object es)) : EveryObject P (.object (putPath x p es)) := by
  induction p generalizing es with
  | nil => exact hes
  | cons k p ih =>
      obtain ⟨hk, hrest⟩ := List.forall_mem_cons.mp hp
      by_cases hlast : p = []
      · subst hlast
        exact h.everyObject_putWeak hx hk hes
      · rw [putPath_cons hlast]
        exact h.everyObject_put hes hk (ih hrest (h.everyObject_objectAt hes k))

theorem everyObject_putLeaves {ls : List (List String × Json)}
    (hls : ∀ l ∈ ls, l.2.EveryObject P ∧ ∀ k ∈ l.1, K k) (hes : EveryObject P (.object es)) :
    EveryObject P (.object (putLeaves es ls)) := by
  induction ls generalizing es with
  | nil => exact hes
  | cons l ls ih =>
      obtain ⟨hl, hls⟩ := List.forall_mem_cons.mp hls
      exact ih hls (h.everyObject_putPath hl.1 hl.2 hes)

end KeptByPut

/-- A leaf is put under a key unless an object stands there. -/
theorem putWeak_of_isLeaf (hx : x.IsLeaf) (k : String) (out : Entries Json) :
    ((∀ old, out.get? k ≠ some (.object old)) ∧ putWeak k out x = out.put k x) ∨
      ∃ old, out.get? k = some (.object old) ∧ putWeak k out x = out := by
  cases x with
  | object es =>
      obtain rfl : es = [] := hx
      simp only [putWeak]
      split
      · rename_i old hget
        exact .inr ⟨old, hget, Entries.put_eq_self hget⟩
      · rename_i hno
        exact .inl ⟨hno, rfl⟩
  | _ =>
      simp only [putWeak]
      split
      · rename_i old hget
        exact .inr ⟨old, hget, rfl⟩
      · rename_i hno
        exact .inl ⟨hno, rfl⟩

/-! ## One leaf -/

/-- Putting a value under a key changes only what stands there. -/
theorem mem_leavesOfEntries_put (hkeys : es.keys.Nodup) {j : String} :
    (j :: p, y) ∈ leavesOfEntries (es.put k x) ↔
      (j = k ∧ (p, y) ∈ leaves x) ∨ (j ≠ k ∧ (j :: p, y) ∈ leavesOfEntries es) := by
  rw [mem_leavesOfEntries_iff (Entries.nodup_keys_put hkeys k x), mem_leavesOfEntries_iff hkeys]
  by_cases hj : j = k
  · subst hj
    simp
  · simp [Entries.get?_put_of_ne hj, hj]

theorem putPath_ne_nil (hx : x.IsLeaf) (hq : q ≠ []) : putPath x q es ≠ [] := by
  have hput (k : String) (v : Json) : es.put k v ≠ [] := by
    intro hnil
    have hget := Entries.get?_put_self es k v
    rw [hnil] at hget
    cases hget
  cases q with
  | nil => exact absurd rfl hq
  | cons k q =>
      by_cases hlast : q = []
      · subst hlast
        rw [putPath]
        rcases putWeak_of_isLeaf hx k es with ⟨-, h⟩ | ⟨old, hget, h⟩
        · exact h ▸ hput k x
        · rw [h]
          rintro rfl
          cases hget
      · rw [putPath_cons hlast]
        exact hput k _

/-- A leaf put under a new key is there afterwards, unless something stands below that key. -/
theorem mem_leavesOfEntries_putWeak (hx : x.IsLeaf) (hkeys : es.keys.Nodup)
    (hnew : ∀ l ∈ leavesOfEntries es, l.1 ≠ [k]) :
    (p, y) ∈ leavesOfEntries (putWeak k es x) ↔
      (p, y) ∈ leavesOfEntries es ∨
        (p = [k] ∧ y = x ∧ ∀ l ∈ leavesOfEntries es, ¬[k] <+: l.1) := by
  rcases putWeak_of_isLeaf hx k es with ⟨hno, h⟩ | ⟨old, hget, h⟩
  · have hnone : es.get? k = none := by
      cases hget : es.get? k with
      | none => rfl
      | some v =>
          have hv : v.IsLeaf := by
            cases v with
            | object old => exact absurd hget (hno old)
            | _ => trivial
          have hmem : ([k], v) ∈ leavesOfEntries es :=
            (mem_leavesOfEntries_iff hkeys).mpr ⟨v, hget, by simp [hv.leaves_eq]⟩
          exact absurd rfl (hnew _ hmem)
    have hbelow : ∀ l ∈ leavesOfEntries es, ¬[k] <+: l.1 := by
      rintro ⟨_, v⟩ hl ⟨r, rfl⟩
      obtain ⟨_, hget, -⟩ := (mem_leavesOfEntries_iff hkeys).mp hl
      rw [hnone] at hget
      cases hget
    rw [h, and_iff_left_of_imp (a := y = x) fun _ => hbelow]
    cases p with
    | nil => simp
    | cons j p =>
        rw [mem_leavesOfEntries_put hkeys, hx.leaves_eq]
        by_cases hj : j = k
        · subst hj
          simp [mem_leavesOfEntries_iff hkeys, hnone]
        · simp [hj]
  · obtain ⟨⟨r, v⟩, hl⟩ := List.exists_mem_of_ne_nil _ (leaves_ne_nil (.object old))
    have hbelow : (k :: r, v) ∈ leavesOfEntries es :=
      (mem_leavesOfEntries_iff hkeys).mpr ⟨_, hget, hl⟩
    rw [h, or_iff_left]
    rintro ⟨-, -, hno⟩
    exact hno _ hbelow (by simp)

theorem not_prefix_objectAt_iff (hkeys : es.keys.Nodup) (hq : q ≠ []) :
    (∀ l ∈ leavesOfEntries (objectAt k es), ¬q <+: l.1) ↔
      ∀ l ∈ leavesOfEntries es, ¬k :: q <+: l.1 := by
  constructor
  · rintro hno ⟨_, v⟩ hl ⟨r, rfl⟩
    have hne : q ++ r ≠ [] := by simp [hq]
    have hinner : (q ++ r, v) ∈ leavesOfEntries (objectAt k es) :=
      (mem_leavesOfEntries_objectAt hkeys hne).mpr hl
    exact hno _ hinner (List.prefix_append q r)
  · rintro hno ⟨r, v⟩ hl hpre
    have hbelow : (k :: r, v) ∈ leavesOfEntries es :=
      (mem_leavesOfEntries_objectAt hkeys (path_ne_nil hl)).mp hl
    exact hno _ hbelow (List.cons_prefix_cons.mpr ⟨rfl, hpre⟩)

/-- A leaf put at a new path takes away those on the way to it, and is there afterwards unless the
path leads further. -/
theorem mem_leavesOfEntries_putPath (hx : x.IsLeaf) (hes : DistinctKeys (.object es))
    (hq : q ≠ []) (hnew : ∀ l ∈ leavesOfEntries es, l.1 ≠ q) :
    (p, y) ∈ leavesOfEntries (putPath x q es) ↔
      ((p, y) ∈ leavesOfEntries es ∧ ¬p <+: q) ∨
        (p = q ∧ y = x ∧ ∀ l ∈ leavesOfEntries es, ¬q <+: l.1) := by
  -- below its first key the path is put into the object there, which the induction speaks of
  induction q generalizing es p with
  | nil => exact absurd rfl hq
  | cons k q ih =>
      have hkeys : es.keys.Nodup := (everyObject_object.mp hes).1
      cases p with
      | nil => simp
      | cons j p =>
          by_cases hlast : q = []
          · subst hlast
            have hway : (j :: p, y) ∈ leavesOfEntries es → ¬j :: p <+: [k] := by
              intro hl hpre
              obtain ⟨rfl, hp⟩ := List.cons_prefix_cons.mp hpre
              exact hnew _ hl (by simp [List.prefix_nil.mp hp])
            rw [putPath, mem_leavesOfEntries_putWeak hx hkeys hnew, and_iff_left_of_imp hway]
          · rw [putPath_cons hlast, mem_leavesOfEntries_put hkeys,
              leaves_object (putPath_ne_nil hx hlast)]
            by_cases hj : j = k
            · subst hj
              by_cases hp : p = []
              · subst hp
                simp [Ne.symm hlast]
              · have hnew' : ∀ l ∈ leavesOfEntries (objectAt j es), l.1 ≠ q := by
                  rintro ⟨r, v⟩ hl rfl
                  exact hnew _ ((mem_leavesOfEntries_objectAt hkeys (path_ne_nil hl)).mp hl) rfl
                rw [ih (keptByPut_nodup.everyObject_objectAt hes j) hlast hnew',
                  mem_leavesOfEntries_objectAt hkeys hp, not_prefix_objectAt_iff hkeys hlast]
                simp [List.cons_prefix_cons]
            · simp [hj, List.cons_prefix_cons]

/-! ## One leaf after the other -/

/-- What can be put at a path: a leaf with different keys in each object of its arrays. -/
structure Placeable (l : List String × Json) : Prop where
  path_ne_nil : l.1 ≠ []
  isLeaf : l.2.IsLeaf
  distinctKeys : l.2.DistinctKeys

/-- The path leads to no other path of the list. -/
def Final (ls : List (List String × Json)) (p : List String) : Prop :=
  ∀ l ∈ ls, p <+: l.1 → l.1 = p

variable {ls : List (List String × Json)}

/-- Every path leads to one that leads no further: the longest one that it leads to. -/
theorem exists_final {m : List String × Json} (hm : m ∈ ls) :
    ∃ l ∈ ls, m.1 <+: l.1 ∧ Final ls l.1 := by
  have hfinite : {l | l ∈ ls ∧ m.1 <+: l.1}.Finite :=
    (List.finite_toSet ls).subset fun l hl => hl.1
  have hnonempty : {l | l ∈ ls ∧ m.1 <+: l.1}.Nonempty := ⟨m, hm, List.prefix_refl m.1⟩
  obtain ⟨l, ⟨hl, hml⟩, hlongest⟩ :=
    Set.exists_max_image _ (fun l => l.1.length) hfinite hnonempty
  refine ⟨l, hl, hml, ?_⟩
  intro l' hl' hpre
  have hlength : l'.1.length ≤ l.1.length := hlongest l' ⟨hl', hml.trans hpre⟩
  exact (hpre.eq_of_length_le hlength).symm

/-- Of leaves put one after the other at different paths those are there in the end whose paths
lead to no other one, in whatever order they were put. -/
theorem mem_leavesOfEntries_putLeaves (hls : ∀ l ∈ ls, Placeable l)
    (hnodup : (ls.map Prod.fst).Nodup) :
    (p, y) ∈ leavesOfEntries (putLeaves [] ls) ↔ (p, y) ∈ ls ∧ Final ls p := by
  induction ls using List.reverseRecOn generalizing p y with
  | nil => simp [putLeaves, leavesOfEntries]
  | append_singleton ls m ih =>
      obtain ⟨q, x⟩ := m
      have hm : Placeable (q, x) := hls _ (by simp)
      have hls' : ∀ l ∈ ls, Placeable l := fun l hl => hls l (by simp [hl])
      rw [List.map_append, List.map_singleton, List.nodup_append] at hnodup
      obtain ⟨hnodup, -, hother⟩ := hnodup
      have hq : ∀ l ∈ ls, l.1 ≠ q := fun l hl =>
        hother l.1 (List.mem_map_of_mem hl) q (List.mem_singleton_self q)
      have ih := fun p y => ih hls' hnodup (p := p) (y := y)
      have hout : DistinctKeys (.object (putLeaves [] ls)) :=
        keptByPut_nodup.everyObject_putLeaves
          (fun l hl => ⟨(hls' l hl).distinctKeys, fun _ _ => trivial⟩)
          keptByPut_nodup.everyObject_nil
      have hnew : ∀ l ∈ leavesOfEntries (putLeaves [] ls), l.1 ≠ q := fun l hl =>
        hq l ((ih l.1 l.2).mp hl).1
      -- a path that leads to one put before leads to one that is still there
      have hfree : (∀ l ∈ leavesOfEntries (putLeaves [] ls), ¬q <+: l.1) ↔
          ∀ l ∈ ls, ¬q <+: l.1 := by
        constructor
        · intro hno l hl hpre
          obtain ⟨l', hl', hon, hfinal⟩ := exists_final hl
          exact hno l' ((ih l'.1 l'.2).mpr ⟨hl', hfinal⟩) (hpre.trans hon)
        · intro hno l hl
          exact hno l ((ih l.1 l.2).mp hl).1
      have hstep : putLeaves [] (ls ++ [(q, x)]) = putPath x q (putLeaves [] ls) :=
        putLeaves_append [] ls [(q, x)]
      have hfinal : Final (ls ++ [(q, x)]) p ↔ Final ls p ∧ (p <+: q → q = p) := by
        simp [Final, or_imp, forall_and]
      rw [hstep, mem_leavesOfEntries_putPath hm.isLeaf hout hm.path_ne_nil hnew, ih, hfree, hfinal,
        List.mem_append, List.mem_singleton, Prod.mk.injEq]
      constructor
      · rintro (⟨⟨hl, hends⟩, hpre⟩ | ⟨rfl, rfl, hno⟩)
        · exact ⟨.inl hl, hends, fun h => absurd h hpre⟩
        · exact ⟨.inr ⟨rfl, rfl⟩, fun l hl h => absurd h (hno l hl), fun _ => rfl⟩
      · rintro ⟨hl | ⟨rfl, rfl⟩, hends, hlast⟩
        · exact .inl ⟨⟨hl, hends⟩, fun h => hq _ hl (hlast h).symm⟩
        · exact .inr ⟨rfl, rfl, fun l hl h => hq l hl (hends l hl h)⟩

end EntityRest.Json
