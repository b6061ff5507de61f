import EntityRest.Proofs.Shape.Insertion

/-! # Flattening undoes structuring

The leaves of a structured document are the entries of the flat one whose paths lead to no other
entry. So flattening gives these entries back, and a structured document is determined, up to the
order of keys, by the flat document up to the order of its keys. -/

namespace EntityRest

/-! ## Points in keys -/

namespace Separator

theorem dot_split (k : String) : dot.split k = Text.splitChar '.' k := by
  have hpieces : Text.splitText dot.before k = Text.splitChar '.' k := by
    simp [Text.splitText, Text.splitChar, dot, Chars.splitText_singleton]
  have hafter (q : String) : (Text.dropSuffix? dot.after q).getD q = q := by
    have h := Text.dropSuffix?_append q ""
    rw [String.append_empty] at h
    rw [dot, h, Option.getD_some]
  obtain ⟨p, ps, hsplit⟩ := List.exists_cons_of_ne_nil (Text.splitChar_ne_nil '.' k)
  rw [split, if_neg (by decide), hpieces, hsplit]
  simp [hafter]

theorem dot_split_ne_nil (k : String) : dot.split k ≠ [] :=
  dot_split k ▸ Text.splitChar_ne_nil '.' k

theorem notMem_of_mem_split {k p : String} (hp : p ∈ dot.split k) : '.' ∉ p.toList := by
  rw [dot_split] at hp
  exact Text.notMem_of_mem_splitChar hp

theorem dot_join (ps : List String) : dot.join ps = ".".intercalate ps := by
  cases ps with
  | nil => rfl
  | cons k ks =>
      apply String.toList_injective
      rw [join, toList_foldl_extend, String.toList_intercalate]
      induction ks generalizing k with
      | nil => simp
      | cons p ks ih => simpa [dot, List.intercalate_cons_cons] using ih p

theorem dot_join_split (k : String) : dot.join (dot.split k) = k := by
  rw [dot_join, dot_split]
  exact Text.intercalate_splitChar '.' k

theorem dot_split_injective : Function.Injective dot.split :=
  Function.LeftInverse.injective dot_join_split

end Separator

namespace Json

open Separator

/-! ## Flat documents -/

mutual

/-- No entry of an object, wherever it stands in the document, holds an object with entries. -/
def IsFlat : Json → Prop
  | .object es => IsFlatInEntries es
  | .array vs => IsFlatInItems vs
  | _ => True

def IsFlatInItems : List Json → Prop
  | [] => True
  | v :: vs => IsFlat v ∧ IsFlatInItems vs

def IsFlatInEntries : List (String × Json) → Prop
  | [] => True
  | (_, v) :: es => (IsLeaf v ∧ IsFlat v) ∧ IsFlatInEntries es

end

theorem isFlat_array {vs : List Json} : IsFlat (.array vs) ↔ ∀ v ∈ vs, IsFlat v := by
  rw [IsFlat]
  induction vs with
  | nil => simp [IsFlatInItems]
  | cons v vs ih => simp [IsFlatInItems, ih]

theorem isFlat_object {es : Entries Json} :
    IsFlat (.object es) ↔ ∀ e ∈ es, IsLeaf e.2 ∧ IsFlat e.2 := by
  rw [IsFlat]
  induction es with
  | nil => simp [IsFlatInEntries]
  | cons e es ih => simp [IsFlatInEntries, ih]

theorem isLeaf_sortKeys (v : Json) : v.sortKeys.IsLeaf ↔ v.IsLeaf := by
  cases v with
  | object es =>
      have hlength := (Entries.sorted_perm (es.map sortValue)).length_eq
      rw [List.length_map] at hlength
      simp only [sortKeys_object, IsLeaf, ← List.length_eq_zero_iff, hlength]
  | array vs => simp [sortKeys_array, IsLeaf]
  | _ => rfl

theorem isFlat_sortKeys (v : Json) : v.sortKeys.IsFlat ↔ v.IsFlat := by
  induction v using document_induction with
  | array vs ih =>
      simp only [sortKeys_array, isFlat_array, List.forall_mem_map]
      exact forall₂_congr ih
  | object es ih =>
      have hmem := fun e => (Entries.sorted_perm (es.map sortValue)).mem_iff (a := e)
      simp only [sortKeys_object, isFlat_object, hmem, List.forall_mem_map]
      exact forall₂_congr fun e he => and_congr (isLeaf_sortKeys e.2) (ih e he)
  | _ => rfl

/-! ## Keys whose paths lead to other keys -/

/-- The path of the key is a beginning of the path of another one, and not all of it. -/
def Shadowed (keys : List String) (k : String) : Prop :=
  ∃ j ∈ keys, dot.split k <+: dot.split j ∧ dot.split k ≠ dot.split j

instance (keys : List String) (k : String) : Decidable (Shadowed keys k) :=
  inferInstanceAs (Decidable (∃ j ∈ keys, dot.split k <+: dot.split j ∧ dot.split k ≠ dot.split j))

theorem shadowed_congr {ks ls : List String} (h : ∀ k, k ∈ ks ↔ k ∈ ls) (k : String) :
    Shadowed ks k ↔ Shadowed ls k := by
  simp only [Shadowed, h]

mutual

/-- The document with only those entries in each object whose paths lead to no other entry. -/
def unshadowed : Json → Json
  | .object es =>
    .object ((unshadowedInEntries es).filter fun e => ¬Shadowed (Entries.keys es) e.1)
  | .array vs => .array (unshadowedInItems vs)
  | v => v

def unshadowedInItems : List Json → List Json
  | [] => []
  | v :: vs => unshadowed v :: unshadowedInItems vs

def unshadowedInEntries : List (String × Json) → List (String × Json)
  | [] => []
  | (k, v) :: es => (k, unshadowed v) :: unshadowedInEntries es

end

/-- The entries of an object whose paths lead to no other one. -/
def lastEntries (es : Entries Json) : Entries Json :=
  es.filter fun e => ¬Shadowed es.keys e.1

theorem mem_lastEntries {es : Entries Json} {e : String × Json} :
    e ∈ lastEntries es ↔ e ∈ es ∧ ¬Shadowed es.keys e.1 := by
  simp [lastEntries]

theorem unshadowed_array (vs : List Json) : unshadowed (.array vs) = .array (vs.map unshadowed) := by
  have hitems : unshadowedInItems vs = vs.map unshadowed := by
    induction vs with
    | nil => rfl
    | cons v vs ih => rw [unshadowedInItems, ih, List.map_cons]
  rw [unshadowed, hitems]

theorem unshadowed_object (es : Entries Json) :
    unshadowed (.object es) = .object ((lastEntries es).map fun e => (e.1, e.2.unshadowed)) := by
  have hentries : unshadowedInEntries es = es.map fun e => (e.1, e.2.unshadowed) := by
    induction es with
    | nil => rfl
    | cons e es ih => rw [unshadowedInEntries, ih, List.map_cons]
  rw [unshadowed, hentries, List.filter_map]
  rfl

/-- No path of a key leads to another key of the same object. -/
def PrefixFree : Json → Prop := EveryObject fun keys => ∀ k ∈ keys, ¬Shadowed keys k

theorem unshadowed_eq_self {v : Json} (h : v.PrefixFree) : v.unshadowed = v := by
  induction v using document_induction with
  | array vs ih =>
      have hitems := everyObject_array.mp h
      have hsame : vs.map unshadowed = vs :=
        (List.map_congr_left (g := id) fun v hv => ih v hv (hitems v hv)).trans (List.map_id vs)
      rw [unshadowed_array, hsame]
  | object es ih =>
      obtain ⟨hkeys, hvalues⟩ := everyObject_object.mp h
      have hall : lastEntries es = es := by
        refine List.filter_eq_self.mpr fun e he => ?_
        simpa using hkeys e.1 (List.mem_map_of_mem he)
      have hsame : (es.map fun e => (e.1, e.2.unshadowed)) = es := by
        refine (List.map_congr_left (g := id) fun e he => ?_).trans (List.map_id es)
        rw [ih e he (hvalues e he)]
        rfl
      rw [unshadowed_object, hall, hsame]
  | _ => rfl

/-! ## The leaves of a structured document -/

theorem isLeaf_toStructured {v : Json} (h : v.IsLeaf) : (v.toStructured .dot).IsLeaf := by
  cases v with
  | object es =>
      obtain rfl : es = [] := h
      rfl
  | _ => trivial

/-- An entry of a flat object as it is put into the structured one. -/
def place (e : String × Json) : List String × Json := (dot.split e.1, e.2.toStructured .dot)

theorem nodup_paths_place {es : Entries Json} (h : es.keys.Nodup) :
    ((es.map place).map Prod.fst).Nodup := by
  have hpaths : (es.map place).map Prod.fst = es.keys.map dot.split := by
    simp [place, Entries.keys, Function.comp_def]
  rw [hpaths]
  exact h.map dot_split_injective

theorem placeable_place {es : Entries Json} (hflat : IsFlat (.object es))
    (hvalues : ∀ e ∈ es, (e.2.toStructured .dot).DistinctKeys) :
    ∀ l ∈ es.map place, Placeable l := by
  simp only [List.forall_mem_map]
  intro e he
  have hleaf : e.2.IsLeaf := (isFlat_object.mp hflat e he).1
  exact ⟨dot_split_ne_nil e.1, isLeaf_toStructured hleaf, hvalues e he⟩

theorem toStructured_object (es : Entries Json) :
    (Json.object es).toStructured .dot = .object (putLeaves [] (es.map place)) := by
  rw [toStructured, structureEntries_eq]
  rfl

theorem KeptByPut.everyObject_toStructured {P : List String → Prop} {K : String → Prop}
    (h : KeptByPut P K) {sep : Separator} (hparts : ∀ k, ∀ p ∈ sep.split k, K p) (v : Json) :
    (v.toStructured sep).EveryObject P := by
  induction v using document_induction with
  | array vs ih =>
      rw [toStructured, toStructuredItems_eq_map]
      exact everyObject_array.mpr (List.forall_mem_map.mpr ih)
  | object es ih =>
      rw [toStructured, structureEntries_eq]
      refine h.everyObject_putLeaves ?_ h.everyObject_nil
      simp only [List.forall_mem_map]
      exact fun e he => ⟨ih e he, hparts e.1⟩
  | _ => trivial

theorem distinctKeys_toStructured {sep : Separator} (v : Json) : (v.toStructured sep).DistinctKeys :=
  keptByPut_nodup.everyObject_toStructured (fun _ _ _ => trivial) v

theorem keysWithout_toStructured (v : Json) : (v.toStructured .dot).KeysWithout '.' :=
  (keptByPut_forall _).everyObject_toStructured (fun _ _ => notMem_of_mem_split) v

theorem final_place_iff {es : Entries Json} {k : String} :
    Final (es.map place) (dot.split k) ↔ ¬Shadowed es.keys k := by
  have hpaths : Final (es.map place) (dot.split k) ↔
      ∀ e ∈ es, dot.split k <+: dot.split e.1 → dot.split e.1 = dot.split k := by
    rw [Final, List.forall_mem_map]
    rfl
  rw [hpaths]
  simp [Shadowed, Entries.keys, eq_comm]

/-- The leaves of a structured document are the entries of the flat one whose paths lead to no
other entry. -/
theorem leaves_structureEntries {es : Entries Json} (hflat : IsFlat (.object es))
    (hkeys : es.keys.Nodup) :
    (leavesOfEntries (structureEntries .dot [] es)).Perm ((lastEntries es).map place) := by
  have hvalues : ∀ e ∈ es, (e.2.toStructured .dot).DistinctKeys := fun e _ =>
    distinctKeys_toStructured e.2
  have hpaths := nodup_paths_place hkeys
  have hplaced : ((lastEntries es).map place).Nodup :=
    (List.Nodup.of_map _ hpaths).sublist (List.filter_sublist.map place)
  have hleaves : (leavesOfEntries (structureEntries .dot [] es)).Nodup :=
    List.Nodup.of_map _ (nodup_paths_of_entries (distinctKeys_toStructured (.object es)))
  refine (List.perm_ext_iff_of_nodup hleaves hplaced).mpr ?_
  rintro ⟨p, y⟩
  have hput : (p, y) ∈ leavesOfEntries (structureEntries .dot [] es) ↔
      (p, y) ∈ es.map place ∧ Final (es.map place) p := by
    rw [structureEntries_eq]
    exact mem_leavesOfEntries_putLeaves (placeable_place hflat hvalues) hpaths
  simp only [hput, List.mem_map, mem_lastEntries, ← final_place_iff]
  constructor
  · rintro ⟨⟨e, he, heq⟩, hfinal⟩
    obtain ⟨rfl, rfl⟩ := Prod.mk.inj heq
    exact ⟨e, ⟨he, hfinal⟩, rfl⟩
  · rintro ⟨e, ⟨he, hfinal⟩, heq⟩
    obtain ⟨rfl, rfl⟩ := Prod.mk.inj heq
    exact ⟨⟨e, he, rfl⟩, hfinal⟩

/-! ## Back to the flat document -/

/-- What a flat object becomes by structuring and flattening: the entries whose paths lead to no
other one, with values that became the same in their turn. -/
theorem toFlat_toStructured_object {es : Entries Json} (hflat : IsFlat (.object es))
    (hkeys : es.keys.Nodup) :
    ∃ fs : Entries Json, ((Json.object es).toStructured .dot).toFlat .dot = .object fs ∧
      fs.keys.Nodup ∧
      fs.Perm ((lastEntries es).map fun e => (e.1, (e.2.toStructured .dot).toFlat .dot)) := by
  let back (l : List String × Json) : String × Json := (dot.join l.1, l.2.toFlat .dot)
  have hback : (lastEntries es).map (back ∘ place) =
      (lastEntries es).map fun e => (e.1, (e.2.toStructured .dot).toFlat .dot) :=
    List.map_congr_left fun e _ => Prod.ext (dot_join_split e.1) rfl
  have hperm := (leaves_structureEntries hflat hkeys).map back
  rw [List.map_map, hback] at hperm
  have hnodup : (((leavesOfEntries (structureEntries .dot [] es)).map back).map Prod.fst).Nodup := by
    rw [(hperm.map Prod.fst).nodup_iff, List.map_map]
    exact hkeys.sublist (List.filter_sublist.map Prod.fst)
  refine ⟨_, ?_, hnodup, hperm⟩
  rw [toStructured, toFlat_object, Entries.ofPairs_eq_self hnodup]

theorem sortKeys_toFlat_toStructured {v : Json} (hflat : v.IsFlat) (hdistinct : v.DistinctKeys) :
    ((v.toStructured .dot).toFlat .dot).sortKeys = v.unshadowed.sortKeys := by
  induction v using document_induction with
  | array vs ih =>
      have hitem : ∀ v ∈ vs, ((v.toStructured .dot).toFlat .dot).sortKeys = v.unshadowed.sortKeys :=
        fun v hv => ih v hv (isFlat_array.mp hflat v hv) (everyObject_array.mp hdistinct v hv)
      rw [toStructured, toFlat, toStructuredItems_eq_map, toFlatItems_eq_map, unshadowed_array,
        sortKeys_array, sortKeys_array]
      simpa using hitem
  | object es ih =>
      obtain ⟨hkeys, hvalues⟩ := everyObject_object.mp hdistinct
      obtain ⟨fs, hfs, hnodup, hperm⟩ := toFlat_toStructured_object hflat hkeys
      have hsame : ((lastEntries es).map fun e =>
            (e.1, (e.2.toStructured .dot).toFlat .dot)).map sortValue =
          ((lastEntries es).map fun e => (e.1, e.2.unshadowed)).map sortValue := by
        rw [List.map_map, List.map_map]
        refine List.map_congr_left fun e he => Prod.ext rfl ?_
        have he : e ∈ es := (mem_lastEntries.mp he).1
        exact ih e he (isFlat_object.mp hflat e he).2 (hvalues e he)
      rw [hfs, unshadowed_object, sortKeys_object_eq_iff hnodup, ← hsame]
      exact hperm.map sortValue
  | _ => rfl

/-! ## Documents with the same leaves -/

/-- A leaf with its value sorted. -/
def sortLeaf (l : List String × Json) : List String × Json := (l.1, l.2.sortKeys)

theorem nil_mem_sortLeaf_iff {v y : Json} :
    ([], y) ∈ (leaves v).map sortLeaf ↔ v.IsLeaf ∧ v.sortKeys = y := by
  by_cases hv : v.IsLeaf
  · simp [hv.leaves_eq, sortLeaf, hv, eq_comm]
  · cases v with
    | object es =>
        have hes : es ≠ [] := hv
        simp [leaves_object hes, hv, sortLeaf]
    | _ => exact absurd trivial hv

theorem cons_mem_sortLeaf_iff {es : Entries Json} (hkeys : es.keys.Nodup) {k : String}
    {p : List String} {y : Json} :
    (k :: p, y) ∈ (leavesOfEntries es).map sortLeaf ↔
      ∃ v, es.get? k = some v ∧ (p, y) ∈ (leaves v).map sortLeaf := by
  simp only [List.mem_map, sortLeaf, Prod.exists, Prod.mk.injEq]
  constructor
  · rintro ⟨_, x, hl, rfl, rfl⟩
    obtain ⟨v, hget, hl⟩ := (mem_leavesOfEntries_iff hkeys).mp hl
    exact ⟨v, hget, p, x, hl, rfl, rfl⟩
  · rintro ⟨v, hget, _, x, hl, rfl, rfl⟩
    exact ⟨_, x, (mem_leavesOfEntries_iff hkeys).mpr ⟨v, hget, hl⟩, rfl, rfl⟩

/-- Objects with the same leaves are the same up to order if the values of one of them are
determined by their leaves. -/
theorem sortKeys_eq_of_leavesOfEntries {es fs : Entries Json} (hes : DistinctKeys (.object es))
    (hfs : DistinctKeys (.object fs))
    (hvalues : ∀ e ∈ es, ∀ w : Json, w.DistinctKeys →
      (∀ l, l ∈ (leaves e.2).map sortLeaf ↔ l ∈ (leaves w).map sortLeaf) →
        e.2.sortKeys = w.sortKeys)
    (h : ∀ l, l ∈ (leavesOfEntries es).map sortLeaf ↔ l ∈ (leavesOfEntries fs).map sortLeaf) :
    sortKeys (.object es) = sortKeys (.object fs) := by
  obtain ⟨hkeys, -⟩ := everyObject_object.mp hes
  obtain ⟨hkeys', hdistinct'⟩ := everyObject_object.mp hfs
  have hbelow (k : String) (p : List String) (y : Json) :
      (∃ v, es.get? k = some v ∧ (p, y) ∈ (leaves v).map sortLeaf) ↔
        ∃ w, fs.get? k = some w ∧ (p, y) ∈ (leaves w).map sortLeaf := by
    rw [← cons_mem_sortLeaf_iff hkeys, ← cons_mem_sortLeaf_iff hkeys']
    exact h (k :: p, y)
  have hsome (v : Json) : ∃ p y, (p, y) ∈ (leaves v).map sortLeaf := by
    obtain ⟨l, hl⟩ := List.exists_mem_of_ne_nil _ (leaves_ne_nil v)
    exact ⟨_, _, List.mem_map_of_mem hl⟩
  refine sortKeys_object_eq_of_get? hkeys hkeys' fun k => ?_
  cases he : es.get? k with
  | none =>
      cases hf : fs.get? k with
      | none => rfl
      | some w =>
          obtain ⟨p, y, hl⟩ := hsome w
          obtain ⟨v, hv, -⟩ := (hbelow k p y).mpr ⟨w, hf, hl⟩
          rw [he] at hv
          cases hv
  | some v =>
      obtain ⟨p, y, hl⟩ := hsome v
      obtain ⟨w, hf, -⟩ := (hbelow k p y).mp ⟨v, he, hl⟩
      have hv : (k, v) ∈ es := (Entries.get?_eq_some_iff hkeys).mp he
      have hw : (k, w) ∈ fs := (Entries.get?_eq_some_iff hkeys').mp hf
      have hleaves : ∀ l, l ∈ (leaves v).map sortLeaf ↔ l ∈ (leaves w).map sortLeaf := by
        rintro ⟨p, y⟩
        simpa [he, hf] using hbelow k p y
      rw [hf, Option.map_some, Option.map_some, hvalues _ hv w (hdistinct' _ hw) hleaves]

/-- A document is determined by its leaves, up to the order of keys. -/
theorem sortKeys_eq_of_leaves {v w : Json} (hv : v.DistinctKeys) (hw : w.DistinctKeys)
    (h : ∀ l, l ∈ (leaves v).map sortLeaf ↔ l ∈ (leaves w).map sortLeaf) :
    v.sortKeys = w.sortKeys := by
  induction v using document_induction generalizing w with
  | object es ih =>
      by_cases hes : es = []
      · have hleaf : IsLeaf (.object es) := hes
        have hmem := (h ([], _)).mp (nil_mem_sortLeaf_iff.mpr ⟨hleaf, rfl⟩)
        exact (nil_mem_sortLeaf_iff.mp hmem).2.symm
      · have hnot : ¬w.IsLeaf := by
          intro hleaf
          have hmem := (h ([], _)).mpr (nil_mem_sortLeaf_iff.mpr ⟨hleaf, rfl⟩)
          exact hes (nil_mem_sortLeaf_iff.mp hmem).1
        cases w with
        | object fs =>
            have hfs : fs ≠ [] := hnot
            have hvalues := (everyObject_object.mp hv).2
            rw [leaves_object hes, leaves_object hfs] at h
            exact sortKeys_eq_of_leavesOfEntries hv hw
              (fun e he w hw h => ih e he (hvalues e he) hw h) h
        | _ => exact absurd trivial hnot
  | _ =>
      have hmem := (h ([], _)).mp (nil_mem_sortLeaf_iff.mpr ⟨trivial, rfl⟩)
      exact (nil_mem_sortLeaf_iff.mp hmem).2.symm

theorem sortKeys_object_eq_of_leaves {es fs : Entries Json} (hes : DistinctKeys (.object es))
    (hfs : DistinctKeys (.object fs))
    (h : ∀ l, l ∈ (leavesOfEntries es).map sortLeaf ↔ l ∈ (leavesOfEntries fs).map sortLeaf) :
    sortKeys (.object es) = sortKeys (.object fs) := by
  have hvalues := (everyObject_object.mp hes).2
  exact sortKeys_eq_of_leavesOfEntries hes hfs
    (fun e he w hw h => sortKeys_eq_of_leaves (hvalues e he) hw h) h

/-! ## Any order -/

theorem map_eq_map_of_map_eq {α β γ : Type} {f : α → β} {g : α → γ} {xs ys : List α}
    (hfg : ∀ x ∈ xs, ∀ y, f y = f x → g y = g x) (h : ys.map f = xs.map f) :
    ys.map g = xs.map g := by
  induction xs generalizing ys with
  | nil => simpa using h
  | cons x xs ih =>
      cases ys with
      | nil => simp at h
      | cons y ys =>
          obtain ⟨hx, hxs⟩ := List.forall_mem_cons.mp hfg
          obtain ⟨hy, hys⟩ := List.cons.inj h
          rw [List.map_cons, List.map_cons, hx y hy, ih hxs hys]

theorem mem_sortLeaf_structureEntries {es : Entries Json} (hflat : IsFlat (.object es))
    (hkeys : es.keys.Nodup) {l : List String × Json} :
    l ∈ (leavesOfEntries (structureEntries .dot [] es)).map sortLeaf ↔
      ∃ e ∈ es, ¬Shadowed es.keys e.1 ∧ sortLeaf (place e) = l := by
  rw [((leaves_structureEntries hflat hkeys).map sortLeaf).mem_iff]
  simp [mem_lastEntries, and_assoc]

/-- The structured form of a flat document does not depend on the order of its keys, up to the
order of keys. -/
theorem sortKeys_toStructured {v w : Json} (hflat : v.IsFlat) (hdistinct : v.DistinctKeys)
    (h : w.sortKeys = v.sortKeys) :
    (w.toStructured .dot).sortKeys = (v.toStructured .dot).sortKeys := by
  induction v using document_induction generalizing w with
  | array vs ih =>
      obtain ⟨ws, rfl, hitems⟩ := array_of_sortKeys_eq h
      have hflat := isFlat_array.mp hflat
      have hdistinct := everyObject_array.mp hdistinct
      have hsame := map_eq_map_of_map_eq
        (fun v hv w hw => ih v hv (hflat v hv) (hdistinct v hv) hw) hitems
      simpa [toStructured, toStructuredItems_eq_map, sortKeys_array, Function.comp_def] using hsame
  | object es ih =>
      obtain ⟨fs, rfl, hperm⟩ := object_of_sortKeys_eq h
      have hflat' : IsFlat (.object fs) := by rwa [← isFlat_sortKeys, h, isFlat_sortKeys]
      have hdistinct' : DistinctKeys (.object fs) := by
        rwa [← distinctKeys_sortKeys, h, distinctKeys_sortKeys]
      obtain ⟨hkeys, hvalues⟩ := everyObject_object.mp hdistinct
      obtain ⟨hkeys', -⟩ := everyObject_object.mp hdistinct'
      have hshadowed : ∀ k, Shadowed fs.keys k ↔ Shadowed es.keys k := by
        refine shadowed_congr fun k => ?_
        rw [← keys_map_sortValue fs, ← keys_map_sortValue es]
        exact (hperm.map Prod.fst).mem_iff
      have hplace {e f : String × Json} (he : e ∈ es) (hef : sortValue f = sortValue e) :
          f.1 = e.1 ∧ sortLeaf (place f) = sortLeaf (place e) := by
        obtain ⟨hkey, hvalue⟩ := Prod.mk.inj hef
        have hstructured := ih e he (isFlat_object.mp hflat e he).2 (hvalues e he) hvalue
        exact ⟨hkey, Prod.ext (congrArg dot.split hkey) hstructured⟩
      refine sortKeys_object_eq_of_leaves (distinctKeys_toStructured (.object fs))
        (distinctKeys_toStructured (.object es)) fun l => ?_
      rw [mem_sortLeaf_structureEntries hflat' hkeys', mem_sortLeaf_structureEntries hflat hkeys]
      constructor
      · rintro ⟨f, hf, hlast, rfl⟩
        obtain ⟨e, he, hef⟩ := List.mem_map.mp (hperm.mem_iff.mp (List.mem_map_of_mem hf))
        obtain ⟨hkey, hleaf⟩ := hplace he hef.symm
        exact ⟨e, he, by rwa [← hkey, ← hshadowed], hleaf.symm⟩
      · rintro ⟨e, he, hlast, rfl⟩
        obtain ⟨f, hf, hef⟩ := List.mem_map.mp (hperm.mem_iff.mpr (List.mem_map_of_mem he))
        obtain ⟨hkey, hleaf⟩ := hplace he hef
        exact ⟨f, hf, by rwa [hkey, hshadowed], hleaf⟩
  | _ =>
      cases w with
      | array ws => simp [sortKeys] at h
      | object fs => simp [sortKeys] at h
      | _ => exact h

/-- Flattening a structured document gives the entries of the flat one back whose paths lead to no
other entry, and so all of them if there are no such paths. The structured document depends on the
flat one, but not on the order of its entries. -/
theorem toFlat_toStructured {v : Json} (hflat : v.IsFlat) (hdistinct : v.DistinctKeys) :
    ((v.toStructured .dot).toFlat .dot).sortKeys = v.unshadowed.sortKeys ∧
      (v.PrefixFree → ((v.toStructured .dot).toFlat .dot).sortKeys = v.sortKeys) ∧
      ∀ w : Json, w.sortKeys = v.sortKeys →
        (w.toStructured .dot).sortKeys = (v.toStructured .dot).sortKeys := by
  have hback := sortKeys_toFlat_toStructured hflat hdistinct
  refine ⟨hback, fun hfree => ?_, fun w hw => sortKeys_toStructured hflat hdistinct hw⟩
  rw [hback, unshadowed_eq_self hfree]

/-- A scalar, an empty object and an array in the way of other keys, also inside an array. -/
def crowdedEntries : Entries Json :=
  [("a", .bool true), ("a.b.c", .null), ("d", .array [.object [("x.y", .null), ("x", .object [])]]),
    ("a.b", .object []), ("a.e", .array []), ("a.e.", .string "f.g")]

theorem crowded_toFlat_toStructured :
    IsFlat (.object crowdedEntries) ∧ DistinctKeys (.object crowdedEntries) ∧
      (((Json.object crowdedEntries).toStructured .dot).toFlat .dot).sortKeys =
        sortKeys (.object [("a.b.c", .null), ("d", .array [.object [("x.y", .null)]]),
          ("a.e.", .string "f.g")]) ∧
      ((Json.object crowdedEntries.reverse).toStructured .dot).sortKeys =
        ((Json.object crowdedEntries).toStructured .dot).sortKeys := by
  have hflat : IsFlat (.object crowdedEntries) := by
    simp [crowdedEntries, IsFlat, IsFlatInEntries, IsFlatInItems, IsLeaf]
  have hdistinct : DistinctKeys (.object crowdedEntries) := by
    simp [crowdedEntries, DistinctKeys, EveryObject, EveryObjectInEntries, EveryObjectInItems]
  have hkeys : (Entries.keys crowdedEntries.reverse).Nodup := by decide
  have hreverse : sortKeys (.object crowdedEntries.reverse) = sortKeys (.object crowdedEntries) :=
    (sortKeys_object_eq_iff hkeys).mpr ((List.reverse_perm crowdedEntries).map sortValue)
  have hlast : unshadowed (.object crowdedEntries) =
      .object [("a.b.c", .null), ("d", .array [.object [("x.y", .null)]]),
        ("a.e.", .string "f.g")] := by
    decide +kernel
  obtain ⟨hback, -, horder⟩ := toFlat_toStructured hflat hdistinct
  exact ⟨hflat, hdistinct, hlast ▸ hback, horder _ hreverse⟩

end Json

end EntityRest
