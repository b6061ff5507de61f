import EntityRest.Proofs.Shape.Structured

/-! # Documents that conversions leave alone

Flattening makes flat documents, and these it leaves as they are. Structuring makes documents whose
keys are split no further, and these it leaves as they are. So there is nothing left to convert once
a document was converted, whatever its keys are and whatever the separator is. -/

namespace EntityRest

/-! ## Parts of paths -/

namespace Separator

variable {sep : Separator} {k p : String}

theorem split_of_not_infix (hbefore : sep.before ≠ "") (h : ¬ sep.before.toList <:+: k.toList) :
    sep.split k = [k] := by
  have hpieces : Text.splitText sep.before k = [k] := by
    rw [Text.splitText, Chars.splitText_eq_singleton h, List.map_singleton, String.ofList_toList]
  rw [split, if_neg hbefore, hpieces]
  rfl

theorem not_infix_of_mem_split (hbefore : sep.before ≠ "") (hp : p ∈ sep.split k) :
    ¬ sep.before.toList <:+: p.toList := by
  have hmark : sep.before.toList ≠ [] := fun h => hbefore (String.toList_eq_nil_iff.mp h)
  have hpiece : ∀ q ∈ Text.splitText sep.before k, ¬ sep.before.toList <:+: q.toList := by
    intro q hq
    obtain ⟨cs, hcs, rfl⟩ := List.mem_map.mp hq
    rw [String.toList_ofList]
    exact (Chars.not_infix_of_mem_splitText hmark hcs).1
  rw [split, if_neg hbefore] at hp
  split at hp
  case h_1 => cases hp
  case h_2 first rest hsplit =>
    rw [hsplit, List.forall_mem_cons] at hpiece
    rcases List.mem_cons.mp hp with rfl | hp
    · exact hpiece.1
    · obtain ⟨q, hq, rfl⟩ := List.mem_map.mp hp
      -- without its closing mark a piece is a beginning of itself
      have hbegins : ((Text.dropSuffix? sep.after q).getD q).toList <+: q.toList := by
        cases hdrop : Text.dropSuffix? sep.after q with
        | none => exact List.prefix_rfl
        | some r =>
            rw [Text.dropSuffix?_eq_some_iff.mp hdrop, String.toList_append]
            exact List.prefix_append _ _
      exact fun hin => hpiece.2 q hq (hin.trans hbegins.isInfix)

theorem split_of_mem_split (h : p ∈ sep.split k) : sep.split p = [p] := by
  by_cases hbefore : sep.before = ""
  · rw [split, if_pos hbefore]
  · exact split_of_not_infix hbefore (not_infix_of_mem_split hbefore h)

end Separator

namespace Json

open Separator

variable {v : Json} {es : Entries Json} {sep : Separator}

/-! ## Flat forms -/

/-- What is handed on from the leaves of objects and from the items of arrays holds of all
documents. -/
@[elab_as_elim]
theorem leaf_induction {P : Json → Prop} (null : P .null) (bool : ∀ b, P (.bool b))
    (number : ∀ n, P (.number n)) (string : ∀ s, P (.string s))
    (array : ∀ vs : List Json, (∀ v ∈ vs, P v) → P (.array vs))
    (object : ∀ es : Entries Json, (∀ l ∈ leavesOfEntries es, P l.2) → P (.object es)) (v : Json) :
    P v := by
  -- a document that is a leaf has no leaves below it, so both are carried along
  suffices h : (∀ l ∈ leaves v, P l.2) ∧ P v from h.2
  have hleaf {v : Json} (hv : v.IsLeaf) (h : P v) : (∀ l ∈ leaves v, P l.2) ∧ P v := by
    refine ⟨fun l hl => ?_, h⟩
    rw [hv.leaves_eq, List.mem_singleton] at hl
    exact hl ▸ h
  induction v using document_induction with
  | null => exact hleaf trivial null
  | bool b => exact hleaf trivial (bool b)
  | number n => exact hleaf trivial (number n)
  | string s => exact hleaf trivial (string s)
  | array vs ih => exact hleaf trivial (array vs fun v hv => (ih v hv).2)
  | object es ih =>
      have hleaves : ∀ l ∈ leavesOfEntries es, P l.2 := by
        intro l hl
        obtain ⟨e, he, m, hm, rfl⟩ := mem_leavesOfEntries.mp hl
        exact (ih e he).1 m hm
      by_cases hes : es = []
      · exact hleaf (v := .object es) hes (object es hleaves)
      · exact ⟨leaves_object hes ▸ hleaves, object es hleaves⟩

theorem isLeaf_of_mem_leaves {l : List String × Json} (h : l ∈ leaves v) : l.2.IsLeaf := by
  induction v using document_induction generalizing l with
  | object es ih =>
      rcases mem_leaves_object.mp h with ⟨-, rfl⟩ | ⟨e, he, m, hm, rfl⟩
      · exact rfl
      · exact ih e he (l := m) hm
  | _ =>
      obtain rfl := List.mem_singleton.mp h
      trivial

theorem isLeaf_of_mem_leavesOfEntries {l : List String × Json} (h : l ∈ leavesOfEntries es) :
    l.2.IsLeaf := by
  obtain ⟨e, -, m, hm, rfl⟩ := mem_leavesOfEntries.mp h
  exact isLeaf_of_mem_leaves (l := m) hm

theorem isLeaf_toFlat (h : v.IsLeaf) : (v.toFlat sep).IsLeaf := by
  cases v with
  | object es =>
      obtain rfl : es = [] := h
      rfl
  | _ => trivial

theorem toFlat_array (vs : List Json) :
    (Json.array vs).toFlat sep = .array (vs.map (toFlat sep)) := by
  rw [toFlat, toFlatItems_eq_map]

/-- The flat form of a document is flat. -/
theorem isFlat_toFlat (v : Json) : (v.toFlat sep).IsFlat := by
  induction v using leaf_induction with
  | array vs ih => rwa [toFlat_array, isFlat_array, List.forall_mem_map]
  | object es ih =>
      rw [toFlat_object, isFlat_object]
      intro e he
      obtain ⟨l, hl, rfl⟩ := List.mem_map.mp (Entries.mem_of_mem_ofPairs he)
      exact ⟨isLeaf_toFlat (isLeaf_of_mem_leavesOfEntries hl), ih l hl⟩
  | _ => trivial

/-- Of several leaves under one joined path only the last is there, so keys are all different. -/
theorem distinctKeys_toFlat (v : Json) : (v.toFlat sep).DistinctKeys := by
  induction v using leaf_induction with
  | array vs ih =>
      rw [toFlat_array]
      exact everyObject_array.mpr (List.forall_mem_map.mpr ih)
  | object es ih =>
      rw [toFlat_object]
      refine everyObject_object.mpr ⟨Entries.nodup_keys_ofPairs _, fun e he => ?_⟩
      obtain ⟨l, hl, rfl⟩ := List.mem_map.mp (Entries.mem_of_mem_ofPairs he)
      exact ih l hl
  | _ => trivial

theorem leavesOfEntries_of_isFlat (h : IsFlat (.object es)) :
    leavesOfEntries es = es.map fun e => ([e.1], e.2) := by
  rw [leavesOfEntries_eq, List.map_eq_flatMap]
  refine List.flatMap_congr fun e he => ?_
  rw [((isFlat_object.mp h) e he).1.leaves_eq]
  rfl

theorem toFlat_eq_self (hdistinct : v.DistinctKeys) (hflat : v.IsFlat) : v.toFlat sep = v := by
  induction v using document_induction with
  | array vs ih =>
      have hitem : ∀ v ∈ vs, v.toFlat sep = v := fun v hv =>
        ih v hv (everyObject_array.mp hdistinct v hv) (isFlat_array.mp hflat v hv)
      rw [toFlat_array, (List.map_congr_left (g := id) hitem).trans (List.map_id vs)]
  | object es ih =>
      obtain ⟨hkeys, hvalues⟩ := everyObject_object.mp hdistinct
      have hentry : ∀ e ∈ es, (sep.join [e.1], e.2.toFlat sep) = e := fun e he =>
        Prod.ext rfl (ih e he (hvalues e he) (isFlat_object.mp hflat e he).2)
      have hpairs : ((leavesOfEntries es).map fun l => (sep.join l.1, l.2.toFlat sep)) = es := by
        rw [leavesOfEntries_of_isFlat hflat, List.map_map]
        exact (List.map_congr_left (g := id) hentry).trans (List.map_id es)
      rw [toFlat_object, hpairs, Entries.ofPairs_eq_self hkeys]
  | _ => rfl

/-- Flattening leaves a document as it is exactly if it is flat. -/
theorem toFlat_eq_self_iff (hdistinct : v.DistinctKeys) : v.toFlat sep = v ↔ v.IsFlat :=
  ⟨fun h => h ▸ isFlat_toFlat v, toFlat_eq_self hdistinct⟩

/-! ## Structured forms -/

/-- No key of any object is split by the separator. -/
def WholeKeys (sep : Separator) : Json → Prop :=
  EveryObject fun keys => ∀ k ∈ keys, sep.split k = [k]

/-- Structuring puts values under parts of keys, which are whole. -/
theorem wholeKeys_toStructured (v : Json) : (v.toStructured sep).WholeKeys sep :=
  (keptByPut_forall _).everyObject_toStructured (fun _ _ => split_of_mem_split) v

/-- Entries with values that are structured already, under new keys that are whole, are put in
their order. -/
theorem structureEntries_eq_append (hkeys : es.keys.Nodup) (hwhole : ∀ k ∈ es.keys, sep.split k = [k])
    (hvalues : ∀ e ∈ es, e.2.toStructured sep = e.2) {out : Entries Json}
    (hnew : ∀ k ∈ es.keys, k ∉ out.keys) : structureEntries sep out es = out ++ es := by
  rw [structureEntries_eq, putLeaves, List.foldl_map]
  refine Entries.foldl_eq_append hkeys (fun e he out hfirst => ?_) hnew
  rw [hwhole e.1 (List.mem_map_of_mem he), hvalues e he, putPath]
  exact putWeak_of_new hfirst e.2

theorem toStructured_of_wholeKeys (hdistinct : v.DistinctKeys) (hwhole : v.WholeKeys sep) :
    v.toStructured sep = v := by
  induction v using document_induction with
  | array vs ih =>
      have hitem : ∀ v ∈ vs, v.toStructured sep = v := fun v hv =>
        ih v hv (everyObject_array.mp hdistinct v hv) (everyObject_array.mp hwhole v hv)
      rw [toStructured, toStructuredItems_eq_map,
        (List.map_congr_left (g := id) hitem).trans (List.map_id vs)]
  | object es ih =>
      obtain ⟨hkeys, hvalues⟩ := everyObject_object.mp hdistinct
      obtain ⟨hwholekeys, hwholevalues⟩ := everyObject_object.mp hwhole
      have hstructured : ∀ e ∈ es, e.2.toStructured sep = e.2 := fun e he =>
        ih e he (hvalues e he) (hwholevalues e he)
      rw [toStructured, structureEntries_eq_append hkeys hwholekeys hstructured (by simp)]
      rfl
  | _ => rfl

/-! ## Converting twice -/

/-- A document that was flattened is left as it is by flattening it again, and one that was
structured by structuring it again, with its entries in their order. -/
theorem toFlat_toFlat_and_toStructured_toStructured (sep : Separator) (v : Json) :
    (v.toFlat sep).toFlat sep = v.toFlat sep ∧
      (v.toStructured sep).toStructured sep = v.toStructured sep :=
  ⟨toFlat_eq_self (distinctKeys_toFlat v) (isFlat_toFlat v),
    toStructured_of_wholeKeys (distinctKeys_toStructured v) (wholeKeys_toStructured v)⟩

end Json

end EntityRest
