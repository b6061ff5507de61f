import EntityRest.Proofs.Json.Basic
import EntityRest.Proofs.Json.Object

/-! # Documents up to the order of keys

Two documents that differ only in the order of the keys of their objects have one sorted form. -/

namespace EntityRest.Json

mutual

/-- The document with the entries of each of its objects in the order of their keys. -/
def sortKeys : Json → Json
  | .object es => .object (Entries.sorted (sortKeysInEntries es))
  | .array vs => .array (sortKeysInItems vs)
  | v => v

def sortKeysInItems : List Json → List Json
  | [] => []
  | v :: vs => sortKeys v :: sortKeysInItems vs

def sortKeysInEntries : List (String × Json) → List (String × Json)
  | [] => []
  | (k, v) :: es => (k, sortKeys v) :: sortKeysInEntries es

end

def sortValue (e : String × Json) : String × Json := (e.1, e.2.sortKeys)

theorem sortKeys_array (vs : List Json) : sortKeys (.array vs) = .array (vs.map sortKeys) := by
  have hitems : sortKeysInItems vs = vs.map sortKeys := by
    induction vs with
    | nil => rfl
    | cons v vs ih => rw [sortKeysInItems, ih, List.map_cons]
  rw [sortKeys, hitems]

theorem sortKeys_object (es : Entries Json) :
    sortKeys (.object es) = .object (Entries.sorted (es.map sortValue)) := by
  have hentries : sortKeysInEntries es = es.map sortValue := by
    induction es with
    | nil => rfl
    | cons e es ih => rw [sortKeysInEntries, ih, List.map_cons, sortValue]
  rw [sortKeys, hentries]

@[simp] theorem keys_map_sortValue (es : Entries Json) :
    Entries.keys (es.map sortValue) = Entries.keys es := by
  simp [Entries.keys, Function.comp_def, sortValue]

/-- Objects are the same up to order exactly if their entries are, in some order. -/
theorem sortKeys_object_eq_iff {es fs : Entries Json} (hkeys : es.keys.Nodup) :
    sortKeys (.object es) = sortKeys (.object fs) ↔
      (es.map sortValue).Perm (fs.map sortValue) := by
  rw [sortKeys_object, sortKeys_object, Json.object.injEq]
  constructor
  · intro h
    exact (Entries.sorted_perm _).symm.trans (h ▸ Entries.sorted_perm _)
  · intro h
    exact Entries.sorted_eq_of_perm h (by simpa using hkeys)

/-- Objects are the same up to order if under each key they hold the same up to order. -/
theorem sortKeys_object_eq_of_get? {es fs : Entries Json} (hes : es.keys.Nodup)
    (hfs : fs.keys.Nodup) (h : ∀ k, (es.get? k).map sortKeys = (fs.get? k).map sortKeys) :
    sortKeys (.object es) = sortKeys (.object fs) := by
  have hentry {es : Entries Json} (hes : es.keys.Nodup) (k : String) (v : Json) :
      (k, v) ∈ es.map sortValue ↔ (es.get? k).map sortKeys = some v := by
    simp [sortValue, Entries.get?_eq_some_iff hes]
  have hnodup {es : Entries Json} (hes : es.keys.Nodup) : (es.map sortValue).Nodup := by
    rw [← keys_map_sortValue] at hes
    exact List.Nodup.of_map Prod.fst hes
  rw [sortKeys_object_eq_iff hes]
  refine (List.perm_ext_iff_of_nodup (hnodup hes) (hnodup hfs)).mpr ?_
  rintro ⟨k, v⟩
  rw [hentry hes, hentry hfs, h]

theorem array_of_sortKeys_eq {v : Json} {vs : List Json} (h : v.sortKeys = sortKeys (.array vs)) :
    ∃ ws, v = .array ws ∧ ws.map sortKeys = vs.map sortKeys := by
  cases v with
  | array ws => exact ⟨ws, rfl, by simpa [sortKeys_array] using h⟩
  | object es => simp [sortKeys_array, sortKeys_object] at h
  | _ => simp [sortKeys] at h

theorem object_of_sortKeys_eq {v : Json} {es : Entries Json}
    (h : v.sortKeys = sortKeys (.object es)) :
    ∃ fs : Entries Json, v = .object fs ∧ (fs.map sortValue).Perm (es.map sortValue) := by
  cases v with
  | array ws => simp [sortKeys_array, sortKeys_object] at h
  | object fs =>
      simp only [sortKeys_object, Json.object.injEq] at h
      exact ⟨fs, rfl, (Entries.sorted_perm _).symm.trans (h ▸ Entries.sorted_perm _)⟩
  | _ => simp [sortKeys] at h

/-! ## What does not depend on the order -/

theorem everyObject_sortKeys {P : List String → Prop}
    (hP : ∀ {ks ls : List String}, ks.Perm ls → (P ks ↔ P ls)) (v : Json) :
    EveryObject P v.sortKeys ↔ EveryObject P v := by
  induction v using document_induction with
  | array vs ih =>
      simp only [sortKeys_array, everyObject_array, List.forall_mem_map]
      exact forall₂_congr ih
  | object es ih =>
      have hperm := Entries.sorted_perm (es.map sortValue)
      have hkeys : (Entries.keys (Entries.sorted (es.map sortValue))).Perm (Entries.keys es) :=
        (hperm.map Prod.fst).trans (.of_eq (keys_map_sortValue es))
      simp only [sortKeys_object, everyObject_object, hP hkeys, hperm.mem_iff, List.forall_mem_map]
      exact and_congr_right fun _ => forall₂_congr ih
  | _ => rfl

theorem distinctKeys_sortKeys (v : Json) : v.sortKeys.DistinctKeys ↔ v.DistinctKeys :=
  everyObject_sortKeys (fun h => h.nodup_iff) v

end EntityRest.Json
