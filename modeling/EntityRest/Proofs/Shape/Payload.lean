import EntityRest.Proofs.Shape.Rows
import EntityRest.Shape.Payload

/-! # Flat payloads

A flat document holds under an output key the flat form of what stands there, and nothing if that is
an object with entries. So a flat payload says what the structured one says exactly if every field
finds a leaf, and one of documents a leaf that is flat all the way down. -/

namespace EntityRest

namespace Json

open Separator

variable {v x y : Json} {es : Entries Json} {p : List String} {k : String} {sep : Separator}

/-! ## Leaves and the paths to them -/

theorem walk?_cons_of_isLeaf (h : v.IsLeaf) (k : String) (p : List String) :
    walk? (k :: p) v = none := by
  cases v with
  | object es =>
      obtain rfl : es = [] := h
      rfl
  | _ => rfl

theorem mem_leaves_iff_of_isLeaf (h : v.IsLeaf) :
    (p, x) ∈ leaves v ↔ walk? p v = some x ∧ x.IsLeaf := by
  rw [h.leaves_eq, List.mem_singleton, Prod.mk.injEq]
  cases p with
  | nil =>
      simp only [walk?, true_and, Option.some.injEq]
      exact ⟨fun hx => ⟨hx.symm, hx ▸ h⟩, fun hx => hx.1.symm⟩
  | cons k p => simp [walk?_cons_of_isLeaf h]

/-- The leaves of a document are what its paths lead to and is a leaf. -/
theorem mem_leaves_iff (hv : v.DistinctKeys) :
    (p, x) ∈ leaves v ↔ walk? p v = some x ∧ x.IsLeaf := by
  induction v using document_induction generalizing p with
  | object es ih =>
      by_cases hes : es = []
      · exact mem_leaves_iff_of_isLeaf hes
      · obtain ⟨hkeys, hvalues⟩ := everyObject_object.mp hv
        rw [leaves_object hes]
        cases p with
        | nil =>
            simp only [nil_notMem_leavesOfEntries, walk?, Option.some.injEq, false_iff, not_and]
            rintro rfl
            exact hes
        | cons k p =>
            rw [mem_leavesOfEntries_iff hkeys, walk?_cons_object]
            cases hget : es.get? k with
            | none => simp
            | some v =>
                have hmem := Entries.mem_of_get? hget
                simp [ih _ hmem (hvalues _ hmem)]
  | _ => exact mem_leaves_iff_of_isLeaf trivial

theorem mem_leavesOfEntries_iff_walk? (hes : DistinctKeys (.object es)) (hp : p ≠ []) :
    (p, x) ∈ leavesOfEntries es ↔ walk? p (.object es) = some x ∧ x.IsLeaf := by
  by_cases hempty : es = []
  · subst hempty
    simp [leavesOfEntries, hp]
  · rw [← leaves_object hempty, mem_leaves_iff hes]

/-- What a path leads to is part of the document. -/
theorem everyObject_of_walk? {P : List String → Prop} (hv : v.EveryObject P)
    (h : walk? p v = some x) : x.EveryObject P := by
  induction p generalizing v with
  | nil => exact Option.some.inj h ▸ hv
  | cons k p ih =>
      rw [walk?, Option.bind_eq_some_iff] at h
      obtain ⟨w, hget, hwalk⟩ := h
      cases v with
      | object es => exact ih ((everyObject_object.mp hv).2 _ (Entries.mem_of_get? hget)) hwalk
      | _ => cases hget

/-! ## Looking up in flat documents -/

theorem lookup?_eq_walk? (hdots : KeysWithout '.' (.object es)) (k : String) :
    lookup? (.object es) k = walk? (dot.split k) (.object es) := by
  have hkeys := (everyObject_object.mp hdots).1
  rw [lookup?, ← dot_split]
  cases hget : Json.get? k (.object es) with
  | none => rfl
  | some x =>
      have hk : '.' ∉ k.toList := hkeys k (List.mem_map_of_mem (Entries.mem_of_get? hget))
      rw [split_eq_singleton hk, walk?, hget]
      rfl

/-- A flat document holds the flat forms of the leaves under their joined paths. -/
theorem get?_toFlat (hdistinct : DistinctKeys (.object es)) (hdots : KeysWithout '.' (.object es)) :
    ((Json.object es).toFlat .dot).get? k = some y ↔
      ∃ x, walk? (dot.split k) (.object es) = some x ∧ x.IsLeaf ∧ y = x.toFlat .dot := by
  have hnodup : (Entries.keys ((leavesOfEntries es).map fun l =>
      (dot.join l.1, l.2.toFlat .dot))).Nodup := by
    rw [Entries.keys, List.map_map]
    exact nodup_join dot_splits hdistinct hdots
  rw [toFlat_object_of_splits dot_splits hdistinct hdots, Json.get?,
    Entries.get?_eq_some_iff hnodup]
  simp only [List.mem_map, Prod.mk.injEq, Prod.exists]
  constructor
  · rintro ⟨p, x, hmem, rfl, rfl⟩
    obtain ⟨hwalk, hleaf⟩ := (mem_leavesOfEntries_iff_walk? hdistinct (path_ne_nil hmem)).mp hmem
    exact ⟨x, split_join_of_mem dot_splits hdots hmem ▸ hwalk, hleaf, rfl⟩
  · rintro ⟨x, hwalk, hleaf, rfl⟩
    exact ⟨dot.split k, x, (mem_leavesOfEntries_iff_walk? hdistinct (dot_split_ne_nil k)).mpr
      ⟨hwalk, hleaf⟩, dot_join_split k, rfl⟩

/-- No path leads further into a flat document than its own keys do. -/
theorem get?_of_walk?_toFlat (hdistinct : DistinctKeys (.object es))
    (hdots : KeysWithout '.' (.object es))
    (h : walk? (dot.split k) ((Json.object es).toFlat .dot) = some y) :
    ((Json.object es).toFlat .dot).get? k = some y := by
  obtain ⟨j, p, hsplit⟩ := List.exists_cons_of_ne_nil (dot_split_ne_nil k)
  rw [hsplit, walk?, Option.bind_eq_some_iff] at h
  obtain ⟨z, hz, hwalk⟩ := h
  cases p with
  | nil =>
      have hk : j = k := by
        rw [← dot_join_split k, hsplit]
        rfl
      exact hk ▸ hz.trans hwalk
  | cons i p =>
      obtain ⟨x, -, hleaf, rfl⟩ := (get?_toFlat hdistinct hdots).mp hz
      rw [walk?_cons_of_isLeaf (isLeaf_toFlat hleaf)] at hwalk
      cases hwalk

/-- Under an output key the flat form of a document holds the flat form of the leaf that the
document holds there. What is no leaf is not found. -/
theorem lookup?_toFlat (hdistinct : DistinctKeys (.object es))
    (hdots : KeysWithout '.' (.object es)) :
    ((Json.object es).toFlat .dot).lookup? k = some y ↔
      ∃ x, (Json.object es).lookup? k = some x ∧ x.IsLeaf ∧ y = x.toFlat .dot := by
  have hlookup :
      ((Json.object es).toFlat .dot).lookup? k = ((Json.object es).toFlat .dot).get? k := by
    rw [lookup?, ← dot_split]
    cases hget : ((Json.object es).toFlat .dot).get? k with
    | some z => rfl
    | none =>
        refine Option.eq_none_iff_forall_ne_some.mpr fun z hz => ?_
        cases hget.symm.trans (get?_of_walk?_toFlat hdistinct hdots hz)
  rw [hlookup, get?_toFlat hdistinct hdots, lookup?_eq_walk? hdots]

theorem lookup?_toFlat_eq_none (hdistinct : DistinctKeys (.object es))
    (hdots : KeysWithout '.' (.object es))
    (h : ∀ x, (Json.object es).lookup? k = some x → ¬ x.IsLeaf) :
    ((Json.object es).toFlat .dot).lookup? k = none := by
  refine Option.eq_none_iff_forall_ne_some.mpr fun y hy => ?_
  obtain ⟨x, hx, hleaf, -⟩ := (lookup?_toFlat hdistinct hdots).mp hy
  exact h x hx hleaf

/-! ## Leaves in either form -/

/-- Under each key of its flat form a document holds the leaf whose flat form stands there, and so
does the flat form. Under each key of a flat document, if none leads to another, its structured form
holds the structured form of what stands there. -/
theorem lookup?_of_key :
    (∀ (es : Entries Json) (k : String) (y : Json), DistinctKeys (.object es) →
      KeysWithout '.' (.object es) → ((Json.object es).toFlat .dot).get? k = some y →
        (∃ x, (Json.object es).lookup? k = some x ∧ x.IsLeaf ∧ x.toFlat .dot = y) ∧
          ((Json.object es).toFlat .dot).lookup? k = some y) ∧
      ∀ (es : Entries Json) (k : String) (v : Json), KeysApart es.keys → es.get? k = some v →
        ((Json.object es).toStructured .dot).lookup? k = some (v.toStructured .dot) := by
  constructor
  · intro es k y hdistinct hdots hget
    have hflat : ((Json.object es).toFlat .dot).lookup? k = some y := by rw [lookup?, hget]
    obtain ⟨x, hx, hleaf, rfl⟩ := (lookup?_toFlat hdistinct hdots).mp hflat
    exact ⟨⟨x, hx, hleaf, rfl⟩, hflat⟩
  · intro es k v hkeys hget
    exact lookup?_toStructured_of_keysApart hkeys (Entries.mem_of_get? hget)

/-- A document with empty keys, an empty object, and an array of objects below other keys. -/
def branching : Entries Json :=
  [("", .object [("", .object []), ("a", .string "b.c")]),
    ("b", .object [("c", .array [.object [("x", .object [("y", .null)])]]), ("d]", .bool true)])]

/-- A flat document with empty parts in its keys, and keys with points in an array. -/
def listing : Entries Json :=
  [("b.c", .array [.object [("x.y", .null), ("x.", .bool true)]]), (".", .object []), ("b.", .null)]

theorem lookup?_branching_and_listing :
    DistinctKeys (.object branching) ∧ KeysWithout '.' (.object branching) ∧
      (∃ x, (Json.object branching).lookup? "b.c" = some x ∧ x.IsLeaf ∧
        x.toFlat .dot = .array [.object [("x.y", .null)]]) ∧
      ((Json.object branching).toFlat .dot).lookup? "." = some (.object []) ∧
      KeysApart listing.keys ∧
      ((Json.object listing).toStructured .dot).lookup? "b.c" =
        some (.array [.object [("x", .object [("y", .null), ("", .bool true)])]]) := by
  have hdistinct : DistinctKeys (.object branching) := by
    simp [branching, DistinctKeys, EveryObject, EveryObjectInEntries, EveryObjectInItems]
  have hdots : KeysWithout '.' (.object branching) := by
    simp [branching, KeysWithout, EveryObject, EveryObjectInEntries, EveryObjectInItems]
  have hapart : KeysApart listing.keys := by decide +kernel
  have hlist : ((Json.object branching).toFlat .dot).get? "b.c" =
      some (.array [.object [("x.y", .null)]]) := by decide +kernel
  have hempty : ((Json.object branching).toFlat .dot).get? "." = some (.object []) := by
    decide +kernel
  have hget : listing.get? "b.c" =
      some (.array [.object [("x.y", .null), ("x.", .bool true)]]) := by decide +kernel
  have hvalue : (Json.array [.object [("x.y", .null), ("x.", .bool true)]]).toStructured .dot =
      .array [.object [("x", .object [("y", .null), ("", .bool true)])]] := by decide +kernel
  exact ⟨hdistinct, hdots, (lookup?_of_key.1 _ _ _ hdistinct hdots hlist).1,
    (lookup?_of_key.1 _ _ _ hdistinct hdots hempty).2, hapart,
    hvalue ▸ lookup?_of_key.2 _ _ _ hapart hget⟩

end Json

/-! ## Payloads -/

namespace ScalarKind

open Json

/-- Documents are kept as they are, other kinds read nothing from what flattening changes. -/
theorem coerceJson_toFlat (k : ScalarKind) {x : Json} (hx : x.IsLeaf) (hdistinct : x.DistinctKeys)
    (sep : Separator) :
    k.coerceJson (x.toFlat sep) = k.coerceJson x ↔ (k = .json → x.IsFlat) := by
  by_cases hk : k = .json
  · subst hk
    have hsame (v : Json) : ScalarKind.json.coerceJson v = v := by cases v <;> rfl
    rw [hsame, hsame, toFlat_eq_self_iff hdistinct]
    simp
  · simp only [hk, false_implies, iff_true]
    cases x with
    | array vs => cases k <;> first | rfl | exact absurd rfl hk
    | object es =>
        obtain rfl : es = [] := hx
        rfl
    | _ => rfl

end ScalarKind

namespace Schema

open Json

/-- The field of an output key; of several ones the last. -/
def lastField? (s : Schema) (key : String) : Option Field :=
  s.fields.reverse.find? fun f => f.key = key

/-- A payload holds under an output key what the document holds there, in the form of the field. -/
theorem get?_readPayload (s : Schema) (v : Json) (key : String) :
    (s.readPayload v).get? key =
      (s.lastField? key).bind fun f => (v.lookup? key).map f.kind.coerceJson := by
  rw [readPayload, lastField?]
  induction s.fields using List.reverseRecOn with
  | nil => rfl
  | append_singleton fs f ih =>
      rw [List.filterMap_append, List.reverse_append, List.reverse_singleton, List.singleton_append,
        List.find?_cons]
      by_cases hkey : f.key = key
      · subst hkey
        cases hlookup : v.lookup? f.key with
        | none => simp [ih, hlookup]
        | some x => simp [hlookup, Entries.ofPairs_concat]
      · rw [decide_eq_false hkey]
        simp only
        rw [← ih]
        cases hlookup : v.lookup? f.key with
        | none => simp [hlookup]
        | some x =>
            simp [hlookup, Entries.ofPairs_concat, Entries.get?_put_of_ne (Ne.symm hkey)]

/-- A payload of fields that find leaves, and of documents that are flat, is read from the flat form
of a document as from the document itself, and no other one is. -/
theorem readPayload_toFlat_iff (s : Schema) {es : Entries Json}
    (hdistinct : DistinctKeys (.object es)) (hdots : KeysWithout '.' (.object es)) :
    (∀ key, (s.readPayload ((Json.object es).toFlat .dot)).get? key =
        (s.readPayload (.object es)).get? key) ↔
      ∀ key f x, s.lastField? key = some f → (Json.object es).lookup? key = some x →
        x.IsLeaf ∧ (f.kind = .json → x.IsFlat) := by
  refine forall_congr' fun key => ?_
  rw [get?_readPayload, get?_readPayload]
  cases hfield : s.lastField? key with
  | none => simp
  | some f =>
      cases hlookup : (Json.object es).lookup? key with
      | none =>
          rw [lookup?_toFlat_eq_none hdistinct hdots (by simp [hlookup])]
          simp
      | some x =>
          have hwalk := lookup?_eq_walk? hdots key ▸ hlookup
          have hx : x.DistinctKeys := everyObject_of_walk? hdistinct hwalk
          simp only [Option.bind_some, Option.map_some, Option.some.injEq]
          by_cases hleaf : x.IsLeaf
          · rw [(lookup?_toFlat hdistinct hdots).mpr ⟨x, hlookup, hleaf, rfl⟩, Option.map_some,
              Option.some.injEq, f.kind.coerceJson_toFlat hleaf hx]
            simp [hleaf]
          · rw [lookup?_toFlat_eq_none hdistinct hdots (by simp [hlookup, hleaf])]
            simp [hleaf]

theorem mem_of_lastField? {s : Schema} {key : String} {f : Field} (h : s.lastField? key = some f) :
    f ∈ s.fields ∧ f.key = key := by
  rw [lastField?] at h
  exact ⟨List.mem_reverse.mp (List.mem_of_find?_eq_some h), by simpa using List.find?_some h⟩

end Schema

/-! ## Payloads of documents -/

namespace Annotated

open Json

/-- A payload with a list as its data, in which no object holds an object. -/
def listed : Entries Json :=
  [("id", .ofInt64 1), ("meta", .object [("data", .array [.ofInt64 2, .object [("a", .null)]])])]

theorem readPayload_listed :
    DistinctKeys (.object listed) ∧ KeysWithout '.' (.object listed) ∧
      ∀ key, (docs.readPayload ((Json.object listed).toFlat .dot)).get? key =
        (docs.readPayload (.object listed)).get? key := by
  have hdistinct : DistinctKeys (.object listed) := by
    simp [listed, DistinctKeys, EveryObject, EveryObjectInEntries, EveryObjectInItems, Json.ofInt64]
  have hdots : KeysWithout '.' (.object listed) := by
    simp [listed, KeysWithout, EveryObject, EveryObjectInEntries, EveryObjectInItems, Json.ofInt64]
  refine ⟨hdistinct, hdots, (docs.readPayload_toFlat_iff hdistinct hdots).mpr ?_⟩
  intro key f x hf hx
  obtain ⟨hmem, rfl⟩ := Schema.mem_of_lastField? hf
  simp only [docs, List.mem_cons, List.not_mem_nil, or_false] at hmem
  rcases hmem with rfl | rfl
  · have hid : (Json.object listed).lookup? "id" = some (.ofInt64 1) := by decide +kernel
    obtain rfl := Option.some.inj (hid.symm.trans hx)
    exact ⟨trivial, fun _ => trivial⟩
  · have hdata : (Json.object listed).lookup? "meta.data" =
        some (.array [.ofInt64 2, .object [("a", .null)]]) := by decide +kernel
    obtain rfl := Option.some.inj (hdata.symm.trans hx)
    refine ⟨trivial, fun _ => ?_⟩
    simp [IsFlat, IsFlatInItems, IsFlatInEntries, IsLeaf, Json.ofInt64]

/-- The data of a document is not found in the flat form of its payload. -/
theorem readPayload_toFlat_nested :
    Registry.build [docsConfig, notesConfig] = .ok ⟨[docs, notes]⟩ ∧
      ∃ es : Entries Json, DistinctKeys (.object es) ∧ KeysWithout '.' (.object es) ∧
        (docs.readPayload (.object es)).get? "meta.data" = some (.object [("a", .ofInt64 1)]) ∧
        (docs.readPayload ((Json.object es).toFlat .dot)).get? "meta.data" = none := by
  refine ⟨build_eq, [("id", .ofInt64 1),
    ("meta", .object [("data", .object [("a", .ofInt64 1)])])], ?_, ?_, ?_, ?_⟩
  · simp [DistinctKeys, EveryObject, EveryObjectInEntries, Json.ofInt64]
  · simp [KeysWithout, EveryObject, EveryObjectInEntries, Json.ofInt64]
  · decide +kernel
  · decide +kernel

end Annotated

end EntityRest
