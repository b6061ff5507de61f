import EntityRest.Proofs.Json.Basic
import EntityRest.Proofs.Json.Object
import EntityRest.Proofs.Text.Split
import EntityRest.Shape.Flat
import Mathlib.Data.List.Nodup

/-! # Structuring undoes flattening

Both conversions are described by the leaves of a document and the paths that lead to them.
Flattening puts every leaf under its joined path; structuring puts it at the path that the joined
one is split into. A document is rebuilt from its leaves, with its entries in their order. -/

namespace EntityRest

/-! ## Joined paths -/

namespace Separator

/-- The parts of a path joined, as a key of a flat object. -/
def join (sep : Separator) : List String → String
  | [] => ""
  | k :: ks => ks.foldl sep.extend k

/-- The parts of a path are read off its joined form: the separator opens with one character, which
does not occur where the separator closes. -/
structure Splits (sep : Separator) (c : Char) : Prop where
  before : sep.before = String.singleton c
  after : c ∉ sep.after.toList

theorem dot_splits : dot.Splits '.' := ⟨rfl, by simp [dot]⟩

theorem bracket_splits : bracket.Splits '[' := ⟨rfl, by simp [bracket]⟩

variable {sep : Separator} {c : Char}

/-- The characters of a path: those of its first part, then each further part between the two marks
of the separator. -/
theorem toList_foldl_extend (ks : List String) (k : String) :
    (ks.foldl sep.extend k).toList =
      k.toList ++ ks.flatMap fun p => sep.before.toList ++ (p.toList ++ sep.after.toList) := by
  induction ks generalizing k with
  | nil => simp
  | cons p ks ih => simp [ih, extend, List.append_assoc]

namespace Splits

/-- The pieces between the opening marks of a path are its parts, the closing marks included. -/
theorem splitText_join (h : sep.Splits c) {ks : List String} (hks : ∀ p ∈ ks, c ∉ p.toList)
    {k : String} (hk : c ∉ k.toList) :
    Text.splitText sep.before (sep.join (k :: ks)) = k :: ks.map (· ++ sep.after) := by
  have hbefore : sep.before.toList = [c] := by rw [h.before, String.toList_singleton]
  rw [Text.splitText, hbefore, Chars.splitText_singleton, join, toList_foldl_extend, hbefore]
  induction ks generalizing k with
  | nil => simp [Chars.splitChar_eq_singleton hk]
  | cons p ks ih =>
      obtain ⟨hp, hks⟩ := List.forall_mem_cons.mp hks
      have hpiece : c ∉ (p ++ sep.after).toList := by
        rw [String.toList_append, List.mem_append, not_or]
        exact ⟨hp, h.after⟩
      have hrest := ih hks hpiece
      rw [List.flatMap_cons, List.singleton_append, List.cons_append,
        Chars.splitChar_append hk, ← String.toList_append, List.map_cons, hrest,
        String.ofList_toList, List.map_cons]

theorem split_join (h : sep.Splits c) {ks : List String} (hne : ks ≠ [])
    (hks : ∀ p ∈ ks, c ∉ p.toList) : sep.split (sep.join ks) = ks := by
  cases ks with
  | nil => exact absurd rfl hne
  | cons k ks =>
      obtain ⟨hk, hks⟩ := List.forall_mem_cons.mp hks
      have hbefore : sep.before ≠ "" := by
        rw [h.before]
        exact fun hnil => by simpa using congrArg String.toList hnil
      have hsuffix : ks.map ((fun q => (Text.dropSuffix? sep.after q).getD q) ∘
          (· ++ sep.after)) = ks := by
        simp [Function.comp_def, Text.dropSuffix?_append]
      rw [split, if_neg hbefore, h.splitText_join hks hk]
      simp only [List.map_map, hsuffix]

end Splits

end Separator

namespace Json

/-! ## Leaves -/

/-- A leaf one key further down. -/
def under (k : String) (leaf : List String × Json) : List String × Json := (k :: leaf.1, leaf.2)

mutual

/-- The leaves of a document, which are everything but objects with entries, each with the keys that
lead to it. -/
def leaves : Json → List (List String × Json)
  | .object es => if es.isEmpty then [([], .object [])] else leavesOfEntries es
  | v => [([], v)]

def leavesOfEntries : List (String × Json) → List (List String × Json)
  | [] => []
  | (k, v) :: es => (leaves v).map (under k) ++ leavesOfEntries es

end

theorem leavesOfEntries_eq (es : Entries Json) :
    leavesOfEntries es = es.flatMap fun e => (leaves e.2).map (under e.1) := by
  induction es with
  | nil => rfl
  | cons e es ih => rw [leavesOfEntries, ih, List.flatMap_cons]

theorem leaves_object {es : Entries Json} (h : es ≠ []) :
    leaves (.object es) = leavesOfEntries es := by
  cases es with
  | nil => exact absurd rfl h
  | cons e es => rfl

theorem mem_leavesOfEntries {es : Entries Json} {leaf : List String × Json} :
    leaf ∈ leavesOfEntries es ↔ ∃ e ∈ es, ∃ l ∈ leaves e.2, leaf = under e.1 l := by
  simp [leavesOfEntries_eq, eq_comm]

theorem mem_leaves_object {es : Entries Json} {leaf : List String × Json} :
    leaf ∈ leaves (.object es) ↔
      (es = [] ∧ leaf = ([], .object [])) ∨ ∃ e ∈ es, ∃ l ∈ leaves e.2, leaf = under e.1 l := by
  by_cases hes : es = []
  · subst hes
    simp [leaves]
  · simp [leaves_object hes, mem_leavesOfEntries, hes]

theorem leaves_ne_nil (v : Json) : leaves v ≠ [] := by
  induction v using document_induction with
  | object es ih =>
      cases es with
      | nil => simp [leaves]
      | cons e es =>
          have he := ih e List.mem_cons_self
          simp [leaves_object, leavesOfEntries_eq, he]
  | _ => simp [leaves]

theorem path_ne_nil {es : Entries Json} {leaf : List String × Json}
    (h : leaf ∈ leavesOfEntries es) : leaf.1 ≠ [] := by
  obtain ⟨e, -, l, -, rfl⟩ := mem_leavesOfEntries.mp h
  exact List.cons_ne_nil _ _

/-- The keys that lead to the leaves are keys of objects. -/
theorem not_mem_of_mem_path {c : Char} {v : Json} (hv : v.KeysWithout c)
    {leaf : List String × Json} (h : leaf ∈ leaves v) : ∀ k ∈ leaf.1, c ∉ k.toList := by
  induction v using document_induction generalizing leaf with
  | object es ih =>
      obtain ⟨hkeys, hvalues⟩ := everyObject_object.mp hv
      rcases mem_leaves_object.mp h with ⟨-, rfl⟩ | ⟨e, he, l, hl, rfl⟩
      · simp
      · intro k hk
        rcases List.mem_cons.mp hk with rfl | hk
        · exact hkeys _ (List.mem_map_of_mem he)
        · exact ih e he (hvalues e he) hl k hk
  | _ =>
      obtain rfl := List.mem_singleton.mp h
      simp

/-- Different leaves have different paths. -/
theorem nodup_paths {v : Json} (hv : v.DistinctKeys) : ((leaves v).map Prod.fst).Nodup := by
  induction v using document_induction with
  | object es ih =>
      obtain ⟨hkeys, hvalues⟩ := everyObject_object.mp hv
      by_cases hes : es = []
      · subst hes
        simp [leaves]
      · rw [leaves_object hes, leavesOfEntries_eq, List.map_flatMap, List.nodup_flatMap]
        refine ⟨fun e he => ?_, ?_⟩
        · have hinj : Function.Injective (e.1 :: ·) := fun a b hab => (List.cons.inj hab).2
          have hnodup := (ih e he (hvalues e he)).map hinj
          simpa [List.map_map, Function.comp_def, under] using hnodup
        · -- leaves of different entries differ in the first key
          refine (List.pairwise_map.mp hkeys).imp fun {e f} hne => ?_
          simp only [List.map_map, Function.onFun, List.disjoint_left, List.mem_map]
          rintro _ ⟨l, -, rfl⟩ ⟨l', -, hl'⟩
          exact hne (List.cons.inj hl').1.symm
  | _ => simp [leaves]

theorem nodup_paths_of_entries {es : Entries Json} (h : DistinctKeys (.object es)) :
    ((leavesOfEntries es).map Prod.fst).Nodup := by
  by_cases hes : es = []
  · subst hes
    exact List.nodup_nil
  · exact leaves_object hes ▸ nodup_paths h

/-! ## Flattening puts leaves -/

variable {sep : Separator}

theorem flattenEntries_eq_foldl (name : String → String) (out es : Entries Json) :
    flattenEntries sep name out es =
      es.foldl (fun out e => flattenInto sep (name e.1) out e.2) out := by
  induction es generalizing out with
  | nil => rfl
  | cons e es ih => rw [flattenEntries, ih, List.foldl_cons]

theorem flattenEntries_eq_putAll {name : String → String} {es : Entries Json}
    (h : ∀ e ∈ es, ∀ path out, flattenInto sep path out e.2 =
      out.putAll ((leaves e.2).map fun l => (l.1.foldl sep.extend path, l.2.toFlat sep)))
    (out : Entries Json) :
    flattenEntries sep name out es = out.putAll (es.flatMap fun e =>
      (leaves e.2).map fun l => (l.1.foldl sep.extend (name e.1), l.2.toFlat sep)) := by
  rw [flattenEntries_eq_foldl]
  induction es generalizing out with
  | nil => rfl
  | cons e es ih =>
      obtain ⟨he, hes⟩ := List.forall_mem_cons.mp h
      rw [List.foldl_cons, he, ih hes, List.flatMap_cons, Entries.putAll, Entries.putAll,
        Entries.putAll, List.foldl_append]

theorem flattenInto_eq_putAll (v : Json) (path : String) (out : Entries Json) :
    flattenInto sep path out v =
      out.putAll ((leaves v).map fun l => (l.1.foldl sep.extend path, l.2.toFlat sep)) := by
  induction v using document_induction generalizing path out with
  | object es ih =>
      by_cases hes : es = []
      · subst hes
        rfl
      · have hempty : es.isEmpty = false := by simpa using hes
        rw [flattenInto, hempty, if_neg Bool.false_ne_true, flattenEntries_eq_putAll ih,
          leaves_object hes, leavesOfEntries_eq, List.map_flatMap]
        simp only [List.map_map, Function.comp_def, under, List.foldl_cons]
  | _ => rfl

/-- The flat form of an object holds the flat forms of its leaves under their joined paths. -/
theorem toFlat_object (es : Entries Json) :
    toFlat sep (.object es) = .object (Entries.ofPairs
      ((leavesOfEntries es).map fun l => (sep.join l.1, l.2.toFlat sep))) := by
  have hvalues : ∀ e ∈ es, ∀ path out, flattenInto sep path out e.2 =
      out.putAll ((leaves e.2).map fun l => (l.1.foldl sep.extend path, l.2.toFlat sep)) :=
    fun e _ => flattenInto_eq_putAll e.2
  rw [toFlat, flattenEntries_eq_putAll hvalues, leavesOfEntries_eq, List.map_flatMap]
  simp only [List.map_map, Function.comp_def, under, id]
  rfl

/-! ## Structuring puts leaves at their paths -/

/-- Puts leaves at their paths, one after the other. -/
def putLeaves (out : Entries Json) (ls : List (List String × Json)) : Entries Json :=
  ls.foldl (fun out l => putPath l.2 l.1 out) out

theorem putLeaves_append (out : Entries Json) (ls ls' : List (List String × Json)) :
    putLeaves out (ls ++ ls') = putLeaves (putLeaves out ls) ls' :=
  List.foldl_append

theorem structureEntries_eq (out es : Entries Json) :
    structureEntries sep out es =
      putLeaves out (es.map fun e => (sep.split e.1, e.2.toStructured sep)) := by
  rw [putLeaves, List.foldl_map]
  induction es generalizing out with
  | nil => rfl
  | cons e es ih => rw [structureEntries, ih, List.foldl_cons]

theorem putWeak_of_new {k : String} {out : Entries Json} (h : k ∉ out.keys) (v : Json) :
    putWeak k out v = out ++ [(k, v)] := by
  cases v <;> simp only [putWeak, Entries.get?_eq_none h, Entries.put_eq_append h]

theorem putLeaves_under {k : String} {out : Entries Json} (hk : k ∉ out.keys)
    {ls : List (List String × Json)} (hpaths : ∀ l ∈ ls, l.1 ≠ []) (inner : Entries Json) :
    putLeaves (out ++ [(k, .object inner)]) (ls.map (under k)) =
      out ++ [(k, .object (putLeaves inner ls))] := by
  induction ls generalizing inner with
  | nil => rfl
  | cons l ls ih =>
      obtain ⟨hl, hls⟩ := List.forall_mem_cons.mp hpaths
      obtain ⟨path, v⟩ := l
      cases path with
      | nil => exact absurd rfl hl
      | cons key rest =>
          have hstep : putPath v (k :: key :: rest) (out ++ [(k, .object inner)]) =
              out ++ [(k, .object (putPath v (key :: rest) inner))] := by
            simp [putPath, Entries.get?_append hk, Entries.put_append hk, Entries.get?,
              Entries.put]
          exact (congrArg (putLeaves · (ls.map (under k))) hstep).trans (ih hls _)

theorem putLeaves_under_of_new {k : String} {out : Entries Json} (hk : k ∉ out.keys)
    {ls : List (List String × Json)} (hne : ls ≠ []) (hpaths : ∀ l ∈ ls, l.1 ≠ []) :
    putLeaves out (ls.map (under k)) = out ++ [(k, .object (putLeaves [] ls))] := by
  cases ls with
  | nil => exact absurd rfl hne
  | cons l ls =>
      obtain ⟨hl, hls⟩ := List.forall_mem_cons.mp hpaths
      obtain ⟨path, v⟩ := l
      cases path with
      | nil => exact absurd rfl hl
      | cons key rest =>
          have hstep : putPath v (k :: key :: rest) out =
              out ++ [(k, .object (putPath v (key :: rest) []))] := by
            simp [putPath, Entries.get?_eq_none hk, Entries.put_eq_append hk]
          exact (congrArg (putLeaves · (ls.map (under k))) hstep).trans
            (putLeaves_under hk hls _)

/-! ## Rebuilding a document from its leaves -/

theorem putLeaves_leavesOfEntries {es : Entries Json} (hkeys : es.keys.Nodup)
    (h : ∀ e ∈ es, ∀ out : Entries Json, e.1 ∉ out.keys →
      putLeaves out ((leaves e.2).map (under e.1)) = out ++ [e])
    {out : Entries Json} (hnew : ∀ k ∈ es.keys, k ∉ out.keys) :
    putLeaves out (leavesOfEntries es) = out ++ es := by
  rw [leavesOfEntries_eq, putLeaves, List.foldl_flatMap]
  exact Entries.foldl_eq_append hkeys h hnew

/-- The leaves of a value, put below a new key, give the value back. -/
theorem putLeaves_leaves {v : Json} (hv : v.DistinctKeys) {k : String} {out : Entries Json}
    (hk : k ∉ out.keys) : putLeaves out ((leaves v).map (under k)) = out ++ [(k, v)] := by
  induction v using document_induction generalizing k out with
  | object es ih =>
      obtain ⟨hkeys, hvalues⟩ := everyObject_object.mp hv
      by_cases hes : es = []
      · subst hes
        exact putWeak_of_new hk _
      · have hne : leavesOfEntries es ≠ [] := leaves_object hes ▸ leaves_ne_nil (.object es)
        have hentries : putLeaves [] (leavesOfEntries es) = es :=
          putLeaves_leavesOfEntries hkeys (fun e he out => ih e he (hvalues e he))
            (by simp)
        rw [leaves_object hes, putLeaves_under_of_new hk hne fun l hl => path_ne_nil hl, hentries]
  | _ => exact putWeak_of_new hk _

theorem putLeaves_nil {es : Entries Json} (h : DistinctKeys (.object es)) :
    putLeaves [] (leavesOfEntries es) = es := by
  obtain ⟨hkeys, hvalues⟩ := everyObject_object.mp h
  exact putLeaves_leavesOfEntries hkeys (fun e he _ => putLeaves_leaves (hvalues e he))
    (by simp)

/-! ## The round trip -/

theorem split_join_of_mem {c : Char} (hsep : sep.Splits c) {es : Entries Json}
    (hkeys : KeysWithout c (.object es)) {l : List String × Json} (hl : l ∈ leavesOfEntries es) :
    sep.split (sep.join l.1) = l.1 := by
  have hmem : l ∈ leaves (.object es) := mem_leaves_object.mpr (.inr (mem_leavesOfEntries.mp hl))
  exact hsep.split_join (path_ne_nil hl) (not_mem_of_mem_path hkeys hmem)

theorem toFlatItems_eq_map (vs : List Json) : toFlatItems sep vs = vs.map (toFlat sep) := by
  induction vs with
  | nil => rfl
  | cons v vs ih => rw [toFlatItems, ih, List.map_cons]

theorem toStructuredItems_eq_map (vs : List Json) :
    toStructuredItems sep vs = vs.map (toStructured sep) := by
  induction vs with
  | nil => rfl
  | cons v vs ih => rw [toStructuredItems, ih, List.map_cons]

/-- The joined paths of different leaves are different keys. -/
theorem nodup_join {c : Char} (hsep : sep.Splits c) {es : Entries Json}
    (hdistinct : DistinctKeys (.object es)) (hkeys : KeysWithout c (.object es)) :
    ((leavesOfEntries es).map fun l => sep.join l.1).Nodup := by
  have hback : ((leavesOfEntries es).map fun l => sep.join l.1).map sep.split =
      (leavesOfEntries es).map Prod.fst := by
    rw [List.map_map]
    exact List.map_congr_left fun l hl => split_join_of_mem hsep hkeys hl
  exact List.Nodup.of_map sep.split (hback ▸ nodup_paths_of_entries hdistinct)

theorem toFlat_object_of_splits {c : Char} (hsep : sep.Splits c) {es : Entries Json}
    (hdistinct : DistinctKeys (.object es)) (hkeys : KeysWithout c (.object es)) :
    toFlat sep (.object es) =
      .object ((leavesOfEntries es).map fun l => (sep.join l.1, l.2.toFlat sep)) := by
  rw [toFlat_object, Entries.ofPairs_eq_self]
  rw [List.map_map]
  exact nodup_join hsep hdistinct hkeys

/-- A document comes back from its flat form if its leaves do. -/
theorem toStructured_toFlat_of_leaves {c : Char} (hsep : sep.Splits c) {v : Json}
    (hdistinct : v.DistinctKeys) (hkeys : v.KeysWithout c)
    (h : ∀ l ∈ leaves v, toStructured sep (toFlat sep l.2) = l.2) :
    toStructured sep (toFlat sep v) = v := by
  cases v with
  | object es =>
      by_cases hes : es = []
      · subst hes
        rfl
      have hleaf : ∀ l ∈ leavesOfEntries es,
          (sep.split (sep.join l.1), toStructured sep (toFlat sep l.2)) = l := by
        intro l hl
        exact Prod.ext (split_join_of_mem hsep hkeys hl) (h l (leaves_object hes ▸ hl))
      have hleaves : ((leavesOfEntries es).map fun l => (sep.join l.1, l.2.toFlat sep)).map
          (fun e => (sep.split e.1, e.2.toStructured sep)) = leavesOfEntries es := by
        rw [List.map_map]
        exact (List.map_congr_left (g := id) hleaf).trans (List.map_id _)
      rw [toFlat_object_of_splits hsep hdistinct hkeys, toStructured, structureEntries_eq, hleaves,
        putLeaves_nil hdistinct]
  | _ => exact h _ (List.mem_singleton_self _)

theorem toStructured_toFlat_leaf {c : Char} (hsep : sep.Splits c) {v : Json}
    (hdistinct : v.DistinctKeys) (hkeys : v.KeysWithout c) {l : List String × Json}
    (hl : l ∈ leaves v) : toStructured sep (toFlat sep l.2) = l.2 := by
  induction v using document_induction generalizing l with
  | object es ih =>
      obtain ⟨-, hdistinct⟩ := everyObject_object.mp hdistinct
      obtain ⟨-, hkeys⟩ := everyObject_object.mp hkeys
      rcases mem_leaves_object.mp hl with ⟨-, rfl⟩ | ⟨e, he, l', hl', rfl⟩
      · rfl
      · exact ih e he (hdistinct e he) (hkeys e he) (l := l') hl'
  | array vs ih =>
      have hdistinct := everyObject_array.mp hdistinct
      have hkeys := everyObject_array.mp hkeys
      obtain rfl := List.mem_singleton.mp hl
      have hitem : ∀ v ∈ vs, toStructured sep (toFlat sep v) = v := fun v hv =>
        toStructured_toFlat_of_leaves hsep (hdistinct v hv) (hkeys v hv) fun l hl =>
          ih v hv (hdistinct v hv) (hkeys v hv) hl
      have hitems : (vs.map (toFlat sep)).map (toStructured sep) = vs := by
        rw [List.map_map]
        exact (List.map_congr_left (g := id) hitem).trans (List.map_id _)
      rw [toFlat, toStructured, toFlatItems_eq_map, toStructuredItems_eq_map, hitems]
  | _ =>
      obtain rfl := List.mem_singleton.mp hl
      rfl

/-- A document in which no key holds the opening mark comes back from its flat form, with its
entries in their order. -/
theorem toStructured_toFlat {c : Char} (hsep : sep.Splits c) {v : Json}
    (hdistinct : v.DistinctKeys) (hkeys : v.KeysWithout c) :
    (v.toFlat sep).toStructured sep = v :=
  toStructured_toFlat_of_leaves hsep hdistinct hkeys fun _ hl =>
    toStructured_toFlat_leaf hsep hdistinct hkeys hl

/-- A document with empty keys and empty objects, nested arrays, and a closing bracket in a key. -/
def nested : Json :=
  .object [("", .object [("a", .array []), ("", .object [])]),
    ("b", .array [.array [.object [("x", .object [("y", .null)])]], .object [("z", .object [])]]),
    ("c", .object [("d", .object [("e]", .bool true), ("f", .string "a.b[c]")]), ("a", .null)])]

theorem nested_toStructured_toFlat :
    nested.DistinctKeys ∧ nested.KeysWithout '.' ∧ nested.KeysWithout '[' ∧
      (nested.toFlat .dot).toStructured .dot = nested ∧
      (nested.toFlat .bracket).toStructured .bracket = nested := by
  have hdistinct : nested.DistinctKeys := by
    simp [nested, DistinctKeys, EveryObject, EveryObjectInEntries, EveryObjectInItems]
  have hdot : nested.KeysWithout '.' := by
    simp [nested, KeysWithout, EveryObject, EveryObjectInEntries, EveryObjectInItems]
  have hbracket : nested.KeysWithout '[' := by
    simp [nested, KeysWithout, EveryObject, EveryObjectInEntries, EveryObjectInItems]
  exact ⟨hdistinct, hdot, hbracket, toStructured_toFlat Separator.dot_splits hdistinct hdot,
    toStructured_toFlat Separator.bracket_splits hdistinct hbracket⟩

end Json

end EntityRest
