import Mathlib
import EntityRest.Proofs.Shape.FixedPoints
import EntityRest.Service.Read

/-! # Values of structured rows

A value put at a path stands there, and values at paths that do not lead to it stay. So under each
of its keys a structured row holds the structured form of the value there, which is the value itself
exactly if no key inside it has a point. -/

namespace EntityRest

namespace Json

open Separator

/-! ## Paths that lead nowhere near each other -/

/-- Neither of the two paths leads to the other. -/
def Apart (p q : List String) : Prop := ¬p <+: q ∧ ¬q <+: p

instance (p q : List String) : Decidable (Apart p q) :=
  inferInstanceAs (Decidable (¬p <+: q ∧ ¬q <+: p))

variable {p q : List String} {k : String} {v : Json} {out : Entries Json}

theorem Apart.symm (h : Apart p q) : Apart q p := ⟨h.2, h.1⟩

theorem apart_cons_iff : Apart (k :: p) (k :: q) ↔ Apart p q := by
  simp [Apart, List.cons_prefix_cons]

@[simp] theorem not_apart_nil_left : ¬Apart [] q := fun h => h.1 List.nil_prefix

@[simp] theorem not_apart_nil_right : ¬Apart p [] := fun h => h.2 List.nil_prefix

/-! ## Walking into what was put -/

@[simp] theorem walk?_cons_object (k : String) (p : List String) (es : Entries Json) :
    walk? (k :: p) (.object es) = (es.get? k).bind (walk? p) := rfl

@[simp] theorem walk?_empty_object (hp : p ≠ []) : walk? p (.object []) = none := by
  cases p with
  | nil => exact absurd rfl hp
  | cons k p => rfl

theorem walk?_objectAt (hp : p ≠ []) (k : String) (es : Entries Json) :
    walk? p (.object (objectAt k es)) = (es.get? k).bind (walk? p) := by
  unfold objectAt
  split
  · rename_i inner hget
    rw [hget]
    rfl
  · rename_i hno
    rw [walk?_empty_object hp]
    cases hget : es.get? k with
    | none => rfl
    | some x =>
        cases p with
        | nil => exact absurd rfl hp
        | cons j p =>
            cases x with
            | object inner => exact absurd hget (hno inner)
            | _ => rfl

theorem get?_putWeak_of_ne {j : String} (h : j ≠ k) (out : Entries Json) (v : Json) :
    (putWeak k out v).get? j = out.get? j := by
  cases v <;> simp only [putWeak] <;> split <;> first | rfl | exact Entries.get?_put_of_ne h _ _

theorem get?_putWeak_of_new (h : out.get? k = none) (v : Json) :
    (putWeak k out v).get? k = some v := by
  cases v <;> simp [putWeak, h]

/-- A value put at a path where nothing was stands there. -/
theorem walk?_putPath_self (hq : q ≠ []) (hnew : walk? q (.object out) = none) (v : Json) :
    walk? q (.object (putPath v q out)) = some v := by
  induction q generalizing out with
  | nil => exact absurd rfl hq
  | cons k q ih =>
      rw [walk?_cons_object] at hnew ⊢
      by_cases hlast : q = []
      · subst hlast
        have hnone : out.get? k = none := by simpa [walk?] using hnew
        rw [putPath, get?_putWeak_of_new hnone]
        rfl
      · rw [putPath_cons hlast, Entries.get?_put_self, Option.bind_some]
        exact ih hlast (by rwa [walk?_objectAt hlast])

theorem walk?_putPath_of_apart (h : Apart p q) (v : Json) :
    walk? p (.object (putPath v q out)) = walk? p (.object out) := by
  induction q generalizing p out with
  | nil => exact absurd h not_apart_nil_right
  | cons k q ih =>
      cases p with
      | nil => exact absurd h not_apart_nil_left
      | cons j p =>
          rw [walk?_cons_object, walk?_cons_object]
          by_cases hj : j = k
          · subst hj
            have hrest : Apart p q := apart_cons_iff.mp h
            have hp : p ≠ [] := by
              rintro rfl
              exact not_apart_nil_left hrest
            have hq : q ≠ [] := by
              rintro rfl
              exact not_apart_nil_right hrest
            rw [putPath_cons hq, Entries.get?_put_self, Option.bind_some, ih hrest,
              walk?_objectAt hp]
          · by_cases hlast : q = []
            · subst hlast
              rw [putPath, get?_putWeak_of_ne hj]
            · rw [putPath_cons hlast, Entries.get?_put_of_ne hj]

variable {ls : List (List String × Json)}

theorem walk?_putLeaves_of_apart (h : ∀ l ∈ ls, Apart p l.1) (out : Entries Json) :
    walk? p (.object (putLeaves out ls)) = walk? p (.object out) := by
  induction ls generalizing out with
  | nil => rfl
  | cons l ls ih =>
      obtain ⟨hl, hls⟩ := List.forall_mem_cons.mp h
      exact (ih hls _).trans (walk?_putPath_of_apart hl l.2)

/-- Values put one after the other at paths apart from each other all stand there in the end. -/
theorem walk?_putLeaves (hpaths : ∀ l ∈ ls, l.1 ≠ [])
    (hapart : ls.Pairwise fun l m => Apart l.1 m.1)
    (hnew : ∀ l ∈ ls, walk? l.1 (.object out) = none) :
    ∀ l ∈ ls, walk? l.1 (.object (putLeaves out ls)) = some l.2 := by
  induction ls generalizing out with
  | nil => simp
  | cons l ls ih =>
      obtain ⟨hl, hls⟩ := List.forall_mem_cons.mp hpaths
      obtain ⟨hnewl, hnewls⟩ := List.forall_mem_cons.mp hnew
      obtain ⟨hfirst, hrest⟩ := List.pairwise_cons.mp hapart
      refine List.forall_mem_cons.mpr ⟨?_, ih hls hrest fun m hm => ?_⟩
      · exact (walk?_putLeaves_of_apart hfirst _).trans (walk?_putPath_self hl hnewl l.2)
      · rw [walk?_putPath_of_apart (hfirst m hm).symm]
        exact hnewls m hm

/-! ## Rows -/

/-- Keys are apart if no path of one leads to another. -/
theorem apart_split {keys : List String} (hfree : ∀ k ∈ keys, ¬Shadowed keys k) {j k : String}
    (hj : j ∈ keys) (hk : k ∈ keys) (hne : j ≠ k) : Apart (dot.split j) (dot.split k) := by
  have hpaths : dot.split j ≠ dot.split k := fun h => hne (dot_split_injective h)
  exact ⟨fun hpre => hfree j hj ⟨k, hk, hpre, hpaths⟩,
    fun hpre => hfree k hk ⟨j, hj, hpre, hpaths.symm⟩⟩

/-- No path of one of the keys leads to that of another. -/
def KeysApart (keys : List String) : Prop :=
  keys.Pairwise fun j k => Apart (dot.split j) (dot.split k)

instance (keys : List String) : Decidable (KeysApart keys) :=
  inferInstanceAs (Decidable (keys.Pairwise fun j k => Apart (dot.split j) (dot.split k)))

theorem keysApart_of_nodup {keys : List String} (hkeys : keys.Nodup)
    (hfree : ∀ k ∈ keys, ¬Shadowed keys k) : KeysApart keys :=
  hkeys.imp_of_mem fun hj hk hne => apart_split hfree hj hk hne

theorem KeysApart.nodup {keys : List String} (h : KeysApart keys) : keys.Nodup := by
  refine h.imp ?_
  rintro j k hapart rfl
  exact hapart.1 List.prefix_rfl

theorem split_eq_singleton {k : String} (hk : '.' ∉ k.toList) : dot.split k = [k] := by
  rw [dot_split, Text.splitChar, Chars.splitChar_eq_singleton hk, List.map_singleton,
    String.ofList_toList]

theorem split_eq_singleton_iff {k : String} : dot.split k = [k] ↔ '.' ∉ k.toList :=
  ⟨fun h => notMem_of_mem_split (k := k) (h ▸ List.mem_singleton_self k), split_eq_singleton⟩

theorem apart_singleton_split {j : String} (hj : '.' ∈ j.toList) (k : String) :
    Apart [j] (dot.split k) := by
  obtain ⟨p, ps, hsplit⟩ := List.exists_cons_of_ne_nil (dot_split_ne_nil k)
  have hp : '.' ∉ p.toList := notMem_of_mem_split (k := k) (hsplit ▸ List.mem_cons_self)
  have hne : j ≠ p := by
    rintro rfl
    exact hp hj
  rw [hsplit]
  exact ⟨fun hpre => hne (List.cons_prefix_cons.mp hpre).1,
    fun hpre => hne (List.cons_prefix_cons.mp hpre).1.symm⟩

/-- Output keys with points are looked up along their paths. -/
theorem lookup?_putLeaves (es : Entries Json) (k : String) :
    lookup? (.object (putLeaves [] (es.map place))) k =
      walk? (dot.split k) (.object (putLeaves [] (es.map place))) := by
  by_cases hk : '.' ∈ k.toList
  · have hapart : ∀ l ∈ es.map place, Apart [k] l.1 := by
      simp only [List.forall_mem_map]
      exact fun e _ => apart_singleton_split hk e.1
    have hnone := walk?_putLeaves_of_apart hapart []
    have hget : Json.get? k (.object (putLeaves [] (es.map place))) = none := by
      simpa [walk?, Json.get?, Entries.get?] using hnone
    rw [lookup?, hget, dot_split]
  · -- such a key is a path of its own, so both places to look at are the same
    have hwalk : walk? [k] (.object (putLeaves [] (es.map place))) =
        Json.get? k (.object (putLeaves [] (es.map place))) := by
      rw [walk?_cons_object]
      simp [walk?, Json.get?]
    rw [split_eq_singleton hk, hwalk, lookup?]
    split
    · rename_i hget
      exact hget.symm
    · rename_i hget
      rw [← dot_split, split_eq_singleton hk, hwalk]

theorem lookup?_toStructured_of_keysApart {es : Entries Json} (hkeys : KeysApart es.keys)
    {k : String} {v : Json} (h : (k, v) ∈ es) :
    ((Json.object es).toStructured .dot).lookup? k = some (v.toStructured .dot) := by
  have hmem : place (k, v) ∈ es.map place := List.mem_map_of_mem h
  have hpaths : ∀ l ∈ es.map place, l.1 ≠ [] := by
    simp only [List.forall_mem_map]
    exact fun e _ => dot_split_ne_nil e.1
  have hapart : (es.map place).Pairwise fun l m => Apart l.1 m.1 := by
    have hpairs := hkeys
    rw [KeysApart, Entries.keys, List.pairwise_map] at hpairs
    rwa [List.pairwise_map]
  have hnew : ∀ l ∈ es.map place, walk? l.1 (.object []) = none := fun l hl =>
    walk?_empty_object (hpaths l hl)
  rw [toStructured_object, lookup?_putLeaves]
  exact walk?_putLeaves hpaths hapart hnew _ hmem

/-- Nothing is found under a key apart from all that are there. -/
theorem lookup?_toStructured_eq_none {es : Entries Json} {k : String}
    (h : ∀ j ∈ es.keys, Apart (dot.split k) (dot.split j)) :
    ((Json.object es).toStructured .dot).lookup? k = none := by
  have hapart : ∀ l ∈ es.map place, Apart (dot.split k) l.1 := by
    simp only [List.forall_mem_map]
    exact fun e he => h e.1 (List.mem_map_of_mem he)
  rw [toStructured_object, lookup?_putLeaves, walk?_putLeaves_of_apart hapart,
    walk?_empty_object (dot_split_ne_nil k)]

theorem lookup?_toStructured {es : Entries Json} (hkeys : es.keys.Nodup)
    (hfree : ∀ k ∈ es.keys, ¬Shadowed es.keys k) {k : String} {v : Json}
    (h : es.get? k = some v) :
    ((Json.object es).toStructured .dot).lookup? k = some (v.toStructured .dot) :=
  lookup?_toStructured_of_keysApart (keysApart_of_nodup hkeys hfree) (Entries.mem_of_get? h)

/-! ## Values without points in their keys -/

theorem wholeKeys_dot_iff {v : Json} : v.WholeKeys .dot ↔ v.KeysWithout '.' := by
  simp only [WholeKeys, KeysWithout, split_eq_singleton_iff]

theorem toStructured_eq_self {v : Json} (hdistinct : v.DistinctKeys) (hdots : v.KeysWithout '.') :
    v.toStructured .dot = v :=
  toStructured_of_wholeKeys hdistinct (wholeKeys_dot_iff.mpr hdots)

/-- Structuring leaves a document as it is exactly if none of its keys has a point. -/
theorem toStructured_eq_self_iff {v : Json} (hdistinct : v.DistinctKeys) :
    v.toStructured .dot = v ↔ v.KeysWithout '.' :=
  ⟨fun h => h ▸ keysWithout_toStructured v, toStructured_eq_self hdistinct⟩

end Json

/-! ## Shaped rows -/

namespace Schema

open Json

/-- Under each of its keys a shaped row holds the structured form of the value there. It is the value
itself exactly if no object inside it has a key with a point. -/
theorem lookup?_shapeRow {s : Schema} (hs : s.flat = false) {row : Row}
    (hdistinct : DistinctKeys (.object row)) (hfree : ∀ k ∈ row.keys, ¬Shadowed row.keys k)
    {k : String} {v : Json} (h : row.get? k = some v) :
    (s.shapeRow row).lookup? k = some (v.toStructured .dot) ∧
      ((s.shapeRow row).lookup? k = some v ↔ v.KeysWithout '.') := by
  obtain ⟨hkeys, hvalues⟩ := everyObject_object.mp hdistinct
  have hlookup : (s.shapeRow row).lookup? k = some (v.toStructured .dot) := by
    rw [shapeRow, hs]
    exact lookup?_toStructured hkeys hfree h
  refine ⟨hlookup, ?_⟩
  rw [hlookup, Option.some.injEq, toStructured_eq_self_iff (hvalues _ (Entries.mem_of_get? h))]

end Schema

/-! ## Documents and notes on them -/

namespace Annotated

open Json

def docsConfig : EntityConfig where
  name := "docs"
  table := "docs"
  asName := "d"
  version := "1"
  fields := [⟨"id", "d.id", .int, none⟩, ⟨"meta.data", "d.data", .json, none⟩]
  children := [⟨"notes", "notes", "doc_id={id}"⟩]

def notesConfig : EntityConfig where
  name := "notes"
  table := "notes"
  asName := "n"
  version := "1"
  flat := true
  fields := [⟨"id", "n.id", .int, none⟩, ⟨"doc_id", "n.doc_id", .int, none⟩,
    ⟨"text.body", "n.body", .string, none⟩]

def docs : Schema where
  name := "docs"
  table := "docs"
  asName := "d"
  version := "1"
  primaryKey := "id"
  flat := false
  fields := [⟨"id", "d.id", .int, false, false, {}⟩, ⟨"meta.data", "d.data", .json, false, false, {}⟩]
  relations := []
  filters := []
  sorts := []
  groups := []
  children := [⟨"notes", "notes", "doc_id={id}"⟩]

def notes : Schema where
  name := "notes"
  table := "notes"
  asName := "n"
  version := "1"
  primaryKey := "id"
  flat := true
  fields := [⟨"id", "n.id", .int, false, false, {}⟩, ⟨"doc_id", "n.doc_id", .int, false, false, {}⟩,
    ⟨"text.body", "n.body", .string, false, false, {}⟩]
  relations := []
  filters := []
  sorts := []
  groups := []
  children := []

theorem build_eq : Registry.build [docsConfig, notesConfig] = .ok ⟨[docs, notes]⟩ := by
  cbv

/-- The note of a document, with one of its keys below another. -/
def note : Row := [("id", .ofInt64 7), ("text.body", .string "new")]

/-- A document with a value under a path, and its notes. -/
def row (data : Json) : Row :=
  [("id", .ofInt64 1), ("meta.data", data), ("notes", .array [notes.shapeRow note])]

/-- Nested data without points in its keys. -/
def nested : Json := .object [("a", .object [("b", .array [.object []]), ("", .null)])]

theorem lookup?_nested :
    docs.flat = false ∧ DistinctKeys (.object (row nested)) ∧
      (∀ k ∈ (row nested).keys, ¬Shadowed (row nested).keys k) ∧
      nested.KeysWithout '.' ∧
      (docs.shapeRow (row nested)).lookup? "meta.data" = some nested := by
  have hdistinct : DistinctKeys (.object (row nested)) := by
    simp [row, nested, note, notes, Schema.shapeRow, DistinctKeys, EveryObject,
      EveryObjectInEntries, EveryObjectInItems, Json.ofInt64]
  have hfree : ∀ k ∈ (row nested).keys, ¬Shadowed (row nested).keys k := by decide +kernel
  have hdots : nested.KeysWithout '.' := by
    simp [nested, KeysWithout, EveryObject, EveryObjectInEntries, EveryObjectInItems]
  have hget : (row nested).get? "meta.data" = some nested := by decide +kernel
  exact ⟨rfl, hdistinct, hfree, hdots,
    (Schema.lookup?_shapeRow rfl hdistinct hfree hget).2.mpr hdots⟩

/-- Data with a point in a key, and with a value on the way to it. -/
def pointed : Json := .object [("a", .ofInt64 1), ("a.b", .ofInt64 2)]

/-- The data comes out with its keys taken apart and one value lost, and the notes, which are shaped
flat, come out structured. -/
theorem pointed_rewritten :
    Registry.build [docsConfig, notesConfig] = .ok ⟨[docs, notes]⟩ ∧ docs.flat = false ∧
      DistinctKeys (.object (row pointed)) ∧
      (∀ k ∈ (row pointed).keys, ¬Shadowed (row pointed).keys k) ∧
      (row pointed).get? "meta.data" = some pointed ∧
      (docs.shapeRow (row pointed)).lookup? "meta.data" =
        some (.object [("a", .object [("b", .ofInt64 2)])]) ∧
      (docs.shapeRow (row pointed)).lookup? "meta.data" ≠ some pointed ∧
      (row pointed).get? "notes" = some (.array [notes.shapeRow note]) ∧
      (docs.shapeRow (row pointed)).lookup? "notes" ≠ some (.array [notes.shapeRow note]) := by
  have hdistinct : DistinctKeys (.object (row pointed)) := by
    simp [row, pointed, note, notes, Schema.shapeRow, DistinctKeys, EveryObject,
      EveryObjectInEntries, EveryObjectInItems, Json.ofInt64]
  refine ⟨build_eq, rfl, hdistinct, ?_, ?_, ?_, ?_, ?_, ?_⟩ <;> decide +kernel

end Annotated

end EntityRest
