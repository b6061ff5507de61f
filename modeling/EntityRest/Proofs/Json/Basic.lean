import EntityRest.Json.Object

/-! # Induction on documents

A property of all documents follows from its cases, in which it holds of all items of an array and
of the values of all entries of an object. Properties of the keys of objects are stated for every
object in a document. -/

namespace EntityRest.Json

/-! ## Induction -/

/-- What is handed on from the parts of documents to documents holds of all of them. -/
@[elab_as_elim]
theorem document_induction {P : Json → Prop} (null : P .null) (bool : ∀ b, P (.bool b))
    (number : ∀ n, P (.number n)) (string : ∀ s, P (.string s))
    (array : ∀ vs : List Json, (∀ v ∈ vs, P v) → P (.array vs))
    (object : ∀ es : Entries Json, (∀ e ∈ es, P e.2) → P (.object es)) (v : Json) : P v :=
  @Json.rec P (fun vs => ∀ v ∈ vs, P v) (fun es => ∀ e ∈ es, P e.2) (fun e => P e.2)
    null bool number string array object
    (by simp) (fun _ _ hv hvs => List.forall_mem_cons.mpr ⟨hv, hvs⟩)
    (by simp) (fun _ _ he hes => List.forall_mem_cons.mpr ⟨he, hes⟩)
    (fun _ _ hv => hv) v

/-! ## Keys of objects -/

mutual

/-- The keys of every object in the document, however deep, have the property. -/
def EveryObject (P : List String → Prop) : Json → Prop
  | .object es => P (Entries.keys es) ∧ EveryObjectInEntries P es
  | .array vs => EveryObjectInItems P vs
  | _ => True

def EveryObjectInItems (P : List String → Prop) : List Json → Prop
  | [] => True
  | v :: vs => EveryObject P v ∧ EveryObjectInItems P vs

def EveryObjectInEntries (P : List String → Prop) : List (String × Json) → Prop
  | [] => True
  | (_, v) :: es => EveryObject P v ∧ EveryObjectInEntries P es

end

variable {P : List String → Prop}

theorem everyObjectInItems_iff {vs : List Json} :
    EveryObjectInItems P vs ↔ ∀ v ∈ vs, EveryObject P v := by
  induction vs with
  | nil => simp [EveryObjectInItems]
  | cons v vs ih => simp [EveryObjectInItems, ih]

theorem everyObjectInEntries_iff {es : List (String × Json)} :
    EveryObjectInEntries P es ↔ ∀ e ∈ es, EveryObject P e.2 := by
  induction es with
  | nil => simp [EveryObjectInEntries]
  | cons e es ih => simp [EveryObjectInEntries, ih]

theorem everyObject_array {vs : List Json} :
    EveryObject P (.array vs) ↔ ∀ v ∈ vs, EveryObject P v := by
  rw [EveryObject, everyObjectInItems_iff]

theorem everyObject_object {es : Entries Json} :
    EveryObject P (.object es) ↔ P (Entries.keys es) ∧ ∀ e ∈ es, EveryObject P e.2 := by
  rw [EveryObject, everyObjectInEntries_iff]

/-- The keys of every object are all different, as those of a map are. -/
def DistinctKeys : Json → Prop := EveryObject List.Nodup

/-- No key of any object holds the character. -/
def KeysWithout (c : Char) : Json → Prop := EveryObject fun keys => ∀ k ∈ keys, c ∉ k.toList

end EntityRest.Json
