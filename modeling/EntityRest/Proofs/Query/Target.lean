import EntityRest.Proofs.Query.JsonPath
import EntityRest.Proofs.Schema.WellFormed
import EntityRest.Proofs.Text.Bytes

/-! # Where keys lead

A key of a request leads to the field with that key. A key of no field leads into the JSON field
with the longest key that is followed by a point and more in it. The search can be made on the
bytes of the key: it reads no byte that is not there and cuts the key in front of a character. -/

namespace EntityRest

/-- The key of the JSON field and a point start the key, and more comes behind them. -/
def Field.LeadsTo (f : Field) (key : String) : Prop :=
  f.kind = .json ∧ ∃ path, path ≠ "" ∧ key = f.key ++ "." ++ path

namespace Schema

variable {s : Schema} {key : String} {f g : Field}

/-! ## The search on bytes -/

/-- Does a point stand behind the key of a JSON field that the bytes of a longer key start with? No
answer where the key has no byte at that place. -/
def leads? (f : Field) (key : String) : Option Bool :=
  if f.kind = .json ∧ f.key.utf8ByteSize + 1 < key.utf8ByteSize ∧
      (Text.bytes f.key).isPrefixOf (Text.bytes key) then
    -- the byte of the point
    (Text.bytes key)[f.key.utf8ByteSize]?.map (· == 46)
  else some false

/-- The field found so far, or the next one if the key leads into it and its own key is at least as
long. -/
def foundNext? (key : String) (found : Option Field) (next : Field) : Option (Option Field) :=
  (leads? next key).map fun leads =>
    match leads, found with
    | false, found => found
    | true, none => some next
    | true, some f => if f.key.utf8ByteSize ≤ next.key.utf8ByteSize then some next else some f

/-- Where a key leads, looked up by places in its bytes. No answer where there is no such place. -/
def targetOnBytes? (s : Schema) (key : String) : Option (Option Target) :=
  match s.field? key with
  | some f => some (some ⟨.plain f.expr, f.kind⟩)
  | none =>
    (s.fields.foldlM (foundNext? key) none).bind fun
      | none => some none
      | some f =>
        (Text.from? key (f.key.utf8ByteSize + 1)).map fun path =>
          some ⟨.json f.expr (Text.splitChar '.' path), .string⟩

theorem isSome_jsonPath?_iff : (jsonPath? f key).isSome ↔ f.LeadsTo key := by
  simp only [Option.isSome_iff_exists, jsonPath?_eq_some_iff, Field.LeadsTo, exists_and_left]

theorem leads?_of_leadsTo (h : f.LeadsTo key) : leads? f key = some true := by
  obtain ⟨hkind, path, hpath, rfl⟩ := h
  have hsize : f.key.utf8ByteSize + 1 < (f.key ++ "." ++ path).utf8ByteSize := by
    have hpos := String.utf8ByteSize_eq_zero_iff.not.mpr hpath
    have hdot : ".".utf8ByteSize = 1 := rfl
    rw [String.utf8ByteSize_append, String.utf8ByteSize_append]
    omega
  have hstart : (Text.bytes f.key).isPrefixOf (Text.bytes (f.key ++ "." ++ path)) := by
    simp [Text.bytes_append]
  rw [leads?, if_pos ⟨hkind, hsize, hstart⟩, Text.bytes_append, Text.bytes_append, Text.bytes_dot,
    ← Text.length_bytes]
  simp

theorem leads?_of_not_leadsTo (h : ¬ f.LeadsTo key) : leads? f key = some false := by
  unfold leads?
  split
  · rename_i hcond
    obtain ⟨hkind, hsize, hstart⟩ := hcond
    obtain ⟨r, rfl⟩ := Text.bytes_prefix_iff.mp (List.isPrefixOf_iff_prefix.mp hstart)
    have hlength := Text.length_bytes r
    rw [String.utf8ByteSize_append] at hsize
    rw [Text.bytes_append, ← Text.length_bytes, List.getElem?_append_right le_rfl, Nat.sub_self]
    cases hr : Text.bytes r with
    | nil =>
        rw [hr, List.length_nil] at hlength
        omega
    | cons b bs =>
        have hb : b ≠ 46 := by
          rintro rfl
          have hdot : Text.bytes "." <+: Text.bytes r := ⟨bs, by rw [hr, Text.bytes_dot]; rfl⟩
          obtain ⟨path, rfl⟩ := Text.bytes_prefix_iff.mp hdot
          refine h ⟨hkind, path, ?_, (String.append_assoc ..).symm⟩
          rintro rfl
          have hone : ".".utf8ByteSize = 1 := rfl
          rw [String.append_empty] at hsize
          omega
        simp [hb]
  · rfl

/-- The bytes tell whether a key leads into a field, and none is read that is not there. -/
theorem leads?_eq (f : Field) (key : String) : leads? f key = some (jsonPath? f key).isSome := by
  by_cases h : f.LeadsTo key
  · rw [leads?_of_leadsTo h, isSome_jsonPath?_iff.mpr h]
  · have hnone : (jsonPath? f key).isSome = false :=
      Bool.eq_false_iff.mpr (isSome_jsonPath?_iff.not.mpr h)
    rw [leads?_of_not_leadsTo h, hnone]

theorem foldlM_foundNext? (key : String) (found : Option (Field × String)) (fs : List Field) :
    fs.foldlM (foundNext? key) (found.map Prod.fst) =
      some (((nested fs key).foldl longerKey found).map Prod.fst) := by
  induction fs generalizing found with
  | nil => rfl
  | cons f fs ih =>
      have hnext : foundNext? key (found.map Prod.fst) f =
          some ((((jsonPath? f key).map fun path => (f, path)).elim found
            (longerKey found)).map Prod.fst) := by
        rw [foundNext?, leads?_eq]
        cases jsonPath? f key with
        | none => rfl
        | some path =>
            rcases found with _ | ⟨g, q⟩
            · rfl
            · by_cases hle : g.key.utf8ByteSize ≤ f.key.utf8ByteSize <;> simp [longerKey, hle]
      rw [List.foldlM_cons, hnext]
      cases hpath : jsonPath? f key <;> simp [nested, hpath, ih]

/-- The search on bytes finds what the search on characters finds, and never fails to give an
answer. -/
theorem targetOnBytes?_eq (s : Schema) (key : String) :
    s.targetOnBytes? key = some (s.target? key) := by
  unfold targetOnBytes? target?
  cases s.field? key with
  | some f => rfl
  | none =>
      have hfound : s.fields.foldlM (foundNext? key) none =
          some (((nested s.fields key).foldl longerKey none).map Prod.fst) :=
        foldlM_foundNext? key none s.fields
      rw [hfound]
      change _ = some (((nested s.fields key).foldl longerKey none).map _)
      cases hbest : (nested s.fields key).foldl longerKey none with
      | none => rfl
      | some best =>
          obtain ⟨f, path⟩ := best
          obtain ⟨-, -, -, rfl⟩ := mem_of_foldl_nested hbest
          have hcut : Text.from? (f.key ++ "." ++ path) (f.key.utf8ByteSize + 1) = some path := by
            have hplace : (f.key ++ ".").utf8ByteSize = f.key.utf8ByteSize + 1 :=
              String.utf8ByteSize_append
            rw [← hplace, Text.from?_append]
          simp [hcut]

/-! ## The longest key -/

theorem exists_longerKey (found : Option (Field × String)) (next : Field × String) :
    ∃ x, longerKey found next = some x ∧ next.1.key.utf8ByteSize ≤ x.1.key.utf8ByteSize ∧
      ∀ y, found = some y → y.1.key.utf8ByteSize ≤ x.1.key.utf8ByteSize := by
  rcases found with _ | f
  · exact ⟨next, rfl, le_rfl, by simp⟩
  · by_cases hle : f.1.key.utf8ByteSize ≤ next.1.key.utf8ByteSize
    · exact ⟨next, by simp [longerKey, hle], le_rfl, by simpa using hle⟩
    · exact ⟨f, by simp [longerKey, hle], (not_le.mp hle).le, by simp⟩

theorem le_of_foldl_longerKey {found : Option (Field × String)} {xs : List (Field × String)}
    {x : Field × String} (h : xs.foldl longerKey found = some x) :
    ∀ y, found = some y ∨ y ∈ xs → y.1.key.utf8ByteSize ≤ x.1.key.utf8ByteSize := by
  induction xs generalizing found with
  | nil =>
      rintro y (hy | hy)
      · rw [List.foldl_nil, hy] at h
        rw [Option.some.inj h]
      · cases hy
  | cons z zs ih =>
      obtain ⟨w, hw, hz, hfound⟩ := exists_longerKey found z
      rw [List.foldl_cons, hw] at h
      have hle := ih h w (.inl rfl)
      rintro y (hy | hy)
      · exact (hfound y hy).trans hle
      · rcases List.mem_cons.mp hy with rfl | hy
        · exact hz.trans hle
        · exact ih h y (.inr hy)

theorem isSome_foldl_longerKey_iff {found : Option (Field × String)}
    {xs : List (Field × String)} : (xs.foldl longerKey found).isSome ↔ found.isSome ∨ xs ≠ [] := by
  induction xs generalizing found with
  | nil => simp
  | cons x xs ih =>
      obtain ⟨w, hw, -⟩ := exists_longerKey found x
      rw [List.foldl_cons, hw, ih]
      simp

theorem exists_mem_nested_iff {fs : List Field} :
    (∃ path, (f, path) ∈ nested fs key) ↔ f ∈ fs ∧ f.LeadsTo key := by
  simp only [mem_nested, Field.LeadsTo, exists_and_left]

/-- A key leads into no two fields with keys of one size. -/
theorem key_eq_of_leadsTo (hf : f.LeadsTo key) (hg : g.LeadsTo key)
    (hsize : f.key.utf8ByteSize = g.key.utf8ByteSize) : g.key = f.key := by
  have hstarts {f : Field} (h : f.LeadsTo key) : f.key.toList <+: key.toList := by
    obtain ⟨-, path, -, rfl⟩ := h
    simp
  rcases List.prefix_or_prefix_of_prefix (hstarts hf) (hstarts hg) with hle | hle
  · exact (Text.eq_of_infix hle.isInfix hsize.ge).symm
  · exact Text.eq_of_infix hle.isInfix hsize.le

/-- A key of no field leads somewhere exactly if it leads into a JSON field. -/
theorem isSome_target?_iff (hkey : s.field? key = none) :
    (s.target? key).isSome ↔ ∃ f ∈ s.fields, f.LeadsTo key := by
  have htarget : (s.target? key).isSome = ((nested s.fields key).foldl longerKey none).isSome := by
    rw [target?, hkey]
    exact Option.isSome_map
  rw [htarget, isSome_foldl_longerKey_iff]
  constructor
  · rintro (hnone | hne)
    · cases hnone
    · obtain ⟨⟨f, path⟩, hmem⟩ := List.exists_mem_of_ne_nil _ hne
      exact ⟨f, exists_mem_nested_iff.mp ⟨path, hmem⟩⟩
  · rintro ⟨f, hf⟩
    obtain ⟨path, hmem⟩ := exists_mem_nested_iff.mpr hf
    exact .inr (List.ne_nil_of_mem hmem)

/-- It leads into the one field with the longest key, to the parts of what stands behind it. -/
theorem exists_of_target? (hkeys : (s.fields.map Field.key).Nodup) (hkey : s.field? key = none)
    {t : Target} (h : s.target? key = some t) :
    ∃ f ∈ s.fields, f.LeadsTo key ∧
      (∀ g ∈ s.fields, g.LeadsTo key → g ≠ f → g.key.utf8ByteSize < f.key.utf8ByteSize) ∧
      ∃ path, path ≠ [] ∧ (∀ p ∈ path, '.' ∉ p.toList) ∧
        key = f.key ++ "." ++ ".".intercalate path ∧ t = ⟨.json f.expr path, .string⟩ := by
  rw [target?, hkey] at h
  obtain ⟨⟨f, path⟩, hbest, rfl⟩ := Option.map_eq_some_iff.mp h
  obtain ⟨hf, hkind, hpath, heq⟩ := mem_of_foldl_nested hbest
  have hleads : f.LeadsTo key := ⟨hkind, path, hpath, heq⟩
  refine ⟨f, hf, hleads, fun g hg hleads' hne => ?_, Text.splitChar '.' path,
    Text.splitChar_ne_nil '.' path, fun p => Text.notMem_of_mem_splitChar, ?_, rfl⟩
  · obtain ⟨path', hnested⟩ := exists_mem_nested_iff.mpr ⟨hg, hleads'⟩
    have hle := le_of_foldl_longerKey hbest (g, path') (.inr hnested)
    refine lt_of_le_of_ne hle fun hsize => hne ?_
    exact List.inj_on_of_nodup_map hkeys hg hf (key_eq_of_leadsTo hleads hleads' hsize.symm)
  · have hparts : ".".intercalate (Text.splitChar '.' path) = path :=
      Text.intercalate_splitChar '.' path
    rw [hparts, heq]

/-- In a registry that is built, a key leads to its field, or else exactly if it leads into a JSON
field, and then into the one with the longest key, to the parts of what stands behind it. The search
on the bytes of the key finds the same: every byte that it reads is there, and no character is cut
in two. -/
theorem target?_of_build {es : List EntityConfig} {reg : Registry}
    (h : Registry.build es = .ok reg) (hs : s ∈ reg.schemas) (key : String) :
    s.targetOnBytes? key = some (s.target? key) ∧
      (∀ f ∈ s.fields, f.key = key → s.target? key = some ⟨.plain f.expr, f.kind⟩) ∧
      ((∀ f ∈ s.fields, f.key ≠ key) →
        ((s.target? key).isSome ↔ ∃ f ∈ s.fields, f.LeadsTo key) ∧
        ∀ t, s.target? key = some t → ∃ f ∈ s.fields, f.LeadsTo key ∧
          (∀ g ∈ s.fields, g.LeadsTo key → g ≠ f → g.key.utf8ByteSize < f.key.utf8ByteSize) ∧
          ∃ path, path ≠ [] ∧ (∀ p ∈ path, '.' ∉ p.toList) ∧
            key = f.key ++ "." ++ ".".intercalate path ∧ t = ⟨.json f.expr path, .string⟩) := by
  have hkeys := Registry.nodup_keys_of_build h hs
  refine ⟨targetOnBytes?_eq s key, fun f hf hkey => ?_, fun hother => ?_⟩
  · rw [target?, (field?_eq_some_iff hkeys).mpr ⟨hf, hkey⟩]
  · have hnone : s.field? key = none :=
      List.find?_eq_none.mpr fun f hf => by simpa using hother f hf
    exact ⟨isSome_target?_iff hnone, fun t => exists_of_target? hkeys hnone⟩

end Schema

namespace Notes

def config : EntityConfig where
  name := "notes"
  table := "notes"
  asName := "n"
  version := "1"
  fields := [⟨"id", "n.id", .int, none⟩, ⟨"meta", "n.meta", .json, none⟩,
    ⟨"meta.tags", "n.tags", .json, none⟩]

def schema : Schema where
  name := "notes"
  table := "notes"
  asName := "n"
  version := "1"
  primaryKey := "id"
  flat := false
  fields := [⟨"id", "n.id", .int, false, false, {}⟩, ⟨"meta", "n.meta", .json, false, false, {}⟩,
    ⟨"meta.tags", "n.tags", .json, false, false, {}⟩]
  relations := []
  filters := []
  sorts := []
  groups := []
  children := []

/-- The longer of two keys is taken, and a part of a path may be empty. A point alone leads
nowhere. -/
theorem target?_tags :
    Registry.build [config] = .ok ⟨[schema]⟩ ∧ (∀ f ∈ schema.fields, f.key ≠ "meta.tags..é") ∧
      schema.targetOnBytes? "meta.tags..é" = some (some ⟨.json "n.tags" ["", "é"], .string⟩) ∧
      (∃ f ∈ schema.fields, f.LeadsTo "meta.tags..é" ∧ ∀ g ∈ schema.fields,
        g.LeadsTo "meta.tags..é" → g ≠ f → g.key.utf8ByteSize < f.key.utf8ByteSize) ∧
      schema.targetOnBytes? "meta." = some none := by
  have hbuild : Registry.build [config] = .ok ⟨[schema]⟩ := by cbv
  have hmain := Schema.target?_of_build hbuild (List.mem_singleton_self schema)
  have hother : ∀ f ∈ schema.fields, f.key ≠ "meta.tags..é" := by decide
  have htags : schema.target? "meta.tags..é" = some ⟨.json "n.tags" ["", "é"], .string⟩ := by
    decide +kernel
  have hdot : schema.target? "meta." = none := by decide +kernel
  obtain ⟨f, hf, hleads, hlongest, -⟩ := ((hmain "meta.tags..é").2.2 hother).2 _ htags
  exact ⟨hbuild, hother, (hmain _).1.trans (congrArg some htags), ⟨f, hf, hleads, hlongest⟩,
    (hmain _).1.trans (congrArg some hdot)⟩

end Notes

end EntityRest
