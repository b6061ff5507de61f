import EntityRest.Migration.Stamp
import EntityRest.Proofs.Json.Object
import EntityRest.Schema.Basic

/-! # Stamps of rows

What a table of stamps says of an entity after its stamp was taken out and put again: the new
version, and of every other entity what it said before. -/

namespace EntityRest

namespace Entries

variable {α : Type}

theorem get?_putAll_filter {j k : String} (h : k ≠ j) {es fs : Entries α}
    (hget : es.get? k = fs.get? k) (pairs : List (String × α)) :
    (es.putAll (pairs.filter fun e => e.1 ≠ j)).get? k = (fs.putAll pairs).get? k := by
  induction pairs generalizing es fs with
  | nil => exact hget
  | cons e pairs ih =>
      by_cases he : e.1 = j
      · have hskip : (fs.put e.1 e.2).get? k = fs.get? k := get?_put_of_ne (he ▸ h) fs e.2
        have hfilter : (e :: pairs).filter (fun e => e.1 ≠ j) = pairs.filter fun e => e.1 ≠ j := by
          simp [he]
        rw [hfilter]
        exact ih (hget.trans hskip.symm)
      · have hfilter : (e :: pairs).filter (fun e => e.1 ≠ j) =
            e :: pairs.filter fun e => e.1 ≠ j := by
          simp [he]
        have hput : (es.put e.1 e.2).get? k = (fs.put e.1 e.2).get? k := by
          by_cases hk : k = e.1
          · rw [hk, get?_put_self, get?_put_self]
          · rw [get?_put_of_ne hk, get?_put_of_ne hk, hget]
        rw [hfilter]
        exact ih hput

end Entries

namespace Migration

/-! ## Rows of stamps -/

def stampRow (name version : String) : Row := [("name", .string name), ("version", .string version)]

/-- The rows without those of an entity. -/
def withoutStamp (name : String) (rows : List Row) : List Row :=
  rows.filter fun row => Entries.get? "name" row ≠ some (.string name)

/-- The rows after the entity was stamped. -/
def restamp (rows : List Row) (s : Schema) : List Row :=
  withoutStamp s.name rows ++ [stampRow s.name s.version]

@[simp] theorem stampOf?_stampRow (name version : String) :
    stampOf? (stampRow name version) = some (name, version) := by
  simp [stampOf?, stampRow, Entries.get?]

theorem get?_name_of_stampOf? {row : Row} {e : String × String} (h : stampOf? row = some e) :
    Entries.get? "name" row = some (.string e.1) := by
  unfold stampOf? at h
  split at h
  · rename_i name version hname hversion
    rw [hname, ← Option.some.inj h]
  · cases h

theorem filterMap_withoutStamp (name : String) (rows : List Row) :
    (withoutStamp name rows).filterMap stampOf? =
      (rows.filterMap stampOf?).filter fun e => e.1 ≠ name := by
  induction rows with
  | nil => rfl
  | cons row rows ih =>
      unfold withoutStamp at ih ⊢
      cases hstamp : stampOf? row with
      | none =>
          by_cases hrow : Entries.get? "name" row = some (.string name)
          · simpa [hstamp, hrow] using ih
          · simpa [hstamp, hrow] using ih
      | some e =>
          have hname := get?_name_of_stampOf? hstamp
          by_cases he : e.1 = name
          · simpa [hstamp, hname, he] using ih
          · simpa [hstamp, hname, he] using ih

theorem get?_stampsOf_restamp_self (rows : List Row) (s : Schema) :
    (stampsOf (restamp rows s)).get? s.name = some s.version := by
  rw [stampsOf, restamp, List.filterMap_append, List.filterMap_cons_some (stampOf?_stampRow _ _),
    List.filterMap_nil, Entries.ofPairs_concat]
  exact Entries.get?_put_self _ _ _

theorem get?_stampsOf_restamp_of_ne {name : String} {s : Schema} (h : name ≠ s.name)
    (rows : List Row) :
    (stampsOf (restamp rows s)).get? name = (stampsOf rows).get? name := by
  rw [stampsOf, restamp, List.filterMap_append, List.filterMap_cons_some (stampOf?_stampRow _ _),
    List.filterMap_nil, Entries.ofPairs_concat, Entries.get?_put_of_ne h, filterMap_withoutStamp]
  exact Entries.get?_putAll_filter h rfl _

/-! ## Stamping several entities -/

/-- Entities that are not stamped keep what is said of them. -/
theorem get?_stampsOf_foldl_of_not_mem {name : String} {schemas : List Schema}
    (h : name ∉ schemas.map Schema.name) (rows : List Row) :
    (stampsOf (schemas.foldl restamp rows)).get? name = (stampsOf rows).get? name := by
  induction schemas generalizing rows with
  | nil => rfl
  | cons s schemas ih =>
      have hname : name ≠ s.name := List.ne_of_not_mem_cons h
      have htail : name ∉ schemas.map Schema.name := List.not_mem_of_not_mem_cons h
      rw [List.foldl_cons, ih htail, get?_stampsOf_restamp_of_ne hname]

/-- Every entity that is stamped has its version, where no two share a name. -/
theorem get?_stampsOf_foldl_of_mem {s : Schema} {schemas : List Schema}
    (hnodup : (schemas.map Schema.name).Nodup) (h : s ∈ schemas) (rows : List Row) :
    (stampsOf (schemas.foldl restamp rows)).get? s.name = some s.version := by
  induction schemas generalizing rows with
  | nil => cases h
  | cons t schemas ih =>
      obtain ⟨hnotin, hnodup⟩ := List.nodup_cons.mp hnodup
      rw [List.foldl_cons]
      rcases List.mem_cons.mp h with rfl | hmem
      · rw [get?_stampsOf_foldl_of_not_mem hnotin, get?_stampsOf_restamp_self]
      · exact ih hnodup hmem _

end Migration

end EntityRest
