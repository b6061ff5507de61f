import EntityRest.Proofs.Json.Object
import EntityRest.Proofs.Number.Binary
import EntityRest.Proofs.Number.Integer
import EntityRest.Service.Read

/-! # Integers out of the database

A driver's float that is an integer is read as an integer of 64 bits, and brought into their range
without an error. The numbers of a fetched row go the same way, and those beyond the signed range
become floats first. So an integer column shows the integers of the range as they are, and others
as an end of the range. The numbers of a document are held against the range before they are read,
and become the integers that they are or nothing. -/

namespace EntityRest

/-! ## Ranges -/

namespace IntRange

variable {range : IntRange}

/-- The integer of a range that is nearest to an integer. -/
def clamp (range : IntRange) (n : Int) : Int := max range.low (min range.high n)

theorem holds_clamp (h : range.low ≤ range.high) (n : Int) : range.Holds (range.clamp n) :=
  ⟨Int.le_max_left _ _, Int.max_le.mpr ⟨h, Int.min_le_left _ _⟩⟩

theorem clamp_eq_self_iff (h : range.low ≤ range.high) {n : Int} :
    range.clamp n = n ↔ range.Holds n := by
  unfold clamp Holds
  omega

theorem clamp_of_high_le (h : range.low ≤ range.high) {n : Int} (hn : range.high ≤ n) :
    range.clamp n = range.high := by
  unfold clamp
  omega

end IntRange

/-! ## Floats of the driver -/

namespace Payload

theorem int64_low_le_high : int64.low ≤ int64.high := by decide

theorem toInt_ofInt_of_holds {n : Int} (h : int64.Holds n) : (Int64.ofInt n).toInt = n := by
  have hlow : -(2 : Int) ^ 63 ≤ n := h.1
  have hhigh : n ≤ (2 : Int) ^ 63 - 1 := h.2
  exact Int64.toInt_ofInt_of_le hlow (by omega)

theorem scan_int_float (x : Binary64) :
    scan .int (.float x) =
      if x.isWhole then .ok (Int64.ofInt (x.truncate int64.low int64.high))
      else .error ⟨.int, "float"⟩ := rfl

theorem toInt_ofInt_clamp (k : Int) : (Int64.ofInt (int64.clamp k)).toInt = int64.clamp k :=
  toInt_ofInt_of_holds (IntRange.holds_clamp int64_low_le_high k)

/-- A float that is an integer is read as that integer, brought into the range. -/
theorem scan_int_of_value? {x : Binary64} {k : Int} (h : x.value? = some (k : ℚ)) :
    scan .int (.float x) = .ok (Int64.ofInt (int64.clamp k)) := by
  have hwhole : x.isWhole = true := Binary.isWhole_iff.mpr ⟨k, h⟩
  rw [scan_int_float, hwhole, Binary.truncate_of_value? h]
  rfl

theorem scan_int_of_ne {x : Binary64} (h : ∀ k : Int, x.value? ≠ some (k : ℚ)) :
    scan .int (.float x) = .error ⟨.int, "float"⟩ := by
  rw [scan_int_float, Binary.isWhole_eq_false_iff.mpr h]
  rfl

/-- A float is read as nothing but the integer it is exactly if that integer is in the range. -/
theorem scan_int_float_iff (x : Binary64) :
    (∀ m : Int64, scan .int (.float x) = .ok m → x.value? = some (m.toInt : ℚ)) ↔
      ∀ k : Int, x.value? = some (k : ℚ) → int64.Holds k := by
  constructor
  · intro hscan k hk
    have hvalue := hscan _ (scan_int_of_value? hk)
    rw [hk, toInt_ofInt_clamp, Option.some.injEq, Int.cast_inj] at hvalue
    exact (IntRange.clamp_eq_self_iff int64_low_le_high).mp hvalue.symm
  · intro hrange m hm
    by_cases hwhole : ∃ k : Int, x.value? = some (k : ℚ)
    · obtain ⟨k, hk⟩ := hwhole
      have hkeep := (IntRange.clamp_eq_self_iff int64_low_le_high).mpr (hrange k hk)
      rw [scan_int_of_value? hk, Except.ok.injEq] at hm
      rw [hk, ← hm, toInt_ofInt_clamp, hkeep]
    · cases (scan_int_of_ne (not_exists.mp hwhole)).symm.trans hm

end Payload

/-! ## JSON numbers -/

namespace JsonNumber

open Payload (int64)

variable {n : JsonNumber} {m : Int64} {i : Int}

/-- The rational number that a JSON number is. -/
def value? : JsonNumber → Option ℚ
  | .int n _ => some n
  | .float x _ => x.value?

theorem value?_of_toInt64? (h : n.toInt64? = some m) : n.value? = some (m.toInt : ℚ) := by
  cases n with
  | float x hfinite => cases h
  | int j bounds =>
      obtain ⟨hj, hm⟩ := Option.ite_none_right_eq_some.mp h
      have hholds : int64.Holds j := ⟨bounds.1, Int.le_sub_one_of_lt hj⟩
      rw [value?, ← Option.some.inj hm, Payload.toInt_ofInt_of_holds hholds]

/-- An integer beyond the signed range is rounded, and stays beyond it. One that is a float already
is left as it is. -/
theorem exists_value?_toBinary (h : n.toInt64? = none) (hn : n.value? = some (i : ℚ)) :
    ∃ k : Int, n.toBinary.value? = some (k : ℚ) ∧ (k = i ∨ int64.high < k ∧ int64.high < i) := by
  cases n with
  | float x hfinite => exact ⟨i, hn, .inl rfl⟩
  | int j bounds =>
      obtain rfl : j = i := Int.cast_injective (Option.some.inj hn)
      have hj : ¬ j < 0x8000000000000000 := by
        intro hlt
        cases (if_pos hlt).symm.trans h
      obtain ⟨a, rfl⟩ := Int.eq_ofNat_of_zero_le (show 0 ≤ j by omega)
      have hlow : 2 ^ 63 ≤ a := by omega
      have hhigh : a < 2 ^ 64 := by omega
      obtain ⟨k, hk, hle⟩ :=
        Binary.exists_value?_ofInt (F := .double) (by decide) hlow hhigh (by decide)
      have hend : int64.high = 2 ^ 63 - 1 := rfl
      exact ⟨k, hk, .inr (by omega)⟩

end JsonNumber

namespace Payload

/-- The largest integer of the range, as a float, is the integer after it. -/
theorem value?_high : (Binary.ofInt int64.high : Binary64).value? = some ((2 ^ 63 : Int) : ℚ) :=
  Binary.value?_eq_some_int_iff.mpr (by decide +kernel)

/-- A float is coerced to the integer that it is, if its magnitude is in the range. -/
theorem intOfBinary?_eq_some_iff {x : Binary64} {m : Int64} :
    intOfBinary? x = some m ↔ x.value? = some (m.toInt : ℚ) ∧ -(2 : Int) ^ 63 < m.toInt := by
  rw [intOfBinary?]
  by_cases hwhole : ∃ k : Int, x.value? = some (k : ℚ)
  · obtain ⟨k, hk⟩ := hwhole
    have hlt : x.abs.lt (.ofInt int64.high) = true ↔ -(2 : Int) ^ 63 < k ∧ k < 2 ^ 63 :=
      Binary.abs_lt_iff hk value?_high
    rw [Binary.isWhole_iff.mpr ⟨k, hk⟩, Bool.true_and, hk, Option.some.injEq, Int.cast_inj]
    by_cases hin : -(2 : Int) ^ 63 < k ∧ k < 2 ^ 63
    · have hholds : int64.Holds k := ⟨Int.le_of_lt hin.1, Int.le_sub_one_of_lt hin.2⟩
      have htruncate : x.truncate int64.low int64.high = k :=
        (Binary.truncate_of_value? hk).trans
          ((IntRange.clamp_eq_self_iff int64_low_le_high).mpr hholds)
      rw [if_pos (hlt.mpr hin), htruncate, Option.some.injEq]
      constructor
      · rintro rfl
        rw [toInt_ofInt_of_holds hholds]
        exact ⟨rfl, hin.1⟩
      · rintro ⟨rfl, -⟩
        exact Int64.ofInt_toInt m
    · rw [if_neg (mt hlt.mp hin)]
      simp only [reduceCtorEq, false_iff]
      rintro ⟨rfl, hlow⟩
      exact hin ⟨hlow, m.toInt_lt⟩
  · rw [Binary.isWhole_eq_false_iff.mpr (not_exists.mp hwhole), Bool.false_and, if_neg Bool.false_ne_true]
    simp only [reduceCtorEq, false_iff]
    exact fun h => hwhole ⟨_, h.1⟩

/-- A JSON number is coerced to the integer that it is, or to nothing: what is rounded stays beyond
the range, where no float is read. -/
theorem value?_of_ofJson? {n : JsonNumber} {m : Int64} (h : ofJson? .int (.number n) = some m) :
    n.value? = some (m.toInt : ℚ) := by
  rw [ofJson?] at h
  cases hfits : n.toInt64? with
  | some i =>
      rw [hfits] at h
      exact Option.some.inj h ▸ JsonNumber.value?_of_toInt64? hfits
  | none =>
      rw [hfits] at h
      have hread := (intOfBinary?_eq_some_iff.mp h).1
      cases n with
      | float x hfinite => exact hread
      | int i bounds =>
          obtain ⟨k, hk, rfl | ⟨hbeyond, -⟩⟩ := JsonNumber.exists_value?_toBinary hfits rfl
          · exact hk.symm.trans hread
          · obtain rfl : k = m.toInt := Int.cast_injective (Option.some.inj (hk.symm.trans hread))
            exact absurd (Int.le_sub_one_of_lt m.toInt_lt) (Int.not_le.mpr hbeyond)

end Payload

/-! ## Numbers of a fetched row -/

namespace Schema

open Payload (int64)

variable {s : Schema} {f : Field} {key : String} {n : JsonNumber}

theorem get?_normalize (s : Schema) (row : Row) (key : String) :
    (s.normalize row).get? key = (row.get? key).map (s.normalizeValue key) :=
  Entries.get?_map s.normalizeValue key row

theorem normalizeValue_of_field (hf : s.field? key = some f) (v : Json) :
    s.normalizeValue key v = (f.kind.jsonOfSql (.ofJson v)).toOption.getD v := by
  simp only [normalizeValue, hf]
  cases f.kind.jsonOfSql (.ofJson v) <;> rfl

theorem normalizeValue_of_toInt64? (hf : s.field? key = some f) (hkind : f.kind = .int) {i : Int64}
    (h : n.toInt64? = some i) : s.normalizeValue key (.number n) = .ofInt64 i := by
  rw [normalizeValue_of_field hf, hkind, SqlValue.ofJson, h]
  rfl

theorem normalizeValue_of_toBinary (hf : s.field? key = some f) (hkind : f.kind = .int)
    (h : n.toInt64? = none) :
    s.normalizeValue key (.number n) =
      match Payload.scan .int (.float n.toBinary) with
      | .ok m => .ofInt64 m
      | .error _ => .number n := by
  have hsql : SqlValue.ofJson (.number n) = .float n.toBinary := by rw [SqlValue.ofJson, h]
  rw [normalizeValue_of_field hf, hkind, hsql, ScalarKind.jsonOfSql]
  simp only [Nullable.scan]
  cases Payload.scan .int (.float n.toBinary) <;> rfl

/-- A number that is an integer is shown as that integer, brought into the range. -/
theorem normalizeValue_of_value? (hf : s.field? key = some f) (hkind : f.kind = .int) {i : Int}
    (hn : n.value? = some (i : ℚ)) :
    s.normalizeValue key (.number n) = .ofInt64 (Int64.ofInt (int64.clamp i)) := by
  have hends := Payload.int64_low_le_high
  cases hfits : n.toInt64? with
  | some m =>
      obtain rfl : i = m.toInt :=
        Int.cast_injective (Option.some.inj (hn.symm.trans (JsonNumber.value?_of_toInt64? hfits)))
      have hholds : int64.Holds m.toInt := ⟨m.le_toInt, Int.le_sub_one_of_lt m.toInt_lt⟩
      rw [normalizeValue_of_toInt64? hf hkind hfits, (IntRange.clamp_eq_self_iff hends).mpr hholds,
        Int64.ofInt_toInt]
  | none =>
      obtain ⟨k, hk, hsame⟩ := JsonNumber.exists_value?_toBinary hfits hn
      have hclamp : int64.clamp k = int64.clamp i := by
        rcases hsame with rfl | ⟨hk', hi'⟩
        · rfl
        · rw [IntRange.clamp_of_high_le hends (Int.le_of_lt hk'),
            IntRange.clamp_of_high_le hends (Int.le_of_lt hi')]
      rw [normalizeValue_of_toBinary hf hkind hfits]
      simp only [Payload.scan_int_of_value? hk, hclamp]

theorem normalizeValue_of_ne (hf : s.field? key = some f) (hkind : f.kind = .int)
    (hn : ∀ i : Int, n.value? ≠ some (i : ℚ)) :
    s.normalizeValue key (.number n) = .number n := by
  cases n with
  | int j bounds => exact absurd rfl (hn j)
  | float x hfinite =>
      rw [normalizeValue_of_toBinary hf hkind rfl]
      simp only [JsonNumber.toBinary, Payload.scan_int_of_ne hn]

/-- A number of an integer field is shown as the number it is exactly if it is no integer outside
of the range. -/
theorem normalizeValue_number_iff (hf : s.field? key = some f) (hkind : f.kind = .int)
    (n : JsonNumber) :
    (∃ m, s.normalizeValue key (.number n) = .number m ∧ m.value? = n.value?) ↔
      ∀ i : Int, n.value? = some (i : ℚ) → int64.Holds i := by
  by_cases hwhole : ∃ i : Int, n.value? = some (i : ℚ)
  · obtain ⟨i, hn⟩ := hwhole
    have hvalue : (JsonNumber.ofInt64 (Int64.ofInt (int64.clamp i))).value? =
        some (int64.clamp i : ℚ) := by
      rw [JsonNumber.ofInt64, JsonNumber.value?, Payload.toInt_ofInt_clamp]
    rw [normalizeValue_of_value? hf hkind hn, Json.ofInt64, hn]
    simp only [Json.number.injEq, exists_eq_left', hvalue, Option.some.injEq, Int.cast_inj,
      forall_eq', IntRange.clamp_eq_self_iff Payload.int64_low_le_high]
  · rw [not_exists] at hwhole
    rw [normalizeValue_of_ne hf hkind hwhole]
    exact iff_of_true ⟨n, rfl, rfl⟩ fun i hi => absurd hi (hwhole i)

end Schema

/-- An integer column never shows another integer than it was given exactly where that is in the
range of 64 bits: a float that is scanned, and a number of a fetched row. -/
theorem Schema.integers_shown_iff (x : Binary64) (n : JsonNumber) {s : Schema} {row : Row}
    {key : String} {f : Field} (hf : s.field? key = some f) (hkind : f.kind = .int)
    (hget : row.get? key = some (.number n)) :
    ((∀ m : Int64, Payload.scan .int (.float x) = .ok m → x.value? = some (m.toInt : ℚ)) ↔
        ∀ k : Int, x.value? = some (k : ℚ) → Payload.int64.Holds k) ∧
      ((∃ m, (s.normalize row).get? key = some (.number m) ∧ m.value? = n.value?) ↔
        ∀ k : Int, n.value? = some (k : ℚ) → Payload.int64.Holds k) := by
  refine ⟨Payload.scan_int_float_iff x, ?_⟩
  have hshown : (s.normalize row).get? key = some (s.normalizeValue key (.number n)) := by
    rw [Schema.get?_normalize, hget, Option.map_some]
  simp only [hshown, Option.some.injEq]
  exact Schema.normalizeValue_number_iff hf hkind n

/-! ## Rows of meters -/

namespace Meters

/-- Meters with what they have counted. -/
def config : EntityConfig where
  name := "meters"
  table := "meters"
  asName := "m"
  version := "1"
  fields := [⟨"id", "m.id", .int, none⟩, ⟨"count", "m.count", .int, none⟩]

def countField : Field := ⟨"count", "m.count", .int, false, false, {}⟩

def meters : Schema where
  name := "meters"
  table := "meters"
  asName := "m"
  version := "1"
  primaryKey := "id"
  flat := false
  fields := [⟨"id", "m.id", .int, false, false, {}⟩, countField]
  relations := []
  filters := []
  sorts := []
  groups := []
  children := []

/-- The largest integer of 64 bits. -/
def full : JsonNumber := .int 0x7fffffffffffffff (by decide)

/-- The integer after it, which a JSON number still holds. -/
def overfull : JsonNumber := .int 0x8000000000000000 (by decide)

def row (count : JsonNumber) : Row := [("id", .ofInt64 1), ("count", .number count)]

/-- The least integer of the range as a float. -/
def least : Binary64 := .ofInt (-0x8000000000000000)

/-- The first integer above the range as a float. -/
def beyond : Binary64 := .ofInt 0x8000000000000000

/-- At both ends of the range integers are shown as they are. -/
theorem ends_shown :
    config.resolve = .ok meters ∧
      (∀ m : Int64, Payload.scan .int (.float least) = .ok m →
        least.value? = some (m.toInt : ℚ)) ∧
      ∃ m, (meters.normalize (row full)).get? "count" = some (.number m) ∧
        m.value? = full.value? := by
  have hleast : least.value? = some ((-0x8000000000000000 : Int) : ℚ) :=
    Binary.value?_eq_some_int_iff.mpr (by decide +kernel)
  have hfield : meters.field? "count" = some countField := by decide
  have hget : (row full).get? "count" = some (.number full) := by decide
  obtain ⟨hscan, hrow⟩ := Schema.integers_shown_iff least full hfield rfl hget
  refine ⟨by decide +kernel, hscan.mpr ?_, hrow.mpr ?_⟩
  · intro k hk
    obtain rfl : -0x8000000000000000 = k :=
      Int.cast_injective (Option.some.inj (hleast.symm.trans hk))
    decide
  · intro k hk
    obtain rfl : 0x7fffffffffffffff = k := Int.cast_injective (Option.some.inj hk)
    decide

/-- The integer after the largest one is shown as the largest one, and a float of that value is
read as the same. -/
theorem overfull_shown_as_full :
    config.resolve = .ok meters ∧
      beyond.value? = some ((0x8000000000000000 : Int) : ℚ) ∧
      Payload.scan .int (.float beyond) = .ok (0x7fffffffffffffff : Int64) ∧
      meters.normalize (row overfull) = row full ∧ full.value? ≠ overfull.value? := by
  have hbeyond : beyond.value? = some ((0x8000000000000000 : Int) : ℚ) :=
    Binary.value?_eq_some_int_iff.mpr (by decide +kernel)
  refine ⟨by decide +kernel, hbeyond, Payload.scan_int_of_value? hbeyond, by decide +kernel, ?_⟩
  intro h
  cases Int.cast_injective (Option.some.inj h)

end Meters

end EntityRest
