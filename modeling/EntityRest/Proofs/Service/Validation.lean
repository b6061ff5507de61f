import EntityRest.Proofs.Json.Object
import EntityRest.Proofs.Schema.WellFormed
import EntityRest.Schema.Resolve
import EntityRest.Service.Validation

/-! # What new rows and changes have to satisfy

A value that is given has to be allowed by the constraints of its field, in a new row and in a
change alike, and may be null only where the field is not required. A new row needs something for
every required field besides, and nothing more. -/

namespace EntityRest

/-! ## Values of a field -/

namespace Constraints

variable {c : Constraints} {v : Json}

/-- The value is one of the choices, if there are any, and what is held against the bounds is not
outside of them. -/
structure Allows (c : Constraints) (v : Json) : Prop where
  choice : c.oneOf ≠ [] → v.plain ∈ c.oneOf
  above : ∀ low n, c.min = some low → magnitude? v = some n → n.lt low = false
  below : ∀ high n, c.max = some high → magnitude? v = some n → high.lt n = false

theorem allows_of_isEmpty (h : c.isEmpty = true) (v : Json) : c.Allows v := by
  simp only [isEmpty, Bool.and_eq_true, List.isEmpty_iff, Option.isNone_iff_eq_none] at h
  obtain ⟨⟨⟨-, hchoices⟩, hmin⟩, hmax⟩ := h
  exact ⟨fun hne => absurd hchoices hne, by simp [hmin], by simp [hmax]⟩

theorem violation?_eq_none_iff : c.violation? v = none ↔ c.Allows v := by
  have hbad : (!c.oneOf.isEmpty && !c.oneOf.contains v.plain) = true ↔
      c.oneOf ≠ [] ∧ v.plain ∉ c.oneOf := by simp
  rw [violation?]
  by_cases h : c.oneOf ≠ [] ∧ v.plain ∉ c.oneOf
  · rw [if_pos (hbad.mpr h)]
    simp only [reduceCtorEq, false_iff]
    exact fun hallows => h.2 (hallows.choice h.1)
  · rw [if_neg (mt hbad.mp h)]
    have hchoice : c.oneOf ≠ [] → v.plain ∈ c.oneOf := by
      intro hne
      by_contra hnot
      exact h ⟨hne, hnot⟩
    have hallows : c.Allows v ↔
        (∀ low n, c.min = some low → magnitude? v = some n → n.lt low = false) ∧
          ∀ high n, c.max = some high → magnitude? v = some n → high.lt n = false :=
      ⟨fun h => ⟨h.above, h.below⟩, fun h => ⟨hchoice, h.1, h.2⟩⟩
    rw [hallows]
    cases magnitude? v with
    | none => simp
    | some n =>
        cases c.min with
        | none => cases c.max <;> simp
        | some low =>
            cases c.max with
            | none => simp
            | some high => by_cases n.lt low = true <;> by_cases high.lt n = true <;> simp [*]

end Constraints

/-- The value may be given for the field: null where nothing is required, and otherwise what the
constraints allow. -/
def Field.Accepts (f : Field) (v : Json) : Prop :=
  if v = .null then f.constraints.required = false else f.constraints.Allows v

theorem Field.accepts_null {f : Field} : f.Accepts .null ↔ f.constraints.required = false := by
  rw [Field.Accepts, if_pos rfl]

theorem Field.accepts_of_ne {f : Field} {v : Json} (h : v ≠ .null) :
    f.Accepts v ↔ f.constraints.Allows v := by
  rw [Field.Accepts, if_neg h]

namespace Schema

variable {s : Schema} {f : Field} {values : Entries Json} {key : String} {v : Json}

/-! ## New rows -/

theorem present?_eq_some_iff :
    present? values key = some v ↔ values.get? key = some v ∧ v ≠ .null := by
  cases hget : values.get? key with
  | none => simp [present?, hget]
  | some w =>
      by_cases hnull : w = .null
      · simp [present?, hget, hnull, eq_comm]
      · have hpresent : present? values key = some w := by simp [present?, hget]
        rw [hpresent]
        refine (and_iff_left_of_imp ?_).symm
        intro h
        exact Option.some.inj h ▸ hnull

/-- A field of a new row is in order if it accepts what is given, and something is given if that is
required. -/
theorem fieldViolation?_eq_none_iff :
    fieldViolation? values f = none ↔
      (∀ v, values.get? f.key = some v → f.Accepts v) ∧
        (f.constraints.required = true → ∃ v, values.get? f.key = some v ∧ v ≠ .null) := by
  simp only [← present?_eq_some_iff]
  rw [fieldViolation?]
  cases hpresent : present? values f.key with
  | none =>
      have hnull : ∀ v, values.get? f.key = some v → v = .null := by
        intro v hget
        by_contra hne
        cases hpresent.symm.trans (present?_eq_some_iff.mpr ⟨hget, hne⟩)
      cases hrequired : f.constraints.required with
      | true => simp
      | false =>
          have haccepts : ∀ v, values.get? f.key = some v → f.Accepts v := by
            intro v hget
            rw [hnull v hget, Field.accepts_null, hrequired]
          simpa using haccepts
  | some w =>
      obtain ⟨hget, hne⟩ := present?_eq_some_iff.mp hpresent
      simp [hget, Field.accepts_of_ne hne, Constraints.violation?_eq_none_iff]

theorem violation?_eq_of_constrained (s : Schema) (values : Entries Json) :
    s.violation? values =
      (s.fields.filter fun f => !f.constraints.isEmpty).findSome? (fieldViolation? values) := by
  have hempty (f : Field) (h : f.constraints.isEmpty = true) : fieldViolation? values f = none := by
    have hrequired : f.constraints.required = false := by
      simp only [Constraints.isEmpty, Bool.and_eq_true, Bool.not_eq_true'] at h
      exact h.1.1.1
    refine fieldViolation?_eq_none_iff.mpr ⟨fun v _ => ?_, by simp [hrequired]⟩
    by_cases hne : v = .null
    · rw [hne, Field.accepts_null, hrequired]
    · exact (Field.accepts_of_ne hne).mpr (Constraints.allows_of_isEmpty h v)
  rw [violation?]
  induction s.fields with
  | nil => rfl
  | cons f fs ih =>
      cases h : f.constraints.isEmpty with
      | true => simp [h, hempty f h, ih]
      | false => simp [List.findSome?_cons, h, ih]

/-! ## Changes -/

theorem entryViolation?_eq_none_iff :
    s.entryViolation? (key, v) = none ↔ ∀ f, s.field? key = some f → f.Accepts v := by
  rw [entryViolation?]
  cases s.field? key with
  | none => simp
  | some f =>
      simp only [Option.some.injEq, forall_eq']
      by_cases hnull : v = .null
      · subst hnull
        simp [Json.isNull, Field.accepts_null]
      · have hisNull : v.isNull = false := by cases v <;> simp_all [Json.isNull]
        simp [hisNull, Field.accepts_of_ne hnull, Constraints.violation?_eq_none_iff]

/-- A change is in order if each field accepts what is given for it, whatever else is given. -/
theorem partialViolation?_eq_none_iff (hkeys : (s.fields.map Field.key).Nodup)
    (hvalues : values.keys.Nodup) :
    s.partialViolation? values = none ↔
      ∀ f ∈ s.fields, ∀ v, values.get? f.key = some v → f.Accepts v := by
  rw [partialViolation?, List.findSome?_eq_none_iff]
  simp only [Prod.forall, entryViolation?_eq_none_iff, field?_eq_some_iff hkeys,
    Entries.get?_eq_some_iff hvalues]
  constructor
  · intro h f hf v hv
    exact h f.key v hv f ⟨hf, rfl⟩
  · rintro h key v hv f ⟨hf, rfl⟩
    exact h f hf v hv

/-! ## New rows and changes -/

/-- A new row is in order exactly if it would be as a change and holds something for every required
field. -/
theorem violation?_eq_none_iff_partial (hkeys : (s.fields.map Field.key).Nodup)
    (hvalues : values.keys.Nodup) :
    s.violation? values = none ↔ s.partialViolation? values = none ∧
      ∀ f ∈ s.fields, f.constraints.required = true →
        ∃ v, values.get? f.key = some v ∧ v ≠ .null := by
  rw [violation?, List.findSome?_eq_none_iff, partialViolation?_eq_none_iff hkeys hvalues]
  simp only [fieldViolation?_eq_none_iff, forall_and]

end Schema

/-! ## Rows of a staff -/

namespace Staff

/-- People with a name of two to five characters, a role, and a least age. -/
def config : EntityConfig where
  name := "staff"
  table := "staff"
  asName := "s"
  version := "1"
  fields := [⟨"id", "s.id", .int, none⟩, ⟨"name", "s.name", .string, some "required,min=2,max=5"⟩,
    ⟨"role", "s.role", .string, some "oneof=admin member"⟩, ⟨"age", "s.age", .int, some "min=18"⟩]

def nameField : Field :=
  ⟨"name", "s.name", .string, false, false,
    { required := true, min := some (.ofInt 2), max := some (.ofInt 5) }⟩

def staff : Schema where
  name := "staff"
  table := "staff"
  asName := "s"
  version := "1"
  primaryKey := "id"
  flat := false
  fields := [⟨"id", "s.id", .int, false, false, {}⟩, nameField,
    ⟨"role", "s.role", .string, false, false, { oneOf := ["admin", "member"] }⟩,
    ⟨"age", "s.age", .int, false, false, { min := some (.ofInt 18) }⟩]
  relations := []
  filters := []
  sorts := []
  groups := []
  children := []

/-- A role, no age, and a key of no field. -/
def promotion : Entries Json := [("role", .string "admin"), ("age", .null), ("floor", .ofInt64 7)]

/-- The same with a name. -/
def hire : Entries Json := ("name", .string "Ada") :: promotion

/-- A promotion is in order as a change, but not as a new row, for which a name is missing. -/
theorem promotion_not_hire :
    config.resolve = .ok staff ∧ (staff.fields.map Field.key).Nodup ∧ promotion.keys.Nodup ∧
      staff.partialViolation? promotion = none ∧ staff.violation? promotion ≠ none ∧
      staff.violation? hire = none := by
  have hkeys : (staff.fields.map Field.key).Nodup := by decide
  have hpromotion : promotion.keys.Nodup := by decide
  have hhire : hire.keys.Nodup := by decide
  have hmissing : staff.violation? promotion ≠ none := by
    intro h
    obtain ⟨v, hget, -⟩ :=
      ((Schema.violation?_eq_none_iff_partial hkeys hpromotion).mp h).2 nameField (by simp [staff]) rfl
    have hnone : promotion.get? nameField.key = none := by decide
    cases hnone.symm.trans hget
  refine ⟨by decide +kernel, hkeys, hpromotion, by decide +kernel, hmissing, ?_⟩
  refine (Schema.violation?_eq_none_iff_partial hkeys hhire).mpr ⟨by decide +kernel, ?_⟩
  intro f hf hrequired
  simp only [staff, List.mem_cons, List.not_mem_nil, or_false] at hf
  rcases hf with rfl | rfl | rfl | rfl
  case inr.inl => exact ⟨.string "Ada", by decide, by decide⟩
  all_goals cases hrequired

end Staff

end EntityRest
