import EntityRest.Proofs.Query.FieldFilter
import EntityRest.Proofs.Query.Template
import EntityRest.Proofs.Schema.WellFormed
import EntityRest.Service.Read

/-! # Children belong to their parent

The template of a child list pins a field of the child entity to a value of the parent row. The
statement that fetches the children binds that value, as long as the text of the value goes through
the template and the request grammar as it is: other placeholders in it are filled in, and the word
for NULL becomes a test for NULL. -/

namespace EntityRest

/-- A pair of the template gives a field of the child entity the value of one placeholder. -/
structure Child.Pins (c : Child) (t : Schema) (f : Field) (k p : String) : Prop where
  pair : (k, Child.token p) ∈ splitPairs c.filter
  placeholder : p ∈ c.placeholders
  field : t.field? k = some f
  not_reserved : Text.startsWith "$" k = false
  no_operator : ¬ ".$".toList <:+: k.toList

namespace Service

variable {σ κ : Type} {sv : Service σ κ} {s t : Schema} {c : Child} {key : String} {row : Row}

theorem childPlan_eq (hchild : s.child? key = some c) (ht : sv.registry.get? c.entity = some t) :
    sv.childPlan s key row =
      match c.instantiate row with
      | none => .ok none
      | some pairs => do
        let q ← (Query.ofPairs pairs).mapError .query
        let plan ← (sv.registry.compileAll sv.database.dialect t q).mapError .query
        return some (t, plan) := by
  cases hfill : c.instantiate row <;> simp only [childPlan, hchild, ht, hfill]

theorem childPlan_eq_ok_some (hchild : s.child? key = some c)
    (ht : sv.registry.get? c.entity = some t) {t' : Schema} {plan : Plan} :
    sv.childPlan s key row = .ok (some (t', plan)) ↔
      t' = t ∧ ∃ pairs q, c.instantiate row = some pairs ∧ Query.ofPairs pairs = .ok q ∧
        sv.registry.compileAll sv.database.dialect t q = .ok plan := by
  rw [childPlan_eq hchild ht]
  cases c.instantiate row with
  | none => simp
  | some pairs =>
      simp only [bind_eq_ok, mapError_eq_ok, pure_eq_ok, Option.some.injEq, Prod.mk.injEq]
      constructor
      · rintro ⟨q, hq, p, hp, rfl, rfl⟩
        exact ⟨rfl, pairs, q, rfl, hq, hp⟩
      · rintro ⟨rfl, _, q, rfl, hq, hp⟩
        exact ⟨q, hq, plan, hp, rfl, rfl⟩

section Pinned

variable {configs : List EntityConfig} {f : Field} {k p text : String} {v : Json}

theorem fill_pinned (hpins : c.Pins t f k p) (hrow : row.get? p = some v) (hv : v ≠ .null) :
    Child.fill row c.placeholders (Child.token p) = c.refill row p v.plain :=
  Child.fill_token (fun _ => Child.brace_notMem_placeholders) hpins.placeholder hrow hv

theorem mem_of_instantiate (hpins : c.Pins t f k p) (hrow : row.get? p = some v) (hv : v ≠ .null)
    {pairs : Pairs} (h : c.instantiate row = some pairs) :
    ∃ text, c.refill row p v.plain = some text ∧ (k, text) ∈ pairs := by
  obtain ⟨pre, post, hsplit⟩ := List.append_of_mem hpins.pair
  rw [Child.instantiate_eq, hsplit, Child.fillPairs_middle, fill_pinned hpins hrow hv] at h
  simp only [Option.bind_eq_some_iff, Option.map_eq_some_iff] at h
  obtain ⟨front, -, text, htext, back, -, rfl⟩ := h
  exact ⟨text, htext, by simp⟩

theorem instantiate_pinned (hpins : c.Pins t f k p) (hrow : row.get? p = some v) (hv : v ≠ .null)
    {pre post front back : Pairs} (hsplit : splitPairs c.filter = pre ++ (k, Child.token p) :: post)
    (hfront : c.fillPairs row pre = some front) (hback : c.fillPairs row post = some back)
    (htext : c.refill row p v.plain = some text) :
    c.instantiate row = some (front ++ (k, text) :: back) := by
  rw [Child.instantiate_eq, hsplit, Child.fillPairs_middle, fill_pinned hpins hrow hv, hfront,
    htext, hback]
  rfl

theorem isPlainParam_of_pins (hbuild : Registry.build configs = .ok sv.registry)
    (ht : sv.registry.get? c.entity = some t) (hpins : c.Pins t f k p) : IsPlainParam k := by
  have hvalid := Registry.validate_of_build hbuild t (Registry.mem_of_get? ht)
  obtain ⟨-, -, -, hkeys, -⟩ := Schema.validate_eq_ok.mp hvalid
  have hne := (Schema.checkKeys_eq_ok.mp hkeys).2 f (List.mem_of_find?_eq_some hpins.field)
  exact ⟨Schema.key_of_field? hpins.field ▸ hne, hpins.not_reserved, hpins.no_operator⟩

/-- Every child plan requires what the text of the placeholder means. -/
theorem requires_of_childPlan (hk : IsPlainParam k) (hchild : s.child? key = some c)
    (ht : sv.registry.get? c.entity = some t) (hpins : c.Pins t f k p)
    (hrow : row.get? p = some v) (hv : v ≠ .null) {t' : Schema} {plan : Plan}
    (h : sv.childPlan s key row = .ok (some (t', plan))) :
    t' = t ∧ plan.count = none ∧ ∃ text, c.refill row p v.plain = some text ∧
      ((IsNullWord text ∧
          plan.select.Requires sv.database.dialect (f.isNull sv.database.dialect)) ∨
        (¬ IsNullWord text ∧ plan.select.Binds sv.database.dialect f text)) := by
  obtain ⟨rfl, pairs, q, hpairs, hq, hplan⟩ := (childPlan_eq_ok_some hchild ht).mp h
  obtain ⟨text, htext, hmem⟩ := mem_of_instantiate hpins hrow hv hpairs
  have hreads := (Registry.reads_of_compileAs (m := .all) hplan).1
  have hfilter := Query.ofKey_mem_filters hk hq hmem
  exact ⟨rfl, Registry.count_of_compileAll hplan, text, htext,
    hreads.requires_ofKey hpins.field hfilter⟩

/-- The template can be compiled for the row with that text in place of a placeholder. -/
def CompilesWith (sv : Service σ κ) (t : Schema) (c : Child) (row : Row) (k p other : String) :
    Prop :=
  ∃ pre post front back q plan, splitPairs c.filter = pre ++ (k, Child.token p) :: post ∧
    c.fillPairs row pre = some front ∧ c.fillPairs row post = some back ∧
    Query.ofPairs (front ++ (k, other) :: back) = .ok q ∧
    sv.registry.compileAll sv.database.dialect t q = .ok plan

/-- If the template can be compiled with some text, then a text that means no value is refused under
the key of the field, and with every other one there is a plan. -/
theorem childPlan_of_compilesWith (hk : IsPlainParam k) (hchild : s.child? key = some c)
    (ht : sv.registry.get? c.entity = some t) (hpins : c.Pins t f k p)
    (hrow : row.get? p = some v) (hv : v ≠ .null) (htext : c.refill row p v.plain = some text)
    (hword : ¬ IsNullWord text) {other : String} (h : sv.CompilesWith t c row k p other) :
    (f.kind.sqlOfText? text = none →
      sv.childPlan s key row = .error (.query ⟨.invalidValue, k⟩)) ∧
    (f.kind.sqlOfText? text ≠ none → ∃ plan, sv.childPlan s key row = .ok (some (t, plan))) := by
  obtain ⟨pre, post, front, back, q, plan, hsplit, hfront, hback, hq, hplan⟩ := h
  have hfilled := instantiate_pinned hpins hrow hv hsplit hfront hback htext
  obtain ⟨fs, gs, hfilters, hread⟩ := Query.exists_ofPairs_replace hk hq text
  constructor
  · intro hvalue
    have hrefused := Registry.compileAll_replace_error hplan hfilters hpins.field hword hvalue
    rw [childPlan_eq hchild ht, hfilled]
    refine bind_eq_error.mpr (.inr ⟨_, mapError_eq_ok.mpr hread, ?_⟩)
    exact bind_eq_error.mpr (.inl (mapError_eq_error.mpr ⟨_, hrefused, rfl⟩))
  · intro hvalue
    obtain ⟨w, hw⟩ := Option.ne_none_iff_exists'.mp hvalue
    obtain ⟨plan', hplan'⟩ :=
      Registry.exists_compileAll_replace hplan hfilters hpins.field hword hw
    exact ⟨plan', (childPlan_eq_ok_some hchild ht).mpr ⟨rfl, _, _, hfilled, hread, hplan'⟩⟩

/-- Where the text of the parent's value holds no placeholder that stands later in the template and
is not the word for NULL, the statement that fetches the children binds the value that the text
means. There is one if the text means a value and the template can be compiled at all; a text that
means none is refused then. Every statement requires what the text means in which the later
placeholders are filled in: a test for NULL if that is the word for it. -/
theorem childPlan_pinned (hbuild : Registry.build configs = .ok sv.registry)
    (hchild : s.child? key = some c) (ht : sv.registry.get? c.entity = some t)
    (hpins : c.Pins t f k p) (hrow : row.get? p = some v) (hv : v ≠ .null) :
    (c.Keeps p v.plain → ¬ IsNullWord v.plain →
      (∀ t' plan, sv.childPlan s key row = .ok (some (t', plan)) →
        t' = t ∧ plan.count = none ∧ plan.select.Binds sv.database.dialect f v.plain) ∧
      ∀ other, sv.CompilesWith t c row k p other →
        (f.kind.sqlOfText? v.plain = none →
          sv.childPlan s key row = .error (.query ⟨.invalidValue, k⟩)) ∧
        (f.kind.sqlOfText? v.plain ≠ none →
          ∃ plan, sv.childPlan s key row = .ok (some (t, plan)))) ∧
    ∀ t' plan, sv.childPlan s key row = .ok (some (t', plan)) →
      t' = t ∧ plan.count = none ∧ ∃ text, c.refill row p v.plain = some text ∧
        ((IsNullWord text ∧
            plan.select.Requires sv.database.dialect (f.isNull sv.database.dialect)) ∨
          (¬ IsNullWord text ∧ plan.select.Binds sv.database.dialect f text)) := by
  have hk := isPlainParam_of_pins hbuild ht hpins
  have hall := fun t' plan (h : sv.childPlan s key row = .ok (some (t', plan))) =>
    requires_of_childPlan hk hchild ht hpins hrow hv h
  refine ⟨fun hkeeps hword => ?_, hall⟩
  have htext := Child.refill_of_keeps hkeeps row
  constructor
  · intro t' plan h
    obtain ⟨ht', hcount, text, htext', hcases⟩ := hall t' plan h
    obtain rfl := Option.some.inj (htext.symm.trans htext')
    rcases hcases with ⟨hnull, -⟩ | ⟨-, hbinds⟩
    · exact absurd hnull hword
    · exact ⟨ht', hcount, hbinds⟩
  · intro other h
    exact childPlan_of_compilesWith hk hchild ht hpins hrow hv htext hword h

end Pinned

end Service

/-! ## Boxes of items -/

namespace Boxes

def ofBox : Child := ⟨"items", "items", "box={code}&label={label}"⟩

def inSlot : Child := ⟨"slots", "items", "slot={code}"⟩

def boxesConfig : EntityConfig where
  name := "boxes"
  table := "boxes"
  asName := "b"
  version := "1"
  fields := [⟨"id", "b.id", .int, none⟩, ⟨"code", "b.code", .string, none⟩,
    ⟨"label", "b.label", .string, none⟩]
  children := [⟨"items", "items", "box={code}&label={label}"⟩, ⟨"slots", "items", "slot={code}"⟩]

def itemsConfig : EntityConfig where
  name := "items"
  table := "items"
  asName := "i"
  version := "1"
  fields := [⟨"id", "i.id", .int, none⟩, ⟨"box", "i.box", .string, none⟩,
    ⟨"label", "i.label", .string, none⟩, ⟨"slot", "i.slot", .int, none⟩]

def boxes : Schema where
  name := "boxes"
  table := "boxes"
  asName := "b"
  version := "1"
  primaryKey := "id"
  flat := false
  fields := [⟨"id", "b.id", .int, false, false, {}⟩, ⟨"code", "b.code", .string, false, false, {}⟩,
    ⟨"label", "b.label", .string, false, false, {}⟩]
  relations := []
  filters := []
  sorts := []
  groups := []
  children := [ofBox, inSlot]

def box : Field := ⟨"box", "i.box", .string, false, false, {}⟩

def slot : Field := ⟨"slot", "i.slot", .int, false, false, {}⟩

def items : Schema where
  name := "items"
  table := "items"
  asName := "i"
  version := "1"
  primaryKey := "id"
  flat := false
  fields := [⟨"id", "i.id", .int, false, false, {}⟩, box,
    ⟨"label", "i.label", .string, false, false, {}⟩, slot]
  relations := []
  filters := []
  sorts := []
  groups := []
  children := []

def service : Service Unit LocalCache where
  registry := ⟨[boxes, items]⟩
  database := ⟨.postgres, fun _ x => (.ok [], x), fun _ x => (.ok 1, x), fun _ => true⟩
  cache := .ofLocal
  settings := {}
  translator := .empty "en"
  nesting := 1

theorem build_eq : Registry.build [boxesConfig, itemsConfig] = .ok service.registry := by cbv

/-- A box that is labelled "old". -/
def coded (code : String) : Row :=
  [("id", .number (.ofInt64 1)), ("code", .string code), ("label", .string "old")]

theorem pins_box : ofBox.Pins items box "box" "code" where
  pair := by decide +kernel
  placeholder := by decide +kernel
  field := by decide +kernel
  not_reserved := by decide +kernel
  no_operator := by decide +kernel

theorem pins_slot : inSlot.Pins items slot "slot" "code" where
  pair := by decide +kernel
  placeholder := by decide +kernel
  field := by decide +kernel
  not_reserved := by decide +kernel
  no_operator := by decide +kernel

theorem compilesWith_box : service.CompilesWith items ofBox (coded "b1") "box" "code" "" := by
  obtain ⟨q, hq, hcompiles⟩ := exists_eq_ok (x := Query.ofPairs [("box", ""), ("label", "old")])
    (p := fun q => (service.registry.compileAll .postgres items q).toOption.any fun _ => true)
    (by decide +kernel)
  obtain ⟨plan, hplan, -⟩ := exists_eq_ok hcompiles
  exact ⟨[], [("label", "\x7blabel\x7d")], [], [("label", "old")], q, plan, by decide +kernel,
    by decide +kernel, by decide +kernel, hq, hplan⟩

theorem compilesWith_slot : service.CompilesWith items inSlot (coded "b1") "slot" "code" "1" := by
  obtain ⟨q, hq, hcompiles⟩ := exists_eq_ok (x := Query.ofPairs [("slot", "1")])
    (p := fun q => (service.registry.compileAll .postgres items q).toOption.any fun _ => true)
    (by decide +kernel)
  obtain ⟨plan, hplan, -⟩ := exists_eq_ok hcompiles
  exact ⟨[], [], [], [], q, plan, by decide +kernel, by decide +kernel, by decide +kernel, hq,
    hplan⟩

/-- A box has the items of its code, which is not the number of a slot. -/
theorem childPlan_coded :
    (∃ plan, service.childPlan boxes "items" (coded "b1") = .ok (some (items, plan)) ∧
      plan.select.Requires .postgres (box.isValue .postgres (.text "b1"))) ∧
    service.childPlan boxes "slots" (coded "b1") = .error (.query ⟨.invalidValue, "slot"⟩) := by
  have hcode : (coded "b1").get? "code" = some (.string "b1") := by decide +kernel
  constructor
  · have hchild : boxes.child? "items" = some ofBox := by decide +kernel
    have hkeeps : ofBox.Keeps "code" (Json.plain (.string "b1")) := by
      unfold Child.Keeps
      decide +kernel
    obtain ⟨hpinned, -⟩ := Service.childPlan_pinned build_eq hchild rfl pins_box hcode (by decide)
    obtain ⟨hbound, hcompiles⟩ := hpinned hkeeps (by decide +kernel)
    obtain ⟨-, hplanned⟩ := hcompiles "" compilesWith_box
    obtain ⟨plan, hplan⟩ := hplanned (by decide +kernel)
    obtain ⟨-, -, w, hw, hrequires⟩ := hbound items plan hplan
    obtain rfl : SqlValue.text "b1" = w := Option.some.inj hw
    exact ⟨plan, hplan, hrequires⟩
  · have hchild : boxes.child? "slots" = some inSlot := by decide +kernel
    have hkeeps : inSlot.Keeps "code" (Json.plain (.string "b1")) := by
      unfold Child.Keeps
      decide +kernel
    obtain ⟨hpinned, -⟩ := Service.childPlan_pinned build_eq hchild rfl pins_slot hcode (by decide)
    obtain ⟨-, hcompiles⟩ := hpinned hkeeps (by decide +kernel)
    obtain ⟨hrefused, -⟩ := hcompiles "1" compilesWith_slot
    exact hrefused (by decide +kernel)

/-- A box whose code is the word for NULL has the items that are in no box, and one whose code is
the placeholder of its label has those of the box with the label for its code. -/
theorem childPlan_not_coded :
    Registry.build [boxesConfig, itemsConfig] = .ok service.registry ∧
      ofBox.Pins items box "box" "code" ∧
      (∃ plan, service.childPlan boxes "items" (coded "NULL") = .ok (some (items, plan)) ∧
        plan.select.Requires .postgres (box.isNull .postgres) ∧
        ¬ plan.select.Requires .postgres (box.isValue .postgres (.text "NULL"))) ∧
      ∃ plan, service.childPlan boxes "items" (coded "\x7blabel\x7d") = .ok (some (items, plan)) ∧
        plan.select.Requires .postgres (box.isValue .postgres (.text "old")) ∧
        ¬ plan.select.Requires .postgres (box.isValue .postgres (.text "\x7blabel\x7d")) := by
  have hplan {code : String} {asked other : List Fragment}
      (h : (service.childPlan boxes "items" (coded code)).toOption.any (fun x =>
        x.any fun (t, plan) => decide (t = items ∧ plan.select.Requires .postgres asked ∧
          ¬ plan.select.Requires .postgres other)) = true) :
      ∃ plan, service.childPlan boxes "items" (coded code) = .ok (some (items, plan)) ∧
        plan.select.Requires .postgres asked ∧ ¬ plan.select.Requires .postgres other := by
    obtain ⟨_ | ⟨t, plan⟩, hx, hparts⟩ := exists_eq_ok h
    · cases hparts
    · obtain ⟨rfl, hrequires⟩ := of_decide_eq_true hparts
      exact ⟨plan, hx, hrequires⟩
  exact ⟨build_eq, pins_box, hplan (by decide +kernel), hplan (by decide +kernel)⟩

end Boxes

end EntityRest
