import EntityRest.Proofs.Text.Split
import EntityRest.Query.Template
import Mathlib.Data.List.TakeWhile

/-! # Filled templates

A pair of a template whose value is one placeholder gets the text of the parent's value. The
placeholders that stand later in the template are then looked for in that text as well, so it stays
as it is only if it holds none of them. -/

namespace EntityRest

namespace Expr

theorem brace_notMem_placeholderChars {s p : List Char} (h : p ∈ placeholderChars s) :
    '\x7b' ∉ p ∧ '\x7d' ∉ p := by
  induction s with
  | nil => cases h
  | cons c s ih =>
      have hhead : placeholder? s = some p → '\x7b' ∉ p ∧ '\x7d' ∉ p := by
        intro hp
        have hrun : p = s.takeWhile fun c => Chars.isWord c || c = '.' := by
          unfold placeholder? at hp
          split at hp
          · simp only [Option.ite_none_right_eq_some, Option.some.injEq] at hp
            exact hp.2.symm
          · cases hp
        subst hrun
        constructor <;> intro hmem <;>
          exact absurd (List.mem_takeWhile_imp hmem) (by decide)
      rw [placeholderChars] at h
      split at h
      · split at h
        · rename_i q hq
          rcases List.mem_cons.mp h with rfl | hrest
          · exact hhead hq
          · exact ih hrest
        · exact ih h
      · exact ih h

end Expr

namespace Child

variable {c : Child} {row : Entries Json} {p q k value text : String} {ps : List String} {v : Json}

/-- A placeholder as it stands in a template. -/
def token (p : String) : String := "\x7b" ++ p ++ "\x7d"

theorem toList_token (p : String) : (token p).toList = '\x7b' :: p.toList ++ ['\x7d'] := by
  simp [token]

theorem brace_notMem_placeholders (h : p ∈ c.placeholders) :
    '\x7b' ∉ p.toList ∧ '\x7d' ∉ p.toList := by
  obtain ⟨cs, hcs, rfl⟩ := List.mem_map.mp h
  rw [String.toList_ofList]
  exact Expr.brace_notMem_placeholderChars hcs

/-- In one placeholder no other one occurs. -/
theorem contains_token_iff (hp : '\x7b' ∉ p.toList ∧ '\x7d' ∉ p.toList)
    (hq : '\x7b' ∉ q.toList ∧ '\x7d' ∉ q.toList) :
    Text.contains (token q) (token p) = true ↔ q = p := by
  rw [Text.contains_iff]
  constructor
  · rintro ⟨l, r, h⟩
    rw [toList_token, toList_token] at h
    cases l with
    | cons x l =>
        -- a second opening brace would be inside the name
        have htail : l ++ ('\x7b' :: q.toList ++ ['\x7d']) ++ r = p.toList ++ ['\x7d'] :=
          (List.cons.inj h).2
        have hmem : '\x7b' ∈ p.toList ++ ['\x7d'] := by
          rw [← htail]
          simp
        simp [hp.1] at hmem
    | nil =>
        have htail : q.toList ++ '\x7d' :: r = p.toList ++ '\x7d' :: [] := by simpa using h
        have hcut := Chars.cutFirst?_singleton_eq_some (l := q.toList) (r := r)
          |>.mpr ⟨rfl, hq.2⟩
        have hcut' := Chars.cutFirst?_singleton_eq_some.mpr ⟨htail, hp.2⟩
        exact String.toList_inj.mp (Prod.mk.inj (Option.some.inj (hcut.symm.trans hcut'))).1
  · rintro rfl
    exact List.infix_refl _

/-! ## Filling in -/

theorem fill_cons (row : Entries Json) (p : String) (ps : List String) (value : String) :
    fill row (p :: ps) value =
      if Text.contains (token p) value then
        (templateText? (row.get? p)).bind fun text =>
          fill row ps (String.ofList (Chars.replace (token p).toList text.toList value.toList))
      else fill row ps value := by
  simp only [fill, token]
  cases templateText? (row.get? p) <;> rfl

theorem fill_cons_of_not_contains (h : ¬ Text.contains (token p) value = true) :
    fill row (p :: ps) value = fill row ps value := by
  rw [fill_cons, if_neg h]

theorem fill_eq_self (h : ∀ p ∈ ps, ¬ Text.contains (token p) value = true) :
    fill row ps value = some value := by
  induction ps with
  | nil => rfl
  | cons p ps ih =>
      obtain ⟨hp, hps⟩ := List.forall_mem_cons.mp h
      rw [fill_cons_of_not_contains hp, ih hps]

theorem templateText?_eq_some (hv : v ≠ .null) : templateText? (some v) = some v.plain := by
  cases v with
  | null => exact absurd rfl hv
  | _ => rfl

/-- What stands behind the first occurrence of an item. -/
def behind (p : String) (ps : List String) : List String := (ps.dropWhile (· ≠ p)).tail

theorem fill_token_self (hrow : row.get? p = some v) (hv : v ≠ .null) :
    fill row (p :: ps) (token p) = fill row ps v.plain := by
  have hcontains : Text.contains (token p) (token p) = true :=
    Text.contains_iff.mpr (List.infix_refl _)
  have hne : (token p).toList ≠ [] := by
    rw [toList_token]
    exact List.cons_ne_nil _ _
  rw [fill_cons, if_pos hcontains, hrow, templateText?_eq_some hv, Option.bind_some,
    Chars.replace_self hne, String.ofList_toList]

/-- One placeholder is filled with the text of its value, in which the later ones are filled in. -/
theorem fill_token (hps : ∀ q ∈ ps, '\x7b' ∉ q.toList ∧ '\x7d' ∉ q.toList) (hp : p ∈ ps)
    (hrow : row.get? p = some v) (hv : v ≠ .null) :
    fill row ps (token p) = fill row (behind p ps) v.plain := by
  induction ps with
  | nil => cases hp
  | cons q ps ih =>
      obtain ⟨hq, hrest⟩ := List.forall_mem_cons.mp hps
      by_cases hqp : q = p
      · subst hqp
        rw [fill_token_self hrow hv, behind, List.dropWhile_cons_of_neg (by simp), List.tail_cons]
      · have hmem : p ∈ ps := (List.mem_cons.mp hp).resolve_left (Ne.symm hqp)
        have hnot : ¬ Text.contains (token q) (token p) = true :=
          fun h => hqp ((contains_token_iff (hps p hp) hq).mp h)
        rw [fill_cons_of_not_contains hnot, ih hrest hmem, behind, behind,
          List.dropWhile_cons_of_pos (by simpa using hqp)]

/-- The text that a placeholder of the template gives, from the text of the parent's value: the
placeholders behind it are filled in once more. -/
def refill (c : Child) (row : Entries Json) (p text : String) : Option String :=
  fill row (behind p c.placeholders) text

/-- No placeholder behind this one occurs in the text. -/
def Keeps (c : Child) (p text : String) : Prop :=
  ∀ q ∈ behind p c.placeholders, ¬ Text.contains (token q) text = true

theorem refill_of_keeps (h : c.Keeps p text) (row : Entries Json) :
    c.refill row p text = some text :=
  fill_eq_self h

/-- Pairs of a template with the values of a parent row. -/
def fillPairs (c : Child) (row : Entries Json) (pairs : Pairs) : Option Pairs :=
  pairs.mapM fun (key, value) => (fill row c.placeholders value).map fun v => (key, v)

theorem instantiate_eq (c : Child) (row : Entries Json) :
    c.instantiate row = c.fillPairs row (splitPairs c.filter) :=
  rfl

theorem fillPairs_middle (c : Child) (row : Entries Json) (pre post : Pairs) (key value : String) :
    c.fillPairs row (pre ++ (key, value) :: post) =
      (c.fillPairs row pre).bind fun front => (fill row c.placeholders value).bind fun text =>
        (c.fillPairs row post).map fun back => front ++ (key, text) :: back := by
  simp only [fillPairs, List.mapM_append, List.mapM_cons, Option.bind_eq_bind]
  cases hfill : fill row c.placeholders value with
  | none => simp
  | some text =>
      simp only [Option.bind_some, Option.bind_assoc, Option.pure_def, Option.map_eq_bind,
        Function.comp_def]

end Child

end EntityRest
