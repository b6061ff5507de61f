import EntityRest.Proofs.Text.Pieces
import EntityRest.Schema.FieldTag

/-! # Source annotations

An expression is read back from the annotation that has flags behind it. Flags are taken off from the
end, so that nothing inside the expression is mistaken for one. -/

namespace EntityRest.FieldTag

inductive Flag where
  | hide
  | group
deriving DecidableEq

def Flag.word : Flag → String
  | hide => "hide"
  | group => "group"

/-- A flag as it may stand in an annotation, with blanks around its word. -/
structure FlagText where
  flag : Flag
  before : String
  after : String
  blank_before : before.toList.all Chars.isBlank = true
  blank_after : after.toList.all Chars.isBlank = true

def FlagText.text (f : FlagText) : String := f.before ++ f.flag.word ++ f.after

/-! ## The text of a flag -/

theorem Flag.solid_word (flag : Flag) {c : Char} (hc : c ∈ flag.word.toList) :
    Chars.isBlank c = false ∧ c ≠ ',' := by
  have hall : flag.word.toList.all (fun c => !Chars.isBlank c && c != ',') = true := by
    cases flag <;> decide +kernel
  simpa using List.all_eq_true.mp hall c hc

namespace FlagText

theorem trim_text (f : FlagText) : Text.trim f.text = f.flag.word := by
  apply String.toList_injective
  have htight : Chars.Tight f.flag.word.toList :=
    Chars.tight_of_forall fun c hc => (f.flag.solid_word hc).1
  rw [Text.toList_trim, text, String.toList_append, String.toList_append]
  exact Chars.trim_append htight (List.all_eq_true.mp f.blank_before)
    (List.all_eq_true.mp f.blank_after)

theorem comma_notMem (f : FlagText) : ',' ∉ f.text.toList := by
  have hblank : Chars.isBlank ',' = false := by decide
  intro hmem
  simp only [text, String.toList_append, List.mem_append] at hmem
  rcases hmem with (hmem | hmem) | hmem
  · simp [List.all_eq_true.mp f.blank_before _ hmem] at hblank
  · exact (f.flag.solid_word hmem).2 rfl
  · simp [List.all_eq_true.mp f.blank_after _ hmem] at hblank

end FlagText

/-! ## Taking flags off -/

/-- One flag in front of other parts is taken off and noted. -/
theorem takeFlags_flag (f : FlagText) {parts : List String} (hne : parts ≠ []) :
    takeFlags (f.text :: parts) =
      ((takeFlags parts).1, (f.flag = .hide || (takeFlags parts).2.1),
        (f.flag = .group || (takeFlags parts).2.2)) := by
  obtain ⟨part, parts, rfl⟩ := List.exists_cons_of_ne_nil hne
  rw [takeFlags, f.trim_text]
  cases f.flag with
  | hide => simp [Flag.word]
  | group => simp [Flag.word]

/-- A part that is no flag stops the loop, and so does the last part that is left. -/
theorem takeFlags_eq_self {part : String} {parts : List String}
    (h : parts ≠ [] → ∀ flag : Flag, Text.trim part ≠ flag.word) :
    takeFlags (part :: parts) = (part :: parts, false, false) := by
  cases parts with
  | nil => rfl
  | cons part' parts =>
      have hhide := h (List.cons_ne_nil part' parts) .hide
      have hgroup := h (List.cons_ne_nil part' parts) .group
      simp only [Flag.word] at hhide hgroup
      simp [takeFlags, hhide, hgroup]

theorem takeFlags_append (flags : List FlagText) {parts : List String} (hne : parts ≠ []) :
    takeFlags (flags.map FlagText.text ++ parts) =
      ((takeFlags parts).1, (Flag.hide ∈ flags.map FlagText.flag || (takeFlags parts).2.1),
        (Flag.group ∈ flags.map FlagText.flag || (takeFlags parts).2.2)) := by
  induction flags with
  | nil => simp
  | cons f flags ih =>
      rw [List.map_cons, List.cons_append, takeFlags_flag f (by simp [hne]), ih]
      simp [eq_comm, Bool.or_assoc]

/-! ## Reading an annotation -/

/-- What can stand in front of flags: no blank is at its ends, and its last part is no flag, if it
has more parts than one. -/
structure IsExpression (expr : String) : Prop where
  trimmed : Text.trim expr = expr
  ends : 1 < (Text.splitChar ',' expr).length → ∀ last ∈ (Text.splitChar ',' expr).getLast?,
    ∀ flag : Flag, Text.trim last ≠ flag.word

/-- No flag is taken off an expression. -/
theorem IsExpression.takeFlags_reverse {expr : String} (h : IsExpression expr) :
    takeFlags (Text.splitChar ',' expr).reverse =
      ((Text.splitChar ',' expr).reverse, false, false) := by
  obtain ⟨last, before, hparts⟩ : ∃ last before,
      (Text.splitChar ',' expr).reverse = last :: before :=
    List.exists_cons_of_ne_nil (by simp [Text.splitChar_ne_nil])
  have hsplit : Text.splitChar ',' expr = before.reverse ++ [last] := by
    rw [← List.reverse_reverse (Text.splitChar ',' expr), hparts, List.reverse_cons]
  rw [hparts]
  apply takeFlags_eq_self
  intro hbefore
  apply h.ends
  · have hpos := List.length_pos_iff.mpr hbefore
    simp [hsplit, hpos]
  · simp [hsplit]

theorem splitChar_flagged (expr : String) (flags : List FlagText) :
    Text.splitChar ',' (",".intercalate (expr :: flags.map FlagText.text)) =
      Text.splitChar ',' expr ++ flags.map FlagText.text := by
  have hfree : ∀ p ∈ flags.map fun f => f.text.toList, ',' ∉ p := by
    simpa using fun f _ => f.comma_notMem
  have hchars := Chars.splitChar_intercalate_cons expr.toList hfree
  simp [Text.splitChar, String.toList_intercalate, Function.comp_def, hchars]

/-- An expression with flags behind it is read back as it was written, whatever commas, blanks and
words it has inside, and a flag is noted exactly if it is there. -/
theorem source_annotated {expr : String} (h : IsExpression expr) (flags : List FlagText) :
    source (",".intercalate (expr :: flags.map FlagText.text)) =
      ⟨expr, Flag.hide ∈ flags.map FlagText.flag, Flag.group ∈ flags.map FlagText.flag⟩ := by
  have hne : (Text.splitChar ',' expr).reverse ≠ [] := by
    simp [Text.splitChar_ne_nil]
  have hparts : takeFlags
      (Text.splitChar ',' (",".intercalate (expr :: flags.map FlagText.text))).reverse =
        ((Text.splitChar ',' expr).reverse, decide (Flag.hide ∈ flags.map FlagText.flag),
          decide (Flag.group ∈ flags.map FlagText.flag)) := by
    rw [splitChar_flagged, List.reverse_append, ← List.map_reverse, takeFlags_append _ hne,
      h.takeFlags_reverse]
    simp
  have hjoin : ",".intercalate (Text.splitChar ',' expr) = expr :=
    Text.intercalate_splitChar ',' expr
  rw [source, hparts]
  simp [hjoin, h.trimmed]

theorem source_concat :
    IsExpression "concat(a.hide, group , b.group)" ∧
      source "concat(a.hide, group , b.group), hide,hide\t" =
        ⟨"concat(a.hide, group , b.group)", true, false⟩ := by
  have hexpr : IsExpression "concat(a.hide, group , b.group)" := by
    refine ⟨by decide +kernel, fun _ last hlast flag => ?_⟩
    have hsplit : (Text.splitChar ',' "concat(a.hide, group , b.group)").getLast? =
        some " b.group)" := by decide +kernel
    obtain rfl := Option.some.inj (hsplit.symm.trans hlast)
    cases flag <;> decide +kernel
  have hread := source_annotated hexpr
    [⟨.hide, " ", "", by decide +kernel, by decide +kernel⟩,
      ⟨.hide, "", "\t", by decide +kernel, by decide +kernel⟩]
  exact ⟨hexpr, hread⟩

end EntityRest.FieldTag
