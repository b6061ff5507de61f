import EntityRest.Text.Blank
import Mathlib.Data.List.Basic

/-! # Words and collapsed texts

A collapsed text has the words of the text, so that texts collapse to the same text exactly if they
have the same words in the same order. -/

namespace EntityRest

namespace Chars

/-- A word has characters, none of them blank. -/
structure IsRun (w : List Char) : Prop where
  ne_nil : w ≠ []
  not_blank : ∀ c ∈ w, isBlank c = false

theorem isRun_of_mem_wordsFrom {run s w : List Char} (hrun : ∀ c ∈ run, isBlank c = false)
    (hw : w ∈ wordsFrom run s) : IsRun w := by
  induction s generalizing run with
  | nil =>
      unfold wordsFrom at hw
      split at hw
      · cases hw
      · rename_i hne
        rw [List.mem_singleton.mp hw]
        exact ⟨by simpa using hne, hrun⟩
  | cons c s ih =>
      unfold wordsFrom at hw
      split at hw
      · split at hw
        · exact ih (by simp) hw
        · rename_i hne
          rcases List.mem_cons.mp hw with rfl | hw
          · exact ⟨by simpa using hne, hrun⟩
          · exact ih (by simp) hw
      · rename_i hc
        exact ih (by simpa [or_imp, forall_and, hc] using hrun) hw

theorem isRun_of_mem_words {s w : List Char} (hw : w ∈ words s) : IsRun w :=
  isRun_of_mem_wordsFrom (by simp) hw

theorem wordsFrom_append {w : List Char} (hw : ∀ c ∈ w, isBlank c = false) (run rest : List Char) :
    wordsFrom run (w ++ rest) = wordsFrom (run ++ w) rest := by
  induction w generalizing run with
  | nil => simp
  | cons c w ih =>
      obtain ⟨hc, hw⟩ := List.forall_mem_cons.mp hw
      rw [List.cons_append, wordsFrom, if_neg (by simp [hc]), ih hw, List.append_assoc]
      rfl

theorem words_intercalate {ws : List (List Char)} (hws : ∀ w ∈ ws, IsRun w) :
    words ([' '].intercalate ws) = ws := by
  induction ws with
  | nil => rfl
  | cons w ws ih =>
      obtain ⟨hw, hws⟩ := List.forall_mem_cons.mp hws
      have hrun : w.isEmpty = false := List.isEmpty_eq_false_iff.mpr hw.ne_nil
      cases ws with
      | nil =>
          have hlast := wordsFrom_append hw.not_blank [] []
          rw [List.append_nil, List.nil_append] at hlast
          simpa [words, hlast, wordsFrom] using hw.ne_nil
      | cons w' ws =>
          have hspace : isBlank ' ' = true := by decide
          rw [List.intercalate_cons_cons, words, List.append_assoc,
            wordsFrom_append hw.not_blank, List.nil_append, List.singleton_append, wordsFrom,
            if_pos hspace, if_neg (by simp [hrun])]
          exact congrArg (List.cons w) (ih hws)

end Chars

namespace Text

theorem toList_collapse (s : String) :
    (collapse s).toList = [' '].intercalate (Chars.words s.toList) := by
  rw [collapse, String.toList_intercalate, List.map_map]
  simp

theorem words_collapse (s : String) : Chars.words (collapse s).toList = Chars.words s.toList := by
  rw [toList_collapse]
  exact Chars.words_intercalate fun _ => Chars.isRun_of_mem_words

/-- Texts collapse to one text exactly if they have the same words. -/
theorem collapse_eq_iff {s t : String} :
    collapse s = collapse t ↔ Chars.words s.toList = Chars.words t.toList := by
  constructor
  · intro h
    rw [← words_collapse s, h, words_collapse]
  · intro h
    rw [collapse, h, collapse]

end Text

end EntityRest
