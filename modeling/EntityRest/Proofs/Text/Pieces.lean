import EntityRest.Proofs.Text.Split
import EntityRest.Text.Blank
import Mathlib.Data.List.DropRight

/-! # Trimmed pieces

What is left of a text when the blanks at both ends are dropped is a part of it with no blank at
either end. Such pieces come back when a text that has separators and blanks between them is split
and its pieces are trimmed. -/

namespace EntityRest

namespace Chars

/-! ## Blanks at the ends -/

/-- No blank at either end. -/
def Tight (s : List Char) : Prop :=
  (∀ c ∈ s.head?, isBlank c = false) ∧ ∀ c ∈ s.getLast?, isBlank c = false

theorem tight_nil : Tight [] := by
  constructor <;> simp

theorem tight_of_forall {s : List Char} (h : ∀ c ∈ s, isBlank c = false) : Tight s :=
  ⟨fun c hc => h c (List.mem_of_mem_head? hc), fun c hc => h c (List.mem_of_mem_getLast? hc)⟩

theorem trimRight_concat (s : List Char) (c : Char) :
    trimRight (s ++ [c]) = if isBlank c then trimRight s else s ++ [c] := by
  induction s with
  | nil => rfl
  | cons x s ih =>
      rw [List.cons_append, trimRight, ih, trimRight]
      by_cases hc : isBlank c = true
      · rw [if_pos hc, if_pos hc]
      · rw [if_neg hc, if_neg hc]
        obtain ⟨y, t, hs⟩ := List.exists_cons_of_ne_nil (List.concat_ne_nil c s)
        rw [hs]

theorem trimRight_eq_rdropWhile (s : List Char) : trimRight s = s.rdropWhile isBlank := by
  induction s using List.reverseRecOn with
  | nil => simp [trimRight]
  | append_singleton s c ih => rw [trimRight_concat, List.rdropWhile_concat, ih]

theorem trim_eq (s : List Char) : trim s = (s.dropWhile isBlank).rdropWhile isBlank := by
  rw [trim, trimLeft, trimRight_eq_rdropWhile]

theorem exists_eq_append_trim (s : List Char) :
    ∃ l r, s = l ++ trim s ++ r ∧ (∀ c ∈ l, isBlank c = true) ∧ ∀ c ∈ r, isBlank c = true := by
  refine ⟨s.takeWhile isBlank, (s.dropWhile isBlank).rtakeWhile isBlank, ?_, ?_, ?_⟩
  · rw [trim_eq, List.append_assoc, List.rdropWhile_append_rtakeWhile,
      List.takeWhile_append_dropWhile]
  · exact fun c hc => List.mem_takeWhile_imp hc
  · exact fun c hc => List.mem_rtakeWhile_imp hc

theorem trim_isInfix (s : List Char) : trim s <:+: s := by
  obtain ⟨l, r, hs, -, -⟩ := exists_eq_append_trim s
  exact ⟨l, r, hs.symm⟩

theorem tight_trim (s : List Char) : Tight (trim s) := by
  rw [trim_eq]
  constructor
  · intro c hc
    obtain ⟨rest, hrest⟩ := List.rdropWhile_prefix isBlank (s.dropWhile isBlank)
    have hhead : c ∈ (s.dropWhile isBlank).head? := by
      rw [← hrest, List.head?_append, Option.mem_def.mp hc]
      rfl
    have hnot := List.head?_dropWhile_not isBlank s
    rwa [Option.mem_def.mp hhead] at hnot
  · intro c hc
    obtain ⟨hne, rfl⟩ := List.mem_getLast?_eq_getLast hc
    exact Bool.eq_false_iff.mpr (List.rdropWhile_last_not isBlank _ hne)

theorem trim_append {l s r : List Char} (hs : Tight s) (hl : ∀ c ∈ l, isBlank c = true)
    (hr : ∀ c ∈ r, isBlank c = true) : trim (l ++ s ++ r) = s := by
  obtain ⟨hhead, hlast⟩ := hs
  have hright : (s ++ r).rdropWhile isBlank = s := by
    rw [List.rdropWhile, List.reverse_append, List.dropWhile_append_of_pos (by simpa using hr),
      ← List.rdropWhile, List.rdropWhile_eq_self_iff]
    exact fun hne => Bool.eq_false_iff.mp (hlast _ (List.getLast?_eq_some_getLast hne))
  rw [trim_eq, List.append_assoc, List.dropWhile_append_of_pos hl]
  cases s with
  | nil =>
      rw [List.nil_append, List.dropWhile_eq_nil_iff.mpr hr, List.rdropWhile_nil]
  | cons c s =>
      have hc := Bool.eq_false_iff.mp (hhead c rfl)
      rwa [List.cons_append, List.dropWhile_cons_of_neg hc, ← List.cons_append]

theorem trim_of_tight {s : List Char} (hs : Tight s) : trim s = s := by
  simpa using trim_append (l := []) (r := []) hs (by simp) (by simp)

theorem Tight.append {s t : List Char} (hs : Tight s) (ht : Tight t) (hne : s ≠ []) (hne' : t ≠ [])
    (mid : List Char) : Tight (s ++ mid ++ t) := by
  refine ⟨fun c hc => hs.1 c ?_, fun c hc => ht.2 c ?_⟩
  · rwa [List.append_assoc, List.head?_append_of_ne_nil s hne] at hc
  · rwa [List.getLast?_append_of_ne_nil _ hne'] at hc

theorem Tight.intercalate (mid : List Char) {pieces : List (List Char)}
    (h : ∀ p ∈ pieces, Tight p ∧ p ≠ []) :
    Tight (mid.intercalate pieces) ∧ (pieces ≠ [] → mid.intercalate pieces ≠ []) := by
  induction pieces with
  | nil => exact ⟨by simpa using tight_nil, fun hne => absurd rfl hne⟩
  | cons p pieces ih =>
      obtain ⟨⟨hp, hne⟩, hpieces⟩ := List.forall_mem_cons.mp h
      cases pieces with
      | nil =>
          rw [List.intercalate_singleton]
          exact ⟨hp, fun _ => hne⟩
      | cons p' pieces =>
          obtain ⟨htight, hne'⟩ := ih hpieces
          rw [List.intercalate_cons_cons]
          exact ⟨hp.append htight hne (hne' (List.cons_ne_nil p' pieces)) mid, by simp [hne]⟩

/-- Blanks before a character inside a text are no end of it. -/
theorem Tight.trim_append_cons {s t : List Char} {c : Char} (hc : isBlank c = false)
    (h : Tight (s ++ c :: t)) : Tight (trim s ++ c :: t) := by
  constructor
  · intro x hx
    cases htrim : trim s with
    | nil =>
        rw [htrim] at hx
        obtain rfl := Option.some.inj hx
        exact hc
    | cons y r =>
        rw [htrim] at hx
        obtain rfl := Option.some.inj hx
        exact (tight_trim s).1 y (by rw [htrim]; rfl)
  · intro x hx
    rw [List.getLast?_append_of_ne_nil _ (List.cons_ne_nil c t)] at hx
    exact h.2 x (by rwa [List.getLast?_append_of_ne_nil _ (List.cons_ne_nil c t)])

/-! ## Splitting and trimming -/

/-- Tight pieces that were joined with separators and blanks come back, if no separator is seen in
or across them before its place. -/
theorem map_trim_splitText {sep pad : List Char} (hpad : ∀ c ∈ pad, isBlank c = true)
    {pieces : List (List Char)} (hne : pieces ≠ [])
    (h : ∀ p ∈ pieces, Tight p ∧ ¬ sep <:+: pad ++ p ++ pad ++ sep.dropLast) :
    (splitText sep ((pad ++ sep ++ pad).intercalate pieces)).map trim = pieces := by
  -- behind a separator the rest starts with blanks
  have hlead (lead : List Char) (hlead : lead <:+ pad) :
      (splitText sep (lead ++ (pad ++ sep ++ pad).intercalate pieces)).map trim = pieces := by
    induction pieces generalizing lead with
    | nil => exact absurd rfl hne
    | cons p pieces ih =>
        obtain ⟨⟨hp, hfree⟩, hpieces⟩ := List.forall_mem_cons.mp h
        have hblank : ∀ c ∈ lead, isBlank c = true := fun c hc => hpad c (hlead.subset hc)
        have hpart : lead ++ p ++ pad ++ sep.dropLast <:+: pad ++ p ++ pad ++ sep.dropLast := by
          obtain ⟨more, rfl⟩ := hlead
          exact ⟨more, [], by simp⟩
        have hcut : ¬ sep <:+: lead ++ p ++ pad ++ sep.dropLast :=
          fun hin => hfree (hin.trans hpart)
        cases pieces with
        | nil =>
            have hwhole : ¬ sep <:+: lead ++ p := fun hin =>
              hcut (hin.trans ⟨[], pad ++ sep.dropLast, by simp⟩)
            rw [List.intercalate_singleton, splitText_eq_singleton hwhole, List.map_singleton,
              ← List.append_nil (lead ++ p), trim_append hp hblank (by simp)]
        | cons p' pieces =>
            have hjoin : lead ++ (pad ++ sep ++ pad).intercalate (p :: p' :: pieces) =
                lead ++ p ++ pad ++ sep ++
                  (pad ++ (pad ++ sep ++ pad).intercalate (p' :: pieces)) := by
              simp only [List.intercalate_cons_cons, List.append_assoc]
            rw [hjoin, splitText_append hcut, List.map_cons, trim_append hp hblank hpad,
              ih (List.cons_ne_nil p' pieces) hpieces pad (List.suffix_refl pad)]
  exact hlead [] List.nil_suffix

end Chars

namespace Text

/-! ## Pieces -/

/-- What a list with such a separator holds: texts that are tight and do not hold the separator. -/
structure IsPiece (sep s : String) : Prop where
  ne : s ≠ ""
  tight : Chars.Tight s.toList
  free : ¬ sep.toList <:+: s.toList

theorem toList_trim (s : String) : (trim s).toList = Chars.trim s.toList :=
  String.toList_ofList

theorem tight_trim (s : String) : Chars.Tight (trim s).toList := by
  rw [toList_trim]
  exact Chars.tight_trim s.toList

theorem trim_isInfix (s : String) : (trim s).toList <:+: s.toList := by
  rw [toList_trim]
  exact Chars.trim_isInfix s.toList

theorem trim_trim (s : String) : trim (trim s) = trim s := by
  apply String.toList_injective
  rw [toList_trim, Chars.trim_of_tight (tight_trim s)]

theorem IsPiece.trim {sep s part : String} (h : IsPiece sep s) (hpart : part.toList <:+: s.toList)
    (hne : trim part ≠ "") : IsPiece sep (trim part) :=
  ⟨hne, tight_trim part, fun hin => h.free (hin.trans ((trim_isInfix part).trans hpart))⟩

theorem IsPiece.not_mem {c : Char} {sep s : String} (h : IsPiece sep s) (hsep : sep.toList = [c]) :
    c ∉ s.toList := by
  have hfree := h.free
  rwa [hsep, List.singleton_infix_iff] at hfree

end Text

end EntityRest
