import EntityRest.Text.Split
import Mathlib.Data.List.Basic
import Mathlib.Data.List.Infix

/-! # Splitting what was joined

Pieces that do not hold the separator come back when a text that has it between them is split. -/

namespace EntityRest

namespace Chars

/-! ## Splitting at one character -/

theorem splitChar_ne_nil (c : Char) (s : List Char) : splitChar c s ≠ [] := by
  cases s with
  | nil => simp [splitChar]
  | cons x s =>
      by_cases hx : x = c
      · simp [splitChar, hx]
      · cases h : splitChar c s <;> simp [splitChar, hx, h, consFirst]

theorem splitChar_eq_singleton {c : Char} {s : List Char} (h : c ∉ s) : splitChar c s = [s] := by
  induction s with
  | nil => rfl
  | cons x s ih =>
      have hx : c ≠ x := List.ne_of_not_mem_cons h
      have hs : c ∉ s := List.not_mem_of_not_mem_cons h
      rw [splitChar, if_neg hx.symm, ih hs]
      rfl

theorem splitChar_append_cons (c : Char) (s rest : List Char) :
    splitChar c (s ++ c :: rest) = splitChar c s ++ splitChar c rest := by
  induction s with
  | nil => simp [splitChar]
  | cons x s ih =>
      rw [List.cons_append, splitChar, splitChar, ih]
      by_cases hx : x = c
      · rw [if_pos hx, if_pos hx, List.cons_append]
      · obtain ⟨p, ps, hpieces⟩ := List.exists_cons_of_ne_nil (splitChar_ne_nil c s)
        rw [if_neg hx, if_neg hx, hpieces]
        rfl

theorem splitChar_append {c : Char} {s : List Char} (h : c ∉ s) (rest : List Char) :
    splitChar c (s ++ c :: rest) = s :: splitChar c rest := by
  rw [splitChar_append_cons, splitChar_eq_singleton h, List.singleton_append]

theorem splitChar_intercalate {c : Char} {pieces : List (List Char)} (hne : pieces ≠ [])
    (h : ∀ p ∈ pieces, c ∉ p) : splitChar c ([c].intercalate pieces) = pieces := by
  induction pieces with
  | nil => exact absurd rfl hne
  | cons p pieces ih =>
      obtain ⟨hp, hpieces⟩ := List.forall_mem_cons.mp h
      cases pieces with
      | nil => rw [List.intercalate_singleton, splitChar_eq_singleton hp]
      | cons p' pieces =>
          rw [List.intercalate_cons_cons, List.append_assoc, List.singleton_append,
            splitChar_append hp, ih (List.cons_ne_nil p' pieces) hpieces]

theorem splitChar_intercalate_cons {c : Char} (s : List Char) {pieces : List (List Char)}
    (h : ∀ p ∈ pieces, c ∉ p) :
    splitChar c ([c].intercalate (s :: pieces)) = splitChar c s ++ pieces := by
  cases pieces with
  | nil => simp
  | cons p pieces =>
      rw [List.intercalate_cons_cons, List.append_assoc, List.singleton_append,
        splitChar_append_cons, splitChar_intercalate (List.cons_ne_nil p pieces) h]

theorem intercalate_splitChar (c : Char) (s : List Char) :
    [c].intercalate (splitChar c s) = s := by
  induction s with
  | nil => simp [splitChar]
  | cons x s ih =>
      obtain ⟨p, ps, hpieces⟩ := List.exists_cons_of_ne_nil (splitChar_ne_nil c s)
      rw [hpieces] at ih
      by_cases hx : x = c
      · rw [splitChar, if_pos hx, hpieces, List.intercalate_cons_cons, ih, hx]
        simp
      · rw [splitChar, if_neg hx, hpieces, consFirst]
        cases ps with
        | nil => simpa using ih
        | cons p' ps => simpa [List.intercalate_cons_cons] using ih

theorem mem_intercalate_of_ne {c x : Char} (hx : x ≠ c) {pieces : List (List Char)} :
    x ∈ [c].intercalate pieces ↔ ∃ p ∈ pieces, x ∈ p := by
  induction pieces with
  | nil => simp
  | cons p pieces ih =>
      cases pieces with
      | nil => simp
      | cons p' pieces => simp [List.intercalate_cons_cons, ih, hx]

theorem splitText_singleton (c : Char) (s : List Char) : splitText [c] s = splitChar c s := by
  unfold splitText
  induction s with
  | nil => rfl
  | cons x s ih =>
      by_cases hx : x = c
      · subst hx
        simp [splitTextFrom, splitChar, ih]
      · simp [splitTextFrom, splitChar, ih, hx, Ne.symm hx]

/-! ## Splitting at a separator -/

section Separator

variable {sep : List Char}

theorem splitTextFrom_eq (n : Nat) (s : List Char) :
    splitTextFrom sep n s = splitText sep (s.drop n) := by
  induction n generalizing s with
  | zero => rfl
  | succ n ih =>
      cases s with
      | nil => rfl
      | cons c s => exact ih s

theorem splitText_append_left (hsep : sep ≠ []) (s : List Char) :
    splitText sep (sep ++ s) = [] :: splitText sep s := by
  obtain ⟨c, sep, rfl⟩ := List.exists_cons_of_ne_nil hsep
  rw [List.cons_append, splitText, splitTextFrom, if_pos (by simp), splitTextFrom_eq]
  simp

theorem splitText_cons {c : Char} {s : List Char} (h : ¬ sep <+: c :: s) :
    splitText sep (c :: s) = consFirst c (splitText sep s) := by
  rw [splitText, splitTextFrom, if_neg (by simpa using h)]
  rfl

theorem splitText_eq_singleton {s : List Char} (h : ¬ sep <:+: s) : splitText sep s = [s] := by
  induction s with
  | nil => rfl
  | cons c s ih =>
      obtain ⟨hstarts, hinfix⟩ := not_or.mp (List.infix_cons_iff.not.mp h)
      rw [splitText_cons hstarts, ih hinfix]
      rfl

/-- The first piece ends at the first separator. -/
theorem splitText_append {p : List Char} (h : ¬ sep <:+: p ++ sep.dropLast) (rest : List Char) :
    splitText sep (p ++ sep ++ rest) = p :: splitText sep rest := by
  have hsep : sep ≠ [] := fun hnil => h (hnil ▸ List.nil_infix)
  induction p with
  | nil => exact splitText_append_left hsep rest
  | cons c p ih =>
      rw [List.cons_append] at h
      obtain ⟨hstarts, hinfix⟩ := not_or.mp (List.infix_cons_iff.not.mp h)
      -- a separator that starts here would end before the one that is meant
      have hnot : ¬ sep <+: c :: (p ++ sep ++ rest) := by
        intro hstart
        refine hstarts (List.prefix_of_prefix_length_le hstart ?_ ?_)
        · refine (List.prefix_cons_inj c).mpr (.trans ?_ (List.prefix_append (p ++ sep) rest))
          exact (List.prefix_append_right_inj p).mpr (List.dropLast_prefix sep)
        · simp only [List.length_cons, List.length_append, List.length_dropLast]
          omega
      rw [List.cons_append, List.cons_append, splitText_cons hnot, ih hinfix]
      rfl

/-- The first piece starts the text, every piece is a part of the text, and none holds the
separator. -/
theorem splitText_spec (hsep : sep ≠ []) (s : List Char) :
    ∃ p ps, splitText sep s = p :: ps ∧ p <+: s ∧
      ∀ x ∈ p :: ps, ¬ sep <:+: x ∧ x <:+: s := by
  have hnil : ¬ sep <:+: [] := by simpa using hsep
  induction hn : s.length using Nat.strong_induction_on generalizing s with
  | h n ih =>
      by_cases hstart : sep <+: s
      · obtain ⟨rest, rfl⟩ := hstart
        have hshorter : rest.length < n := by
          have hpos := List.length_pos_iff.mpr hsep
          rw [← hn, List.length_append]
          omega
        obtain ⟨p, ps, hsplit, -, hpieces⟩ := ih _ hshorter rest rfl
        refine ⟨[], p :: ps, by rw [splitText_append_left hsep, hsplit], List.nil_prefix, ?_⟩
        rw [List.forall_mem_cons]
        refine ⟨⟨hnil, List.nil_infix⟩, fun x hx => ?_⟩
        obtain ⟨hfree, hpart⟩ := hpieces x hx
        exact ⟨hfree, hpart.trans (List.suffix_append sep rest).isInfix⟩
      · cases s with
        | nil => exact ⟨[], [], rfl, List.nil_prefix, by simpa using hsep⟩
        | cons c s =>
            obtain ⟨p, ps, hsplit, hfirst, hpieces⟩ := ih s.length (by simp [← hn]) s rfl
            obtain ⟨⟨hfree, -⟩, hrest⟩ := List.forall_mem_cons.mp hpieces
            have hfirst' : c :: p <+: c :: s := (List.prefix_cons_inj c).mpr hfirst
            refine ⟨c :: p, ps, by rw [splitText_cons hstart, hsplit, consFirst], hfirst', ?_⟩
            rw [List.forall_mem_cons]
            refine ⟨⟨fun hin => ?_, hfirst'.isInfix⟩, fun x hx => ?_⟩
            · rcases List.infix_cons_iff.mp hin with hstarts | hinfix
              · exact hstart (hstarts.trans hfirst')
              · exact hfree hinfix
            · obtain ⟨hx, hpart⟩ := hrest x hx
              exact ⟨hx, hpart.trans (List.suffix_cons c s).isInfix⟩

theorem not_infix_of_mem_splitText (hsep : sep ≠ []) {s p : List Char} (hp : p ∈ splitText sep s) :
    ¬ sep <:+: p ∧ p <:+: s := by
  obtain ⟨q, qs, hsplit, -, hpieces⟩ := splitText_spec hsep s
  exact hpieces p (hsplit ▸ hp)

theorem notMem_of_mem_splitChar {c : Char} {s p : List Char} (hp : p ∈ splitChar c s) : c ∉ p := by
  rw [← splitText_singleton] at hp
  intro hmem
  obtain ⟨l, r, rfl⟩ := List.append_of_mem hmem
  exact (not_infix_of_mem_splitText (List.cons_ne_nil c []) hp).1 ⟨l, r, by simp⟩

/-- A separator does not reach across a character that it does not hold. -/
theorem infix_append_cons {c : Char} (hc : c ∉ sep) {s t : List Char} (h : sep <:+: s ++ c :: t) :
    sep <:+: s ∨ sep <:+: t := by
  have hstart {s : List Char} (hs : sep <+: s ++ c :: t) : sep <+: s := by
    rcases List.prefix_or_prefix_of_prefix hs (List.prefix_append s (c :: t)) with hle | hlt
    · exact hle
    · obtain ⟨r, rfl⟩ := hlt
      cases r with
      | nil => simp
      | cons x r =>
          rw [List.prefix_append_right_inj, List.cons_prefix_cons] at hs
          exact absurd (by simp [hs.1]) hc
  induction s with
  | nil =>
      rcases List.infix_cons_iff.mp h with hstarts | hinfix
      · exact .inl (hstart (s := []) hstarts).isInfix
      · exact .inr hinfix
  | cons x s ih =>
      rcases List.infix_cons_iff.mp h with hstarts | hinfix
      · exact .inl (hstart (s := x :: s) hstarts).isInfix
      · exact (ih hinfix).imp_left fun hs => hs.trans (List.suffix_cons x s).isInfix

/-- A separator that is not in the pieces is not in the whole, if it does not reach across what
stands between them. -/
theorem not_infix_intercalate {c : Char} (hc : c ∉ sep) {mid : List Char} (hmid : ¬ sep <:+: mid)
    {pieces : List (List Char)} (h : ∀ p ∈ pieces, ¬ sep <:+: p) :
    ¬ sep <:+: ([c] ++ mid ++ [c]).intercalate pieces := by
  induction pieces with
  | nil =>
      intro hin
      rw [List.intercalate_nil, List.infix_nil] at hin
      exact hmid (hin ▸ List.nil_infix)
  | cons p pieces ih =>
      obtain ⟨hp, hpieces⟩ := List.forall_mem_cons.mp h
      cases pieces with
      | nil => rwa [List.intercalate_singleton]
      | cons p' pieces =>
          intro hin
          have hjoin : ([c] ++ mid ++ [c]).intercalate (p :: p' :: pieces) =
              p ++ c :: (mid ++ c :: ([c] ++ mid ++ [c]).intercalate (p' :: pieces)) := by
            simp [List.intercalate_cons_cons]
          rw [hjoin] at hin
          rcases infix_append_cons hc hin with hin | hin
          · exact hp hin
          · rcases infix_append_cons hc hin with hin | hin
            · exact hmid hin
            · exact ih hpieces hin

end Separator

/-! ## Cutting at one character -/

theorem cutFirst?_singleton_eq_some {c : Char} {s l r : List Char} :
    cutFirst? [c] s = some (l, r) ↔ s = l ++ c :: r ∧ c ∉ l := by
  induction s generalizing l with
  | nil => simp [cutFirst?, dropPrefix?]
  | cons x s ih =>
      by_cases hx : c = x
      · subst hx
        cases l with
        | nil => simp [cutFirst?, dropPrefix?, eq_comm]
        | cons y l => simp +contextual [cutFirst?, dropPrefix?]
      · cases l with
        | nil => simp [cutFirst?, dropPrefix?, hx, Ne.symm hx]
        | cons y l =>
            simp only [cutFirst?, dropPrefix?, hx, if_false, Option.map_eq_some_iff, Prod.exists]
            grind

/-! ## Beginnings and endings -/

theorem dropPrefix?_eq_some_iff {p s r : List Char} : dropPrefix? p s = some r ↔ s = p ++ r := by
  induction p generalizing s with
  | nil => cases s <;> simp [dropPrefix?]
  | cons c p ih =>
      cases s with
      | nil => simp [dropPrefix?]
      | cons x s => simp [dropPrefix?, ih, @eq_comm _ c x]

theorem dropSuffix?_eq_some_iff {e s r : List Char} : dropSuffix? e s = some r ↔ s = r ++ e := by
  simp only [dropSuffix?, Option.map_eq_some_iff, dropPrefix?_eq_some_iff]
  constructor
  · rintro ⟨t, ht, rfl⟩
    rw [← List.reverse_inj, ht]
    simp
  · rintro rfl
    exact ⟨r.reverse, by simp, List.reverse_reverse r⟩

/-! ## Occurrences -/

theorem isSome_dropPrefix?_iff {p s : List Char} : (dropPrefix? p s).isSome ↔ p <+: s := by
  simp only [Option.isSome_iff_exists, dropPrefix?_eq_some_iff]
  exact exists_congr fun r => eq_comm

theorem contains_iff {mark s : List Char} : contains mark s = true ↔ mark <:+: s := by
  rw [contains]
  induction s with
  | nil => simp [cutFirst?, isSome_dropPrefix?_iff]
  | cons c s ih =>
      rw [List.infix_cons_iff, ← isSome_dropPrefix?_iff, cutFirst?]
      cases dropPrefix? mark (c :: s) with
      | none => simp [ih]
      | some r => simp

theorem cutLast?_eq_none {mark s : List Char} (h : ¬ mark <:+: s) : cutLast? mark s = none := by
  induction s with
  | nil =>
      rw [List.infix_nil, ← List.prefix_nil, ← isSome_dropPrefix?_iff] at h
      simpa [cutLast?] using h
  | cons c s ih =>
      rw [List.infix_cons_iff, not_or, ← isSome_dropPrefix?_iff] at h
      rw [cutLast?, ih h.2]
      simpa using h.1

theorem replace_append_left {old : List Char} (hne : old ≠ []) (new s : List Char) :
    replace old new (old ++ s) = new ++ replace old new s := by
  have hskip (w : List Char) : replaceFrom old new w.length (w ++ s) = replace old new s := by
    induction w with
    | nil => rfl
    | cons x w ih => exact ih
  obtain ⟨x, w, rfl⟩ := List.exists_cons_of_ne_nil hne
  rw [List.cons_append, replace, replaceFrom, if_pos (by simp), List.length_cons,
    Nat.add_sub_cancel, hskip]

theorem replace_cons {old s : List Char} {x : Char} (h : ¬ old <+: x :: s) (new : List Char) :
    replace old new (x :: s) = x :: replace old new s := by
  rw [replace, replaceFrom, if_neg (by simpa using h)]
  rfl

theorem replace_append_of_notMem {c : Char} {old w : List Char} (hw : c ∉ w) (new s : List Char) :
    replace (c :: old) new (w ++ s) = w ++ replace (c :: old) new s := by
  induction w with
  | nil => rfl
  | cons x w ih =>
      have hx : ¬ (c :: old <+: x :: (w ++ s)) := fun h =>
        List.ne_of_not_mem_cons hw (List.cons_prefix_cons.mp h).1
      rw [List.cons_append, replace_cons hx, ih (List.not_mem_of_not_mem_cons hw),
        List.cons_append]

theorem replace_of_not_infix {old s : List Char} (h : ¬ old <:+: s) (new : List Char) :
    replace old new s = s := by
  induction s with
  | nil => rfl
  | cons x s ih =>
      obtain ⟨hstart, hrest⟩ := not_or.mp (List.infix_cons_iff.not.mp h)
      rw [replace_cons hstart, ih hrest]

theorem replace_same {old : List Char} (hne : old ≠ []) (s : List Char) :
    replace old old s = s := by
  induction hn : s.length using Nat.strong_induction_on generalizing s with
  | h n ih =>
      by_cases hstart : old <+: s
      · obtain ⟨rest, rfl⟩ := hstart
        have hpos := List.length_pos_iff.mpr hne
        rw [List.length_append] at hn
        rw [replace_append_left hne, ih rest.length (by omega) rest rfl]
      · cases s with
        | nil => rfl
        | cons x s => rw [replace_cons hstart, ih s.length (by simp [← hn]) s rfl]

theorem replace_self {old : List Char} (hne : old ≠ []) (new : List Char) :
    replace old new old = new := by
  have hnil : replace old new [] = [] := rfl
  simpa [hnil] using replace_append_left hne new []

end Chars

namespace Text

theorem splitChar_ne_nil (c : Char) (s : String) : splitChar c s ≠ [] := by
  simp [splitChar, Chars.splitChar_ne_nil]

theorem intercalate_splitChar (c : Char) (s : String) :
    (String.singleton c).intercalate (splitChar c s) = s := by
  apply String.toList_injective
  simp [splitChar, Function.comp_def, Chars.intercalate_splitChar]

theorem splitChar_intercalate_cons {c : Char} (s : String) {pieces : List String}
    (h : ∀ p ∈ pieces, c ∉ p.toList) :
    splitChar c ((String.singleton c).intercalate (s :: pieces)) = splitChar c s ++ pieces := by
  have hchars := Chars.splitChar_intercalate_cons s.toList (List.forall_mem_map.mpr h)
  simp [splitChar, hchars]

theorem notMem_of_mem_splitChar {c : Char} {s p : String} (hp : p ∈ splitChar c s) :
    c ∉ p.toList := by
  obtain ⟨cs, hcs, rfl⟩ := List.mem_map.mp hp
  rw [String.toList_ofList]
  exact Chars.notMem_of_mem_splitChar hcs

theorem cutFirst?_eq_some_iff {c : Char} {mark : String} (hmark : mark.toList = [c])
    {s l r : String} : cutFirst? mark s = some (l, r) ↔ s = l ++ mark ++ r ∧ c ∉ l.toList := by
  have hchars : cutFirst? mark s = some (l, r) ↔
      Chars.cutFirst? [c] s.toList = some (l.toList, r.toList) := by
    simp only [cutFirst?, hmark, Option.map_eq_some_iff, Prod.exists, Prod.mk.injEq]
    constructor
    · rintro ⟨l', r', h, rfl, rfl⟩
      simpa using h
    · intro h
      exact ⟨_, _, h, String.ofList_toList, String.ofList_toList⟩
  rw [hchars, Chars.cutFirst?_singleton_eq_some, ← String.toList_inj]
  simp [hmark]

theorem dropPrefix?_eq_some_iff {p s r : String} : dropPrefix? p s = some r ↔ s = p ++ r := by
  simp only [dropPrefix?, Option.map_eq_some_iff, Chars.dropPrefix?_eq_some_iff,
    ← String.toList_inj, String.toList_append]
  constructor
  · rintro ⟨t, ht, hr⟩
    rw [ht, ← hr, String.toList_ofList]
  · exact fun h => ⟨r.toList, h, String.toList_ofList⟩

theorem dropSuffix?_eq_some_iff {e s r : String} : dropSuffix? e s = some r ↔ s = r ++ e := by
  simp only [dropSuffix?, Option.map_eq_some_iff, Chars.dropSuffix?_eq_some_iff,
    ← String.toList_inj, String.toList_append]
  constructor
  · rintro ⟨t, ht, hr⟩
    rw [ht, ← hr, String.toList_ofList]
  · exact fun h => ⟨r.toList, h, String.toList_ofList⟩

theorem dropSuffix?_append (s e : String) : dropSuffix? e (s ++ e) = some s :=
  dropSuffix?_eq_some_iff.mpr rfl

theorem contains_iff {mark s : String} : contains mark s = true ↔ mark.toList <:+: s.toList :=
  Chars.contains_iff

theorem cutLast?_eq_none {mark s : String} (h : ¬ mark.toList <:+: s.toList) :
    cutLast? mark s = none := by
  rw [cutLast?, Chars.cutLast?_eq_none h]
  rfl

end Text

end EntityRest
