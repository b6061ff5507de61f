import EntityRest.Proofs.Schema.Expr
import EntityRest.Proofs.Sql.Tokens
import Mathlib.Data.List.Induction
import Mathlib.Data.List.TakeWhile

/-! # Aliases outside of literals

Which aliases an expression uses does not depend on what its string literals hold. They are listed
once each, in the order in which the text around the literals first uses them. -/

namespace EntityRest

open Chars (isWord)

namespace Expr

open SqlToken (Separated SameCode code write)

/-! ## Emptied literals -/

/-- A literal that was written ends at its closing quote, if no other quote follows. -/
theorem literalLength?_double (w : List Char) {rest : List Char} (hrest : rest.head? ≠ some '\'') :
    literalLength? (Chars.double '\'' w ++ '\'' :: rest) =
      some ((Chars.double '\'' w).length + 1) := by
  induction w with
  | nil =>
      cases rest with
      | nil => rfl
      | cons b rest =>
          have hb : b ≠ '\'' := by simpa using hrest
          simp [Chars.double, literalLength?, hb]
  | cons c w ih =>
      by_cases hc : c = '\''
      · simp [Chars.double, hc, literalLength?, ih]
      · simp [Chars.double, hc, literalLength?, ih]

theorem emptyLiteralsFrom_eq (n : Nat) (s : List Char) :
    emptyLiteralsFrom n s = emptyLiterals (s.drop n) := by
  induction n generalizing s with
  | zero => rfl
  | succ n ih =>
      cases s with
      | nil => rfl
      | cons c s => simp [emptyLiteralsFrom, ih]

/-- Every literal is emptied as it was written, and nothing else is changed. -/
theorem emptyLiterals_write {ts : List SqlToken} (h : Separated ts) :
    emptyLiterals (write ts) = code ts := by
  induction h with
  | nil => rfl
  | @mark c ts hc _ ih =>
      rw [emptyLiterals] at ih ⊢
      simp [emptyLiteralsFrom, hc, ih]
  | @literal w ts hnext _ ih =>
      have hdrop : (Chars.double '\'' w ++ '\'' :: write ts).drop
          ((Chars.double '\'' w).length + 1) = write ts := by
        simp [← List.drop_drop]
      rw [SqlToken.write_literal_cons, emptyLiterals, emptyLiteralsFrom, if_pos rfl,
        literalLength?_double w hnext]
      simp only [emptyLiteralsFrom_eq, hdrop, ih, SqlToken.code_literal_cons]

/-- What is in literals does not matter for the aliases. -/
theorem aliases_write {ts : List SqlToken} (h : Separated ts) :
    aliases (String.ofList (write ts)) =
      (distinct (qualifiers (tokens (code ts)))).map String.ofList := by
  rw [aliases, String.toList_ofList, emptyLiterals_write h]

/-! ## Words and marks -/

/-- The text behind a character: if this character is of a word, the rest of the word is passed
over. -/
def wordRest (inWord : Bool) (s : List Char) : List Char :=
  if inWord then s.dropWhile isWord else s

theorem wordRest_of_not_isWord {c : Char} (hc : isWord c = false) (inWord : Bool)
    (s : List Char) : wordRest inWord (c :: s) = c :: s := by
  cases inWord <;> simp [wordRest, hc]

theorem wordRest_of_head? {s : List Char} (hs : ∀ c ∈ s.head?, isWord c = false)
    (inWord : Bool) : wordRest inWord s = s := by
  cases s with
  | nil => cases inWord <;> rfl
  | cons c s => exact wordRest_of_not_isWord (hs c rfl) inWord s

theorem head?_dropWhile_isWord (s : List Char) :
    ∀ c ∈ (s.dropWhile isWord).head?, isWord c = false := by
  intro c hc
  have hnot := List.head?_dropWhile_not isWord s
  rwa [Option.mem_def.mp hc] at hnot

/-- A character of a word starts a word that goes on as long as such characters follow. -/
theorem tokens_of_isWord {c : Char} (hc : isWord c = true) (s : List Char) :
    tokens (c :: s) = .word ((c :: s).takeWhile isWord) :: tokens (s.dropWhile isWord) := by
  have hrun : ∀ x ∈ (c :: s).takeWhile isWord, isWord x = true :=
    fun x hx => List.mem_takeWhile_imp hx
  have hword := tokens_word (by simp [hc]) hrun (head?_dropWhile_isWord (c :: s))
  rw [List.takeWhile_append_dropWhile] at hword
  rw [hword, List.dropWhile_cons_of_pos hc]

theorem eq_of_tokens_eq_word {s v : List Char} {ts : List Token} (h : tokens s = .word v :: ts) :
    v = s.takeWhile isWord ∧ ts = tokens (s.dropWhile isWord) := by
  cases s with
  | nil => cases h
  | cons c s =>
      by_cases hc : isWord c = true
      · rw [tokens_of_isWord hc] at h
        obtain ⟨hv, hts⟩ := List.cons.inj h
        rw [List.dropWhile_cons_of_pos hc]
        exact ⟨(Token.word.inj hv).symm, hts.symm⟩
      · rw [tokens_of_not_isWord (Bool.eq_false_iff.mpr hc)] at h
        cases h

theorem exists_of_tokens_eq_mark {s : List Char} {m : Char} {ts : List Token}
    (h : tokens s = .mark m :: ts) : ∃ r, s = m :: r ∧ tokens r = ts := by
  cases s with
  | nil => cases h
  | cons c s =>
      by_cases hc : isWord c = true
      · rw [tokens_of_isWord hc] at h
        cases h
      · rw [tokens_of_not_isWord (Bool.eq_false_iff.mpr hc)] at h
        simpa using h

/-- A word that no point and name follow, or that is no name, qualifies nothing. -/
theorem qualifiers_word_cons {v : List Char} {ts : List Token}
    (h : ∀ b us, ts = .mark '.' :: .word b :: us → ¬ (startsName v = true ∧ startsName b = true)) :
    qualifiers (.word v :: ts) = qualifiers ts := by
  cases ts with
  | nil => rfl
  | cons t ts =>
      cases t with
      | word w => rfl
      | mark m =>
          cases ts with
          | nil => rfl
          | cons t us =>
              cases t with
              | mark m' => rfl
              | word b =>
                  by_cases hm : m = '.'
                  · subst hm
                    rw [qualifiers, if_neg (by simpa using h b us rfl)]
                  · rw [qualifiers, if_neg (by simp [hm])]

/-! ## Uses -/

/-- No character of a word comes next. -/
def EndsWord (ts : List SqlToken) : Prop :=
  ∀ c us, ts = .mark c :: us → isWord c = false

/-- A reference to a column of `a` comes first, with a point between the two names, and then the
rest. -/
def RefersTo (a : List Char) (ts rest : List SqlToken) : Prop :=
  ∃ column, isName a = true ∧ isName column = true ∧ EndsWord rest ∧
    ts = a.map .mark ++ .mark '.' :: (column.map .mark ++ rest)

/-- The aliases that tokens use, from left to right. References are looked for at every character
outside of literals that does not go on with a word, and behind the end of each reference. -/
inductive Uses : Bool → List SqlToken → List (List Char) → Prop where
  | nil (inWord) : Uses inWord [] []
  | literal (inWord w) {ts as} : Uses false ts as → Uses inWord (.literal w :: ts) as
  | reference {a ts rest as} : RefersTo a ts rest → Uses true rest as → Uses false ts (a :: as)
  | other {inWord c ts as} : (inWord = false → ∀ a rest, ¬ RefersTo a (.mark c :: ts) rest) →
      Uses (isWord c) ts as → Uses inWord (.mark c :: ts) as

theorem endsWord_iff {ts : List SqlToken} :
    EndsWord ts ↔ ∀ c ∈ (code ts).head?, isWord c = false := by
  cases ts with
  | nil => simp [EndsWord]
  | cons t ts =>
      cases t with
      | mark x => simp [EndsWord]
      | literal w =>
          have hquote : isWord '\'' = false := by decide
          simp [EndsWord, hquote]

theorem RefersTo.length_lt {a : List Char} {ts rest : List SqlToken} (h : RefersTo a ts rest) :
    rest.length < ts.length := by
  obtain ⟨column, -, -, -, rfl⟩ := h
  simp
  omega

/-- There is always a list of the aliases that are used. -/
theorem exists_uses (inWord : Bool) (ts : List SqlToken) : ∃ as, Uses inWord ts as := by
  induction hn : ts.length using Nat.strong_induction_on generalizing inWord ts with
  | h n ih =>
      subst hn
      cases ts with
      | nil => exact ⟨[], .nil inWord⟩
      | cons t ts =>
          cases t with
          | literal w =>
              obtain ⟨as, has⟩ := ih _ (by simp) false ts rfl
              exact ⟨as, .literal inWord w has⟩
          | mark c =>
              by_cases href : inWord = false ∧ ∃ a rest, RefersTo a (.mark c :: ts) rest
              · obtain ⟨rfl, a, rest, href⟩ := href
                obtain ⟨as, has⟩ := ih _ href.length_lt true rest rfl
                exact ⟨a :: as, .reference href has⟩
              · obtain ⟨as, has⟩ := ih _ (by simp) (isWord c) ts rfl
                refine ⟨as, .other ?_ has⟩
                intro hfalse a rest hrefers
                exact href ⟨hfalse, a, rest, hrefers⟩

/-- A name, a point and another name among the tokens of a text are a reference in it. -/
theorem exists_refersTo {ts : List SqlToken} {v b : List Char} {us : List Token}
    (h : tokens (code ts) = .word v :: .mark '.' :: .word b :: us) (hv : startsName v = true)
    (hb : startsName b = true) : ∃ rest, RefersTo v ts rest := by
  obtain ⟨hvrun, hrest⟩ := eq_of_tokens_eq_word h
  obtain ⟨r, hr, htokens⟩ := exists_of_tokens_eq_mark hrest.symm
  obtain ⟨hbrun, -⟩ := eq_of_tokens_eq_word htokens
  have hvword : ∀ c ∈ v, isWord c = true := fun c hc => List.mem_takeWhile_imp (hvrun ▸ hc)
  have hbword : ∀ c ∈ b, isWord c = true := fun c hc => List.mem_takeWhile_imp (hbrun ▸ hc)
  have hcode : code ts = (v ++ '.' :: b) ++ r.dropWhile isWord := by
    rw [← List.takeWhile_append_dropWhile (p := isWord) (l := code ts), ← hvrun, hr, hbrun,
      List.append_assoc, List.cons_append, List.takeWhile_append_dropWhile]
  have hquote : '\'' ∉ v ++ '.' :: b := by
    intro hmem
    rcases List.mem_append.mp hmem with hmem | hmem
    · exact literalFree_of_isWord (hvword _ hmem) rfl
    · rcases List.mem_cons.mp hmem with hpoint | hmem
      · exact absurd hpoint (by decide)
      · exact literalFree_of_isWord (hbword _ hmem) rfl
  obtain ⟨rest, rfl, hrestcode⟩ := SqlToken.exists_of_code_eq hquote hcode
  have hends : EndsWord rest := by
    rw [endsWord_iff, hrestcode]
    exact head?_dropWhile_isWord r
  exact ⟨rest, b, isName_iff.mpr ⟨hv, hvword⟩, isName_iff.mpr ⟨hb, hbword⟩, hends, by simp⟩

/-- What is used is what is found in the tokens of the text with nothing in its literals. -/
theorem Uses.qualifiers_eq {inWord : Bool} {ts : List SqlToken} {as : List (List Char)}
    (h : Uses inWord ts as) : qualifiers (tokens (wordRest inWord (code ts))) = as := by
  have hquote : isWord '\'' = false := by decide
  induction h with
  | nil inWord => cases inWord <;> rfl
  | literal inWord w _ ih =>
      rw [SqlToken.code_literal_cons, wordRest_of_not_isWord hquote,
        tokens_of_not_isWord hquote, tokens_of_not_isWord hquote]
      exact ih
  | @reference a ts rest as href _ ih =>
      obtain ⟨column, ha, hcolumn, hends, rfl⟩ := href
      have hhead := endsWord_iff.mp hends
      rw [wordRest_of_head? hhead] at ih
      rw [wordRest, if_neg (by simp), SqlToken.code_append, SqlToken.code_map_mark,
        SqlToken.code_mark_cons, SqlToken.code_append, SqlToken.code_map_mark,
        tokens_qualified ha hcolumn hhead,
        qualifiers_qualified (isName_iff.mp ha).1 (isName_iff.mp hcolumn).1, ih]
  | @other inWord c ts as hno _ ih =>
      by_cases hc : isWord c = true
      · rw [hc, wordRest, if_pos rfl] at ih
        cases inWord with
        | true => rwa [SqlToken.code_mark_cons, wordRest, if_pos rfl, List.dropWhile_cons_of_pos hc]
        | false =>
            -- a word starts here, but no reference does
            have htokens := tokens_of_isWord hc (code ts)
            rw [← SqlToken.code_mark_cons] at htokens
            rw [wordRest, if_neg (by simp), htokens, qualifiers_word_cons, ih]
            rintro b us hus ⟨hv, hb⟩
            rw [hus] at htokens
            obtain ⟨rest, href⟩ := exists_refersTo htokens hv hb
            exact hno rfl _ rest href
      · have hc' : isWord c = false := Bool.eq_false_iff.mpr hc
        rw [hc', wordRest, if_neg (by simp)] at ih
        rw [SqlToken.code_mark_cons, wordRest_of_not_isWord hc', tokens_of_not_isWord hc']
        exact ih

/-! ## First uses -/

theorem distinct_concat {α : Type} [DecidableEq α] (xs : List α) (x : α) :
    distinct (xs ++ [x]) = if x ∈ distinct xs then distinct xs else distinct xs ++ [x] := by
  rw [distinct, List.foldl_concat]
  rfl

theorem mem_distinct {α : Type} [DecidableEq α] {xs : List α} {x : α} :
    x ∈ distinct xs ↔ x ∈ xs := by
  induction xs using List.reverseRecOn generalizing x with
  | nil => simp [distinct]
  | append_singleton xs y ih =>
      rw [distinct_concat]
      split
      · rename_i hy
        rw [ih, List.mem_append, List.mem_singleton]
        constructor
        · exact Or.inl
        · rintro (hx | rfl)
          · exact hx
          · exact ih.mp hy
      · simp [ih]

/-- Items are kept in the order in which they come first. -/
theorem pairwise_distinct {α : Type} [DecidableEq α] [BEq α] [LawfulBEq α] (xs : List α) :
    (distinct xs).Pairwise fun a b => xs.idxOf a < xs.idxOf b := by
  induction xs using List.reverseRecOn with
  | nil => exact .nil
  | append_singleton xs y ih =>
      have hold : (distinct xs).Pairwise fun a b => (xs ++ [y]).idxOf a < (xs ++ [y]).idxOf b := by
        refine ih.imp_of_mem ?_
        intro a b ha hb hab
        rwa [List.idxOf_append_of_mem (mem_distinct.mp ha),
          List.idxOf_append_of_mem (mem_distinct.mp hb)]
      rw [distinct_concat]
      split
      · exact hold
      · rename_i hy
        rw [mem_distinct] at hy
        refine List.pairwise_append.mpr ⟨hold, by simp, ?_⟩
        intro a ha b hb
        obtain rfl := List.mem_singleton.mp hb
        have hmem := mem_distinct.mp ha
        rw [List.idxOf_append_of_mem hmem, List.idxOf_append_of_notMem hy]
        have hlt := List.idxOf_lt_length_of_mem hmem
        omega

/-- The names are those that are used, each once, in the order of their first uses. -/
structure FirstUses (uses : List (List Char)) (names : List String) : Prop where
  nodup : names.Nodup
  mem_iff (a) : a ∈ names ↔ a.toList ∈ uses
  ordered : names.Pairwise fun a b => uses.idxOf a.toList < uses.idxOf b.toList

theorem firstUses_distinct (uses : List (List Char)) :
    FirstUses uses ((distinct uses).map String.ofList) := by
  have hordered : ((distinct uses).map String.ofList).Pairwise fun a b =>
      uses.idxOf a.toList < uses.idxOf b.toList := by
    rw [List.pairwise_map]
    simpa using pairwise_distinct uses
  refine ⟨?_, ?_, hordered⟩
  · apply hordered.imp
    rintro a b hlt rfl
    exact Nat.lt_irrefl _ hlt
  · intro a
    rw [List.mem_map]
    constructor
    · rintro ⟨w, hw, rfl⟩
      rwa [String.toList_ofList, ← mem_distinct]
    · intro ha
      exact ⟨a.toList, mem_distinct.mpr ha, String.ofList_toList⟩

/-! ## Aliases of an expression -/

/-- The tokens of an expression, if its quotes are balanced: literals are taken from left to right,
and two quotes in a literal stand for one. -/
def lex? (expr : String) : Option (List SqlToken) := SqlToken.read none none expr.toList

/-- The expression that is written as the tokens. -/
def ofTokens (ts : List SqlToken) : String := String.ofList (write ts)

/-- The aliases of an expression with balanced quotes are the same with any other contents in its
literals, where these are read again. They are the aliases that the text outside of the literals
uses, each once, and in the order in which it uses them first. -/
theorem aliases_outside_literals {expr : String} {ts : List SqlToken} (h : lex? expr = some ts) :
    (∀ us, List.Forall₂ SameCode ts us →
      lex? (ofTokens us) = some us ∧ aliases (ofTokens us) = aliases expr) ∧
    ∃ uses, (∀ as, Uses false ts as ↔ as = uses) ∧ FirstUses uses (aliases expr) := by
  obtain ⟨hsep, hwrite⟩ : Separated ts ∧ write ts = expr.toList := SqlToken.readFrom_of_read h
  have hexpr : aliases expr = (distinct (qualifiers (tokens (code ts)))).map String.ofList := by
    rw [← aliases_write hsep, hwrite, String.ofList_toList]
  constructor
  · intro us hus
    have hsep' : Separated us := hsep.of_sameCode hus
    constructor
    · rw [lex?, ofTokens, String.toList_ofList, SqlToken.read_of_separated hsep']
    · rw [ofTokens, aliases_write hsep', SqlToken.code_of_sameCode hus, hexpr]
  · obtain ⟨uses, huses⟩ := exists_uses false ts
    have hfound (as : List (List Char)) (has : Uses false ts as) :
        qualifiers (tokens (code ts)) = as := has.qualifiers_eq
    refine ⟨uses, ?_, ?_⟩
    · intro as
      constructor
      · intro has
        rw [← hfound as has, hfound uses huses]
      · rintro rfl
        exact huses
    · rw [hexpr, hfound uses huses]
      exact firstUses_distinct uses

/-- The tokens of a call that has a literal between two columns. -/
def callTokens (contents : String) : List SqlToken :=
  "CONCAT(u.first, ".toList.map .mark ++
    .literal contents.toList :: ", v.last)".toList.map .mark

theorem aliases_relabelled :
    lex? "CONCAT(u.first, 'x.y''', v.last)" = some (callTokens "x.y'") ∧
      aliases "CONCAT(u.first, ''' + w.z + ''', v.last)" =
        aliases "CONCAT(u.first, 'x.y''', v.last)" := by
  have hlex : lex? "CONCAT(u.first, 'x.y''', v.last)" = some (callTokens "x.y'") := by
    decide +kernel
  have hcode : List.Forall₂ SameCode (callTokens "x.y'") (callTokens "' + w.z + '") :=
    List.rel_append (SqlToken.sameCode_marks _)
      (.cons (.literal _ _) (SqlToken.sameCode_marks _))
  have hwritten : ofTokens (callTokens "' + w.z + '") =
      "CONCAT(u.first, ''' + w.z + ''', v.last)" := by decide +kernel
  obtain ⟨hsame, -⟩ := aliases_outside_literals hlex
  refine ⟨hlex, ?_⟩
  rw [← hwritten]
  exact (hsame _ hcode).2

end Expr

end EntityRest
