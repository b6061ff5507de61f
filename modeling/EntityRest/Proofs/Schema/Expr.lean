import EntityRest.Proofs.Text.Split
import EntityRest.Schema.Basic

/-! # Aliases of qualified columns

A column behind the name of a table uses that name as its only alias. -/

namespace EntityRest

open Chars (isNameStart isWord)

namespace Expr

theorem literalFree_of_isWord {c : Char} (h : isWord c = true) : c ≠ '\'' := by
  rintro rfl
  exact absurd h (by decide)

theorem emptyLiterals_eq_self {s : List Char} (h : ∀ c ∈ s, c ≠ '\'') : emptyLiterals s = s := by
  unfold emptyLiterals
  induction s with
  | nil => rfl
  | cons c s ih =>
      obtain ⟨hc, hs⟩ := List.forall_mem_cons.mp h
      rw [emptyLiteralsFrom, if_neg hc, ih hs]

theorem tokens_cons (c : Char) (s : List Char) : tokens (c :: s) = Token.consChar c (tokens s) :=
  rfl

theorem tokens_of_not_isWord {c : Char} (hc : isWord c = false) (s : List Char) :
    tokens (c :: s) = .mark c :: tokens s := by
  simp [tokens_cons, Token.consChar, hc]

theorem tokens_word {w rest : List Char} (hne : w ≠ []) (hw : ∀ c ∈ w, isWord c = true)
    (hrest : ∀ c ∈ rest.head?, isWord c = false) :
    tokens (w ++ rest) = .word w :: tokens rest := by
  induction w with
  | nil => exact absurd rfl hne
  | cons c w ih =>
      obtain ⟨hc, hw⟩ := List.forall_mem_cons.mp hw
      rw [List.cons_append, tokens_cons]
      unfold Token.consChar
      rw [if_pos hc]
      by_cases hnil : w = []
      · subst hnil
        cases rest with
        | nil => rfl
        | cons x rest => rw [List.nil_append, tokens_of_not_isWord (hrest x rfl)]
      · rw [ih hnil hw]

theorem isName_iff {s : List Char} :
    isName s = true ↔ startsName s = true ∧ ∀ c ∈ s, isWord c = true := by
  simp [isName]

theorem ne_nil_of_startsName {s : List Char} (h : startsName s = true) : s ≠ [] := by
  rintro rfl
  cases h

theorem tokens_qualified {a b rest : List Char} (ha : isName a = true) (hb : isName b = true)
    (hrest : ∀ c ∈ rest.head?, isWord c = false) :
    tokens (a ++ '.' :: (b ++ rest)) = .word a :: .mark '.' :: .word b :: tokens rest := by
  obtain ⟨hastart, haword⟩ := isName_iff.mp ha
  obtain ⟨hbstart, hbword⟩ := isName_iff.mp hb
  have hpoint : isWord '.' = false := by decide
  rw [tokens_word (ne_nil_of_startsName hastart) haword (by simp [hpoint]),
    tokens_of_not_isWord hpoint, tokens_word (ne_nil_of_startsName hbstart) hbword hrest]

theorem qualifiers_qualified {a b : List Char} (ha : startsName a = true)
    (hb : startsName b = true) (ts : List Token) :
    qualifiers (.word a :: .mark '.' :: .word b :: ts) = a :: qualifiers ts := by
  simp [qualifiers, ha, hb]

theorem aliases_qualified {a b : List Char} (ha : isName a = true) (hb : isName b = true) :
    aliases (String.ofList (a ++ '.' :: b)) = [String.ofList a] := by
  obtain ⟨hastart, haword⟩ := isName_iff.mp ha
  obtain ⟨hbstart, hbword⟩ := isName_iff.mp hb
  have hquote : ∀ c ∈ a ++ '.' :: b, c ≠ '\'' := by
    intro c hc
    rcases List.mem_append.mp hc with hc | hc
    · exact literalFree_of_isWord (haword c hc)
    · rcases List.mem_cons.mp hc with rfl | hc
      · decide
      · exact literalFree_of_isWord (hbword c hc)
  have htokens : tokens (a ++ '.' :: (b ++ [])) = .word a :: .mark '.' :: .word b :: tokens [] :=
    tokens_qualified ha hb (by simp)
  rw [List.append_nil] at htokens
  rw [aliases, String.toList_ofList, emptyLiterals_eq_self hquote, htokens,
    qualifiers_qualified hastart hbstart]
  simp [tokens, qualifiers, distinct]

end Expr

/-! ## Columns of the own table -/

namespace Chars

theorem isWord_of_isDigit {c : Char} (h : ('0' ≤ c && c ≤ '9') = true) : isWord c = true := by
  have hle : c ≤ '9' := of_decide_eq_true (Bool.and_eq_true_iff.mp h).2
  have hc : c.toNat < 128 := Nat.lt_of_le_of_lt hle (by decide)
  rw [isWord, if_pos hc, h, Bool.or_true]

end Chars

theorem Expr.word_of_isIdent {s : List Char} (h : isIdent s = true) :
    startsName s = true ∧ ∀ c ∈ s, isWord c = true := by
  cases s with
  | nil => cases h
  | cons c s =>
      obtain ⟨hc, hs⟩ := Bool.and_eq_true_iff.mp h
      refine ⟨hc, List.forall_mem_cons.mpr ⟨Chars.isWord_of_isNameStart hc, fun x hx => ?_⟩⟩
      rcases Bool.or_eq_true_iff.mp (List.all_eq_true.mp hs x hx) with hname | hdigit
      · exact Chars.isWord_of_isNameStart hname
      · exact Chars.isWord_of_isDigit hdigit

/-- A column of the own table uses no other alias, if the own alias is a name. -/
theorem Field.aliases_of_columnOf? {f : Field} {asName column : String}
    (h : f.columnOf? asName = some column) (hname : Expr.isName asName.toList = true) :
    Expr.aliases f.expr = [asName] := by
  unfold columnOf? at h
  split at h
  · rename_i a col hcut
    split at h
    · rename_i hident
      obtain ⟨rfl, hcol⟩ : a = asName ∧ Expr.isIdent col.toList = true := by simpa using hident
      obtain ⟨hexpr, -⟩ := (Text.cutFirst?_eq_some_iff (c := '.') rfl).mp hcut
      obtain ⟨hstart, hword⟩ := Expr.word_of_isIdent hcol
      have hchars : f.expr = String.ofList (a.toList ++ '.' :: col.toList) := by
        rw [hexpr]
        apply String.toList_injective
        simp
      rw [hchars, Expr.aliases_qualified hname (Expr.isName_iff.mpr ⟨hstart, hword⟩),
        String.ofList_toList]
    · cases h
  · cases h

end EntityRest
