import EntityRest.Proofs.Sql.Literal
import Mathlib.Data.List.Forall2

/-! # Tokens of SQL text

Tokens that were read are written again as they stood. Other contents may take the place of those of
the literals: the code around them stays as it is. -/

namespace EntityRest

namespace SqlToken

/-! ## Writing tokens -/

/-- The text of a token. A quote in a literal is written twice. -/
def text : SqlToken → List Char
  | mark c => [c]
  | literal w => '\'' :: Chars.double '\'' w ++ ['\'']

def write (ts : List SqlToken) : List Char := ts.flatMap text

@[simp] theorem write_nil : write [] = [] := rfl

@[simp] theorem write_mark_cons (c : Char) (ts : List SqlToken) :
    write (mark c :: ts) = c :: write ts :=
  rfl

@[simp] theorem write_literal_cons (w : List Char) (ts : List SqlToken) :
    write (literal w :: ts) = '\'' :: (Chars.double '\'' w ++ '\'' :: write ts) := by
  simp [write, text]

/-- Tokens as they are read: no mark is a quote, and no two literals touch. -/
inductive Separated : List SqlToken → Prop where
  | nil : Separated []
  | mark {c ts} (hc : c ≠ '\'') : Separated ts → Separated (.mark c :: ts)
  | literal (w) {ts} (hnext : (write ts).head? ≠ some '\'') :
      Separated ts → Separated (.literal w :: ts)

/-- Tokens as they are read from a text, outside of literals or behind the given start of one. -/
def ReadFrom : Option (List Char) → List Char → List SqlToken → Prop
  | none, s, ts => Separated ts ∧ write ts = s
  | some w, s, ts => ∃ v rest, ts = literal (w ++ v) :: rest ∧ Separated ts ∧
      s = Chars.double '\'' v ++ '\'' :: write rest

theorem readFrom_of_read {state : Option (List Char)} {s : List Char} {ts : List SqlToken}
    (h : read none state s = some ts) : ReadFrom state s ts := by
  fun_induction read none state s generalizing ts with
  | case1 =>
      obtain rfl := Option.some.inj h
      exact ⟨.nil, rfl⟩
  | case2 s ih =>
      obtain ⟨v, rest, rfl, hsep, rfl⟩ := ih h
      exact ⟨hsep, by simp⟩
  | case3 c s hc ih =>
      obtain ⟨ts, hts, rfl⟩ := Option.map_eq_some_iff.mp h
      obtain ⟨hsep, rfl⟩ := ih hts
      exact ⟨.mark hc hsep, rfl⟩
  | case4 => cases h
  | case5 w =>
      obtain rfl := Option.some.inj h
      exact ⟨[], [], by simp, .literal w (by simp) .nil, rfl⟩
  | case6 => cases h
  | case7 w s ih =>
      obtain ⟨v, rest, rfl, hsep, rfl⟩ := ih h
      exact ⟨'\'' :: v, rest, by simp, hsep, by simp [Chars.double]⟩
  | case8 w b s hb ih =>
      obtain ⟨ts, hts, rfl⟩ := Option.map_eq_some_iff.mp h
      obtain ⟨hsep, hwrite⟩ := ih hts
      exact ⟨[], ts, by simp, .literal w (by simp [hwrite, hb]) hsep, by simp [hwrite, Chars.double]⟩
  -- nothing is escaped here
  | case9 => contradiction
  | case10 => contradiction
  | case11 w c b s hc _ ih =>
      obtain ⟨v, rest, rfl, hsep, hs⟩ := ih h
      exact ⟨c :: v, rest, by simp, hsep, by simp [Chars.double, hc, hs]⟩

/-- Separated tokens that were written are read again. -/
theorem read_of_separated {ts : List SqlToken} (h : Separated ts) : read none none (write ts) = some ts := by
  induction h with
  | nil => rfl
  | mark hc _ ih =>
      rw [write_mark_cons, read_none_of_ne hc, ih]
      rfl
  | literal w hnext _ ih =>
      rw [write_literal_cons, read_none_quote, read_double (by simp) [] hnext, ih]
      rfl

/-! ## Other contents -/

/-- The same tokens, but for what is in literals. -/
inductive SameCode : SqlToken → SqlToken → Prop where
  | mark (c) : SameCode (.mark c) (.mark c)
  | literal (v w) : SameCode (.literal v) (.literal w)

theorem sameCode_marks (m : List Char) : List.Forall₂ SameCode (m.map mark) (m.map mark) := by
  rw [List.forall₂_same]
  intro t ht
  obtain ⟨c, -, rfl⟩ := List.mem_map.mp ht
  exact .mark c

theorem head?_write_of_sameCode {ts us : List SqlToken} (h : List.Forall₂ SameCode ts us) :
    (write us).head? = (write ts).head? := by
  cases h with
  | nil => rfl
  | cons hsame _ => cases hsame <;> simp

theorem Separated.of_sameCode {ts us : List SqlToken} (h : List.Forall₂ SameCode ts us)
    (hts : Separated ts) : Separated us := by
  induction h with
  | nil => exact .nil
  | cons hsame hrest ih =>
      cases hts with
      | mark hc hts =>
          cases hsame
          exact .mark hc (ih hts)
      | literal v hnext hts =>
          cases hsame with
          | literal _ w =>
              rw [← head?_write_of_sameCode hrest] at hnext
              exact .literal w hnext (ih hts)

/-- The text with nothing in its literals. -/
def code (ts : List SqlToken) : List Char :=
  ts.flatMap fun t =>
    match t with
    | mark c => [c]
    | literal _ => ['\'', '\'']

@[simp] theorem code_nil : code [] = [] := rfl

@[simp] theorem code_mark_cons (c : Char) (ts : List SqlToken) :
    code (mark c :: ts) = c :: code ts :=
  rfl

@[simp] theorem code_literal_cons (w : List Char) (ts : List SqlToken) :
    code (literal w :: ts) = '\'' :: '\'' :: code ts :=
  rfl

theorem code_append (ts us : List SqlToken) : code (ts ++ us) = code ts ++ code us :=
  List.flatMap_append

theorem code_map_mark (m : List Char) : code (m.map mark) = m := by
  induction m with
  | nil => rfl
  | cons c m ih => simp [ih]

theorem code_of_sameCode {ts us : List SqlToken} (h : List.Forall₂ SameCode ts us) :
    code us = code ts := by
  induction h with
  | nil => rfl
  | cons hsame _ ih => cases hsame <;> simp [ih]

theorem exists_of_code_eq {m rest : List Char} (hm : '\'' ∉ m) {ts : List SqlToken}
    (h : code ts = m ++ rest) : ∃ us, ts = m.map mark ++ us ∧ code us = rest := by
  induction m generalizing ts with
  | nil => exact ⟨ts, rfl, h⟩
  | cons c m ih =>
      cases ts with
      | nil => simp at h
      | cons t ts =>
          cases t with
          | mark x =>
              obtain ⟨rfl, hrest⟩ := List.cons.inj h
              obtain ⟨us, rfl, hus⟩ := ih (List.not_mem_of_not_mem_cons hm) hrest
              exact ⟨us, rfl, hus⟩
          | literal w =>
              obtain ⟨rfl, -⟩ := List.cons.inj h
              simp at hm

end SqlToken

end EntityRest
