import EntityRest.Proofs.Text.Split
import EntityRest.Sql.Dialect
import Mathlib.Algebra.GroupWithZero.Nat

/-! # String literals in SQL

How SQL text is cut into string literals and the characters between them, and when the literals of a
path into a JSON column hold the parts of the path again. -/

namespace EntityRest

/-- A character outside of string literals, or a literal with its contents. -/
inductive SqlToken where
  | mark (c : Char)
  | literal (contents : List Char)
deriving DecidableEq

namespace SqlToken

/-- Reads SQL text, outside of literals or behind the given contents of one. A quote inside a literal
is written twice. If `escape` is there, a backslash and the character behind it stand for what
`escape` makes of that character. -/
def read (escape : Option (Char → Char)) : Option (List Char) → List Char → Option (List SqlToken)
  | none, [] => some []
  | none, c :: s =>
    if c = '\'' then read escape (some []) s else (read escape none s).map (.mark c :: ·)
  | some _, [] => none
  | some w, [c] => if c = '\'' then some [.literal w] else none
  | some w, c :: b :: s =>
    if c = '\'' then
      if b = '\'' then read escape (some (w ++ ['\''])) s
      else (read escape none (b :: s)).map (.literal w :: ·)
    else
      match escape with
      | some meaning =>
        if c = '\\' then read escape (some (w ++ [meaning b])) s
        else read escape (some (w ++ [c])) (b :: s)
      | none => read escape (some (w ++ [c])) (b :: s)

variable {escape : Option (Char → Char)}

/-! ## Reading a literal -/

theorem read_none_of_ne {c : Char} (hc : c ≠ '\'') (s : List Char) :
    read escape none (c :: s) = (read escape none s).map (.mark c :: ·) := by
  simp [read, hc]

theorem read_none_quote (s : List Char) :
    read escape none ('\'' :: s) = read escape (some []) s := by
  simp [read]

theorem read_some_of_ne {c : Char} (hc : c ≠ '\'') (hescape : escape.isSome → c ≠ '\\')
    (w : List Char) {s : List Char} (hs : s ≠ []) :
    read escape (some w) (c :: s) = read escape (some (w ++ [c])) s := by
  obtain ⟨b, s, rfl⟩ := List.exists_cons_of_ne_nil hs
  cases escape with
  | none => simp [read, hc]
  | some meaning =>
      have hc' : c ≠ '\\' := hescape rfl
      simp [read, hc, hc']

/-- Contents whose quotes are doubled are read to the closing quote. -/
theorem read_double {p : List Char} (hp : escape.isSome → '\\' ∉ p) (w : List Char)
    {rest : List Char} (hrest : rest.head? ≠ some '\'') :
    read escape (some w) (Chars.double '\'' p ++ '\'' :: rest) =
      (read escape none rest).map (.literal (w ++ p) :: ·) := by
  induction p generalizing w with
  | nil =>
      cases rest with
      | nil => simp [Chars.double, read]
      | cons b rest =>
          have hb : b ≠ '\'' := by simpa using hrest
          simp [Chars.double, read, hb]
  | cons c p ih =>
      have hp' : escape.isSome → '\\' ∉ p := fun h => List.not_mem_of_not_mem_cons (hp h)
      by_cases hc : c = '\''
      · simp [Chars.double, hc, read, ih hp']
      · have hescape : escape.isSome → c ≠ '\\' := fun h => (List.ne_of_not_mem_cons (hp h)).symm
        rw [Chars.double, if_neg hc, List.cons_append, read_some_of_ne hc hescape w (by simp),
          ih hp', List.append_assoc]
        rfl

/-! ## The least length of what is read -/

/-- How many characters of text a character of a literal takes at least. -/
def width (escape : Option (Char → Char)) (c : Char) : Nat :=
  if c = '\'' ∨ escape.isSome ∧ c = '\\' then 2 else 1

/-- How many characters of text a token takes at least. -/
def length (escape : Option (Char → Char)) : SqlToken → Nat
  | mark _ => 1
  | literal w => (w.map (width escape)).sum + 2

theorem width_le_two (escape : Option (Char → Char)) (c : Char) : width escape c ≤ 2 := by
  unfold width
  split <;> omega

/-- The least length of a literal that is not closed yet. -/
def opened (escape : Option (Char → Char)) : Option (List Char) → Nat
  | none => 0
  | some w => (w.map (width escape)).sum + 1

theorem opened_concat (w : List Char) (c : Char) :
    opened escape (some (w ++ [c])) = opened escape (some w) + width escape c := by
  simp [opened]
  omega

/-- Tokens are read from no less text than they take. -/
theorem sum_length_le {state : Option (List Char)} {s : List Char} {ts : List SqlToken}
    (h : read escape state s = some ts) :
    (ts.map (length escape)).sum ≤ s.length + opened escape state := by
  have hplain (c : Char) (hc : c ≠ '\'') (hescape : escape.isSome → c ≠ '\\') :
      width escape c = 1 := by
    simp only [width, hc, false_or, ite_eq_right_iff, and_imp]
    intro hsome hback
    exact absurd hback (hescape hsome)
  fun_induction read escape state s generalizing ts with
  | case1 => simp_all
  | case2 s ih =>
      have hs := ih h
      simp only [opened, List.map_nil, List.sum_nil, List.length_cons] at hs ⊢
      omega
  | case3 c s hc ih =>
      obtain ⟨ts, hts, rfl⟩ := Option.map_eq_some_iff.mp h
      have hs := ih hts
      simp only [List.map_cons, List.sum_cons, length, List.length_cons] at hs ⊢
      omega
  | case4 => cases h
  | case5 w =>
      obtain rfl := Option.some.inj h
      simp [length, opened]
      omega
  | case6 => cases h
  | case7 w s ih =>
      have hs := ih h
      have hwidth := width_le_two escape '\''
      simp only [opened_concat, List.length_cons] at hs ⊢
      omega
  | case8 w b s hb ih =>
      obtain ⟨ts, hts, rfl⟩ := Option.map_eq_some_iff.mp h
      have hs := ih hts
      simp only [List.map_cons, List.sum_cons, length, List.length_cons, opened] at hs ⊢
      omega
  | case9 w b s meaning hsome _ ih =>
      have hs := ih (hsome ▸ h)
      have hwidth := width_le_two escape (meaning b)
      simp only [opened_concat, List.length_cons] at hs ⊢
      omega
  | case10 w c b s hc meaning hsome hback ih =>
      have hs := ih (hsome ▸ h)
      have hwidth := hplain c hc fun _ => hback
      simp only [opened_concat, List.length_cons] at hs ⊢
      omega
  | case11 w c b s hc hnone ih =>
      have hs := ih (hnone ▸ h)
      have hwidth := hplain c hc (by simp [hnone])
      simp only [opened_concat, List.length_cons] at hs ⊢
      omega

/-! ## Literals behind commas -/

/-- The tokens of literals, each behind a comma, and of the parenthesis that closes a call. -/
def arguments (ws : List (List Char)) : List SqlToken :=
  (ws.flatMap fun w => [mark ',', literal w]) ++ [mark ')']

/-- The text of literals, each behind a comma, and of the parenthesis that closes a call. -/
def argumentText (ws : List (List Char)) : List Char :=
  (ws.flatMap fun w => ',' :: '\'' :: Chars.double '\'' w ++ ['\'']) ++ [')']

theorem head?_argumentText (ws : List (List Char)) : (argumentText ws).head? ≠ some '\'' := by
  cases ws <;> simp [argumentText]

theorem read_argumentText {ws : List (List Char)} (h : escape.isSome → ∀ w ∈ ws, '\\' ∉ w) :
    read escape none (argumentText ws) = some (arguments ws) := by
  induction ws with
  | nil => rfl
  | cons w ws ih =>
      have hw : escape.isSome → '\\' ∉ w := fun hsome => h hsome w List.mem_cons_self
      have hws : escape.isSome → ∀ w ∈ ws, '\\' ∉ w :=
        fun hsome w hw => h hsome w (List.mem_cons_of_mem _ hw)
      have htext : argumentText (w :: ws) =
          ',' :: '\'' :: (Chars.double '\'' w ++ '\'' :: argumentText ws) := by
        simp [argumentText]
      rw [htext, read_none_of_ne (by decide), read_none_quote,
        read_double hw [] (head?_argumentText ws), ih hws]
      rfl

theorem sum_width_eq (hsome : escape.isSome) (w : List Char) :
    (w.map (width escape)).sum = (Chars.double '\'' w).length + w.count '\\' := by
  induction w with
  | nil => rfl
  | cons c w ih =>
      by_cases hc : c = '\''
      · simp [Chars.double, hc, ih, width]
        omega
      · by_cases hback : c = '\\'
        · simp [Chars.double, hback, ih, width, hsome]
          omega
        · simp [Chars.double, hc, hback, ih, width]
          omega

/-- If a backslash escapes, literals take one character more for each backslash than is written. -/
theorem sum_length_arguments (hsome : escape.isSome) (ws : List (List Char)) :
    ((arguments ws).map (length escape)).sum =
      (argumentText ws).length + (ws.map (List.count '\\')).sum := by
  induction ws with
  | nil => rfl
  | cons w ws ih =>
      simp only [arguments, argumentText, List.flatMap_cons, List.map_append, List.sum_append,
        List.length_append, List.map_cons, List.sum_cons, List.length_cons, length,
        sum_width_eq hsome, List.map_nil, List.sum_nil, List.length_nil] at ih ⊢
      omega

/-- Literals are read as they are meant exactly if no backslash in them can escape. -/
theorem read_argumentText_iff {ws : List (List Char)} :
    read escape none (argumentText ws) = some (arguments ws) ↔
      (escape.isSome → ∀ w ∈ ws, '\\' ∉ w) := by
  refine ⟨fun h hsome w hw => ?_, read_argumentText⟩
  have hle := sum_length_le h
  rw [sum_length_arguments hsome] at hle
  have hnone : (ws.map (List.count '\\')).sum = 0 := by
    simp only [opened] at hle
    omega
  have hw : w.count '\\' = 0 :=
    List.sum_eq_zero_iff_forall_eq_nat.mp hnone _ (List.mem_map_of_mem hw)
  exact List.count_eq_zero.mp hw

theorem read_marks {m : List Char} (h : '\'' ∉ m) (s : List Char) :
    read escape none (m ++ s) = (read escape none s).map (m.map .mark ++ ·) := by
  induction m with
  | nil => simp
  | cons c m ih =>
      have hc : c ≠ '\'' := (List.ne_of_not_mem_cons h).symm
      have hm : '\'' ∉ m := List.not_mem_of_not_mem_cons h
      simp [read_none_of_ne hc, ih hm, Function.comp_def]

end SqlToken

/-! ## Paths into JSON columns -/

namespace Dialect

open SqlToken

/-- Does a backslash in a string literal escape the character behind it? -/
def hasEscapes : Dialect → Bool
  | mysql | clickhouse => true
  | postgres | sqlite | sqlserver | firebird => false

/-- How the dialect reads SQL text, where `meaning` says what escaped characters stand for. -/
def readSql (d : Dialect) (meaning : Char → Char) (sql : String) : Option (List SqlToken) :=
  read (if d.hasEscapes then some meaning else none) none sql.toList

/-- The part of the call of a path before the column. -/
def pathOpening : Dialect → String
  | sqlite | mysql => "JSON_EXTRACT("
  | sqlserver | firebird => "JSON_VALUE("
  | postgres => "json_extract_path_text("
  | clickhouse => "JSONExtractString("

/-- The part of the call of a path between the column and the path. -/
def columnCast : Dialect → String
  | postgres => "::json"
  | sqlite | mysql | sqlserver | firebird | clickhouse => ""

/-- What the literals of a path have to hold: all of its parts, or each of them. -/
def pathLiterals (d : Dialect) (path : List String) : List (List Char) :=
  match d with
  | sqlite | mysql | sqlserver | firebird => [("$." ++ ".".intercalate path).toList]
  | postgres | clickhouse => path.map String.toList

/-- The tokens of the call of a path behind the column. -/
def pathTokens (d : Dialect) (path : List String) : List SqlToken :=
  d.columnCast.toList.map .mark ++ arguments (d.pathLiterals path)

theorem toList_intercalate_literals {path : List String} (hpath : path ≠ []) :
    ',' :: (",".intercalate (path.map fun p => "'" ++ escapeLiteral p ++ "'")).toList =
      (path.map String.toList).flatMap fun w => ',' :: '\'' :: Chars.double '\'' w ++ ['\''] := by
  induction path with
  | nil => exact absurd rfl hpath
  | cons p path ih =>
      cases path with
      | nil => simp [escapeLiteral]
      | cons p' path =>
          have hrest := ih (List.cons_ne_nil p' path)
          rw [List.map_cons, List.map_cons] at hrest ⊢
          rw [String.intercalate_cons_cons, List.map_cons, List.map_cons, List.flatMap_cons, ← hrest]
          simp [escapeLiteral]

theorem argumentText_joined (x : String) :
    String.ofList (argumentText [("$." ++ x).toList]) =
      "," ++ ("'$." ++ escapeLiteral x ++ "'") ++ ")" := by
  apply String.toList_injective
  simp [argumentText, escapeLiteral, Chars.double]

theorem argumentText_keys {path : List String} (hpath : path ≠ []) :
    String.ofList (argumentText (path.map String.toList)) =
      "," ++ ",".intercalate (path.map fun p => "'" ++ escapeLiteral p ++ "'") ++ ")" := by
  rw [argumentText, ← toList_intercalate_literals hpath]
  apply String.toList_injective
  simp

/-- The call of a path is its opening, the column, and literals behind commas. -/
theorem quoteJson_eq (d : Dialect) (column : String) {path : List String} (hpath : path ≠ []) :
    d.quoteJson column path = d.pathOpening ++ column ++
      (d.columnCast ++ String.ofList (argumentText (d.pathLiterals path))) := by
  have hjoined := argumentText_joined (".".intercalate path)
  have hkeys := argumentText_keys hpath
  unfold quoteJson
  cases d with
  | sqlite | mysql | sqlserver | firebird | clickhouse =>
      simp only [pathOpening, columnCast, pathLiterals, hjoined, hkeys, String.append_assoc,
        String.empty_append]
  | postgres =>
      have hcast : "::json," = "::json" ++ "," := rfl
      simp only [pathOpening, columnCast, pathLiterals, hkeys, hcast, String.append_assoc]

/-- Behind the column the call of a path is read as literals that hold the path exactly if no
backslash in them can escape. -/
theorem readSql_quoteJson_iff (d : Dialect) (meaning : Char → Char) (column : String)
    {path : List String} (hpath : path ≠ []) :
    ∃ rest, d.quoteJson column path = d.pathOpening ++ column ++ rest ∧
      (d.readSql meaning rest = some (d.pathTokens path) ↔
        (d.hasEscapes = true → ∀ p ∈ path, '\\' ∉ p.toList)) := by
  refine ⟨_, d.quoteJson_eq column hpath, ?_⟩
  have hcast : '\'' ∉ d.columnCast.toList := by
    cases d <;> simp [columnCast]
  have hescape : (if d.hasEscapes = true then some meaning else none).isSome = d.hasEscapes := by
    cases d.hasEscapes <;> rfl
  have hliterals : (∀ w ∈ d.pathLiterals path, '\\' ∉ w) ↔ ∀ p ∈ path, '\\' ∉ p.toList := by
    cases d with
    | sqlite | mysql | sqlserver | firebird =>
        simp [pathLiterals, Chars.mem_intercalate_of_ne]
    | postgres | clickhouse => simp [pathLiterals]
  rw [readSql, String.toList_append, String.toList_ofList, read_marks hcast, pathTokens]
  rw [Option.map_eq_some_iff]
  simp only [List.append_right_inj, exists_eq_right, read_argumentText_iff, hescape, hliterals]

end Dialect

end EntityRest
