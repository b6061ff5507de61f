import EntityRest.Proofs.Number.Integer
import EntityRest.Proofs.Sql.Fragment
import EntityRest.Sql.Write

/-! # Names in SQL

How SQL text is cut into names in quotes and the characters between them, and what names a statement
that writes has: its table, the columns that it lists, and those that it matches rows by. -/

namespace EntityRest

/-- A character outside of names, or a name without its quotes. -/
inductive SqlPart where
  | mark (c : Char)
  | name (ident : String)
deriving DecidableEq

namespace SqlPart

/-- Reads SQL text, outside of names or behind the given start of one. A quote inside a name is
written twice. -/
def read (q : Char) : Option (List Char) → List Char → Option (List SqlPart)
  | none, [] => some []
  | none, c :: s => if c = q then read q (some []) s else (read q none s).map (.mark c :: ·)
  | some _, [] => none
  | some w, [c] => if c = q then some [.name (String.ofList w)] else none
  | some w, c :: b :: s =>
    if c = q then
      if b = q then read q (some (w ++ [q])) s
      else (read q none (b :: s)).map (.name (String.ofList w) :: ·)
    else read q (some (w ++ [c])) (b :: s)

/-- The parts of a text without names. -/
def marks (text : String) : List SqlPart := text.toList.map mark

def names (ps : List SqlPart) : List String :=
  ps.filterMap fun p =>
    match p with
    | name ident => some ident
    | mark _ => none

@[simp] theorem names_nil : names [] = [] := rfl

@[simp] theorem names_name_cons (ident : String) (ps : List SqlPart) :
    names (name ident :: ps) = ident :: names ps :=
  rfl

@[simp] theorem names_mark_cons (c : Char) (ps : List SqlPart) : names (mark c :: ps) = names ps :=
  rfl

@[simp] theorem names_append (ps ts : List SqlPart) : names (ps ++ ts) = names ps ++ names ts :=
  List.filterMap_append

@[simp] theorem names_marks (text : String) : names (marks text) = [] := by
  simp [marks, names]

/-! ## Reading names -/

variable {q : Char}

theorem read_marks {m : List Char} (hm : q ∉ m) (s : List Char) :
    read q none (m ++ s) = (read q none s).map (m.map mark ++ ·) := by
  induction m with
  | nil => simp
  | cons c m ih =>
      have hc : c ≠ q := (List.ne_of_not_mem_cons hm).symm
      simp [read, hc, ih (List.not_mem_of_not_mem_cons hm), Function.comp_def]

theorem read_double (ident w : List Char) {rest : List Char} (hrest : rest.head? ≠ some q) :
    read q (some w) (Chars.double q ident ++ q :: rest) =
      (read q none rest).map (name (String.ofList (w ++ ident)) :: ·) := by
  induction ident generalizing w with
  | nil =>
      cases rest with
      | nil => simp [Chars.double, read]
      | cons b rest =>
          have hb : b ≠ q := by simpa using hrest
          simp [Chars.double, read, hb]
  | cons c ident ih =>
      by_cases hc : c = q
      · simp [Chars.double, hc, read, ih]
      · obtain ⟨b, s, hs⟩ : ∃ b s, Chars.double q ident ++ q :: rest = b :: s :=
          List.exists_cons_of_ne_nil (by simp)
        have hstep := ih (w ++ [c])
        rw [hs] at hstep
        simp only [Chars.double, if_neg hc, List.cons_append, hs, read, hstep]
        simp

end SqlPart

namespace Dialect

variable {d : Dialect}

/-- How the dialect reads SQL text. -/
def readParts (d : Dialect) (sql : String) : Option (List SqlPart) :=
  SqlPart.read d.quoteChar none sql.toList

theorem quoteChar_notMem {text : String} (h : '"' ∉ text.toList ∧ '\x60' ∉ text.toList) :
    d.quoteChar ∉ text.toList := by
  cases d with
  | postgres | sqlserver | firebird => exact h.1
  | mysql | sqlite | clickhouse => exact h.2

theorem toList_quote (d : Dialect) (ident : String) :
    (d.quote ident).toList =
      d.quoteChar :: Chars.double d.quoteChar ident.toList ++ [d.quoteChar] :=
  String.toList_ofList

/-- The dialect reads the text as the parts, whatever follows that is no quote. -/
def Reads (d : Dialect) (sql : String) (ps : List SqlPart) : Prop :=
  ∀ rest : List Char, rest.head? ≠ some d.quoteChar →
    SqlPart.read d.quoteChar none (sql.toList ++ rest) =
      (SqlPart.read d.quoteChar none rest).map (ps ++ ·)

namespace Reads

variable {s t m : String} {ps ts : List SqlPart}

theorem nil : d.Reads "" [] := fun rest _ => by simp

theorem readParts_eq (h : d.Reads s ps) : d.readParts s = some ps := by
  simpa [readParts, SqlPart.read] using h [] (by simp)

theorem append (hs : d.Reads s ps) (ht : d.Reads t ts) (hhead : t.toList.head? ≠ some d.quoteChar) :
    d.Reads (s ++ t) (ps ++ ts) := by
  intro rest hrest
  have hnext : (t.toList ++ rest).head? ≠ some d.quoteChar := by
    cases htext : t.toList with
    | nil => exact hrest
    | cons c cs => simpa [htext] using hhead
  rw [String.toList_append, List.append_assoc, hs _ hnext, ht rest hrest]
  simp [Function.comp_def]

theorem marks_append (hm : d.quoteChar ∉ m.toList) (hs : d.Reads s ps) :
    d.Reads (m ++ s) (SqlPart.marks m ++ ps) := by
  intro rest hrest
  rw [String.toList_append, List.append_assoc, SqlPart.read_marks hm, hs rest hrest]
  simp [Function.comp_def, SqlPart.marks]

theorem marks (hm : d.quoteChar ∉ m.toList) : d.Reads m (SqlPart.marks m) := by
  simpa using nil.marks_append hm

theorem quote (ident : String) : d.Reads (d.quote ident) [.name ident] := by
  intro rest hrest
  have hquoted : (d.quote ident).toList ++ rest =
      d.quoteChar :: (Chars.double d.quoteChar ident.toList ++ d.quoteChar :: rest) := by
    simp [toList_quote]
  rw [hquoted, SqlPart.read, if_pos rfl, SqlPart.read_double _ _ hrest]
  simp

theorem quote_append (ident : String) (h : d.Reads s ps)
    (hhead : s.toList.head? ≠ some d.quoteChar) :
    d.Reads (d.quote ident ++ s) (.name ident :: ps) :=
  (quote ident).append h hhead

theorem quote_marks (ident : String) (hm : d.quoteChar ∉ m.toList) :
    d.Reads (d.quote ident ++ m) (.name ident :: SqlPart.marks m) :=
  (marks hm).quote_append ident fun hhead => hm (List.mem_of_head? hhead)

theorem quote_marks_append (ident : String) (hne : m ≠ "") (hm : d.quoteChar ∉ m.toList)
    (h : d.Reads s ps) :
    d.Reads (d.quote ident ++ (m ++ s)) (.name ident :: (SqlPart.marks m ++ ps)) := by
  refine quote_append ident (h.marks_append hm) fun hhead => hm ?_
  obtain ⟨c, cs, hcs⟩ := List.exists_cons_of_ne_nil (by simpa using hne : m.toList ≠ [])
  rw [String.toList_append, hcs, List.cons_append, List.head?_cons, Option.some_inj] at hhead
  simp [hcs, hhead]

end Reads

end Dialect

namespace SqlPart

/-! ## Names around a word -/

/-- The names before the word WHERE, and those behind it. -/
def aroundWhere : List SqlPart → List String × List String
  | [] => ([], [])
  | p :: ps =>
    if (marks " WHERE ").isPrefixOf (p :: ps) then ([], names ps)
    else (names [p] ++ (aroundWhere ps).1, (aroundWhere ps).2)

theorem marks_where : marks " WHERE " = mark ' ' :: mark 'W' :: marks "HERE " := by decide +kernel

theorem aroundWhere_cons {p : SqlPart} {ps : List SqlPart} (h : ¬ marks " WHERE " <+: p :: ps) :
    aroundWhere (p :: ps) = (names [p] ++ (aroundWhere ps).1, (aroundWhere ps).2) := by
  rw [aroundWhere, if_neg (by simpa using h)]

theorem aroundWhere_of_notMem {ps : List SqlPart} (h : mark 'W' ∉ ps) :
    aroundWhere ps = (names ps, []) := by
  induction ps with
  | nil => rfl
  | cons p ps ih =>
      have hnot : ¬ marks " WHERE " <+: p :: ps := by
        intro hstarts
        exact h (hstarts.subset (by simp [marks_where]))
      rw [aroundWhere_cons hnot, ih (List.not_mem_of_not_mem_cons h), ← names_append]
      rfl

theorem aroundWhere_append {ps : List SqlPart} (h : mark 'W' ∉ ps) (ts : List SqlPart) :
    aroundWhere (ps ++ (marks " WHERE " ++ ts)) = (names ps, names ts) := by
  induction ps with
  | nil =>
      have hstarts : marks " WHERE " <+: mark ' ' :: mark 'W' :: marks "HERE " ++ ts :=
        ⟨ts, by rw [marks_where]⟩
      rw [List.nil_append, marks_where, List.cons_append, aroundWhere,
        if_pos (by simpa using hstarts)]
      simp
  | cons p ps ih =>
      have hps : mark 'W' ∉ ps := List.not_mem_of_not_mem_cons h
      -- a word that starts here would have its W before the word that is meant
      have hnot : ¬ marks " WHERE " <+: p :: (ps ++ (marks " WHERE " ++ ts)) := by
        rw [marks_where, List.cons_prefix_cons]
        rintro ⟨-, hstarts⟩
        cases ps with
        | nil => exact absurd (List.cons_prefix_cons.mp hstarts).1 (by decide)
        | cons p' ps => exact List.ne_of_not_mem_cons hps (List.cons_prefix_cons.mp hstarts).1
      rw [List.cons_append, aroundWhere_cons hnot, ih hps, ← names_append]
      rfl

end SqlPart

/-! ## Names of a statement that writes -/

/-- What a statement that writes names: its table, the columns that it lists, and the columns that
it matches rows by. -/
structure WriteNames where
  table : String
  listed : List String
  matched : List String
deriving DecidableEq

namespace Dialect

/-- What a statement that writes names. -/
def readWrite? (d : Dialect) (sql : String) : Option WriteNames :=
  (d.readParts sql).bind fun ps =>
    match SqlPart.aroundWhere ps with
    | (table :: listed, matched) => some ⟨table, listed, matched⟩
    | ([], _) => none

/-- The text has no names, and no W either. -/
def IsPlain (d : Dialect) (text : String) : Prop := d.quoteChar ∉ text.toList ∧ 'W' ∉ text.toList

instance (d : Dialect) (text : String) : Decidable (d.IsPlain text) :=
  inferInstanceAs (Decidable (_ ∧ _))

variable {d : Dialect}

theorem isPlain_of_notMem {text : String}
    (h : ('"' ∉ text.toList ∧ '\x60' ∉ text.toList) ∧ 'W' ∉ text.toList) : d.IsPlain text :=
  ⟨quoteChar_notMem h.1, h.2⟩

theorem IsPlain.append {s t : String} (hs : d.IsPlain s) (ht : d.IsPlain t) :
    d.IsPlain (s ++ t) := by
  simp only [IsPlain, String.toList_append, List.mem_append, not_or]
  exact ⟨⟨hs.1, ht.1⟩, hs.2, ht.2⟩

theorem isPlain_placeholder (n : Nat) : d.IsPlain (d.placeholder n) := by
  have hdigits : d.IsPlain (toString n) := by
    have hdigit {c : Char} (hc : c ∈ (toString n).toList) : Decimal.isDigit c = true :=
      Decimal.isDigit_of_mem_toDigits (by simpa using hc)
    refine isPlain_of_notMem ⟨⟨?_, ?_⟩, ?_⟩ <;> exact fun hc => absurd (hdigit hc) (by decide)
  cases d with
  | postgres | sqlserver => exact (isPlain_of_notMem (by decide +kernel)).append hdigits
  | mysql | sqlite | firebird | clickhouse => exact isPlain_of_notMem (by simp [placeholder])

/-- The text has the names, and plain text around them. -/
def Names (d : Dialect) (sql : String) (cs : List String) : Prop :=
  ∃ ps, d.Reads sql ps ∧ SqlPart.names ps = cs ∧ .mark 'W' ∉ ps

namespace Names

variable {sql m : String} {cs : List String}

theorem nil : d.Names "" [] := ⟨[], .nil, rfl, by simp⟩

theorem plain_append (hm : d.IsPlain m) (h : d.Names sql cs) : d.Names (m ++ sql) cs := by
  obtain ⟨ps, hreads, hnames, hw⟩ := h
  refine ⟨SqlPart.marks m ++ ps, hreads.marks_append hm.1, by simpa using hnames, ?_⟩
  simpa [SqlPart.marks, hw] using hm.2

theorem plain (hm : d.IsPlain m) : d.Names m [] := by
  simpa using nil.plain_append hm

theorem quote_append (ident : String) (h : d.Names sql cs)
    (hhead : sql.toList.head? ≠ some d.quoteChar) :
    d.Names (d.quote ident ++ sql) (ident :: cs) := by
  obtain ⟨ps, hreads, hnames, hw⟩ := h
  exact ⟨_, hreads.quote_append ident hhead, congrArg (ident :: ·) hnames, by simpa using hw⟩

theorem quote_plain_append (ident : String) (hne : m ≠ "") (hm : d.IsPlain m) (h : d.Names sql cs) :
    d.Names (d.quote ident ++ (m ++ sql)) (ident :: cs) := by
  obtain ⟨ps, hreads, hnames, hw⟩ := h
  refine ⟨_, hreads.quote_marks_append ident hne hm.1, by simpa using hnames, ?_⟩
  simpa [SqlPart.marks, hw] using hm.2

theorem readWrite?_eq {table : String} {listed : List String}
    (h : d.Names sql (table :: listed)) : d.readWrite? sql = some ⟨table, listed, []⟩ := by
  obtain ⟨ps, hreads, hnames, hw⟩ := h
  simp [readWrite?, hreads.readParts_eq, SqlPart.aroundWhere_of_notMem hw, hnames]

/-- Rows are matched by the column behind the word WHERE. -/
theorem readWrite?_where_eq {value table : String} {listed : List String}
    (h : d.Names sql (table :: listed)) (key : String) (hvalue : d.IsPlain value) :
    d.readWrite? (sql ++ (" WHERE " ++ (d.quote key ++ (" = " ++ value)))) =
      some ⟨table, listed, [key]⟩ := by
  obtain ⟨ps, hreads, hnames, hw⟩ := h
  obtain ⟨ts, hkey, hts, -⟩ : d.Names (d.quote key ++ (" = " ++ value)) [key] :=
    .quote_plain_append key (by simp) (isPlain_of_notMem (by decide +kernel)) (.plain hvalue)
  have hquote : d.quoteChar ∉ " WHERE ".toList := quoteChar_notMem (by decide +kernel)
  have hhead : (" WHERE " ++ (d.quote key ++ (" = " ++ value))).toList.head? ≠
      some d.quoteChar := by
    cases d <;> simp [quoteChar]
  have hall := hreads.append (hkey.marks_append hquote) hhead
  rw [readWrite?, hall.readParts_eq, Option.bind_some, SqlPart.aroundWhere_append hw, hnames, hts]

end Names

end Dialect

/-! ## The statements that write -/

theorem Fragment.isPlain_bind (d : Dialect) (n : Nat) (v : SqlValue) :
    d.IsPlain (String.join (texts d n [bind v])) := by
  unfold bind
  split
  · exact Dialect.isPlain_of_notMem (by simp [texts])
  · simpa [texts] using Dialect.isPlain_placeholder n

namespace Sql

open Dialect (isPlain_of_notMem)
open Fragment (bind joinWith statement texts)

variable {d : Dialect} {s : Schema}

/-- The text of values between commas, numbered from `n`. -/
def valuesText (d : Dialect) (n : Nat) (values : Assignments) : String :=
  String.join (texts d n (joinWith ", " (values.map fun v => [bind v.2])))

/-- The text of assignments between commas, numbered from `n`. -/
def setsText (d : Dialect) (n : Nat) (sets : Assignments) : String :=
  String.join (texts d n (joinWith ", "
    (sets.map fun v => [.text (d.quote v.1 ++ " = "), bind v.2])))

theorem isPlain_valuesText (n : Nat) (values : Assignments) :
    d.IsPlain (valuesText d n values) := by
  induction values generalizing n with
  | nil => exact isPlain_of_notMem (by simp [valuesText, joinWith, texts])
  | cons v values ih =>
      have hvalue := Fragment.isPlain_bind d n v.2
      cases values with
      | nil => exact hvalue
      | cons v' values =>
          rw [valuesText, List.map_cons, List.map_cons, Fragment.join_texts_joinWith]
          exact hvalue.append ((isPlain_of_notMem (by decide +kernel)).append (ih _))

theorem names_columns (columns : List String) {rest : String} (hrest : d.IsPlain rest) :
    d.Names (", ".intercalate (columns.map d.quote) ++ rest) columns := by
  induction columns with
  | nil => simpa using Dialect.Names.plain hrest
  | cons column columns ih =>
      cases columns with
      | nil =>
          rw [List.map_singleton, String.intercalate_singleton]
          refine (Dialect.Names.plain hrest).quote_append column fun hhead => hrest.1 ?_
          exact List.mem_of_head? hhead
      | cons column' columns =>
          rw [List.map_cons, List.map_cons, String.intercalate_cons_cons, String.append_assoc,
            String.append_assoc]
          exact .quote_plain_append column (by simp) (isPlain_of_notMem (by decide +kernel)) ih

theorem names_setsText (n : Nat) (sets : Assignments) :
    d.Names (setsText d n sets) (sets.map Prod.fst) := by
  have hset (n : Nat) (v : String × SqlValue) :
      String.join (texts d n [.text (d.quote v.1 ++ " = "), bind v.2]) =
        d.quote v.1 ++ (" = " ++ String.join (texts d n [bind v.2])) := by
    rw [texts, String.join_cons, String.append_assoc]
  have hequals : d.IsPlain " = " := isPlain_of_notMem (by decide +kernel)
  induction sets generalizing n with
  | nil => exact .nil
  | cons v sets ih =>
      have hvalue := Fragment.isPlain_bind d n v.2
      cases sets with
      | nil =>
          rw [setsText, List.map_singleton, joinWith, hset]
          exact .quote_plain_append v.1 (by simp) hequals (.plain hvalue)
      | cons v' sets =>
          rw [setsText, List.map_cons, List.map_cons, Fragment.join_texts_joinWith, hset,
            String.append_assoc, String.append_assoc]
          refine .quote_plain_append v.1 (by simp) hequals (.plain_append hvalue ?_)
          exact (ih _).plain_append (isPlain_of_notMem (by decide +kernel))

theorem sql_insert (values : Assignments) :
    (statement d (insert s d values)).sql =
      "INSERT INTO " ++ (d.quote s.table ++ (" (" ++
        (", ".intercalate ((values.map Prod.fst).map d.quote) ++
          (") VALUES (" ++ (valuesText d 1 values ++ ")"))))) := by
  simp only [statement, insert, valuesText, texts, Fragment.texts_append, String.join_append,
    String.join_cons, String.join_nil, String.append_assoc, String.append_empty, List.map_map,
    Function.comp_def, List.cons_append, List.nil_append]

theorem readWrite?_insert (values : Assignments) :
    d.readWrite? (statement d (insert s d values)).sql =
      some ⟨s.table, values.map Prod.fst, []⟩ := by
  have hinto : d.IsPlain "INSERT INTO " := isPlain_of_notMem (by decide +kernel)
  have hopen : d.IsPlain " (" := isPlain_of_notMem (by decide +kernel)
  have hclose : d.IsPlain (") VALUES (" ++ (valuesText d 1 values ++ ")")) :=
    (isPlain_of_notMem (by decide +kernel)).append
      ((isPlain_valuesText 1 values).append (isPlain_of_notMem (by decide +kernel)))
  have hcolumns := names_columns (values.map Prod.fst) hclose
  rw [sql_insert]
  exact ((hcolumns.quote_plain_append s.table (by simp) hopen).plain_append hinto).readWrite?_eq

theorem sql_update {key : String} {id : SqlValue} {values : Assignments} {fs : List Fragment}
    (h : update? s d key id values = some fs) :
    ∃ n, (statement d fs).sql =
      "UPDATE " ++ (d.quote s.table ++ (" SET " ++
        setsText d 1 (values.filter fun v => v.1 ≠ key))) ++
        (" WHERE " ++ (d.quote key ++ (" = " ++ String.join (texts d n [bind id])))) := by
  unfold update? at h
  split at h
  · cases h
  · obtain rfl := Option.some.inj h
    have hwhere (n : Nat) :
        String.join (texts d n [.text (" WHERE " ++ d.quote key ++ " = "), bind id]) =
          " WHERE " ++ (d.quote key ++ (" = " ++ String.join (texts d n [bind id]))) := by
      rw [texts, String.join_cons, String.append_assoc, String.append_assoc]
    rw [statement, Fragment.texts_append, String.join_append]
    refine ⟨_, congrArg₂ (· ++ ·) ?_ (hwhere _)⟩
    rw [List.singleton_append, texts, String.join_cons, String.append_assoc, String.append_assoc]
    rfl

theorem readWrite?_update {key : String} {id : SqlValue} {values : Assignments}
    {fs : List Fragment} (h : update? s d key id values = some fs) :
    d.readWrite? (statement d fs).sql =
      some ⟨s.table, (values.map Prod.fst).filter (· ≠ key), [key]⟩ := by
  have hupdate : d.IsPlain "UPDATE " := isPlain_of_notMem (by decide +kernel)
  have hset : d.IsPlain " SET " := isPlain_of_notMem (by decide +kernel)
  obtain ⟨n, hsql⟩ := sql_update h
  have hsets := names_setsText (d := d) 1 (values.filter fun v => v.1 ≠ key)
  have htable := (hsets.quote_plain_append s.table (by simp) hset).plain_append hupdate
  rw [hsql, htable.readWrite?_where_eq key (Fragment.isPlain_bind d n id), List.filter_map]
  rfl

example : Dialect.postgres.readWrite?
    "UPDATE \"a \"\"WHERE \"\" b\" SET \"x\" = NULL, \"y\" = $1 WHERE \"k\" = $2" =
      some ⟨"a \"WHERE \" b", ["x", "y"], ["k"]⟩ := by
  decide +kernel

theorem readWrite?_delete (key : String) (id : SqlValue) :
    d.readWrite? (statement d (delete s d key id)).sql = some ⟨s.table, [], [key]⟩ := by
  have hfrom : d.IsPlain "DELETE FROM " := isPlain_of_notMem (by decide +kernel)
  have htable : d.Names ("DELETE FROM " ++ d.quote s.table) [s.table] := by
    simpa using (Dialect.Names.nil.quote_append s.table (by simp)).plain_append hfrom
  rw [← htable.readWrite?_where_eq key (Fragment.isPlain_bind d 1 id)]
  simp only [statement, delete, texts, String.join_cons, String.append_assoc]

end Sql

end EntityRest
