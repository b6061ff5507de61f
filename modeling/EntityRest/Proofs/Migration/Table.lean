import EntityRest.Migration.Table
import EntityRest.Proofs.Sql.Names
import Mathlib.Data.List.Forall2
import Mathlib.Data.List.Nodup

/-! # The columns of a created table

How the statement that creates a table is read: definitions stand between commas, and commas inside
of parentheses belong to a definition. What it defines are the columns of the schema's own table,
each of them once, and then the primary key. -/

namespace EntityRest

open List (Forall₂)

/-- What is defined in a table. -/
inductive TableItem where
  | column (name : String)
  | key (name : String)
deriving DecidableEq

namespace SqlPart

/-- The parts behind a text. -/
def behind? (text : String) (ps : List SqlPart) : Option (List SqlPart) :=
  if (marks text).isPrefixOf ps then some (ps.drop (marks text).length) else none

@[simp] theorem behind?_append (text : String) (ps : List SqlPart) :
    behind? text (marks text ++ ps) = some ps := by
  rw [behind?, if_pos (by simp), List.drop_left]

theorem marks_close : marks ")" = [mark ')'] := by decide +kernel

/-! ## Definitions of a table -/

/-- What is defined: a column, whose name comes first and is the only one, or the primary key. -/
def item? (ps : List SqlPart) : Option TableItem :=
  match ps.dropWhile (· = mark ' ') with
  | name c :: ps => if names ps = [] then some (.column c) else none
  | ps =>
    match behind? "PRIMARY KEY (" ps with
    | some [name c, mark ')'] => some (.key c)
    | _ => none

/-- The definitions up to the closing parenthesis, behind the given start of one. Parentheses that
were opened inside of it are counted. -/
def items? : Nat → List SqlPart → List SqlPart → Option (List TableItem)
  | _, _, [] => none
  | depth, item, p :: ps =>
    if p = mark '(' then items? (depth + 1) (item ++ [p]) ps
    else if p = mark ')' then
      match depth with
      | 0 => (item? item).map ([·])
      | depth + 1 => items? depth (item ++ [p]) ps
    else if p = mark ',' ∧ depth = 0 then
      (item? item).bind fun i => (items? 0 [] ps).map (i :: ·)
    else items? depth (item ++ [p]) ps

/-- How many parentheses are open behind the parts, if none is closed that was not opened and no
comma stands outside. -/
def depth? : Nat → List SqlPart → Option Nat
  | depth, [] => some depth
  | depth, p :: ps =>
    if p = mark '(' then depth? (depth + 1) ps
    else if p = mark ')' then
      match depth with
      | 0 => none
      | depth + 1 => depth? depth ps
    else if p = mark ',' ∧ depth = 0 then none
    else depth? depth ps

theorem depth?_append (n : Nat) (ps ts : List SqlPart) :
    depth? n (ps ++ ts) = (depth? n ps).bind fun m => depth? m ts := by
  fun_induction depth? n ps with
  | case1 => rfl
  | case2 | case3 | case4 | case5 | case6 => simp_all [depth?]

theorem items?_append {n m : Nat} {ps : List SqlPart} (h : depth? n ps = some m)
    (item rest : List SqlPart) : items? n item (ps ++ rest) = items? m (item ++ ps) rest := by
  fun_induction depth? n ps generalizing item with
  | case1 => simp_all
  | case2 | case4 | case6 => simp_all [items?]
  | case3 | case5 => cases h

theorem item?_append {start : List SqlPart} (hstart : ∀ p ∈ start, p = mark ' ')
    (ps : List SqlPart) : item? (start ++ ps) = item? ps := by
  have hdrop : (start ++ ps).dropWhile (· = mark ' ') = ps.dropWhile (· = mark ' ') :=
    List.dropWhile_append_of_pos fun p hp => by simpa using hstart p hp
  rw [item?, item?, hdrop]

end SqlPart

namespace Dialect

variable {d : Dialect}

/-- What the statement that creates a table defines. -/
def readTable? (d : Dialect) (sql : String) : Option (String × List TableItem) :=
  (d.readParts sql).bind fun ps =>
    match SqlPart.behind? "CREATE TABLE " ps with
    | some (.name table :: ps) =>
      (SqlPart.behind? " (" ps).bind fun ps =>
        (SqlPart.items? 0 [] ps).map fun items => (table, items)
    | _ => none

/-- The text is read as one definition. -/
def ReadsItem (d : Dialect) (text : String) (i : TableItem) : Prop :=
  ∃ ps, d.Reads text ps ∧ SqlPart.depth? 0 ps = some 0 ∧ SqlPart.item? ps = some i

/-- Definitions between commas are read one by one. -/
theorem reads_items {texts : List String} {items : List TableItem}
    (h : Forall₂ d.ReadsItem texts items) (hne : texts ≠ []) :
    ∃ ps, d.Reads (", ".intercalate texts) ps ∧
      -- all but the first stand behind a blank
      ∀ start : List SqlPart, (∀ p ∈ start, p = .mark ' ') → ∀ rest,
        SqlPart.items? 0 start (ps ++ .mark ')' :: rest) = some items := by
  have hcomma : SqlPart.marks ", " = [.mark ',', .mark ' '] := by decide +kernel
  have hquote : d.quoteChar ∉ ", ".toList := quoteChar_notMem (by decide +kernel)
  induction h with
  | nil => exact absurd rfl hne
  | @cons text i texts items hi h ih =>
      obtain ⟨ps, hreads, hdepth, hitem⟩ := hi
      cases h with
      | nil =>
          refine ⟨ps, by simpa using hreads, fun start hstart rest => ?_⟩
          rw [SqlPart.items?_append hdepth]
          simp [SqlPart.items?, SqlPart.item?_append hstart, hitem]
      | cons hi' h =>
          obtain ⟨more, hmore, hitems⟩ := ih (by simp)
          refine ⟨ps ++ (SqlPart.marks ", " ++ more), ?_, fun start hstart rest => ?_⟩
          · rw [String.intercalate_cons_cons, String.append_assoc]
            exact hreads.append (hmore.marks_append hquote) (by cases d <;> simp [quoteChar])
          · have hnext := hitems [.mark ' '] (by simp) rest
            rw [List.append_assoc, List.append_assoc, SqlPart.items?_append hdepth, hcomma]
            simp [SqlPart.items?, SqlPart.item?_append hstart, hitem, hnext]

/-- The text has no names, and where `n` parentheses are open before it, `m` are open behind it. -/
def Nests (d : Dialect) (n : Nat) (text : String) (m : Nat) : Prop :=
  d.quoteChar ∉ text.toList ∧ SqlPart.depth? n (SqlPart.marks text) = some m

instance (d : Dialect) (n : Nat) (text : String) (m : Nat) : Decidable (d.Nests n text m) :=
  inferInstanceAs (Decidable (_ ∧ _))

theorem Nests.append {n m k : Nat} {s t : String} (hs : d.Nests n s m) (ht : d.Nests m t k) :
    d.Nests n (s ++ t) k := by
  refine ⟨by simp [hs.1, ht.1], ?_⟩
  have hmarks : SqlPart.marks (s ++ t) = SqlPart.marks s ++ SqlPart.marks t := by
    simp [SqlPart.marks]
  rw [hmarks, SqlPart.depth?_append, hs.2]
  exact ht.2

theorem nests_of_notMem {n m : Nat} {text : String}
    (h : ('"' ∉ text.toList ∧ '\x60' ∉ text.toList) ∧
      SqlPart.depth? n (SqlPart.marks text) = some m) : d.Nests n text m :=
  ⟨quoteChar_notMem h.1, h.2⟩

theorem nests_columnType (k : ScalarKind) (d : Dialect) : d.Nests 0 (k.columnType d) 0 := by
  cases k <;> cases d <;> decide +kernel

theorem nests_uuidDefault (d : Dialect) : d.Nests 0 d.uuidDefault 0 := by
  cases d with
  | sqlite =>
      unfold uuidDefault
      refine Nests.append (m := 1) ?_ (by decide +kernel)
      refine Nests.append (m := 1) ?_ (by decide +kernel)
      exact Nests.append (m := 1) (by decide +kernel) (by decide +kernel)
  | postgres | mysql | sqlserver | firebird | clickhouse => decide +kernel

end Dialect

namespace Schema

variable {s : Schema} {d : Dialect}

/-! ## The definition of a column -/

theorem columnDef_eq (s : Schema) (d : Dialect) (column : String) (f : Field) :
    ∃ text, s.columnDef d column f = d.quote column ++ (" " ++ text) ∧
      d.Nests 0 (" " ++ text) 0 := by
  have hblank : d.Nests 0 " " 0 := Dialect.nests_of_notMem (by decide +kernel)
  have hnotNull : d.Nests 0 " NOT NULL" 0 := Dialect.nests_of_notMem (by decide +kernel)
  have hdefault : d.Nests 0 " DEFAULT " 0 := Dialect.nests_of_notMem (by decide +kernel)
  have hempty : d.Nests 0 "" 0 := Dialect.nests_of_notMem (by decide +kernel)
  refine ⟨_, by rw [columnDef, String.append_assoc, String.append_assoc], ?_⟩
  refine hblank.append ((Dialect.nests_columnType f.kind d).append ?_)
  split
  · refine hnotNull.append ?_
    split
    · exact hdefault.append (Dialect.nests_uuidDefault d)
    · exact hempty
  · exact hempty

theorem reads_columnDef (s : Schema) (d : Dialect) (column : String) (f : Field) :
    ∃ ps, d.Reads (s.columnDef d column f) (.name column :: ps) ∧ SqlPart.names ps = [] ∧
      SqlPart.depth? 0 ps = some 0 := by
  obtain ⟨text, htext, hquote, hdepth⟩ := s.columnDef_eq d column f
  refine ⟨_, ?_, SqlPart.names_marks _, hdepth⟩
  rw [htext]
  exact .quote_marks column hquote

theorem readsItem_columnDef (s : Schema) (d : Dialect) (column : String) (f : Field) :
    d.ReadsItem (s.columnDef d column f) (.column column) := by
  obtain ⟨ps, hreads, hnames, hdepth⟩ := s.reads_columnDef d column f
  exact ⟨_, hreads, by simpa [SqlPart.depth?] using hdepth, by simp [SqlPart.item?, hnames]⟩

/-- A definition starts with a quoted column exactly if that is its column. -/
theorem startsWith_columnDef_iff {column column' : String} {f : Field} :
    Text.startsWith (d.quote column ++ " ") (s.columnDef d column' f) = true ↔
      column = column' := by
  rw [Text.startsWith, List.isPrefixOf_iff_prefix]
  constructor
  · rintro ⟨rest, hrest⟩
    -- both columns are the first part that is read
    obtain ⟨ps, hreads, -⟩ := s.reads_columnDef d column' f
    have hread := hreads.readParts_eq
    have hblank : (' ' :: rest).head? ≠ some d.quoteChar := by cases d <;> simp [Dialect.quoteChar]
    have hfirst := Dialect.Reads.quote (d := d) column (' ' :: rest) hblank
    have htext : (s.columnDef d column' f).toList = (d.quote column).toList ++ ' ' :: rest := by
      rw [← hrest]
      simp
    rw [Dialect.readParts, htext, hfirst, Option.map_eq_some_iff] at hread
    obtain ⟨_, -, hparts⟩ := hread
    simpa using (List.cons.inj hparts).1
  · rintro rfl
    obtain ⟨text, htext, -⟩ := s.columnDef_eq d column f
    exact ⟨text.toList, by simp [htext]⟩

/-- A column is defined once: the definitions are of distinct columns, and of all that are given. -/
theorem columnDefs_map (done : List (String × Field)) (hdone : (done.map Prod.fst).Nodup)
    (columns : List (String × Field)) :
    ∃ defined : List (String × Field),
      s.columnDefs d (done.map fun c => s.columnDef d c.1 c.2) columns =
        defined.map (fun c => s.columnDef d c.1 c.2) ∧
      (defined.map Prod.fst).Nodup ∧
      ∀ c, c ∈ defined.map Prod.fst ↔ c ∈ done.map Prod.fst ∨ c ∈ columns.map Prod.fst := by
  induction columns generalizing done with
  | nil => exact ⟨done, rfl, hdone, by simp⟩
  | cons column columns ih =>
      obtain ⟨column, f⟩ := column
      have hthere : (done.map fun c => s.columnDef d c.1 c.2).any
          (Text.startsWith (d.quote column ++ " ")) = true ↔ column ∈ done.map Prod.fst := by
        simp [startsWith_columnDef_iff]
      by_cases hcolumn : column ∈ done.map Prod.fst
      · obtain ⟨defined, hdefs, hnodup, hmem⟩ := ih done hdone
        refine ⟨defined, ?_, hnodup, fun c => ?_⟩
        · rw [columnDefs, if_pos (hthere.mpr hcolumn), hdefs]
        · rw [hmem c, List.map_cons, List.mem_cons]
          grind
      · have hmore : ((done ++ [(column, f)]).map Prod.fst).Nodup := by
          rw [List.map_append, List.map_singleton]
          exact List.nodup_append'.mpr ⟨hdone, List.nodup_singleton _, by simpa using hcolumn⟩
        obtain ⟨defined, hdefs, hnodup, hmem⟩ := ih _ hmore
        refine ⟨defined, ?_, hnodup, fun c => ?_⟩
        · rw [columnDefs, if_neg (hthere.not.mpr hcolumn), ← hdefs, List.map_append]
          rfl
        · rw [hmem c]
          simp [or_assoc]

/-! ## The definitions of a table -/

theorem reads_engineClause (s : Schema) (d : Dialect) : ∃ ps, d.Reads (s.engineClause d) ps := by
  unfold engineClause
  split
  · have hengine : Dialect.clickhouse.quoteChar ∉ " ENGINE = MergeTree()".toList := by
      decide +kernel
    have horder : Dialect.clickhouse.quoteChar ∉ " ORDER BY ".toList := by
      decide +kernel
    cases s.primaryColumn? with
    | none => exact ⟨_, Dialect.Reads.nil.marks_append hengine⟩
    | some key => exact ⟨_, ((Dialect.Reads.quote key).marks_append horder).marks_append hengine⟩
  · exact ⟨_, .nil⟩

theorem readsItem_key (d : Dialect) (key : String) :
    d.ReadsItem ("PRIMARY KEY (" ++ d.quote key ++ ")") (.key key) := by
  have hopen : d.Nests 0 "PRIMARY KEY (" 1 := Dialect.nests_of_notMem (by decide +kernel)
  have hclose : d.Nests 1 ")" 0 := Dialect.nests_of_notMem (by decide +kernel)
  have hletter : SqlPart.marks "PRIMARY KEY (" = .mark 'P' :: SqlPart.marks "RIMARY KEY (" := by
    decide +kernel
  refine ⟨SqlPart.marks "PRIMARY KEY (" ++ .name key :: SqlPart.marks ")", ?_, ?_, ?_⟩
  · rw [String.append_assoc]
    exact (Dialect.Reads.quote_marks key hclose.1).marks_append hopen.1
  · rw [SqlPart.depth?_append, hopen.2, Option.bind_some, SqlPart.depth?]
    simpa using hclose.2
  · have hbehind := SqlPart.behind?_append "PRIMARY KEY (" (.name key :: SqlPart.marks ")")
    rw [hletter, List.cons_append, SqlPart.marks_close] at hbehind
    rw [hletter, List.cons_append, SqlPart.marks_close]
    simp [SqlPart.item?, hbehind]

theorem createTable_eq (s : Schema) (d : Dialect) :
    s.createTable d = "CREATE TABLE " ++ (d.quote s.table ++ (" (" ++
      (", ".intercalate (s.columnDefs d [] s.ownColumns ++ s.keyDefs d) ++
        (")" ++ s.engineClause d)))) := by
  unfold createTable
  rw [String.append_assoc, String.append_assoc, String.append_assoc, String.append_assoc]

/-- A table has the columns that are stored in it, each of them once, and then its primary key. -/
theorem readTable?_createTable {key : String} (hkey : s.primaryColumn? = some key) :
    ∃ columns : List String,
      d.readTable? (s.createTable d) = some (s.table, columns.map .column ++ [.key key]) ∧
      columns.Nodup ∧ ∀ c, c ∈ columns ↔ c ∈ s.ownColumns.map Prod.fst := by
  obtain ⟨defined, hdefs, hnodup, hmem⟩ :=
    s.columnDefs_map (d := d) [] (by simp) s.ownColumns
  refine ⟨defined.map Prod.fst, ?_, hnodup, by simpa using hmem⟩
  have hitems : Forall₂ d.ReadsItem (s.columnDefs d [] s.ownColumns ++ s.keyDefs d)
      ((defined.map Prod.fst).map .column ++ [.key key]) := by
    rw [List.map_nil] at hdefs
    rw [hdefs, keyDefs, hkey]
    refine List.rel_append ?_ (.cons (readsItem_key d key) .nil)
    rw [List.map_map, List.forall₂_map_left_iff, List.forall₂_map_right_iff, List.forall₂_same]
    exact fun c _ => s.readsItem_columnDef d c.1 c.2
  obtain ⟨ps, hreads, hread⟩ := Dialect.reads_items hitems (by simp [keyDefs, hkey])
  obtain ⟨engine, hengine⟩ := s.reads_engineClause d
  have hcreate : d.quoteChar ∉ "CREATE TABLE ".toList :=
    Dialect.quoteChar_notMem (by decide +kernel)
  have hopen : d.quoteChar ∉ " (".toList := Dialect.quoteChar_notMem (by decide +kernel)
  have hclose : d.quoteChar ∉ ")".toList := Dialect.quoteChar_notMem (by decide +kernel)
  have hhead : (")" ++ s.engineClause d).toList.head? ≠ some d.quoteChar := by
    cases d <;> simp [Dialect.quoteChar]
  have hbody := hreads.append (hengine.marks_append hclose) hhead
  have hall := (hbody.quote_marks_append s.table (by simp) hopen).marks_append hcreate
  rw [createTable_eq, Dialect.readTable?, hall.readParts_eq, SqlPart.marks_close]
  simp [hread [] (by simp)]

end Schema

end EntityRest
