import EntityRest.Proofs.Sql.Names
import EntityRest.Proofs.Text.Split

/-! # Quoted names

A name in quotes is one token of SQL text, and the name can be read off it. So no two names have the
same token, and no two paths are written the same. -/

namespace EntityRest

namespace Chars

variable {q : Char}

/-! ## Doubled quotes -/

/-- Every `q` of the text belongs to a pair of them. -/
inductive Paired (q : Char) : List Char → Prop where
  | nil : Paired q []
  | other {c s} (hc : c ≠ q) : Paired q s → Paired q (c :: s)
  | pair {s} : Paired q s → Paired q (q :: q :: s)

/-- Writes each pair of `q` once. A `q` that is not followed by another is refused. -/
def undouble? (q : Char) : List Char → Option (List Char)
  | [] => some []
  | [c] => if c = q then none else some [c]
  | c :: b :: s =>
    if c = q then
      if b = q then (undouble? q s).map (q :: ·) else none
    else (undouble? q (b :: s)).map (c :: ·)

theorem paired_double (s : List Char) : Paired q (double q s) := by
  induction s with
  | nil => exact .nil
  | cons c s ih =>
      by_cases hc : c = q
      · rw [double, if_pos hc]
        exact .pair ih
      · rw [double, if_neg hc]
        exact .other hc ih

theorem undouble?_pair (s : List Char) :
    undouble? q (q :: q :: s) = (undouble? q s).map (q :: ·) := by
  simp [undouble?]

theorem undouble?_cons_of_ne {c : Char} (hc : c ≠ q) (s : List Char) :
    undouble? q (c :: s) = (undouble? q s).map (c :: ·) := by
  cases s with
  | nil => simp [undouble?, hc]
  | cons b s => simp [undouble?, hc]

theorem undouble?_double (s : List Char) : undouble? q (double q s) = some s := by
  induction s with
  | nil => rfl
  | cons c s ih =>
      by_cases hc : c = q
      · rw [double, if_pos hc, undouble?_pair, ih, hc]
        rfl
      · rw [double, if_neg hc, undouble?_cons_of_ne hc, ih]
        rfl

/-- What is read is what was doubled: nothing else is accepted. -/
theorem undouble?_eq_some_iff {s t : List Char} : undouble? q t = some s ↔ t = double q s := by
  refine ⟨fun h => ?_, fun h => h ▸ undouble?_double s⟩
  fun_induction undouble? q t generalizing s with
  | case1 =>
      obtain rfl := Option.some.inj h
      rfl
  | case2 => cases h
  | case3 c hc =>
      obtain rfl := Option.some.inj h
      simp [double, hc]
  | case4 r ih =>
      obtain ⟨u, hu, rfl⟩ := Option.map_eq_some_iff.mp h
      simp [double, ih hu]
  | case5 => cases h
  | case6 c b r hc ih =>
      obtain ⟨u, hu, rfl⟩ := Option.map_eq_some_iff.mp h
      simp [double, hc, ih hu]

end Chars

namespace Dialect

variable {d : Dialect}

/-! ## Names -/

theorem readParts_quote (ident : String) : d.readParts (d.quote ident) = some [.name ident] :=
  (Reads.quote ident).readParts_eq

theorem quote_injective (d : Dialect) : Function.Injective d.quote := by
  intro a b hab
  have hparts : some [SqlPart.name a] = some [SqlPart.name b] := by
    rw [← readParts_quote (d := d) a, hab, readParts_quote]
  simpa using hparts

/-! ## Paths -/

/-- Names with points between them. -/
def pathNames (idents : List String) : List SqlPart :=
  [SqlPart.mark '.'].intercalate (idents.map fun ident => [.name ident])

theorem pathNames_cons_cons (ident ident' : String) (idents : List String) :
    pathNames (ident :: ident' :: idents) =
      .name ident :: (SqlPart.marks "." ++ pathNames (ident' :: idents)) := by
  simp [pathNames, SqlPart.marks, List.intercalate_cons_cons]

theorem names_pathNames (idents : List String) : SqlPart.names (pathNames idents) = idents := by
  induction idents with
  | nil => rfl
  | cons ident idents ih =>
      cases idents with
      | nil => rfl
      | cons ident' idents => simp [pathNames_cons_cons, ih]

theorem reads_intercalate_quote (idents : List String) :
    d.Reads (".".intercalate (idents.map d.quote)) (pathNames idents) := by
  induction idents with
  | nil => exact .nil
  | cons ident idents ih =>
      cases idents with
      | nil =>
          rw [List.map_singleton, String.intercalate_singleton]
          exact .quote ident
      | cons ident' idents =>
          have hpoint : d.quoteChar ∉ ".".toList := quoteChar_notMem (by decide +kernel)
          rw [List.map_cons, List.map_cons, String.intercalate_cons_cons, String.append_assoc,
            pathNames_cons_cons]
          exact .quote_marks_append ident (by simp) hpoint ih

/-- A path is read as its parts, with the points between them outside of the quotes. -/
theorem reads_quotePath (path : String) :
    d.Reads (d.quotePath path) (pathNames (Text.splitChar '.' path)) :=
  reads_intercalate_quote _

example : Dialect.postgres.readParts (Dialect.postgres.quotePath "\"a.b\"\".") =
    some [.name "\"a", .mark '.', .name "b\"\"", .mark '.', .name ""] := by
  decide +kernel

theorem quotePath_injective (d : Dialect) : Function.Injective d.quotePath := by
  intro a b hab
  have hparts : some (pathNames (Text.splitChar '.' a)) =
      some (pathNames (Text.splitChar '.' b)) := by
    rw [← (reads_quotePath (d := d) a).readParts_eq, hab, (reads_quotePath b).readParts_eq]
  have hnames := congrArg SqlPart.names (Option.some.inj hparts)
  rw [names_pathNames, names_pathNames] at hnames
  rw [← Text.intercalate_splitChar '.' a, hnames, Text.intercalate_splitChar]

/-- A quoted name starts and ends with the quote, and has quotes between them in pairs only. What
stands between them is the one text that gives the name back when each pair is written once. The
dialect reads it all as this name, whatever follows that is no quote, so that names with the same
token are the same. A path is read as its parts, in quotes each, and no other is written the same. -/
theorem quote_decodes (d : Dialect) :
    (∀ ident, d.Reads (d.quote ident) [.name ident] ∧
      ∃ body, (d.quote ident).toList = d.quoteChar :: body ++ [d.quoteChar] ∧
        Chars.Paired d.quoteChar body ∧
        ∀ t, Chars.undouble? d.quoteChar t = some ident.toList ↔ t = body) ∧
    Function.Injective d.quote ∧
    (∀ path, d.Reads (d.quotePath path) (pathNames (Text.splitChar '.' path))) ∧
    Function.Injective d.quotePath := by
  refine ⟨fun ident => ⟨.quote ident, ?_⟩, d.quote_injective, reads_quotePath,
    d.quotePath_injective⟩
  exact ⟨_, d.toList_quote ident, Chars.paired_double _, fun t => Chars.undouble?_eq_some_iff⟩

end Dialect

end EntityRest
