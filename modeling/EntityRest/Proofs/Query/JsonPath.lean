import EntityRest.Proofs.Query.Resolve
import EntityRest.Proofs.Schema.Expr
import EntityRest.Proofs.Sql.Literal

/-! # Keys that lead into JSON columns

A key of a request that goes beyond the key of a JSON field is written into string literals as it
stands, with its quotes doubled. -/

namespace EntityRest

namespace Schema

variable {s : Schema} {key : String}

theorem jsonPath?_eq_some_iff {f : Field} {path : String} :
    jsonPath? f key = some path ↔ f.kind = .json ∧ path ≠ "" ∧ key = f.key ++ "." ++ path := by
  rw [← Text.dropPrefix?_eq_some_iff]
  unfold jsonPath?
  by_cases hkind : f.kind = .json
  · rw [if_pos hkind]
    cases Text.dropPrefix? (f.key ++ ".") key with
    | none => simp
    | some rest =>
        by_cases hrest : rest = ""
        · simp +contextual [hrest, eq_comm]
        · dsimp only
          rw [if_neg hrest]
          constructor
          · intro h
            obtain rfl := Option.some.inj h
            exact ⟨hkind, hrest, rfl⟩
          · exact fun h => h.2.2
  · simp [hkind]

/-- The JSON fields that a key leads into, with the paths behind their keys. -/
def nested (fs : List Field) (key : String) : List (Field × String) :=
  fs.filterMap fun f => (jsonPath? f key).map fun path => (f, path)

theorem mem_nested {fs : List Field} {f : Field} {path : String} :
    (f, path) ∈ nested fs key ↔
      f ∈ fs ∧ f.kind = .json ∧ path ≠ "" ∧ key = f.key ++ "." ++ path := by
  rw [nested, List.mem_filterMap, ← jsonPath?_eq_some_iff]
  constructor
  · rintro ⟨g, hg, hpath⟩
    obtain ⟨rest, hjson, heq⟩ := Option.map_eq_some_iff.mp hpath
    obtain ⟨rfl, rfl⟩ := Prod.mk.inj heq
    exact ⟨hg, hjson⟩
  · rintro ⟨hf, hpath⟩
    exact ⟨f, hf, by rw [hpath, Option.map_some]⟩

/-- What is found is a field that the key leads into, and the path behind its key. -/
theorem mem_of_foldl_nested {fs : List Field} {f : Field} {path : String}
    (h : (nested fs key).foldl longerKey none = some (f, path)) :
    f ∈ fs ∧ f.kind = .json ∧ path ≠ "" ∧ key = f.key ++ "." ++ path := by
  rcases mem_of_foldl_longerKey h with hnone | hmem
  · cases hnone
  · exact mem_nested.mp hmem

/-- A key of no field leads to the parts of what stands behind the key of a JSON field. -/
theorem term_of_target? {t : Target} (h : s.target? key = some t) (hkey : s.field? key = none) :
    ∃ f ∈ s.fields, ∃ path, f.kind = .json ∧ path ≠ [] ∧
      key = f.key ++ "." ++ ".".intercalate path ∧ t.term = .json f.expr path := by
  rw [target?, hkey] at h
  obtain ⟨⟨f, path⟩, hf, rfl⟩ := Option.map_eq_some_iff.mp h
  obtain ⟨hmem, hkind, -, rfl⟩ := mem_of_foldl_nested hf
  have hparts : ".".intercalate (Text.splitChar '.' path) = path :=
    Text.intercalate_splitChar '.' path
  exact ⟨f, hmem, _, hkind, Text.splitChar_ne_nil '.' path, by rw [hparts], rfl⟩

/-- The literals behind the column hold the path, and nothing else stands there but the call itself,
exactly if no backslash in them can escape. What a request writes behind the key of a JSON field is
such a path, as it stands. -/
theorem readSql_quoteJson_and_target (d : Dialect) (meaning : Char → Char) :
    (∀ column path, path ≠ [] → ∃ rest, d.quoteJson column path = d.pathOpening ++ column ++ rest ∧
      (d.readSql meaning rest = some (d.pathTokens path) ↔
        (d.hasEscapes = true → ∀ p ∈ path, '\\' ∉ p.toList))) ∧
    ∀ (s : Schema) key t, s.target? key = some t → s.field? key = none →
      ∃ f ∈ s.fields, ∃ path, f.kind = .json ∧ path ≠ [] ∧
        key = f.key ++ "." ++ ".".intercalate path ∧
        t.term.sql d = d.quoteJson (Expr.render d f.expr) path := by
  refine ⟨fun column path => d.readSql_quoteJson_iff meaning column, fun s key t ht hkey => ?_⟩
  obtain ⟨f, hf, path, hkind, hne, hkey, hterm⟩ := term_of_target? ht hkey
  exact ⟨f, hf, path, hkind, hne, hkey, by rw [hterm, SqlTerm.sql]⟩

end Schema

namespace Shop

theorem quoted_readSql :
    ["it's", "\"x\""] ≠ [] ∧
      (∃ rest, Dialect.mysql.quoteJson "c" ["it's", "\"x\""] = "JSON_EXTRACT(" ++ "c" ++ rest ∧
        Dialect.mysql.readSql id rest =
          some [.mark ',', .literal "$.it's.\"x\"".toList, .mark ')']) ∧
      orders.target? "extra.it's" = some ⟨.json "o.extra" ["it's"], .string⟩ ∧
      orders.field? "extra.it's" = none ∧
      ∃ f ∈ orders.fields, ∃ path, f.kind = .json ∧ path ≠ [] ∧
        "extra.it's" = f.key ++ "." ++ ".".intercalate path ∧
        (SqlTerm.json "o.extra" ["it's"]).sql .mysql =
          Dialect.mysql.quoteJson (Expr.render .mysql f.expr) path := by
  obtain ⟨hread, hwritten⟩ := Schema.readSql_quoteJson_and_target .mysql id
  have hne : ["it's", "\"x\""] ≠ [] := List.cons_ne_nil _ _
  have htokens : Dialect.mysql.pathTokens ["it's", "\"x\""] =
      [.mark ',', .literal "$.it's.\"x\"".toList, .mark ')'] := by decide +kernel
  have htarget : orders.target? "extra.it's" = some ⟨.json "o.extra" ["it's"], .string⟩ := by
    decide +kernel
  have hfield : orders.field? "extra.it's" = none := by decide +kernel
  obtain ⟨rest, hrest, hiff⟩ := hread "c" ["it's", "\"x\""] hne
  have hback : ∀ p ∈ ["it's", "\"x\""], '\\' ∉ p.toList := by decide +kernel
  exact ⟨hne, ⟨rest, hrest, htokens ▸ hiff.mpr fun _ => hback⟩, htarget, hfield,
    hwritten orders _ _ htarget hfield⟩

/-- A backslash at the end of a key escapes the quote that closes the literal, so that the text
behind the key is read as a part of it. -/
theorem backslash_not_readSql :
    orders.target? "extra.x\\" = some ⟨.json "o.extra" ["x\\"], .string⟩ ∧
      Dialect.mysql.quoteJson "c" ["x\\"] = "JSON_EXTRACT(" ++ "c" ++ ",'$.x\\')" ∧
      Dialect.mysql.readSql id ",'$.x\\')" = none ∧
      Dialect.mysql.readSql id ",'$.x\\')" ≠ some (Dialect.mysql.pathTokens ["x\\"]) := by
  decide +kernel

end Shop

end EntityRest
