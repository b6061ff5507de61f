import EntityRest.Proofs.Number.Integer
import EntityRest.Proofs.Query.Groups
import EntityRest.Proofs.Text.Split

/-! # Windows in the text of statements

A window is written behind everything else in its statement. The dialects write it in two ways, but
from the last words of either the limit and the offset are read back, whatever stands before. -/

namespace EntityRest

namespace Window

/-- The dialects that name the offset first, and always. -/
def offsetFirst : List Dialect := [.sqlserver, .firebird]

/-- The end of a statement with a window, whose rows may have been ordered. Rows that are not
skipped are not mentioned where the limit comes first. -/
inductive WrittenAs (w : Window) : Dialect → (ordered : Bool) → String → Prop where
  | limit {d ordered} (hd : d ∉ offsetFirst) (h : w.offset = 0) :
      WrittenAs w d ordered (" LIMIT " ++ toString w.limit)
  | limitOffset {d ordered} (hd : d ∉ offsetFirst) (h : 0 < w.offset) :
      WrittenAs w d ordered (" LIMIT " ++ toString w.limit ++ " OFFSET " ++ toString w.offset)
  | fetch {d ordered} (hd : d ∈ offsetFirst) (h : ordered = true ∨ d = .firebird) :
      WrittenAs w d ordered
        (" OFFSET " ++ toString w.offset ++ " ROWS FETCH NEXT " ++ toString w.limit ++ " ROWS ONLY")
  | fetchUnordered :
      WrittenAs w .sqlserver false
        (" ORDER BY (SELECT NULL) OFFSET " ++ toString w.offset ++ " ROWS FETCH NEXT " ++
          toString w.limit ++ " ROWS ONLY")

theorem writtenAs_limitOffset (w : Window) (d : Dialect) (ordered : Bool) :
    w.WrittenAs d ordered (d.limitOffset (some w.limit) w.offset ordered) := by
  cases d with
  | postgres | mysql | sqlite | clickhouse =>
      rcases Nat.eq_zero_or_pos w.offset with hzero | hpos
      · rw [hzero]
        simpa [Dialect.limitOffset] using WrittenAs.limit (by decide) hzero
      · simp only [Dialect.limitOffset, gt_iff_lt, if_pos hpos, ← String.append_assoc]
        exact .limitOffset (by decide) hpos
  | firebird => exact .fetch (by decide) (.inr rfl)
  | sqlserver =>
      cases ordered with
      | true => exact .fetch (by decide) (.inl rfl)
      | false => exact .fetchUnordered

/-! ## Reading a window back -/

/-- The window that the last words of a statement name; the words come in reverse. -/
def ofWords? : List String → Option Window
  | offset :: "OFFSET" :: limit :: "LIMIT" :: _ => do return ⟨← limit.toNat?, ← offset.toNat?⟩
  | limit :: "LIMIT" :: _ => do return ⟨← limit.toNat?, 0⟩
  | "ONLY" :: "ROWS" :: limit :: "NEXT" :: "FETCH" :: "ROWS" :: offset :: "OFFSET" :: _ => do
    return ⟨← limit.toNat?, ← offset.toNat?⟩
  | _ => none

/-- The window of a statement, from the words at the end of its text. -/
def ofSql? (sql : String) : Option Window := ofWords? (Text.splitChar ' ' sql).reverse

theorem ofSql?_intercalate (front : String) {ws : List String} (hws : ∀ w ∈ ws, ' ' ∉ w.toList) :
    ofSql? (" ".intercalate (front :: ws)) =
      ofWords? (ws.reverse ++ (Text.splitChar ' ' front).reverse) := by
  have hsplit : Text.splitChar ' ' (" ".intercalate (front :: ws)) =
      Text.splitChar ' ' front ++ ws :=
    Text.splitChar_intercalate_cons front hws
  rw [ofSql?, hsplit, List.reverse_append]

theorem blank_notMem_toDigits (n : Nat) : ' ' ∉ Nat.toDigits 10 n := by
  intro hblank
  exact absurd (Decimal.isDigit_of_mem_toDigits hblank) (by decide)

/-- A statement that ends with a window shows this window, whatever stands before. -/
theorem WrittenAs.ofSql?_append {w : Window} {d : Dialect} {ordered : Bool} {tail : String}
    (h : w.WrittenAs d ordered tail) (front : String) : ofSql? (front ++ tail) = some w := by
  cases h with
  | limit hd hzero =>
      have hwords : front ++ (" LIMIT " ++ toString w.limit) =
          " ".intercalate [front, "LIMIT", toString w.limit] := by
        apply String.toList_injective
        simp
      rw [hwords, ofSql?_intercalate front (by simp [blank_notMem_toDigits])]
      simp [ofWords?, ← hzero]
  | limitOffset hd hpos =>
      have hwords : front ++ (" LIMIT " ++ toString w.limit ++ " OFFSET " ++ toString w.offset) =
          " ".intercalate [front, "LIMIT", toString w.limit, "OFFSET", toString w.offset] := by
        apply String.toList_injective
        simp
      rw [hwords, ofSql?_intercalate front (by simp [blank_notMem_toDigits])]
      simp [ofWords?]
  | fetch hd hordered =>
      have hwords : front ++ (" OFFSET " ++ toString w.offset ++ " ROWS FETCH NEXT " ++
            toString w.limit ++ " ROWS ONLY") =
          " ".intercalate [front, "OFFSET", toString w.offset, "ROWS", "FETCH", "NEXT",
            toString w.limit, "ROWS", "ONLY"] := by
        apply String.toList_injective
        simp
      rw [hwords, ofSql?_intercalate front (by simp [blank_notMem_toDigits])]
      simp [ofWords?]
  | fetchUnordered =>
      have hwords : front ++ (" ORDER BY (SELECT NULL) OFFSET " ++ toString w.offset ++
            " ROWS FETCH NEXT " ++ toString w.limit ++ " ROWS ONLY") =
          " ".intercalate [front, "ORDER", "BY", "(SELECT", "NULL)", "OFFSET", toString w.offset,
            "ROWS", "FETCH", "NEXT", toString w.limit, "ROWS", "ONLY"] := by
        apply String.toList_injective
        simp
      rw [hwords, ofSql?_intercalate front (by simp [blank_notMem_toDigits])]
      simp [ofWords?]

example : ofSql? "SELECT * FROM t OFFSET 20 ROWS FETCH NEXT 10 ROWS ONLY" = some ⟨10, 20⟩ := by
  cbv

end Window

/-- A statement with a window is the statement up to its order with this window behind. -/
theorem Select.exists_sql_eq_append {t : Select} {w : Window} (h : t.body.window = some w)
    (d : Dialect) :
    ∃ tail, w.WrittenAs d (!t.body.orders.isEmpty) tail ∧
      (Fragment.statement d (t.fragments d)).sql =
        (Fragment.statement d (t.upToGroups d)).sql ++ t.body.orderClause ++ tail := by
  refine ⟨_, w.writtenAs_limitOffset d _, ?_⟩
  rw [statement_eq, SelectBody.windowClause, h]

end EntityRest
