import EntityRest.Proofs.Query.Includes
import EntityRest.Proofs.Query.Printer
import EntityRest.Proofs.Query.Window
import EntityRest.Service.Envelope
import Mathlib.Algebra.Order.Floor.Div
import Mathlib.Order.Interval.Set.Disjoint

/-! # Pages of rows

The page of a list is a window of its rows, and its statement says so. Windows of one size stand next to each other without
gaps as long as their offsets can be counted in 64 bits, there is always room on a page, and the
number of pages is the least that has room for all rows, so that exactly the pages up to it start
before the last row. -/

namespace EntityRest

/-! ## Windows -/

namespace Window

/-- The places of the rows that a window shows, counted from zero. -/
def rows (w : Window) : Set ℕ := Set.Ico w.offset (w.offset + w.limit)

/-- The window of the `n`-th page, counted from one. An offset that 64 bits cannot count is the
largest number that they can. -/
def ofPage (size n : ℕ) : Window := ⟨size, min ((n - 1) * size) (2 ^ 64 - 1)⟩

variable {size m n : ℕ}

theorem offset_ofPage (h : (n - 1) * size < 2 ^ 64) :
    (ofPage size n).offset = (n - 1) * size :=
  Nat.min_eq_left (by omega)

theorem offset_ofPage_succ (hn : 1 ≤ n) (h : n * size < 2 ^ 64) :
    (ofPage size (n + 1)).offset = (ofPage size n).offset + (ofPage size n).limit := by
  obtain ⟨k, rfl⟩ := Nat.exists_eq_add_of_le' hn
  have hlast : k * size < 2 ^ 64 := (Nat.mul_le_mul_right size (Nat.le_succ k)).trans_lt h
  rw [offset_ofPage (n := k + 1 + 1) h, offset_ofPage (n := k + 1) hlast]
  exact Nat.succ_mul k size

/-- No row is on two pages. -/
theorem disjoint_rows_ofPage (hm : 1 ≤ m) (hmn : m < n) (h : (n - 1) * size < 2 ^ 64) :
    Disjoint (ofPage size m).rows (ofPage size n).rows := by
  have hend : (m - 1) * size + size ≤ (n - 1) * size := by
    rw [← Nat.succ_mul]
    exact Nat.mul_le_mul_right size (by omega)
  rw [rows, rows, offset_ofPage h, offset_ofPage (n := m) (by omega), Set.Ico_disjoint_Ico]
  exact (min_le_left _ _).trans (hend.trans (le_max_right _ _))

end Window

/-! ## Numbers of pages -/

namespace PageMeta

variable {page size total : UInt64}

theorem toNat_totalPages (hsize : 1 ≤ size.toNat) :
    (PageMeta.of page size total).totalPages.toNat = total.toNat ⌈/⌉ size.toNat := by
  have hle : total.toNat ⌈/⌉ size.toNat ≤ total.toNat :=
    (ceilDiv_le_iff_le_mul hsize).mpr (Nat.le_mul_of_pos_left _ hsize)
  exact Nat.mod_eq_of_lt (hle.trans_lt total.toNat_lt)

theorem isLeast_totalPages (hsize : 1 ≤ size.toNat) :
    IsLeast {n : ℕ | total.toNat ≤ n * size.toNat}
      (PageMeta.of page size total).totalPages.toNat := by
  rw [toNat_totalPages hsize]
  constructor
  · exact (ceilDiv_le_iff_le_mul hsize).mp le_rfl |>.trans_eq (Nat.mul_comm _ _)
  · intro n hn
    exact (ceilDiv_le_iff_le_mul hsize).mpr (hn.trans_eq (Nat.mul_comm _ _))

/-- A page starts before the last row exactly if it is one of these pages. -/
theorem offset_lt_iff (hpage : 1 ≤ page) (hsize : 1 ≤ size.toNat) :
    (Window.ofPage size.toNat page.toNat).offset < total.toNat ↔
      page ≤ (PageMeta.of page size total).totalPages := by
  have hpage' : 1 ≤ page.toNat := UInt64.le_iff_toNat_le.mp hpage
  have hstart : total.toNat ⌈/⌉ size.toNat ≤ page.toNat - 1 ↔
      total.toNat ≤ (page.toNat - 1) * size.toNat := by
    rw [ceilDiv_le_iff_le_mul hsize, Nat.mul_comm]
  have htotal := total.toNat_lt
  rw [UInt64.le_iff_toNat_le, toNat_totalPages hsize, Window.ofPage]
  dsimp only
  omega

end PageMeta

/-! ## Lists -/

def Plan.pageWindow (p : Plan) : Window := .ofPage p.perPage.toNat p.page.toNat

/-- The plan is for the page that the request asks for: it has as many rows as asked for, but no page
is empty or larger than allowed, the row statement has the window of the page, and its text is that of all rows in their order with this
window behind, from which it is read back. -/
structure Plan.IsPage (d : Dialect) (o : QueryOptions) (q : Query) (p : Plan) : Prop where
  page : p.page = q.page.getD 1
  perPage : p.perPage.toNat =
    max 1 (min (q.perPage.getD o.defaultPerPage).toNat (max 1 o.maxPerPage.toNat))
  one_le_page : 1 ≤ p.page
  one_le_perPage : 1 ≤ p.perPage
  perPage_le : p.perPage ≤ max 1 o.maxPerPage
  window : p.select.body.window = some p.pageWindow
  sql : ∃ tail, p.pageWindow.WrittenAs d (!p.select.body.orders.isEmpty) tail ∧
    (p.selectStatement d).sql =
      (Fragment.statement d (p.select.upToGroups d)).sql ++ p.select.body.orderClause ++ tail
  shown : Window.ofSql? (p.selectStatement d).sql = some p.pageWindow

/-- The page of a request that was read is one that can be counted back from. -/
theorem Query.one_le_page {ps : Pairs} {q : Query} (h : ofPairs ps = .ok q) :
    1 ≤ q.page.getD 1 := by
  cases hpage : q.page with
  | none => exact UInt64.le_refl 1
  | some n =>
      have hne : n ≠ 0 := (writable_of_ofPairs h).page n hpage
      have hpos : n.toNat ≠ 0 := fun hzero => hne (UInt64.toNat_inj.mp hzero)
      exact UInt64.le_iff_toNat_le.mpr (Nat.one_le_iff_ne_zero.mpr hpos)

namespace Registry

variable {reg : Registry} {d : Dialect} {o : QueryOptions} {s : Schema} {q q' : Query} {p : Plan}

theorem toNat_pageSize (o : QueryOptions) (q : Query) :
    (pageSize o q).toNat =
      max 1 (min (q.perPage.getD o.defaultPerPage).toNat (max 1 o.maxPerPage.toNat)) := by
  simp only [pageSize, UInt64.toNat_max, UInt64.toNat_min, Nat.max_comm o.maxPerPage.toNat]
  rfl

theorem one_le_pageSize (o : QueryOptions) (q : Query) : 1 ≤ pageSize o q := by
  rw [UInt64.le_iff_toNat_le, toNat_pageSize]
  exact Nat.le_max_left _ _

theorem pageSize_le (o : QueryOptions) (q : Query) : pageSize o q ≤ max 1 o.maxPerPage := by
  have hone : (1 : UInt64).toNat = 1 := rfl
  rw [UInt64.le_iff_toNat_le, toNat_pageSize, UInt64.toNat_max, hone]
  omega

/-- A page is the plan of its window, with the place of the page noted. -/
theorem compile_eq_ok :
    reg.compile d o s q = .ok p ↔
      ∃ plan, reg.plan d s q (some (.ofPage (pageSize o q).toNat (q.page.getD 1).toNat)) =
          .ok plan ∧
        p = { plan with page := q.page.getD 1, perPage := pageSize o q } := by
  simp only [compile, bind_eq_ok, pure_eq_ok, eq_comm (a := p)]
  rfl

theorem perPage_of_compile (h : reg.compile d o s q = .ok p) : p.perPage = pageSize o q := by
  obtain ⟨plan, -, rfl⟩ := compile_eq_ok.mp h
  rfl

theorem page_of_compile (h : reg.compile d o s q = .ok p) : p.page = q.page.getD 1 := by
  obtain ⟨plan, -, rfl⟩ := compile_eq_ok.mp h
  rfl

theorem window_of_compile (h : reg.compile d o s q = .ok p) :
    p.select.body.window = some p.pageWindow := by
  obtain ⟨plan, hplan, rfl⟩ := compile_eq_ok.mp h
  obtain ⟨includes, r, select, count, -, -, hrow, -, rfl⟩ := plan_eq_ok.mp hplan
  obtain ⟨joins, conjuncts, -, -, rfl⟩ := Schema.rowSelect_eq_ok.mp hrow
  rfl

theorem isPage_of_compile (hpage : 1 ≤ q.page.getD 1) (h : reg.compile d o s q = .ok p) :
    p.IsPage d o q := by
  have hwindow := window_of_compile h
  have hsize := perPage_of_compile h
  have hnumber := page_of_compile h
  obtain ⟨tail, htail, hsql⟩ := Select.exists_sql_eq_append hwindow d
  exact
    { page := hnumber
      perPage := hsize ▸ toNat_pageSize o q
      one_le_page := hnumber ▸ hpage
      one_le_perPage := hsize ▸ one_le_pageSize o q
      perPage_le := hsize ▸ pageSize_le o q
      window := hwindow
      sql := ⟨tail, htail, hsql⟩
      shown := (congrArg Window.ofSql? hsql).trans (htail.ofSql?_append _) }

theorem exists_countIf {derived : String → Except QueryError Select} {r : Resolved}
    {window : Option Window} {sel : Select}
    (h : s.rowSelect d derived r window true = .ok sel) (asked : Bool) :
    ∃ c, s.countIf d derived r asked = .ok c := by
  obtain ⟨joins, conjuncts, hjoins, hconjuncts, rfl⟩ := Schema.rowSelect_eq_ok.mp h
  cases asked with
  | false => exact ⟨none, rfl⟩
  | true =>
      suffices hcount : ∃ c, s.countSelect d derived r = .ok c by
        obtain ⟨c, hc⟩ := hcount
        exact ⟨some c, Schema.countIf_eq_ok.mpr (.inl ⟨rfl, c, hc, rfl⟩)⟩
      cases hgrouped : r.isGrouped with
      | true =>
          have hsub : r.rowExprs false ⊆ r.rowExprs true := by
            intro e he
            rcases List.mem_append.mp he with hrow | horder
            · exact List.mem_append_left _ hrow
            · simp [Resolved.ordersIf] at horder
          obtain ⟨few, hfew⟩ := Schema.exists_joins hsub hjoins
          exact ⟨_, (Schema.countSelect_eq_ok_of_isGrouped hgrouped).mpr
            ⟨_, Schema.rowSelect_eq_ok.mpr ⟨few, conjuncts, hfew, hconjuncts, rfl⟩, rfl⟩⟩
      | false =>
          have hsub : r.exprs ⊆ r.rowExprs true := by
            intro e he
            simp [Resolved.rowExprs, he]
          obtain ⟨few, hfew⟩ := Schema.exists_joins hsub hjoins
          exact ⟨_, (Schema.countSelect_eq_ok_of_not_isGrouped hgrouped).mpr
            ⟨few, conjuncts, hfew, hconjuncts, rfl⟩⟩

/-- If one page of a request can be compiled, every page can. -/
theorem exists_compile_page (h : reg.compile d o s q = .ok p) (n : UInt64) :
    ∃ p', reg.compile d o s { q with page := some n } = .ok p' := by
  obtain ⟨plan, hplan, -⟩ := compile_eq_ok.mp h
  obtain ⟨includes, r, select, count, hincludes, hr, hrow, -, -⟩ := plan_eq_ok.mp hplan
  obtain ⟨joins, conjuncts, hjoins, hconjuncts, -⟩ := Schema.rowSelect_eq_ok.mp hrow
  obtain ⟨count', hcount'⟩ := exists_countIf hrow true
  exact ⟨_, compile_eq_ok.mpr ⟨_, plan_eq_ok.mpr ⟨includes, r, _, count', hincludes, hr,
    Schema.rowSelect_eq_ok.mpr ⟨joins, conjuncts, hjoins, hconjuncts, rfl⟩, hcount', rfl⟩, rfl⟩⟩

/-- A later page can be asked for with one more parameter. -/
theorem ofPairs_concat_page {ps : Pairs} {q : Query} (hq : Query.ofPairs ps = .ok q) {n : UInt64}
    (hn : n ≠ 0) :
    Query.ofPairs (ps ++ [("$page", toString n.toNat)]) = .ok { q with page := some n } := by
  have hread : (Pairs.number "$page" (some n)).foldlM Query.addPair q =
      .ok { q with page := some n } :=
    Query.read_page q fun m hm => Option.some.inj hm ▸ hn
  exact Query.foldlM_append_eq_ok hq hread

/-- Pages tile the rows. The page of a request that was read can be counted back from, and its plan
has the window of that page, on which there is room. Every other page can be compiled as well. Pages
of one size are disjoint and adjacent while their offsets can be counted, the number of pages is the
least that has room for all rows, and exactly the pages up to it start before the end. -/
theorem pages_tile {ps : Pairs} {q : Query} (hq : Query.ofPairs ps = .ok q) :
    1 ≤ q.page.getD 1 ∧
      ∀ (reg : Registry) (d : Dialect) (o : QueryOptions) (s : Schema) (p : Plan),
        reg.compile d o s q = .ok p →
        p.IsPage d o q ∧
        (∀ n : UInt64, 1 ≤ n → ∃ p',
          Query.ofPairs (ps ++ [("$page", toString n.toNat)]) = .ok { q with page := some n } ∧
          reg.compile d o s { q with page := some n } = .ok p' ∧ p'.page = n) ∧
        (∀ ps' q' p', Query.ofPairs ps' = .ok q' → q'.perPage = q.perPage →
          reg.compile d o s q' = .ok p' →
          p'.perPage = p.perPage ∧
          (p.page < p'.page → (p'.page.toNat - 1) * p.perPage.toNat < 2 ^ 64 →
            Disjoint p.pageWindow.rows p'.pageWindow.rows) ∧
          (p'.page.toNat = p.page.toNat + 1 → p.page.toNat * p.perPage.toNat < 2 ^ 64 →
            p'.pageWindow.offset = p.pageWindow.offset + p.pageWindow.limit)) ∧
        ∀ total : UInt64,
          IsLeast {n : ℕ | total.toNat ≤ n * p.perPage.toNat}
            (PageMeta.of p.page p.perPage total).totalPages.toNat ∧
          (p.pageWindow.offset < total.toNat ↔
            p.page ≤ (PageMeta.of p.page p.perPage total).totalPages) := by
  have hpage := Query.one_le_page hq
  refine ⟨hpage, fun reg d o s p h => ?_⟩
  have hp := isPage_of_compile hpage h
  have hone := UInt64.le_iff_toNat_le.mp hp.one_le_page
  have hsize := UInt64.le_iff_toNat_le.mp hp.one_le_perPage
  refine ⟨hp, fun n hn => ?_, fun ps' q' p' hq' hper h' => ?_, fun total =>
    ⟨PageMeta.isLeast_totalPages hsize, PageMeta.offset_lt_iff hp.one_le_page hsize⟩⟩
  · have hne : n ≠ 0 := fun hzero => absurd hn (hzero ▸ by decide)
    obtain ⟨p', h'⟩ := exists_compile_page h n
    have hp' := isPage_of_compile (q := { q with page := some n }) hn h'
    exact ⟨p', ofPairs_concat_page hq hne, h', hp'.page⟩
  · have hsame : p'.perPage = p.perPage := by
      rw [perPage_of_compile h', perPage_of_compile h, pageSize, pageSize, hper]
    rw [Plan.pageWindow, Plan.pageWindow, hsame]
    refine ⟨rfl, fun hlt hcounted => ?_, fun hnext hcounted => ?_⟩
    · exact Window.disjoint_rows_ofPage hone (UInt64.lt_iff_toNat_lt.mp hlt) hcounted
    · rw [hnext]
      exact Window.offset_ofPage_succ hone hcounted

end Registry

/-- After the second page with three of seven orders there is one page more. -/
theorem Shop.orders_second_page :
    ∃ q p p', Query.ofPairs [("$per_page", "3"), ("$page", "2")] = .ok q ∧
      Shop.registry.compile .sqlite ⟨10, 100⟩ Shop.orders q = .ok p ∧
      Shop.registry.compile .sqlite ⟨10, 100⟩ Shop.orders { q with page := some 3 } = .ok p' ∧
      p.pageWindow = ⟨3, 3⟩ ∧ p'.pageWindow.offset = p.pageWindow.offset + p.pageWindow.limit ∧
      (∃ front, (p.selectStatement .sqlite).sql = front ++ " LIMIT 3 OFFSET 3") ∧
      Window.ofSql? (p.selectStatement .sqlite).sql = some ⟨3, 3⟩ ∧
      Window.ofSql? (p'.selectStatement .sqlite).sql = some ⟨3, 6⟩ ∧
      IsLeast {n : ℕ | 7 ≤ n * 3} 3 ∧ p.pageWindow.offset < 7 := by
  obtain ⟨q, hq, hcompiles⟩ := exists_eq_ok
    (x := Query.ofPairs [("$per_page", "3"), ("$page", "2")])
    (p := fun q => (Shop.registry.compile .sqlite ⟨10, 100⟩ Shop.orders q).toOption.any
      fun (p : Plan) => decide (p.page = 2 ∧ p.perPage = 3))
    (by decide +kernel)
  obtain ⟨p, h, hparts⟩ := exists_eq_ok hcompiles
  obtain ⟨hpage, hsize⟩ := of_decide_eq_true hparts
  obtain ⟨hisPage, hothers, hsame, htotal⟩ := (Registry.pages_tile hq).2 _ _ _ _ p h
  obtain ⟨p', hq', h', hpage'⟩ := hothers 3 (by decide)
  obtain ⟨hsize', -, hnext⟩ := hsame _ _ p' hq' rfl h'
  obtain ⟨hisPage', -⟩ := (Registry.pages_tile hq').2 _ _ _ _ p' h'
  obtain ⟨hleast, hwithin⟩ := htotal 7
  rw [hpage, hsize] at hleast hwithin
  have hwindow : p.pageWindow = ⟨3, 3⟩ := by
    rw [Plan.pageWindow, hpage, hsize]
    rfl
  have hwindow' : p'.pageWindow = ⟨3, 6⟩ := by
    rw [Plan.pageWindow, hpage', hsize', hsize]
    rfl
  have hsql : ∃ front, (p.selectStatement .sqlite).sql = front ++ " LIMIT 3 OFFSET 3" := by
    obtain ⟨tail, htail, hsql⟩ := hisPage.sql
    rw [hwindow] at htail
    cases htail with
    | limit hd hzero => exact absurd hzero (by decide)
    | limitOffset hd hpos => exact ⟨_, hsql⟩
    | fetch hd hordered => exact absurd hd (by decide)
  refine ⟨q, p, p', hq, h, h', hwindow, hnext ?_ ?_, hsql, hwindow ▸ hisPage.shown,
    hwindow' ▸ hisPage'.shown, hleast, hwithin.mpr (by decide)⟩
  · rw [hpage, hpage']
    rfl
  · rw [hpage, hsize]
    decide

end EntityRest
