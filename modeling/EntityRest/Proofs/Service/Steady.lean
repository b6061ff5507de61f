import EntityRest.Proofs.Query.Order
import EntityRest.Proofs.Service.Work
import EntityRest.Service.Read

/-! # Rows of a steady database

Where the answers of a database depend on statements alone, two works that go through the same steps
have the same answer, whatever the states they start in. -/

namespace EntityRest

/-! ## Steady databases -/

/-- What the database answers to a statement depends on the statement alone, and not on the order of
its conditions. -/
structure Database.Steady {σ : Type} (db : Database σ) : Prop where
  select {t t'} (h : Select.Reordered t t') (x y : σ) :
    (db.fetch (Fragment.statement db.dialect (t.fragments db.dialect)) x).1 =
      (db.fetch (Fragment.statement db.dialect (t'.fragments db.dialect)) y).1
  count {c c'} (h : Count.Reordered c c') (x y : σ) :
    (db.fetch (Fragment.statement db.dialect (c.fragments db.dialect)) x).1 =
      (db.fetch (Fragment.statement db.dialect (c'.fragments db.dialect)) y).1

variable {σ κ : Type}

/-! ## Work on the database -/

/-- The work changes nothing but the database. -/
def OnDatabase {α : Type} (work : Work (World σ κ) α) : Prop :=
  ∀ w, (work.outcome w).2 = { w with database := (work.outcome w).2.database }

namespace OnDatabase

variable {α β : Type} {work : Work (World σ κ) α} {next : α → Work (World σ κ) β}

theorem pure (a : α) : OnDatabase (pure a : Work (World σ κ) α) := fun _ => rfl

theorem throw (e : Halt) : OnDatabase (throw e : Work (World σ κ) α) := fun _ => rfl

theorem bind (hwork : OnDatabase work) (hnext : ∀ a, OnDatabase (next a)) :
    OnDatabase (work >>= next) := by
  intro w
  have hw := hwork w
  rw [Work.outcome_bind]
  generalize work.outcome w = o at hw ⊢
  rcases o with ⟨e | a, w'⟩
  · exact hw
  · change w' = _ at hw
    change ((next a).outcome w').2 = _
    rw [hnext a w', hw]

theorem lift {ε : Type} (wrap : ε → ServiceError) (x : Except ε α) :
    OnDatabase (Service.lift wrap x : Work (World σ κ) α) := by
  cases x with
  | error e => exact .throw _
  | ok a => exact .pure a

theorem kept (hwork : OnDatabase work) {w w' : World σ κ} {answer : Except Halt α}
    (h : work.outcome w = (answer, w')) :
    w'.cache = w.cache ∧ w'.now = w.now ∧ w'.sweeps = w.sweeps := by
  have hw := hwork w
  rw [h] at hw
  dsimp only at hw
  rw [hw]
  exact ⟨rfl, rfl, rfl⟩

end OnDatabase

/-! ## Parallel work -/

open Service in
/-- Both works go through the same steps, and read the same rows but for the order of conditions. -/
inductive Parallel (db : Database σ) :
    {α : Type} → Work (World σ κ) α → Work (World σ κ) α → Prop where
  | pure {α : Type} (a : α) : Parallel db (pure a) (pure a)
  | throw {α : Type} (e : Halt) : Parallel db (throw e : Work (World σ κ) α) (throw e)
  | bind {α β : Type} {w w' : Work (World σ κ) α} {f f' : α → Work (World σ κ) β}
    (h : Parallel db w w') (hf : ∀ a, Parallel db (f a) (f' a)) : Parallel db (w >>= f) (w' >>= f')
  | select {t t' : Select} (h : t.Reordered t') :
    Parallel db (onDatabase (db.fetchRows (t.fragments db.dialect)))
      (onDatabase (db.fetchRows (t'.fragments db.dialect)))
  | count {c c' : Count} (h : c.Reordered c') :
    Parallel db (onDatabase (db.fetchRows (c.fragments db.dialect)))
      (onDatabase (db.fetchRows (c'.fragments db.dialect)))

namespace Parallel

variable {db : Database σ} {α : Type} {work work' : Work (World σ κ) α}

/-- Such works have the same answer, whatever the state of a steady database. -/
theorem answer_eq (hdb : db.Steady) (h : Parallel db work work') (x y : World σ κ) :
    (work.outcome x).1 = (work'.outcome y).1 := by
  induction h generalizing x y with
  | pure | throw => rfl
  | @bind _ _ w w' f f' _ _ ih ihf =>
      have hsame := ih x y
      rw [Work.outcome_bind, Work.outcome_bind]
      generalize w.outcome x = r at hsame ⊢
      generalize w'.outcome y = r' at hsame ⊢
      rcases r with ⟨_ | a, x'⟩ <;> rcases r' with ⟨_ | b, y'⟩
      · exact congrArg Except.error (Except.error.inj hsame)
      · cases hsame
      · cases hsame
      · obtain rfl := Except.ok.inj hsame
        exact ihf a x' y'
  | select h => exact hdb.select h x.database y.database
  | count h => exact hdb.count h x.database y.database

theorem onDatabase (h : Parallel db work work') : OnDatabase work := by
  induction h with
  | pure a => exact .pure a
  | throw e => exact .throw e
  | select | count => exact fun _ => rfl
  | bind _ _ ih ihf => exact ih.bind ihf

theorem lift {ε : Type} (wrap : ε → ServiceError) (x : Except ε α) :
    Parallel (κ := κ) db (Service.lift wrap x) (Service.lift wrap x) := by
  cases x with
  | error e => exact .throw _
  | ok a => exact .pure a

end Parallel

/-! ## Rows -/

namespace Service

variable (sv : Service σ κ) (store store' : CacheStore κ)

section Unused

variable (n : Nat)

theorem expand_eq (rowsOf : Schema → Plan → Work (World σ κ) (List Json)) (s : Schema)
    (keys : List String) (row : Row) :
    ({ sv with cache := store, nesting := n } : Service σ κ).expand rowsOf s keys row =
      sv.expand rowsOf s keys row := by
  induction keys generalizing row with
  | nil => rfl
  | cons key keys ih =>
      simp only [expand, ih]
      rfl

theorem finish_eq (rowsOf : Schema → Plan → Work (World σ κ) (List Json)) (s : Schema) (p : Plan)
    (fetched : List Row) :
    ({ sv with cache := store, nesting := n } : Service σ κ).finish rowsOf s p fetched =
      sv.finish rowsOf s p fetched := by
  induction fetched with
  | nil => rfl
  | cons raw rest ih => rw [finish, finish, expand_eq, ih]

/-- Neither the cache nor the limit of a service matters to the rows of a plan, which are limited by
what they are given alone. -/
theorem rows_eq (k : Nat) :
    ({ sv with cache := store, nesting := n } : Service σ κ).rows k = sv.rows k := by
  induction k with
  | zero => rfl
  | succ k ih =>
      funext s p
      simp only [rows, ih, finish_eq]
      rfl

end Unused

theorem expand_parallel {rowsOf rowsOf' : Schema → Plan → Work (World σ κ) (List Json)}
    (h : ∀ s p, Parallel sv.database (rowsOf s p) (rowsOf' s p)) (s : Schema) (keys : List String)
    (row : Row) : Parallel sv.database ({ sv with cache := store }.expand rowsOf s keys row)
      ({ sv with cache := store' }.expand rowsOf' s keys row) := by
  induction keys generalizing row with
  | nil => exact .pure row
  | cons key keys ih =>
      refine .bind (.lift _ _) fun child => ?_
      cases child with
      | none => exact .bind (.pure []) fun children => ih _
      | some child => exact .bind (h child.1 child.2) fun children => ih _

theorem finish_parallel {rowsOf rowsOf' : Schema → Plan → Work (World σ κ) (List Json)}
    (h : ∀ s p, Parallel sv.database (rowsOf s p) (rowsOf' s p)) (s : Schema) {p p' : Plan}
    (hp : p.Reordered p') (rows : List Row) :
    Parallel sv.database ({ sv with cache := store }.finish rowsOf s p rows)
      ({ sv with cache := store' }.finish rowsOf' s p' rows) := by
  induction rows with
  | nil => exact .pure []
  | cons raw rest ih =>
      refine .bind ?_ fun row => ?_
      · rw [hp.includes]
        exact expand_parallel sv store store' h s p'.includes _
      · rw [hp.strip]
        exact .bind ih fun more => .pure _

theorem rows_parallel (depth : Nat) (s : Schema) {p p' : Plan} (hp : p.Reordered p') :
    Parallel sv.database ({ sv with cache := store }.rows depth s p)
      ({ sv with cache := store' }.rows depth s p') := by
  induction depth generalizing s p p' with
  | zero => exact .throw _
  | succ depth ih =>
      refine .bind (.select hp.select) fun fetched => ?_
      exact finish_parallel sv store store' (fun s p => ih s (.refl p)) s hp fetched

theorem pageMeta_parallel {p p' : Plan} (hp : p.Reordered p') :
    Parallel sv.database ({ sv with cache := store }.pageMeta p)
      ({ sv with cache := store' }.pageMeta p') := by
  have hcount := hp.count
  unfold pageMeta
  cases hc : p.count <;> cases hc' : p'.count <;> rw [hc, hc'] at hcount
  · exact .pure none
  · cases hcount
  · cases hcount
  · rw [Option.rel_some_some] at hcount
    rw [hp.page, hp.perPage]
    exact .bind (.count hcount) fun counted => .pure _

end Service

end EntityRest
