import EntityRest.Service.Database

/-! # Outcomes of work

Work on a state step by step: what it answers, and the state after it. -/

namespace EntityRest

namespace Work

variable {σ α β : Type}

/-- What work on a state answers, with the state after it. -/
def outcome (w : Work σ α) (x : σ) : Except Halt α × σ := w.run.run x

@[simp] theorem outcome_pure (a : α) (x : σ) : outcome (pure a : Work σ α) x = (.ok a, x) := rfl

@[simp] theorem outcome_throw (e : Halt) (x : σ) :
    outcome (throw e : Work σ α) x = (.error e, x) := rfl

/-- Work goes on where a first step has an answer, and ends where it has none. -/
theorem outcome_bind (w : Work σ α) (f : α → Work σ β) (x : σ) :
    outcome (w >>= f) x =
      match w.outcome x with
      | (.ok a, y) => (f a).outcome y
      | (.error e, y) => (.error e, y) := by
  change (match w.run.run x with
    | (r, y) => (ExceptT.bindCont f r).run y) = _
  unfold outcome
  rcases w.run.run x with ⟨_ | _, _⟩ <;> rfl

theorem outcome_bind_ok {w : Work σ α} {x y : σ} {a : α} (h : w.outcome x = (.ok a, y))
    (f : α → Work σ β) : outcome (w >>= f) x = (f a).outcome y := by
  rw [outcome_bind, h]

theorem outcome_bind_eq_error {w : Work σ α} {f : α → Work σ β} {x y : σ} {e : Halt} :
    outcome (w >>= f) x = (.error e, y) ↔
      w.outcome x = (.error e, y) ∨
        ∃ a z, w.outcome x = (.ok a, z) ∧ (f a).outcome z = (.error e, y) := by
  rw [outcome_bind]
  rcases w.outcome x with ⟨_ | a, z⟩
  · simp
  · simp [and_assoc]

theorem outcome_bind_eq_ok {w : Work σ α} {f : α → Work σ β} {x y : σ} {b : β} :
    outcome (w >>= f) x = (.ok b, y) ↔
      ∃ a z, w.outcome x = (.ok a, z) ∧ (f a).outcome z = (.ok b, y) := by
  rw [outcome_bind]
  rcases w.outcome x with ⟨_ | a, z⟩
  · simp
  · simp [and_assoc]

end Work

namespace Database

variable {σ : Type} (db : Database σ) (fs : List Fragment) (x : σ)

@[simp] theorem outcome_run :
    (db.run fs).outcome x = db.execute (Fragment.statement db.dialect fs) x := rfl

@[simp] theorem outcome_fetchRows :
    (db.fetchRows fs).outcome x = db.fetch (Fragment.statement db.dialect fs) x := rfl

/-- The same database, with a record of the statements that it executes. -/
def recorded : Database (σ × List Statement) where
  dialect := db.dialect
  fetch st x := ((db.fetch st x.1).1, ((db.fetch st x.1).2, x.2))
  execute st x := ((db.execute st x.1).1, ((db.execute st x.1).2, x.2 ++ [st]))
  isReady x := db.isReady x.1

@[simp] theorem recorded_dialect : db.recorded.dialect = db.dialect := rfl

end Database

end EntityRest
