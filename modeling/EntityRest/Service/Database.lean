import EntityRest.Migration.Stamp
import EntityRest.Service.Error

/-!
# Databases

A database answers statements one at a time, and its state changes as it does. A statement may fail,
and it may end the work on a request without an answer.
-/

namespace EntityRest

/-- How work ends without a result. -/
inductive Halt where
  | error (e : ServiceError)
  /-- The work broke down, and said why. -/
  | crash (reason : String)
  /-- The work goes on for ever. -/
  | stall
deriving DecidableEq

/-- A database with states of type `σ`. Changing rows answers with the number of rows changed. -/
structure Database (σ : Type) where
  dialect : Dialect
  fetch : Statement → σ → Except Halt (List Row) × σ
  execute : Statement → σ → Except Halt Nat × σ
  /-- Does the database answer at all? -/
  isReady : σ → Bool

/-- Work on a state, which may end without a result. -/
abbrev Work (σ : Type) := ExceptT Halt (StateM σ)

namespace Database

variable {σ : Type}

/-- Fetches the rows of a statement given in fragments. -/
def fetchRows (db : Database σ) (fs : List Fragment) : Work σ (List Row) :=
  ExceptT.mk (db.fetch (Fragment.statement db.dialect fs))

/-- Executes a statement given in fragments. -/
def run (db : Database σ) (fs : List Fragment) : Work σ Nat :=
  ExceptT.mk (db.execute (Fragment.statement db.dialect fs))

end Database

end EntityRest
