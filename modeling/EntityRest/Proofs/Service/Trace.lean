import EntityRest.Proofs.Except
import EntityRest.Proofs.Service.Work
import EntityRest.Service.Write

/-! # Traces of work

What a database was asked and what it answered, in order. Work on rows only fetches, so whatever it
adds to the trace are fetched statements, each of them of a plan that the work was given or made for
the children of a row. -/

namespace EntityRest

def ServiceError.IsNotFound : ServiceError → Prop
  | .notFound _ => True
  | _ => False

def Halt.IsNotFound : Halt → Prop
  | .error e => e.IsNotFound
  | _ => False

/-! ## Traced services -/

/-- A statement that a database was given, with its answer. -/
inductive Event where
  | fetched (st : Statement) (answer : Except Halt (List Row))
  | executed (st : Statement) (answer : Except Halt Nat)

namespace Event

/-- Rows were read. -/
def IsFetch : Event → Prop
  | fetched .. => True
  | executed .. => False

/-- A statement was executed and reported that it changed rows. -/
def Changes : Event → Prop
  | executed _ (.ok n) => n ≠ 0
  | _ => False

instance (e : Event) : Decidable e.Changes :=
  match e with
  | fetched .. | executed _ (.error _) => .isFalse not_false
  | executed _ (.ok n) => inferInstanceAs (Decidable (n ≠ 0))

theorem IsFetch.not_changes {e : Event} (h : e.IsFetch) : ¬e.Changes := by
  cases e with
  | fetched => exact id
  | executed => exact absurd h id

end Event

variable {σ κ α β : Type}

/-- The same database, with a record of what it was asked and what it answered. -/
def Database.traced (db : Database σ) : Database (σ × List Event) where
  dialect := db.dialect
  fetch st x := ((db.fetch st x.1).1, (db.fetch st x.1).2, x.2 ++ [.fetched st (db.fetch st x.1).1])
  execute st x :=
    ((db.execute st x.1).1, (db.execute st x.1).2, x.2 ++ [.executed st (db.execute st x.1).1])
  isReady x := db.isReady x.1

/-- The same service with a traced database. -/
def Service.traced (sv : Service σ κ) : Service (σ × List Event) κ where
  registry := sv.registry
  database := sv.database.traced
  cache := sv.cache
  settings := sv.settings
  translator := sv.translator
  nesting := sv.nesting

namespace World

def trace (w : World (σ × List Event) κ) : List Event := w.database.2

def traced (w : World σ κ) : World (σ × List Event) κ :=
  ⟨(w.database, []), w.cache, w.now, w.sweeps⟩

@[simp] theorem trace_traced (w : World σ κ) : w.traced.trace = [] := rfl

end World

/-! ## What work adds to the trace -/

/-- Whatever the work adds to the trace has the property. -/
def Emits (P : Event → Prop) (work : Work (World (σ × List Event) κ) α) : Prop :=
  ∀ w, ∃ events, (work.outcome w).2.trace = w.trace ++ events ∧ ∀ e ∈ events, P e

/-- Work that ends without an answer ends as `H` says, or as the last fetch did. -/
def HaltsBy (H : Halt → Prop) (work : Work (World (σ × List Event) κ) α) : Prop :=
  ∀ w e w', work.outcome w = (.error e, w') →
    H e ∨ ∃ st, w'.trace.getLast? = some (.fetched st (.error e))

section Steps

variable {P : Event → Prop} {H : Halt → Prop} {work : Work (World (σ × List Event) κ) α}
  {next : α → Work (World (σ × List Event) κ) β}

theorem Emits.of_trace_eq (h : ∀ w, (work.outcome w).2.trace = w.trace) : Emits P work :=
  fun w => ⟨[], by rw [h, List.append_nil], by simp⟩

theorem Emits.pure (a : α) : Emits P (pure a : Work (World (σ × List Event) κ) α) :=
  .of_trace_eq fun _ => rfl

theorem Emits.throw (e : Halt) : Emits P (throw e : Work (World (σ × List Event) κ) α) :=
  .of_trace_eq fun _ => rfl

theorem Emits.bind (hwork : Emits P work) (hnext : ∀ a, Emits P (next a)) :
    Emits P (work >>= next) := by
  intro w
  obtain ⟨events, htrace, hevents⟩ := hwork w
  rw [Work.outcome_bind]
  generalize work.outcome w = o at htrace ⊢
  rcases o with ⟨e | a, w'⟩
  · exact ⟨events, htrace, hevents⟩
  · obtain ⟨more, htrace', hmore⟩ := hnext a w'
    refine ⟨events ++ more, ?_, List.forall_mem_append.mpr ⟨hevents, hmore⟩⟩
    rw [htrace', htrace, List.append_assoc]

theorem Emits.lift {ε : Type} (wrap : ε → ServiceError) (x : Except ε α) :
    Emits P (Service.lift wrap x : Work (World (σ × List Event) κ) α) := by
  cases x with
  | error e => exact .throw _
  | ok a => exact .pure a

theorem Emits.lift_bind {ε : Type} {wrap : ε → ServiceError} {x : Except ε α}
    (h : ∀ a, x = .ok a → Emits P (next a)) : Emits P (Service.lift wrap x >>= next) := by
  cases x with
  | error e => exact .throw _
  | ok a => exact h a rfl

theorem HaltsBy.pure (a : α) : HaltsBy H (pure a : Work (World (σ × List Event) κ) α) := by
  rintro w e w' ⟨⟩

theorem HaltsBy.throw {e : Halt} (h : H e) :
    HaltsBy H (throw e : Work (World (σ × List Event) κ) α) := by
  rintro w e' w' ⟨⟩
  exact .inl h

theorem HaltsBy.bind (hwork : HaltsBy H work) (hnext : ∀ a, HaltsBy H (next a)) :
    HaltsBy H (work >>= next) := by
  intro w e w' h
  obtain h | ⟨a, w₁, _, h⟩ := Work.outcome_bind_eq_error.mp h
  · exact hwork w e w' h
  · exact hnext a w₁ e w' h

theorem HaltsBy.lift {ε : Type} {wrap : ε → ServiceError} {x : Except ε α}
    (h : ∀ e, x = .error e → H (.error (wrap e))) :
    HaltsBy H (Service.lift wrap x : Work (World (σ × List Event) κ) α) := by
  cases x with
  | error e => exact .throw (h e rfl)
  | ok a => exact .pure a

end Steps

namespace Service

variable (sv : Service σ κ)

theorem outcome_fetch_traced (fs : List Fragment) (w : World (σ × List Event) κ) :
    ∃ answer s, (sv.traced.fetch fs).outcome w = (answer, { w with database := (s, w.trace ++
      [.fetched (Fragment.statement sv.database.dialect fs) answer]) }) :=
  ⟨_, _, rfl⟩

theorem emits_fetch {P : Event → Prop} {fs : List Fragment}
    (h : ∀ answer, P (.fetched (Fragment.statement sv.database.dialect fs) answer)) :
    Emits P (sv.traced.fetch fs : Work (World (σ × List Event) κ) _) := by
  intro w
  obtain ⟨answer, s, heq⟩ := sv.outcome_fetch_traced fs w
  exact ⟨[.fetched _ answer], by rw [heq]; rfl, by simpa using h answer⟩

theorem haltsBy_fetch (H : Halt → Prop) (fs : List Fragment) :
    HaltsBy H (sv.traced.fetch fs : Work (World (σ × List Event) κ) _) := by
  intro w e w' h
  obtain ⟨answer, s, heq⟩ := sv.outcome_fetch_traced fs w
  rw [heq] at h
  cases h
  exact .inr ⟨_, List.getLast?_concat⟩

/-! ## Rows -/

section Rows

variable {P : Event → Prop} {rowsOf : Schema → Plan → Work (World (σ × List Event) κ) (List Json)}
  {s : Schema}

theorem emits_expand {keys : List String}
    (h : ∀ key ∈ keys, ∀ row t p, sv.traced.childPlan s key row = .ok (some (t, p)) →
      Emits P (rowsOf t p)) (row : Row) : Emits P (sv.traced.expand rowsOf s keys row) := by
  induction keys generalizing row with
  | nil => exact .pure row
  | cons key keys ih =>
      obtain ⟨hkey, hkeys⟩ := List.forall_mem_cons.mp h
      refine .lift_bind fun child hchild => ?_
      cases child with
      | none => exact .bind (.pure []) fun children => ih hkeys _
      | some child => exact .bind (hkey row _ _ hchild) fun children => ih hkeys _

theorem emits_finish {p : Plan}
    (h : ∀ key ∈ p.includes, ∀ row t p', sv.traced.childPlan s key row = .ok (some (t, p')) →
      Emits P (rowsOf t p')) (fetched : List Row) :
    Emits P (sv.traced.finish rowsOf s p fetched) := by
  induction fetched with
  | nil => exact .pure []
  | cons raw rest ih =>
      exact .bind (sv.emits_expand h _) fun row => .bind ih fun more => .pure _

/-- Work on rows of a plan fetches with the plan, and with the plans for children of the rows that
it fetched. A property of plans that goes over to those for children says what it fetches. -/
theorem emits_rows {Q : Schema → Plan → Prop}
    (hplan : ∀ s p, Q s p → ∀ answer, P (.fetched (p.selectStatement sv.database.dialect) answer))
    (hchild : ∀ s p, Q s p → ∀ key ∈ p.includes, ∀ row t p',
      sv.traced.childPlan s key row = .ok (some (t, p')) → Q t p')
    (depth : Nat) {p : Plan} (h : Q s p) :
    Emits P (sv.traced.rows depth s p : Work (World (σ × List Event) κ) _) := by
  induction depth generalizing s p with
  | zero => exact .throw _
  | succ depth ih =>
      refine .bind (sv.emits_fetch (hplan s p h)) fun fetched => sv.emits_finish ?_ fetched
      exact fun key hkey row t p' hp' => ih (hchild s p h key hkey row t p' hp')

theorem trace_of_rows_eq_nil {depth : Nat} {p : Plan} {w w' : World (σ × List Event) κ}
    (h : (sv.traced.rows depth s p).outcome w = (.ok [], w')) :
    w'.trace = w.trace ++ [.fetched (p.selectStatement sv.database.dialect) (.ok [])] := by
  cases depth with
  | zero => cases h
  | succ depth =>
      obtain ⟨fetched, w₁, hfetch, hfinish⟩ := Work.outcome_bind_eq_ok.mp h
      obtain ⟨answer, x, heq⟩ :=
        sv.outcome_fetch_traced (p.select.fragments sv.database.dialect) w
      cases fetched with
      | nil =>
          cases heq.symm.trans hfetch
          cases hfinish
          rfl
      | cons raw rest =>
          -- a fetched row makes a document
          obtain ⟨_, _, _, hrest⟩ := Work.outcome_bind_eq_ok.mp hfinish
          obtain ⟨_, _, _, hdone⟩ := Work.outcome_bind_eq_ok.mp hrest
          cases hdone

/-- Plans for children are refused, but never not found. -/
theorem not_isNotFound_of_childPlan {key : String} {row : Row} {e : ServiceError}
    (h : sv.childPlan s key row = .error e) : ¬e.IsNotFound := by
  unfold childPlan at h
  split at h
  · cases h
    exact id
  split at h
  · cases h
    exact id
  split at h
  · cases h
  · obtain h | ⟨q, -, h⟩ := bind_eq_error.mp h
    · obtain ⟨_, -, rfl⟩ := mapError_eq_error.mp h
      exact id
    · obtain h | ⟨plan, -, h⟩ := bind_eq_error.mp h
      · obtain ⟨_, -, rfl⟩ := mapError_eq_error.mp h
        exact id
      · cases h

theorem haltsBy_expand {keys : List String}
    (h : ∀ t p, HaltsBy (¬·.IsNotFound) (rowsOf t p)) (row : Row) :
    HaltsBy (¬·.IsNotFound) (sv.traced.expand rowsOf s keys row) := by
  induction keys generalizing row with
  | nil => exact .pure row
  | cons key keys ih =>
      refine .bind (.lift fun e he => sv.traced.not_isNotFound_of_childPlan he) fun child => ?_
      cases child with
      | none => exact .bind (.pure []) fun children => ih _
      | some child => exact .bind (h _ _) fun children => ih _

theorem haltsBy_finish {p : Plan}
    (h : ∀ t p, HaltsBy (¬·.IsNotFound) (rowsOf t p)) (fetched : List Row) :
    HaltsBy (¬·.IsNotFound) (sv.traced.finish rowsOf s p fetched) := by
  induction fetched with
  | nil => exact .pure []
  | cons raw rest ih =>
      exact .bind (sv.haltsBy_expand h _) fun row => .bind ih fun more => .pure _

/-- Work on rows does not end because a row is not found, unless the database says so. -/
theorem haltsBy_rows (depth : Nat) (s : Schema) (p : Plan) :
    HaltsBy (¬·.IsNotFound)
      (sv.traced.rows depth s p : Work (World (σ × List Event) κ) _) := by
  induction depth generalizing s p with
  | zero => exact .throw id
  | succ depth ih =>
      exact .bind (sv.haltsBy_fetch _ _) fun fetched => sv.haltsBy_finish ih fetched

end Rows

end Service

end EntityRest
