import EntityRest.Proofs.Service.Reads
import EntityRest.Proofs.Service.Trace

/-! # Writes

A write is prepared, its statement is executed, and then it is answered. A row that is deleted is
read while the write is prepared. A row that is created or changed is read for the answer, with the
conditions of its entity besides its primary key, so a write that was carried out may still end as
if there were no such row. -/

namespace EntityRest

inductive WriteRequest where
  | create (payload : Json) (fresh : Uuid)
  | update (id : String) (payload : Json)
  | delete (id : String)

namespace WriteRequest

/-- The id that the row is read by after it is written. -/
def readBack? (s : Schema) : WriteRequest → Option String
  | create payload fresh =>
    (Schema.present? (s.withKey fresh (s.readPayload payload)) s.primaryKey).map Json.plain
  | update id _ => some id
  | delete _ => none

/-- Does the write go on where its statement changed no rows? -/
def goesOn : WriteRequest → Bool
  | create .. => true
  | update .. | delete _ => false

end WriteRequest

namespace Service

variable {σ κ : Type} (sv : Service σ κ) {s : Schema}

/-! ## The steps of a write -/

def write (s : Schema) : WriteRequest → Work (World σ κ) Json
  | .create payload fresh => sv.create s payload fresh
  | .update id payload => sv.update s id payload
  | .delete id => sv.delete s id

/-- What comes before the statement: that statement, unless there is nothing to write, and the work
that answers the write. -/
def prepare (s : Schema) :
    WriteRequest → Work (World σ κ) (Option (List Fragment) × Work (World σ κ) Json)
  | .create payload fresh => do
    let given := s.readPayload payload
    refuse (s.violation? given)
    let values := s.withKey fresh given
    let columns := s.ownValues values
    if columns.isEmpty then fail (.badRequest "payload has no writable fields" none)
    return (some (Sql.insert s sv.database.dialect columns),
      match Schema.present? values s.primaryKey with
      | some id => sv.fetchOne s {} id.plain
      | none => return s.shapeRow values)
  | .update id payload => do
    let values := s.readPayload payload
    refuse (s.partialViolation? values)
    let (column, key) ← lift (·) (s.keyValue id)
    return (Sql.update? s sv.database.dialect column key (s.ownValues values), sv.fetchOne s {} id)
  | .delete id => do
    let row ← sv.fetchOne s {} id
    let (column, key) ← lift (·) (s.keyValue id)
    return (some (Sql.delete s sv.database.dialect column key), return row)

/-- Executes the statement, which has to change rows unless the write goes on without. -/
def carryOut (s : Schema) (o : WriteRequest) (fs : List Fragment) : Work (World σ κ) Unit := do
  let changed ← sv.execute fs
  if changed = 0 ∧ !o.goesOn then fail (.notFound s.name)
  sv.invalidate s

theorem write_eq (s : Schema) (o : WriteRequest) :
    sv.write s o = sv.prepare s o >>= fun prepared =>
      (match prepared.1 with
      | some fs => sv.carryOut s o fs
      | none => pure ()) >>= fun _ => prepared.2 := by
  cases o with
  | create payload fresh =>
      simp only [write, create, prepare, carryOut, WriteRequest.goesOn, bind_assoc]
      refine bind_congr fun _ => ?_
      split
      · rfl
      · cases Schema.present? (s.withKey fresh (s.readPayload payload)) s.primaryKey with
        | none => simp
        | some id => simp
  | update id payload =>
      simp only [write, update, prepare, carryOut, writeOne, WriteRequest.goesOn, bind_assoc]
      refine bind_congr fun _ => bind_congr fun key => ?_
      cases Sql.update? s sv.database.dialect key.1 key.2
        (s.ownValues (s.readPayload payload)) with
      | none => simp
      | some fs => simp
  | delete id =>
      simp only [write, delete, prepare, carryOut, writeOne, WriteRequest.goesOn, bind_assoc]
      refine bind_congr fun row => bind_congr fun key => ?_
      simp

theorem onDatabase_execute (fs : List Fragment) :
    OnDatabase (sv.execute fs : Work (World σ κ) Nat) := fun _ => rfl

/-- The statement is executed; sweeps are launched if rows were changed or the write goes on, and
otherwise the write ends. -/
theorem outcome_carryOut {o : WriteRequest} {fs : List Fragment} {w w' : World σ κ}
    {answer : Except Halt Unit} (h : (sv.carryOut s o fs).outcome w = (answer, w')) :
    ∃ executed w₁, (sv.execute fs).outcome w = (executed, w₁) ∧
      ((∃ e, answer = .error e ∧ w' = w₁ ∧ ∀ n, executed = .ok n → n = 0 ∧ o.goesOn = false) ∨
        ∃ n, executed = .ok n ∧ (n ≠ 0 ∨ o.goesOn = true) ∧ answer = .ok () ∧
          w' = ((sv.invalidate s).outcome w₁).2) := by
  rw [carryOut, Work.outcome_bind] at h
  rcases hexecuted : (sv.execute fs).outcome w with ⟨e | n, w₁⟩
  · rw [hexecuted] at h
    cases h
    exact ⟨_, _, rfl, .inl ⟨e, rfl, rfl, nofun⟩⟩
  · rw [hexecuted] at h
    by_cases hends : n = 0 ∧ (!o.goesOn) = true
    · simp only [if_pos hends] at h
      cases h
      refine ⟨_, _, rfl, .inl ⟨_, rfl, rfl, ?_⟩⟩
      rintro _ ⟨⟩
      exact ⟨hends.1, by simpa using hends.2⟩
    · simp only [if_neg hends] at h
      cases h
      refine ⟨_, _, rfl, .inr ⟨n, rfl, ?_, rfl, rfl⟩⟩
      by_cases hn : n = 0
      · exact .inr (by simpa [hn] using hends)
      · exact .inl hn

/-! ## Steps that only read -/

theorem eq_of_refuse {i : Option Invalid} {w w' : World σ κ} {u : Unit}
    (h : (refuse i : Work (World σ κ) Unit).outcome w = (.ok u, w')) : w' = w := by
  cases i with
  | none =>
      cases h
      rfl
  | some i => cases h

theorem eq_of_lift {α ε : Type} {wrap : ε → ServiceError} {x : Except ε α} {a : α}
    {w w' : World σ κ} (h : (lift wrap x : Work (World σ κ) α).outcome w = (.ok a, w')) :
    x = .ok a ∧ w' = w := by
  cases x with
  | error e => cases h
  | ok b =>
      cases h
      exact ⟨rfl, rfl⟩

theorem eq_error_of_lift {α ε : Type} {wrap : ε → ServiceError} {x : Except ε α} {e : Halt}
    {w w' : World σ κ} (h : (lift wrap x : Work (World σ κ) α).outcome w = (.error e, w')) :
    ∃ e', x = .error e' ∧ e = .error (wrap e') ∧ w' = w := by
  cases x with
  | error e =>
      cases h
      exact ⟨e, rfl, rfl, rfl⟩
  | ok b => cases h

theorem refuse_parallel (i : Option Invalid) :
    Parallel (κ := κ) sv.database (refuse i) (refuse i) := by
  cases i with
  | none => exact .pure ()
  | some i => exact .throw _

theorem fetchOne_parallel (s : Schema) (q : Query) (id : String) :
    Parallel sv.database (sv.fetchOne s q id) (sv.fetchOne s q id) := by
  refine .bind (.lift _ _) fun plan => .bind ?_ fun rows => ?_
  · exact sv.rows_parallel sv.cache sv.cache sv.nesting s (.refl plan)
  · cases rows with
    | nil => exact .throw _
    | cons row rows => exact .pure row

theorem prepare_parallel (s : Schema) (o : WriteRequest) :
    Parallel sv.database (sv.prepare s o) (sv.prepare s o) := by
  cases o with
  | create payload fresh =>
      refine .bind (sv.refuse_parallel _) fun _ => ?_
      dsimp only
      split
      · exact .throw _
      · exact .pure _
  | update id payload =>
      exact .bind (sv.refuse_parallel _) fun _ => .bind (.lift _ _) fun _ => .pure _
  | delete id =>
      exact .bind (sv.fetchOne_parallel s {} id) fun _ => .bind (.lift _ _) fun _ => .pure _

/-- A write is answered with a row that is there already, or else the row is read back. -/
theorem answer_of_prepare {o : WriteRequest} {w w' : World σ κ}
    {prepared : Option (List Fragment) × Work (World σ κ) Json}
    (h : (sv.prepare s o).outcome w = (.ok prepared, w')) :
    (∃ row, prepared.2 = pure row) ∨
      ∃ id ∈ o.readBack? s, prepared.2 = sv.fetchOne s {} id ∧ w' = w := by
  cases o with
  | create payload fresh =>
      obtain ⟨_, w₁, hrefuse, hrest⟩ := Work.outcome_bind_eq_ok.mp h
      obtain rfl := eq_of_refuse hrefuse
      dsimp only at hrest
      split at hrest
      · cases hrest
      · cases hrest
        unfold WriteRequest.readBack?
        dsimp only
        cases Schema.present? (s.withKey fresh (s.readPayload payload)) s.primaryKey with
        | none => exact .inl ⟨_, rfl⟩
        | some v => exact .inr ⟨_, rfl, rfl, rfl⟩
  | update id payload =>
      obtain ⟨_, w₁, hrefuse, hrest⟩ := Work.outcome_bind_eq_ok.mp h
      obtain rfl := eq_of_refuse hrefuse
      obtain ⟨⟨column, key⟩, w₂, hkey, hprepared⟩ := Work.outcome_bind_eq_ok.mp hrest
      obtain ⟨-, rfl⟩ := eq_of_lift hkey
      cases hprepared
      exact .inr ⟨id, rfl, rfl, rfl⟩
  | delete id =>
      obtain ⟨row, w₁, -, hrest⟩ := Work.outcome_bind_eq_ok.mp h
      obtain ⟨⟨column, key⟩, w₂, -, hprepared⟩ := Work.outcome_bind_eq_ok.mp hrest
      cases hprepared
      exact .inl ⟨row, rfl⟩

theorem answer_parallel {o : WriteRequest} {w w' : World σ κ}
    {prepared : Option (List Fragment) × Work (World σ κ) Json}
    (h : (sv.prepare s o).outcome w = (.ok prepared, w')) :
    Parallel sv.database prepared.2 prepared.2 := by
  obtain ⟨row, hrow⟩ | ⟨id, -, hback, -⟩ := sv.answer_of_prepare h
  · exact hrow ▸ .pure row
  · exact hback ▸ sv.fetchOne_parallel s {} id

end Service

theorem Parallel.emits_isFetch {σ κ α : Type} {db : Database σ}
    {work work' : Work (World (σ × List Event) κ) α} (h : Parallel db.traced work work') :
    Emits Event.IsFetch work := by
  induction h with
  | pure a => exact .pure a
  | throw e => exact .throw e
  | bind _ _ ih ihf => exact ih.bind ihf
  | select | count => exact fun w => ⟨[.fetched _ _], rfl, List.forall_mem_singleton.mpr trivial⟩

namespace Service

variable {σ κ : Type} (sv : Service σ κ) {s : Schema}

/-! ## Rows that are lost sight of -/

/-- The trace of a write that changed rows first and then read the row of an id in vain: its
statement had no rows, or the database itself did not find something. -/
def LosesSight (s : Schema) (id : String) (trace : List Event) : Prop :=
  ∃ st n plan reads, n ≠ 0 ∧ trace = .executed st (.ok n) :: reads ∧
    sv.registry.compileOne sv.database.dialect s {} id = .ok plan ∧
    (reads = [.fetched (plan.selectStatement sv.database.dialect) (.ok [])] ∨
      ∃ st' e, reads.getLast? = some (.fetched st' (.error e)) ∧ e.IsNotFound)

section Traces

variable {w w' : World (σ × List Event) κ} {e : Halt}

/-- A row is not found if its statement has no rows, or if the database itself does not find
something. -/
theorem trace_of_fetchOne {q : Query} {id : String}
    (h : (sv.traced.fetchOne s q id).outcome w = (.error e, w')) (he : e.IsNotFound) :
    ∃ plan reads, sv.registry.compileOne sv.database.dialect s q id = .ok plan ∧
      w'.trace = w.trace ++ reads ∧
      (reads = [.fetched (plan.selectStatement sv.database.dialect) (.ok [])] ∨
        ∃ st, w'.trace.getLast? = some (.fetched st (.error e))) := by
  obtain hlift | ⟨plan, w₁, hlift, hrest⟩ := Work.outcome_bind_eq_error.mp h
  · obtain ⟨_, -, rfl, -⟩ := eq_error_of_lift hlift
    exact absurd he not_false
  obtain ⟨hplan, rfl⟩ := eq_of_lift hlift
  obtain hrows | ⟨rows, w₂, hrows, hfound⟩ := Work.outcome_bind_eq_error.mp hrest
  · obtain ⟨reads, htrace, -⟩ :=
      (sv.traced.rows_parallel sv.cache sv.cache sv.nesting s (.refl plan)).emits_isFetch w₁
    have hlast := (sv.haltsBy_rows sv.nesting s plan w₁ e w' hrows).resolve_left (not_not.mpr he)
    exact ⟨plan, reads, hplan, (congrArg (·.2.trace) hrows).symm.trans htrace, .inr hlast⟩
  · cases rows with
    | nil =>
        cases hfound
        exact ⟨plan, _, hplan, sv.trace_of_rows_eq_nil hrows, .inl rfl⟩
    | cons row rows => cases hfound

/-- After rows were changed the row may be lost sight of. -/
theorem losesSight_of_fetchOne {st : Statement} {n : Nat} (hn : n ≠ 0) {id : String}
    (hw : w.trace = [.executed st (.ok n)])
    (h : (sv.traced.fetchOne s {} id).outcome w = (.error e, w')) (he : e.IsNotFound) :
    sv.LosesSight s id w'.trace := by
  obtain ⟨plan, reads, hplan, htrace, hreads⟩ := sv.trace_of_fetchOne h he
  rw [hw] at htrace
  refine ⟨st, n, plan, reads, hn, htrace, hplan, hreads.imp_right ?_⟩
  rintro ⟨st', hlast⟩
  refine ⟨st', e, ?_, he⟩
  cases reads with
  | nil =>
      rw [htrace] at hlast
      cases hlast
  | cons r reads => rwa [htrace, List.singleton_append, List.getLast?_cons_cons] at hlast

theorem not_changes_of_emits {α : Type} {work : Work (World (σ × List Event) κ) α}
    (hwork : Emits Event.IsFetch work) {answer : Except Halt α} (h : work.outcome w = (answer, w'))
    (hw : ∀ r ∈ w.trace, ¬r.Changes) : ∀ r ∈ w'.trace, ¬r.Changes := by
  obtain ⟨reads, htrace, hreads⟩ := hwork w
  rw [h] at htrace
  rw [htrace, List.forall_mem_append]
  exact ⟨hw, fun r hr => (hreads r hr).not_changes⟩

theorem trace_of_execute {fs : List Fragment} {executed : Except Halt Nat}
    (h : (sv.traced.execute fs).outcome w = (executed, w')) :
    w'.trace = w.trace ++ [.executed (Fragment.statement sv.database.dialect fs) executed] := by
  cases h
  rfl

/-- The statement of a write comes to the trace, and sweeps are launched if it changed rows. -/
theorem trace_of_carryOut {o : WriteRequest} {fs : List Fragment} {answer : Except Halt Unit}
    (h : (sv.traced.carryOut s o fs).outcome w = (answer, w')) :
    ∃ executed, w'.trace =
        w.trace ++ [.executed (Fragment.statement sv.database.dialect fs) executed] ∧
      ((∃ e, answer = .error e ∧
          ¬(Event.executed (Fragment.statement sv.database.dialect fs) executed).Changes) ∨
        ∃ n, executed = .ok n ∧ answer = .ok () ∧
          w'.sweeps = w.sweeps ++ (sv.registry.staleAfter s.name).map Fingerprint.keyPrefix) := by
  obtain ⟨executed, w₁, hexecuted, hcases⟩ := sv.traced.outcome_carryOut h
  refine ⟨executed, ?_, ?_⟩
  · rw [← sv.trace_of_execute hexecuted]
    obtain ⟨-, -, rfl, -⟩ | ⟨-, -, -, -, rfl⟩ := hcases
    · rfl
    · rfl
  · refine hcases.imp ?_ ?_
    · rintro ⟨e, hanswer, -, hzero⟩
      refine ⟨e, hanswer, ?_⟩
      cases executed with
      | error e => exact not_false
      | ok n => exact not_not.mpr (hzero n rfl).1
    · rintro ⟨n, rfl, -, hanswer, rfl⟩
      obtain ⟨-, -, hkept⟩ := (sv.traced.onDatabase_execute fs).kept hexecuted
      exact ⟨n, rfl, hanswer, congrArg (· ++ _) hkept⟩

/-- A write that changed rows was prepared, was carried out, which launched its sweeps, and then was
answered. -/
theorem carriedOut_of_changes {o : WriteRequest} {w : World σ κ} {answer : Except Halt Json}
    (h : (sv.traced.write s o).outcome w.traced = (answer, w'))
    (hchanges : ∃ r ∈ w'.trace, r.Changes) :
    ∃ prepared w₁ w₂ st n, (sv.traced.prepare s o).outcome w.traced = (.ok prepared, w₁) ∧
      n ≠ 0 ∧ w₂.trace = w₁.trace ++ [.executed st (.ok n)] ∧
      w₂.sweeps = w₁.sweeps ++ (sv.registry.staleAfter s.name).map Fingerprint.keyPrefix ∧
      prepared.2.outcome w₂ = (answer, w') := by
  -- a write is prepared and answered by reads, so the changes are those of its statement
  have hsome : ¬∀ r ∈ w'.trace, ¬r.Changes := by simpa using hchanges
  have hreads := (sv.traced.prepare_parallel s o).emits_isFetch
  rw [write_eq, Work.outcome_bind] at h
  rcases hprepare : (sv.traced.prepare s o).outcome w.traced with ⟨_ | prepared, w₁⟩
  · rw [hprepare] at h
    cases h
    exact absurd (not_changes_of_emits hreads hprepare (by simp)) hsome
  have hnone := not_changes_of_emits hreads hprepare (by simp)
  have hanswer := (sv.traced.answer_parallel hprepare).emits_isFetch
  simp only [hprepare] at h
  cases hfs : prepared.1 with
  | none =>
      simp only [hfs, pure_bind] at h
      exact absurd (not_changes_of_emits hanswer h hnone) hsome
  | some fs =>
      simp only [hfs, Work.outcome_bind] at h
      rcases hcarry : (sv.traced.carryOut s o fs).outcome w₁ with ⟨_ | _, w₂⟩
      · obtain ⟨executed, htrace, ⟨_, -, hnot⟩ | ⟨_, -, hok, -⟩⟩ := sv.trace_of_carryOut hcarry
        · rw [hcarry] at h
          cases h
          refine absurd ?_ hsome
          rw [htrace, List.forall_mem_append, List.forall_mem_singleton]
          exact ⟨hnone, hnot⟩
        · cases hok
      · obtain ⟨executed, htrace, ⟨_, herror, -⟩ | ⟨n, rfl, -, hsweeps⟩⟩ :=
          sv.trace_of_carryOut hcarry
        · cases herror
        rw [hcarry] at h
        refine ⟨prepared, w₁, w₂, _, n, rfl, fun hn => ?_, htrace, hsweeps, h⟩
        refine absurd (not_changes_of_emits hanswer h ?_) hsome
        rw [htrace, List.forall_mem_append, List.forall_mem_singleton]
        exact ⟨hnone, not_not.mpr hn⟩

/-- A write that is answered as not found changed rows exactly if it lost sight of its row
afterwards: it changed rows first, and reading the row back then found nothing. A deletion reads
nothing back. -/
theorem exists_changes_iff_losesSight {o : WriteRequest} {w : World σ κ}
    (h : (sv.traced.write s o).outcome w.traced = (.error e, w')) (he : e.IsNotFound) :
    (∃ r ∈ w'.trace, r.Changes) ↔ ∃ id ∈ o.readBack? s, sv.LosesSight s id w'.trace := by
  constructor
  · intro hchanges
    obtain ⟨prepared, w₁, w₂, st, n, hprepare, hn, htrace, -, hback⟩ :=
      sv.carriedOut_of_changes h hchanges
    obtain ⟨row, hrow⟩ | ⟨id, hid, hfetch, rfl⟩ := sv.traced.answer_of_prepare hprepare
    · rw [hrow] at hback
      cases hback
    · rw [hfetch] at hback
      exact ⟨id, hid, sv.losesSight_of_fetchOne hn htrace hback he⟩
  · rintro ⟨id, -, st, n, plan, reads, hn, htrace, -⟩
    exact ⟨.executed st (.ok n), htrace ▸ List.mem_cons_self, hn⟩

end Traces

end Service

/-! ## Archived documents -/

namespace Archive

def config : EntityConfig where
  name := "docs"
  table := "docs"
  asName := "d"
  version := "1"
  fields := [⟨"id", "d.id", .int, none⟩, ⟨"title", "d.title", .string, none⟩]
  filters := [⟨"d.archived_at", .eq, .null, none⟩]

def schema : Schema where
  name := "docs"
  table := "docs"
  asName := "d"
  version := "1"
  primaryKey := "id"
  flat := false
  fields := [⟨"id", "d.id", .int, false, false, {}⟩,
    ⟨"title", "d.title", .string, false, false, {}⟩]
  relations := []
  filters := [⟨"d.archived_at", .eq, .value .null⟩]
  sorts := []
  groups := []
  children := []

theorem build_eq : Registry.build [config] = .ok ⟨[schema]⟩ := by cbv

/-- A service of a table whose rows are all archived, so that none of them passes the filter. -/
def service : Service Unit LocalCache where
  registry := ⟨[schema]⟩
  database := ⟨.postgres, fun _ x => (.ok [], x), fun _ x => (.ok 1, x), fun _ => true⟩
  cache := .ofLocal
  settings := {}
  translator := .empty "en"
  nesting := 1

def world : World Unit LocalCache := ⟨(), {}, 0, []⟩

/-- A new title for the first document. -/
def retitle : WriteRequest := .update "1" (.object [("title", .string "new")])

/-- Another document. -/
def another : WriteRequest :=
  .create (.object [("id", .number (.ofInt64 2)), ("title", .string "new")]) .zero

/-- The new title is stored, and then the document is not seen. -/
theorem losesSight_retitle :
    Registry.build [config] = .ok ⟨[schema]⟩ ∧
      ((service.traced.write schema retitle).outcome world.traced).1 =
        .error (.error (.notFound "docs")) ∧
      service.LosesSight schema "1"
        ((service.traced.write schema retitle).outcome world.traced).2.trace := by
  have hanswer : ((service.traced.write schema retitle).outcome world.traced).1 =
      .error (.error (.notFound "docs")) := by
    decide +kernel
  have hchanges : ∃ r ∈ ((service.traced.write schema retitle).outcome world.traced).2.trace,
      r.Changes := by
    decide +kernel
  have hrun : (service.traced.write schema retitle).outcome world.traced =
      (.error (.error (.notFound "docs")),
        ((service.traced.write schema retitle).outcome world.traced).2) := by
    rw [← hanswer]
  obtain ⟨id, hid, hsight⟩ := (service.exists_changes_iff_losesSight hrun trivial).mp hchanges
  obtain rfl := Option.some.inj hid
  exact ⟨build_eq, hanswer, hsight⟩

/-- Both a changed and a created row may be not found. -/
theorem changes_not_found :
    Registry.build [config] = .ok ⟨[schema]⟩ ∧ ∀ o ∈ [retitle, another],
      ((service.traced.write schema o).outcome world.traced).1 =
          .error (.error (.notFound "docs")) ∧
        ∃ r ∈ ((service.traced.write schema o).outcome world.traced).2.trace, r.Changes :=
  ⟨build_eq, by decide +kernel⟩

end Archive

end EntityRest
