import EntityRest.Proofs.Query.Order
import EntityRest.Proofs.Query.Substitution
import EntityRest.Proofs.Service.Children
import EntityRest.Proofs.Service.Work

/-! # How deep children nest

Each row of a plan gets the children of the lists that the plan includes, and for their rows there
are plans which may include further lists. So a plan unfolds into chains of plans, each of them made
from a row of the one before. Work on its rows ends, on a database that answers, exactly if these
chains do: a limit behind the longest of them changes nothing, and for every chain there are rows
that bring it up. -/

namespace EntityRest

namespace Child

theorem fill_congr {row row' : Row} {ps : List String}
    (h : ∀ p ∈ ps, row.get? p = row'.get? p) (value : String) :
    fill row ps value = fill row' ps value := by
  induction ps generalizing value with
  | nil => rfl
  | cons p ps ih =>
      obtain ⟨hp, hps⟩ := List.forall_mem_cons.mp h
      simp only [fill_cons, hp, ih hps]

theorem instantiate_congr {c : Child} {row row' : Row}
    (h : ∀ p ∈ c.placeholders, row.get? p = row'.get? p) :
    c.instantiate row = c.instantiate row' := by
  simp only [instantiate, fill_congr h]

end Child

/-- Rows with the same values under the keys of all fields. -/
def Schema.SameFields (s : Schema) (row row' : Row) : Prop :=
  ∀ f ∈ s.fields, row.get? f.key = row'.get? f.key

/-- Under the key of a child list there is no value of a field. -/
theorem Schema.SameFields.put {s : Schema} {reg : Registry} (hs : s.WellFormed reg)
    {row row' : Row} (h : s.SameFields row row') {key : String} (hkey : (s.child? key).isSome)
    (v : Json) : s.SameFields (row.put key v) row' := by
  intro f hf
  obtain ⟨c, hc⟩ := Option.isSome_iff_exists.mp hkey
  have hne : f.key ≠ key := by
    have hname : c.key = key := by simpa using List.find?_some hc
    have hdisjoint := (List.nodup_append.mp hs.keys).2.2
    exact hname ▸ hdisjoint _ (List.mem_map_of_mem hf) _
      (List.mem_map_of_mem (List.mem_of_find?_eq_some hc))
  rw [Entries.get?_put_of_ne hne]
  exact h f hf

variable {σ κ τ α β : Type}

/-- From that world the work goes on for ever. -/
def Stalls (work : Work (World σ κ) α) (w : World σ κ) : Prop := (work.outcome w).1 = .error .stall

/-- Work that never goes on for ever. -/
def Ends (work : Work (World σ κ) α) : Prop := ∀ w, ¬ Stalls work w

/-- A database that answers every statement. -/
def Database.Responsive (db : Database σ) : Prop := ∀ st x, (db.fetch st x).1 ≠ .error .stall

theorem Stalls.bind {work : Work (World σ κ) α} {w : World σ κ} (h : Stalls work w)
    (next : α → Work (World σ κ) β) : Stalls (work >>= next) w := by
  unfold Stalls at h ⊢
  rw [Work.outcome_bind]
  generalize work.outcome w = o at h ⊢
  rcases o with ⟨e | a, w'⟩
  · obtain rfl := Except.error.inj h
    rfl
  · cases h

theorem stalls_bind_iff {work : Work (World σ κ) α} {w w' : World σ κ} {a : α}
    (h : work.outcome w = (.ok a, w')) (next : α → Work (World σ κ) β) :
    Stalls (work >>= next) w ↔ Stalls (next a) w' := by
  rw [Stalls, Work.outcome_bind_ok h]
  rfl

namespace Ends

theorem pure (a : α) : Ends (pure a : Work (World σ κ) α) := by
  rintro w ⟨⟩

theorem throw {e : Halt} (h : e ≠ .stall) : Ends (throw e : Work (World σ κ) α) := by
  intro w hw
  exact h (Except.error.inj hw)

theorem bind {work : Work (World σ κ) α} {next : α → Work (World σ κ) β} (hwork : Ends work)
    (hnext : ∀ a, Ends (next a)) : Ends (work >>= next) := by
  intro w
  have hw := hwork w
  unfold Stalls at hw ⊢
  rw [Work.outcome_bind]
  generalize work.outcome w = o at hw ⊢
  rcases o with ⟨e | a, w'⟩
  · intro h
    obtain rfl := Except.error.inj h
    exact hw rfl
  · exact hnext a w'

theorem lift {ε : Type} (wrap : ε → ServiceError) (x : Except ε α) :
    Ends (Service.lift wrap x : Work (World σ κ) α) := by
  cases x with
  | error e => exact throw (by simp)
  | ok a => exact pure a

end Ends

namespace Service

variable {sv : Service σ κ} {s t : Schema} {p p' : Plan} {key : String} {row row' : Row}

theorem ends_fetch (h : sv.database.Responsive) (fs : List Fragment) : Ends (sv.fetch fs) :=
  fun w => h _ w.database

theorem exists_child_of_childPlan (h : sv.childPlan s key row = .ok (some (t, p))) :
    ∃ c, s.child? key = some c ∧ sv.registry.get? c.entity = some t := by
  unfold childPlan at h
  split at h
  · cases h
  rename_i c hc
  split at h
  · cases h
  rename_i t' ht
  obtain ⟨rfl, -⟩ := (childPlan_eq_ok_some hc ht).mp (by simpa only [childPlan, hc, ht] using h)
  exact ⟨c, hc, ht⟩

theorem isSome_child?_of_childPlan {child : Option (Schema × Plan)}
    (h : sv.childPlan s key row = .ok child) : (s.child? key).isSome := by
  unfold childPlan at h
  split at h
  · cases h
  · rename_i c hc
    rw [hc]
    rfl

theorem childPlan_congr (hs : s.WellFormed sv.registry) (h : s.SameFields row row') :
    sv.childPlan s key row = sv.childPlan s key row' := by
  unfold childPlan
  cases hc : s.child? key with
  | none => rfl
  | some c =>
      have hfill : c.instantiate row = c.instantiate row' := by
        refine Child.instantiate_congr fun p hp => ?_
        obtain ⟨f, hf, rfl⟩ := (hs.children c (List.mem_of_find?_eq_some hc)).2 p hp
        exact h f hf
      simp only [hfill]

/-! ## Chains of plans -/

/-- From a row of the first plan the second one is made, for the children under one of the included
keys; those before it have plans, or need none. -/
def Expands (sv : Service σ κ) (x y : Schema × Plan) : Prop :=
  ∃ raw front key back, x.2.includes = front ++ key :: back ∧
    (∀ k ∈ front, ∃ child, sv.childPlan x.1 k (x.1.normalize raw) = .ok child) ∧
    sv.childPlan x.1 key (x.1.normalize raw) = .ok (some y)

/-- Rows can bring up so many plans one after the other, each from a row of the one before. -/
def Nests (sv : Service σ κ) : Nat → Schema × Plan → Prop
  | 0, _ => True
  | k + 1, x => ∃ y, sv.Expands x y ∧ Nests sv k y

theorem Expands.mem {x y : Schema × Plan} (h : sv.Expands x y) : y.1 ∈ sv.registry.schemas := by
  obtain ⟨raw, front, key, back, -, -, hplan⟩ := h
  obtain ⟨c, -, ht⟩ := exists_child_of_childPlan hplan
  exact Registry.mem_of_get? ht

theorem expand_cons (rowsOf : Schema → Plan → Work (World σ κ) (List Json)) (keys : List String) :
    sv.expand rowsOf s (key :: keys) row =
      match sv.childPlan s key row with
      | .error e => fail e
      | .ok none => sv.expand rowsOf s keys (row.put key (.array []))
      | .ok (some (t, p)) =>
        rowsOf t p >>= fun children => sv.expand rowsOf s keys (row.put key (.array children)) := by
  simp only [expand]
  rcases sv.childPlan s key row with e | _ | ⟨t, p⟩ <;> rfl

section Bound

variable {rowsOf rowsOf' : Schema → Plan → Work (World σ κ) (List Json)}

/-- Both do the same, and that ends if the database answers. -/
structure Settled (sv : Service σ κ) (work work' : Work (World σ κ) α) : Prop where
  same : work = work'
  ends : sv.database.Responsive → Ends work

theorem Settled.of_ends {work : Work (World σ κ) α} (h : Ends work) : sv.Settled work work :=
  ⟨rfl, fun _ => h⟩

theorem Settled.bind {work work' : Work (World σ κ) α} {next next' : α → Work (World σ κ) β}
    (h : sv.Settled work work') (hnext : ∀ a, sv.Settled (next a) (next' a)) :
    sv.Settled (work >>= next) (work' >>= next') where
  same := by rw [h.same, funext fun a => (hnext a).same]
  ends hdb := .bind (h.ends hdb) fun a => (hnext a).ends hdb

theorem settled_fetch (fs : List Fragment) : sv.Settled (sv.fetch fs) (sv.fetch fs) :=
  ⟨rfl, fun hdb => ends_fetch hdb fs⟩

/-- Children are put into a row in the same way if the rows of each of their plans are. -/
theorem settled_expand (hs : s.WellFormed sv.registry)
    (h : ∀ t p', sv.Expands (s, p) (t, p') → sv.Settled (rowsOf t p') (rowsOf' t p'))
    {raw : Row} {front keys : List String} (hkeys : p.includes = front ++ keys)
    (hfront : ∀ k ∈ front, ∃ child, sv.childPlan s k (s.normalize raw) = .ok child)
    (hrow : s.SameFields row (s.normalize raw)) :
    sv.Settled (sv.expand rowsOf s keys row) (sv.expand rowsOf' s keys row) := by
  induction keys generalizing row front with
  | nil => exact .of_ends (.pure row)
  | cons key keys ih =>
      have hplan : sv.childPlan s key row = sv.childPlan s key (s.normalize raw) :=
        childPlan_congr hs hrow
      rw [expand_cons, expand_cons]
      -- lists are put under keys of no fields, so the next plans are still those of the fetched row
      have hnext {child : Option (Schema × Plan)} (hchild : sv.childPlan s key row = .ok child)
          (v : Json) := by
        have hkeys' : p.includes = front ++ [key] ++ keys := by rw [hkeys, List.append_assoc]; rfl
        refine ih hkeys' (List.forall_mem_append.mpr ⟨hfront, ?_⟩)
          (hrow.put hs (isSome_child?_of_childPlan hchild) v)
        simpa using ⟨child, hplan ▸ hchild⟩
      rcases hchild : sv.childPlan s key row with e | _ | ⟨t, p'⟩
      · exact .of_ends (.throw (by simp))
      · exact hnext hchild _
      · have hrows := h t p' ⟨raw, front, key, keys, hkeys, hfront, hplan ▸ hchild⟩
        exact hrows.bind fun children => hnext hchild _

theorem settled_finish (hs : s.WellFormed sv.registry)
    (h : ∀ t p', sv.Expands (s, p) (t, p') → sv.Settled (rowsOf t p') (rowsOf' t p'))
    (fetched : List Row) :
    sv.Settled (sv.finish rowsOf s p fetched) (sv.finish rowsOf' s p fetched) := by
  induction fetched with
  | nil => exact .of_ends (.pure [])
  | cons raw rest ih =>
      have hkeys : p.includes = [] ++ p.includes := rfl
      have hrow := settled_expand hs h hkeys (List.forall_mem_nil _)
        fun f _ => (rfl : (s.normalize raw).get? f.key = _)
      exact hrow.bind fun row => ih.bind fun more => .of_ends (.pure _)

/-- As long as rows cannot bring up so many plans, a limit behind that number does not matter, and
the work ends if every statement is answered. -/
theorem settled_rows (hreg : sv.registry.WellFormed) (hs : s ∈ sv.registry.schemas) {k : Nat}
    (h : ¬ sv.Nests k (s, p)) {j : Nat} (hj : k ≤ j) :
    sv.Settled (sv.rows k s p) (sv.rows j s p) := by
  induction k generalizing s p j with
  | zero => exact absurd trivial h
  | succ k ih =>
      obtain ⟨j, rfl⟩ : ∃ i, j = i + 1 := ⟨j - 1, by omega⟩
      have hchild : ∀ t p', sv.Expands (s, p) (t, p') →
          sv.Settled (sv.rows k t p') (sv.rows j t p') :=
        fun t p' hexpands =>
          ih hexpands.mem (fun hnests => h ⟨_, hexpands, hnests⟩) (Nat.le_of_succ_le_succ hj)
      rw [rows, rows]
      exact (settled_fetch _).bind fun fetched => settled_finish (hreg.schemas s hs) hchild fetched

end Bound

/-! ## Answers that bring up a chain -/

/-- A database that answers one statement after the other with the lists of rows of a script, and
the statements behind its end with none. -/
def scripted (d : Dialect) : Database (List (List Row)) where
  dialect := d
  fetch _ script := (.ok (script.headD []), script.tail)
  execute _ script := (.ok 0, script)
  isReady _ := true

/-- The same service on another database. -/
def withDatabase (sv : Service σ κ) (db : Database τ) : Service τ κ where
  registry := sv.registry
  database := db
  cache := sv.cache
  settings := sv.settings
  translator := sv.translator
  nesting := sv.nesting

end Service

/-- The same world, with another state of the database. -/
def World.withDatabase (w : World σ κ) (x : τ) : World τ κ := ⟨x, w.cache, w.now, w.sweeps⟩

namespace Service

variable {sv : Service σ κ} {s t : Schema} {p p' : Plan} {key : String} {row row' : Row}

theorem responsive_scripted (d : Dialect) : (scripted d).Responsive := by
  rintro st x ⟨⟩

theorem childPlan_withDatabase {db : Database τ} (hd : db.dialect = sv.database.dialect) :
    (sv.withDatabase db).childPlan = sv.childPlan := by
  funext s key row
  simp only [childPlan, withDatabase, hd]

theorem expands_withDatabase {db : Database τ} (hd : db.dialect = sv.database.dialect) :
    (sv.withDatabase db).Expands = sv.Expands := by
  funext x y
  simp only [Expands, childPlan_withDatabase hd]

theorem nests_withDatabase {db : Database τ} (hd : db.dialect = sv.database.dialect) (k : Nat) :
    (sv.withDatabase db).Nests k = sv.Nests k := by
  induction k with
  | zero => rfl
  | succ k ih =>
      funext x
      simp only [Nests, expands_withDatabase hd, ih]

/-- The service on a database that follows a script. -/
abbrev onScript (sv : Service σ κ) : Service (List (List Row)) κ :=
  sv.withDatabase (scripted sv.database.dialect)

variable {w : World σ κ} {script : List (List Row)} {k : Nat}

theorem childPlan_onScript : sv.onScript.childPlan = sv.childPlan := childPlan_withDatabase rfl

theorem fetch_onScript (fs : List Fragment) (fetched : List Row) :
    (sv.onScript.fetch fs).outcome (w.withDatabase (fetched :: script)) =
      (.ok fetched, w.withDatabase script) := rfl

/-- Work on the rows of any plan goes on for ever, or the script can have it answered with none. -/
theorem rows_onScript (s : Schema) (p : Plan) (k : Nat) (script : List (List Row)) :
    Stalls (sv.onScript.rows k s p) (w.withDatabase script) ∨
      ∃ script', (sv.onScript.rows k s p).outcome (w.withDatabase script') =
        (.ok [], w.withDatabase script) := by
  cases k with
  | zero => exact .inl rfl
  | succ k => exact .inr ⟨[] :: script, Work.outcome_bind_ok (fetch_onScript _ _) _⟩

/-- Rows for a plan among the children of a row can wait until those before it are answered. -/
theorem exists_expand_stalls (hs : s.WellFormed sv.registry) {raw : Row} {front back : List String}
    {y : Schema × Plan} (hrow : s.SameFields row (s.normalize raw))
    (hfront : ∀ k ∈ front, ∃ child, sv.childPlan s k (s.normalize raw) = .ok child)
    (hplan : sv.childPlan s key (s.normalize raw) = .ok (some y))
    (hy : Stalls (sv.onScript.rows k y.1 y.2) (w.withDatabase script)) :
    ∃ script', Stalls (sv.onScript.expand (sv.onScript.rows k) s (front ++ key :: back) row)
      (w.withDatabase script') := by
  induction front generalizing row with
  | nil =>
      refine ⟨script, ?_⟩
      rw [List.nil_append, expand_cons, childPlan_onScript, childPlan_congr hs hrow, hplan]
      exact hy.bind _
  | cons first front ih =>
      obtain ⟨⟨child, hchild⟩, hfront⟩ := List.forall_mem_cons.mp hfront
      have hrow' (v : Json) : s.SameFields (row.put first v) (s.normalize raw) :=
        hrow.put hs (isSome_child?_of_childPlan hchild) v
      rw [List.cons_append, expand_cons, childPlan_onScript, childPlan_congr hs hrow, hchild]
      cases child with
      | none => exact ih (hrow' _) hfront
      | some x =>
          -- a list before the chain is empty on that script, if work on it ends at all
          obtain ⟨script', hstalls⟩ := ih (hrow' (.array [])) hfront
          rcases sv.rows_onScript x.1 x.2 k script' with hx | ⟨before, hx⟩
          · exact ⟨script', hx.bind _⟩
          · exact ⟨before, (stalls_bind_iff hx _).mpr hstalls⟩

/-- Where rows can bring up so many plans, some answers do so. -/
theorem exists_rows_stalls (hreg : sv.registry.WellFormed) (hs : s ∈ sv.registry.schemas)
    (h : sv.Nests k (s, p)) (w : World σ κ) :
    ∃ script, Stalls (sv.onScript.rows k s p) (w.withDatabase script) := by
  induction k generalizing s p with
  | zero => exact ⟨[], rfl⟩
  | succ k ih =>
      obtain ⟨y, hexpands, hnests⟩ := h
      obtain ⟨script, hscript⟩ := ih hexpands.mem hnests
      obtain ⟨raw, front, key, back, hkeys, hfront, hplan⟩ := hexpands
      obtain ⟨script', hstalls⟩ : ∃ script', Stalls (sv.onScript.expand (sv.onScript.rows k) s
          (front ++ key :: back) (s.normalize raw)) (w.withDatabase script') :=
        exists_expand_stalls (hreg.schemas s hs) (fun f _ => rfl) hfront hplan hscript
      refine ⟨[raw] :: script', (stalls_bind_iff (fetch_onScript _ _) _).mpr ?_⟩
      have hkeys : p.includes = front ++ key :: back := hkeys
      rw [finish, hkeys]
      exact hstalls.bind _

/-- Rows can bring up so many plans exactly if some database that answers every statement does. -/
theorem nests_iff (hreg : sv.registry.WellFormed) (hs : s ∈ sv.registry.schemas) (w : World σ κ) :
    sv.Nests k (s, p) ↔ ∃ (db : Database (List (List Row))) (script : List (List Row)),
      db.dialect = sv.database.dialect ∧ db.Responsive ∧
        Stalls ((sv.withDatabase db).rows k s p) (w.withDatabase script) := by
  constructor
  · intro h
    obtain ⟨script, hscript⟩ := exists_rows_stalls hreg hs h w
    exact ⟨_, script, rfl, responsive_scripted _, hscript⟩
  · rintro ⟨db, script, hd, hdb, hstalls⟩
    by_contra h
    have hreg' : (sv.withDatabase db).registry.WellFormed := hreg
    rw [← nests_withDatabase hd] at h
    exact (settled_rows hreg' hs h le_rfl).ends hdb _ hstalls

end Service

end EntityRest
