import EntityRest.Sql.Statement
import Mathlib.Data.List.Forall2

/-! # Fragments of statements

What the numbered text of fragments depends on, and how it is cut at its placeholders. -/

namespace EntityRest

namespace Fragment

@[simp] theorem params_nil : params [] = [] := rfl

@[simp] theorem params_text (s : String) (fs : List Fragment) :
    params (.text s :: fs) = params fs := rfl

@[simp] theorem params_value (v : SqlValue) (fs : List Fragment) :
    params (.value v :: fs) = v :: params fs := rfl

@[simp] theorem params_append (fs gs : List Fragment) :
    params (fs ++ gs) = params fs ++ params gs :=
  List.filterMap_append

theorem joinWith_cons_cons (sep : String) (fs gs : List Fragment) (rest : List (List Fragment)) :
    joinWith sep (fs :: gs :: rest) = fs ++ .text sep :: joinWith sep (gs :: rest) :=
  rfl

theorem params_joinWith (sep : String) (fss : List (List Fragment)) :
    params (joinWith sep fss) = fss.flatMap params := by
  induction fss with
  | nil => rfl
  | cons fs rest ih =>
      cases rest with
      | nil => simp [joinWith]
      | cons gs rest =>
          rw [joinWith_cons_cons, params_append, params_text, ih]
          rfl

theorem texts_append (d : Dialect) (n : Nat) (fs gs : List Fragment) :
    texts d n (fs ++ gs) = texts d n fs ++ texts d (n + (params fs).length) gs := by
  induction fs generalizing n with
  | nil => simp [texts]
  | cons f fs ih =>
      cases f with
      | text s => simp [texts, ih]
      | value v =>
          simp only [List.cons_append, texts, ih, params_value, List.length_cons]
          rw [Nat.add_right_comm, Nat.add_assoc]

theorem texts_concat_text (d : Dialect) (n : Nat) (fs : List Fragment) (s : String) :
    texts d n (fs ++ [.text s]) = texts d n fs ++ [s] := by
  rw [texts_append]
  rfl

theorem join_texts_joinWith (d : Dialect) (n : Nat) (sep : String) (fs gs : List Fragment)
    (rest : List (List Fragment)) :
    String.join (texts d n (joinWith sep (fs :: gs :: rest))) =
      String.join (texts d n fs) ++ (sep ++
        String.join (texts d (n + (params fs).length) (joinWith sep (gs :: rest)))) := by
  rw [joinWith_cons_cons, texts_append, texts, String.join_append, String.join_cons]

theorem statement_text_cons (d : Dialect) (s : String) (fs : List Fragment) :
    statement d (.text s :: fs) = ⟨s ++ (statement d fs).sql, (statement d fs).params⟩ := by
  simp [statement, texts]

theorem statement_concat_text (d : Dialect) (fs : List Fragment) (s : String) :
    statement d (fs ++ [.text s]) = ⟨(statement d fs).sql ++ s, (statement d fs).params⟩ := by
  simp [statement, texts_concat_text]

/-! ## Text without values -/

/-- The same text, or a value on either side. -/
inductive Alike : Fragment → Fragment → Prop where
  | text (s) : Alike (.text s) (.text s)
  | value (v w) : Alike (.value v) (.value w)

namespace Alike

theorem refl : ∀ f, Alike f f
  | .text s => text s
  | .value v => value v v

theorem bind {v w : SqlValue} (h : v.isNull = w.isNull) : Alike (bind v) (bind w) := by
  unfold Fragment.bind
  rw [h]
  split
  · exact text _
  · exact value v w

theorem joinWith (sep : String) {fss gss : List (List Fragment)}
    (h : List.Forall₂ (List.Forall₂ Alike) fss gss) :
    List.Forall₂ Alike (joinWith sep fss) (joinWith sep gss) := by
  induction h with
  | nil => exact .nil
  | cons h hs ih =>
      cases hs with
      | nil => exact h
      | cons => exact List.rel_append h (.cons (text sep) ih)

theorem params_length {fs gs : List Fragment} (h : List.Forall₂ Alike fs gs) :
    (params fs).length = (params gs).length := by
  induction h with
  | nil => rfl
  | cons h _ ih =>
      cases h with
      | text => simpa using ih
      | value => simpa using ih

/-- Placeholders say which parameter stands where, but not which value it has. -/
theorem texts_eq (d : Dialect) {fs gs : List Fragment} (h : List.Forall₂ Alike fs gs) (n : Nat) :
    texts d n fs = texts d n gs := by
  induction h generalizing n with
  | nil => rfl
  | cons h _ ih =>
      cases h with
      | text s => exact congrArg (s :: ·) (ih n)
      | value => exact congrArg (d.placeholder n :: ·) (ih (n + 1))

theorem statement_sql_eq (d : Dialect) {fs gs : List Fragment} (h : List.Forall₂ Alike fs gs) :
    (statement d fs).sql = (statement d gs).sql :=
  congrArg String.join (texts_eq d h 1)

end Alike

/-! ## Pieces between values -/

/-- The texts between the values; there is always one more of them. -/
def pieces : List Fragment → List String
  | [] => [""]
  | .text s :: fs => (pieces fs).modifyHead (s ++ ·)
  | .value _ :: fs => "" :: pieces fs

/-- Pieces of text with other texts in the gaps between them. -/
def weave : List String → List String → String
  | p :: ps, t :: ts => p ++ t ++ weave ps ts
  | p :: _, [] => p
  | [], _ => ""

theorem length_pieces (fs : List Fragment) : (pieces fs).length = (params fs).length + 1 := by
  induction fs with
  | nil => rfl
  | cons f fs ih =>
      cases f with
      | text s => simpa [pieces] using ih
      | value v => simpa [pieces] using ih

theorem weave_modifyHead (s : String) {ps : List String} (hps : ps ≠ []) (ts : List String) :
    weave (ps.modifyHead (s ++ ·)) ts = s ++ weave ps ts := by
  cases ps with
  | nil => exact absurd rfl hps
  | cons p ps =>
      cases ts with
      | nil => rfl
      | cons t ts => simp [weave, String.append_assoc]

theorem pieces_ne_nil (fs : List Fragment) : pieces fs ≠ [] := by
  intro h
  simpa [h] using length_pieces fs

/-- The numbered text has the next placeholders, in order, between the pieces. -/
theorem join_texts (d : Dialect) (n : Nat) (fs : List Fragment) :
    String.join (texts d n fs) =
      weave (pieces fs) ((List.range' n (params fs).length).map d.placeholder) := by
  induction fs generalizing n with
  | nil => simp [texts, pieces, weave]
  | cons f fs ih =>
      cases f with
      | text s =>
          rw [texts, String.join_cons, ih, pieces, weave_modifyHead s (pieces_ne_nil fs)]
          rfl
      | value v =>
          rw [texts, String.join_cons, ih]
          simp [pieces, weave, List.range'_succ]

/-! ## Writing value by value -/

section WriteWith

variable {m : Type → Type} [Monad m] (put : SqlValue → m String)

/-- The text of fragments, where `put` gives the text of each value in turn. -/
def writeWith : List Fragment → m String
  | [] => pure ""
  | .text s :: fs => do return s ++ (← writeWith fs)
  | .value v :: fs => do
    let t ← put v
    return t ++ (← writeWith fs)

variable [LawfulMonad m]

theorem writeWith_append (fs gs : List Fragment) :
    writeWith put (fs ++ gs) = do return (← writeWith put fs) ++ (← writeWith put gs) := by
  induction fs with
  | nil => simp only [List.nil_append, writeWith, pure_bind, String.empty_append, bind_pure]
  | cons f fs ih =>
      cases f with
      | text s =>
          simp only [List.cons_append, writeWith, ih, bind_assoc, pure_bind, String.append_assoc]
      | value v =>
          simp only [List.cons_append, writeWith, ih, bind_assoc, pure_bind, String.append_assoc]

omit [LawfulMonad m] in
theorem writeWith_nil : writeWith put [] = pure "" := rfl

omit [LawfulMonad m] in
theorem writeWith_text_cons (s : String) (fs : List Fragment) :
    writeWith put (.text s :: fs) = do return s ++ (← writeWith put fs) := rfl

theorem writeWith_text (s : String) : writeWith put [.text s] = pure s := by
  simp [writeWith]

theorem writeWith_joinWith (sep : String) (fss : List (List Fragment)) :
    writeWith put (joinWith sep fss) = sep.intercalate <$> fss.mapM (writeWith put) := by
  induction fss with
  | nil => simp [joinWith, writeWith]
  | cons fs fss ih =>
      cases fss with
      | nil => simp [joinWith]
      | cons gs fss =>
          rw [joinWith, writeWith_append, writeWith_text_cons, ih]
          · simp [String.intercalate_cons_cons, String.append_assoc]
          · simp

end WriteWith

theorem writeWith_id (lit : SqlValue → String) (fs : List Fragment) :
    Id.run (writeWith (fun v => pure (lit v)) fs) = weave (pieces fs) ((params fs).map lit) := by
  induction fs with
  | nil => rfl
  | cons f fs ih =>
      cases f with
      | text s =>
          rw [pieces, weave_modifyHead s (pieces_ne_nil fs)]
          exact congrArg (s ++ ·) ih
      | value v =>
          rw [pieces, params_value, List.map_cons, weave, String.empty_append]
          exact congrArg (lit v ++ ·) ih

end Fragment

/-! ## Writing into a buffer -/

/-- A computation that collects the values it binds. -/
abbrev Buffer := StateM (List SqlValue)

namespace Buffer

/-- Binds a value; the text for it is the placeholder of its place. -/
def bind (d : Dialect) (v : SqlValue) : Buffer String := do
  modify (· ++ [v])
  return d.placeholder (← get).length

/-- A buffer numbers the values as they come. -/
theorem writeWith_bind (d : Dialect) (fs : List Fragment) (bound : List SqlValue) :
    Id.run ((Fragment.writeWith (bind d) fs).run bound) =
      (String.join (Fragment.texts d (bound.length + 1) fs), bound ++ Fragment.params fs) := by
  induction fs generalizing bound with
  | nil => simp [Fragment.writeWith, Fragment.texts]
  | cons f fs ih =>
      cases f with
      | text s => simp [Fragment.writeWith, Fragment.texts, ih]
      | value v => simp [Fragment.writeWith, Fragment.texts, bind, ih]

/-- The statement of a text that is written into an empty buffer. -/
def statement (w : Buffer String) : Statement :=
  let (sql, params) := Id.run (w.run [])
  ⟨sql, params⟩

theorem statement_writeWith (d : Dialect) (fs : List Fragment) :
    statement (Fragment.writeWith (bind d) fs) = Fragment.statement d fs := by
  rw [statement, writeWith_bind]
  rfl

end Buffer

end EntityRest
