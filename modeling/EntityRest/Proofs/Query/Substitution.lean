import EntityRest.Proofs.Except
import EntityRest.Proofs.Json.Object
import EntityRest.Proofs.Query.Template
import Mathlib.Algebra.GroupWithZero.Nat
import Mathlib.Algebra.Order.BigOperators.Group.List
import Mathlib.Algebra.Order.Group.Nat
import Mathlib.Data.List.Count
import Mathlib.Data.List.Dedup

/-! # Placeholders filled in at once

A template is letters and holes. Filled in at once, every hole gets the text of its value and no
text is looked at again. The filler takes one placeholder after the other, over the texts that it
has put in before. Both give the same where no opening brace stands outside the holes, and for every
parent exactly if a hole in a value is that of the last placeholder, which occurs once. -/

namespace EntityRest.Child

open EntityRest.Expr (placeholder? placeholderChars)

variable {c : Child} {row : Entries Json} {p q r value : String} {ps : List String}
  {s t w : List Char}

/-! ## Tokens of a text -/

/-- What stands between the braces of a placeholder. -/
def Named (p : String) : Prop :=
  Expr.startsName p.toList = true ∧ ∀ c ∈ p.toList, (Chars.isWord c || c = '.') = true

theorem Named.ne {x : Char} (h : Named p) (hx : x ∈ p.toList) :
    x ≠ '\x7b' ∧ x ≠ '\x7d' ∧ x ≠ '!' := by
  refine ⟨?_, ?_, ?_⟩ <;> rintro rfl <;> exact absurd (h.2 _ hx) (by decide)

theorem Named.brace_notMem (h : Named p) : '\x7b' ∉ p.toList ∧ '\x7d' ∉ p.toList :=
  ⟨fun hx => (h.ne hx).1 rfl, fun hx => (h.ne hx).2.1 rfl⟩

theorem placeholder?_eq_some_iff :
    placeholder? s = some w ↔ Named (String.ofList w) ∧ ∃ rest, s = w ++ '\x7d' :: rest := by
  simp only [Named, String.toList_ofList]
  constructor
  · intro h
    unfold placeholder? at h
    split at h
    · rename_i rest hrest
      simp only [Option.ite_none_right_eq_some, Option.some.injEq] at h
      obtain ⟨hstart, rfl⟩ := h
      refine ⟨⟨hstart, fun x hx => by simpa using List.mem_takeWhile_imp hx⟩, rest, ?_⟩
      rw [← hrest]
      exact (List.takeWhile_append_dropWhile).symm
    · cases h
  · rintro ⟨⟨hstart, hall⟩, rest, rfl⟩
    have hbrace : (Chars.isWord '\x7d' || decide ('\x7d' = '.')) = false := by decide
    have hrun : (w ++ '\x7d' :: rest).takeWhile (fun c => Chars.isWord c || c = '.') = w := by
      rw [List.takeWhile_append_of_pos hall, List.takeWhile_cons_of_neg (by rw [hbrace]; simp),
        List.append_nil]
    have hleft : (w ++ '\x7d' :: rest).dropWhile (fun c => Chars.isWord c || c = '.') =
        '\x7d' :: rest := by
      rw [List.dropWhile_append_of_pos hall, List.dropWhile_cons_of_neg (by rw [hbrace]; simp)]
    unfold placeholder?
    simp only [hleft, hrun, hstart, if_true]

theorem token_prefix_cons_iff (hp : Named p) (x : Char) :
    (token p).toList <+: x :: s ↔ x = '\x7b' ∧ placeholder? s = some p.toList := by
  rw [toList_token, List.cons_append, List.cons_prefix_cons, eq_comm,
    placeholder?_eq_some_iff, String.ofList_toList]
  simp only [hp, true_and, List.IsPrefix, List.append_assoc, List.singleton_append]
  simp only [eq_comm]

theorem token_infix_append_iff (hw : '\x7b' ∉ w) :
    (token p).toList <:+: w ++ s ↔ (token p).toList <:+: s := by
  induction w with
  | nil => rfl
  | cons x w ih =>
      have hx : x ≠ '\x7b' := (List.ne_of_not_mem_cons hw).symm
      have hstart : ¬ (token p).toList <+: x :: (w ++ s) := by
        rw [toList_token, List.cons_append, List.cons_prefix_cons]
        exact fun h => hx h.1.symm
      rw [List.cons_append, List.infix_cons_iff, ih (List.not_mem_of_not_mem_cons hw)]
      exact or_iff_right hstart

/-- The placeholders of a text are the names whose tokens occur in it. -/
theorem mem_placeholders_iff {text : String} :
    p ∈ Expr.placeholders text ↔ Named p ∧ Text.contains (token p) text = true := by
  have hchars (s : List Char) :
      p.toList ∈ placeholderChars s ↔ Named p ∧ (token p).toList <:+: s := by
    induction s with
    | nil => simp [placeholderChars, toList_token]
    | cons x s ih =>
        rw [List.infix_cons_iff, and_or_left, ← ih, placeholderChars]
        have hhead : Named p ∧ (token p).toList <+: x :: s ↔
            x = '\x7b' ∧ placeholder? s = some p.toList := by
          constructor
          · rintro ⟨hp, h⟩
            exact (token_prefix_cons_iff hp x).mp h
          · rintro ⟨hx, h⟩
            have hp : Named p := by simpa using (placeholder?_eq_some_iff.mp h).1
            exact ⟨hp, (token_prefix_cons_iff hp x).mpr ⟨hx, h⟩⟩
        rw [hhead]
        by_cases hx : x = '\x7b'
        · cases hq : placeholder? s with
          | none => simp [hx]
          | some w => simp [hx, eq_comm]
        · simp [hx]
  rw [Text.contains_iff, ← hchars, Expr.placeholders, List.mem_map]
  constructor
  · rintro ⟨w, hw, rfl⟩
    simpa using hw
  · exact fun h => ⟨p.toList, h, String.ofList_toList⟩

theorem named_of_mem_placeholders (h : p ∈ c.placeholders) : Named p :=
  (mem_placeholders_iff.mp h).1

/-! ## Pieces -/

inductive Piece where
  | letter (c : Char)
  | hole (p : String)
deriving DecidableEq

def Piece.source : Piece → List Char
  | .letter c => [c]
  | .hole p => (token p).toList

def source (l : List Piece) : List Char := l.flatMap Piece.source

/-- Cuts a text into pieces, passing over `skip` characters first. -/
def piecesFrom : Nat → List Char → List Piece
  | _, [] => []
  | skip + 1, _ :: s => piecesFrom skip s
  | 0, c :: s =>
    if c = '\x7b' then
      match placeholder? s with
      | some p => .hole (String.ofList p) :: piecesFrom (p.length + 1) s
      | none => .letter c :: piecesFrom 0 s
    else .letter c :: piecesFrom 0 s

/-- The pieces of a template. -/
def pieces (s : List Char) : List Piece := piecesFrom 0 s

/-- Holes have names, and no letter begins a placeholder: the pieces are those of the text that they
make. -/
def Cut : List Piece → Prop
  | [] => True
  | .letter c :: l => (c = '\x7b' → placeholder? (source l) = none) ∧ Cut l
  | .hole p :: l => Named p ∧ Cut l

theorem source_cons (x : Piece) (l : List Piece) : source (x :: l) = x.source ++ source l :=
  List.flatMap_cons

theorem source_append (l m : List Piece) : source (l ++ m) = source l ++ source m :=
  List.flatMap_append

theorem source_flatMap {α : Type} (l : List α) (f : α → List Piece) :
    source (l.flatMap f) = l.flatMap fun x => source (f x) :=
  List.flatMap_assoc

theorem piecesFrom_eq (n : Nat) (s : List Char) : piecesFrom n s = pieces (s.drop n) := by
  induction n generalizing s with
  | zero => rfl
  | succ n ih =>
      cases s with
      | nil => rfl
      | cons x s => exact ih s

theorem pieces_token (hp : Named p) (s : List Char) :
    pieces ((token p).toList ++ s) = .hole p :: pieces s := by
  have hfound : placeholder? (p.toList ++ '\x7d' :: s) = some p.toList :=
    placeholder?_eq_some_iff.mpr ⟨by simpa using hp, s, rfl⟩
  have hshape : (token p).toList ++ s = '\x7b' :: (p.toList ++ '\x7d' :: s) := by
    simp [toList_token]
  rw [hshape, pieces, piecesFrom, if_pos rfl, hfound]
  simp [piecesFrom_eq]

theorem pieces_letter {x : Char} (h : x = '\x7b' → placeholder? s = none) :
    pieces (x :: s) = .letter x :: pieces s := by
  by_cases hx : x = '\x7b'
  · simp [pieces, piecesFrom, hx, h hx]
  · simp [pieces, piecesFrom, hx]

/-- Every text is made by its pieces. -/
theorem cut_pieces_and_source_pieces (s : List Char) : Cut (pieces s) ∧ source (pieces s) = s := by
  induction hn : s.length using Nat.strong_induction_on generalizing s with
  | h n ih =>
      cases s with
      | nil => exact ⟨trivial, rfl⟩
      | cons x s =>
          by_cases hx : x = '\x7b' ∧ ∃ w, placeholder? s = some w
          · obtain ⟨rfl, w, hw⟩ := hx
            obtain ⟨hname, rest, rfl⟩ := placeholder?_eq_some_iff.mp hw
            have hshape : '\x7b' :: (w ++ '\x7d' :: rest) =
                (token (String.ofList w)).toList ++ rest := by simp [toList_token]
            have hless : rest.length < n := by simp [← hn]; omega
            obtain ⟨hcut, hsource⟩ := ih _ hless rest rfl
            rw [hshape, pieces_token hname]
            exact ⟨⟨hname, hcut⟩, by rw [source_cons, hsource, Piece.source]⟩
          · have hnone : x = '\x7b' → placeholder? s = none :=
              fun h => Option.eq_none_iff_forall_not_mem.mpr fun w hw => hx ⟨h, w, hw⟩
            obtain ⟨hcut, hsource⟩ := ih s.length (by simp [← hn]) s rfl
            rw [pieces_letter hnone]
            refine ⟨⟨fun h => ?_, hcut⟩, by rw [source_cons, hsource]; rfl⟩
            rw [hsource]
            exact hnone h

theorem cut_pieces (s : List Char) : Cut (pieces s) := (cut_pieces_and_source_pieces s).1

theorem source_pieces (s : List Char) : source (pieces s) = s := (cut_pieces_and_source_pieces s).2

theorem source_hole (q : String) (l : List Piece) :
    source (.hole q :: l) = '\x7b' :: (q.toList ++ '\x7d' :: source l) := by
  simp [source_cons, Piece.source, toList_token]

/-- A token begins where its hole is. -/
theorem token_prefix_source_iff {x : Piece} {l : List Piece} (hl : Cut (x :: l)) (hp : Named p) :
    (token p).toList <+: source (x :: l) ↔ x = .hole p := by
  cases x with
  | letter x =>
      rw [source_cons, Piece.source, List.singleton_append, token_prefix_cons_iff hp]
      simp only [reduceCtorEq, iff_false, not_and]
      intro hx hfound
      simp [hl.1 hx] at hfound
  | hole q =>
      have hfound : placeholder? (q.toList ++ '\x7d' :: source l) = some q.toList :=
        placeholder?_eq_some_iff.mpr ⟨by simpa using hl.1, source l, rfl⟩
      rw [source_hole, token_prefix_cons_iff hp, and_iff_right rfl, hfound, Option.some_inj,
        String.toList_inj, Piece.hole.injEq]

theorem exists_source_eq_cons {x : Piece} {l : List Piece} (hl : Cut (x :: l)) :
    ∃ a w, x.source = a :: w ∧ '\x7b' ∉ w := by
  cases x with
  | letter x => exact ⟨x, [], rfl, List.not_mem_nil⟩
  | hole q => exact ⟨'\x7b', q.toList ++ ['\x7d'], toList_token q, by simp [hl.1.brace_notMem.1]⟩

theorem Cut.tail {x : Piece} {l : List Piece} (hl : Cut (x :: l)) : Cut l := by
  cases x with
  | letter x => exact hl.2
  | hole q => exact hl.2

/-- A token occurs if its hole does. -/
theorem token_infix_source_iff {l : List Piece} (hl : Cut l) (hp : Named p) :
    (token p).toList <:+: source l ↔ .hole p ∈ l := by
  induction l with
  | nil => simp [source, toList_token]
  | cons x l ih =>
      obtain ⟨a, w, hsource, hw⟩ := exists_source_eq_cons hl
      have hshape : source (x :: l) = a :: (w ++ source l) := by rw [source_cons, hsource]; rfl
      rw [hshape, List.infix_cons_iff, ← hshape, token_prefix_source_iff hl hp,
        token_infix_append_iff hw, ih hl.tail, List.mem_cons, eq_comm]

theorem hole_mem_pieces_iff {text : String} :
    .hole p ∈ pieces text.toList ↔ p ∈ Expr.placeholders text := by
  have hnamed {l : List Piece} (hl : Cut l) (h : .hole p ∈ l) : Named p := by
    induction l with
    | nil => cases h
    | cons x l ih =>
        rcases List.mem_cons.mp h with rfl | hrest
        · exact hl.1
        · exact ih hl.tail hrest
  rw [mem_placeholders_iff, Text.contains_iff]
  constructor
  · intro h
    have hp := hnamed (cut_pieces _) h
    refine ⟨hp, ?_⟩
    rwa [← source_pieces text.toList, token_infix_source_iff (cut_pieces _) hp]
  · rintro ⟨hp, h⟩
    rwa [← token_infix_source_iff (cut_pieces _) hp, source_pieces]

/-! ## One placeholder filled in -/

/-- A piece with the hole of one placeholder filled in. -/
def put (p : String) (new : List Piece) (x : Piece) : List Piece :=
  if x = .hole p then new else [x]

theorem replace_token_append (hw : '\x7b' ∉ w) (p : String) (new s : List Char) :
    Chars.replace (token p).toList new (w ++ s) = w ++ Chars.replace (token p).toList new s := by
  rw [toList_token, List.cons_append]
  exact Chars.replace_append_of_notMem hw new s

/-- Replacing a token fills in its holes. -/
theorem replace_token_source {l : List Piece} (hl : Cut l) (hp : Named p) (new : List Piece) :
    Chars.replace (token p).toList (source new) (source l) = source (l.flatMap (put p new)) := by
  induction l with
  | nil => rfl
  | cons x l ih =>
      have hne : (token p).toList ≠ [] := by simp [toList_token]
      rw [List.flatMap_cons, source_append, ← ih hl.tail]
      by_cases hx : x = .hole p
      · rw [put, if_pos hx, hx, source_cons, Piece.source, Chars.replace_append_left hne]
      · obtain ⟨a, w, hsource, hw⟩ := exists_source_eq_cons hl
        have hshape : source (x :: l) = a :: (w ++ source l) := by rw [source_cons, hsource]; rfl
        have hstart : ¬ (token p).toList <+: a :: (w ++ source l) := by
          rw [← hshape, token_prefix_source_iff hl hp]
          exact hx
        rw [hshape, Chars.replace_cons hstart, replace_token_append hw, put, if_neg hx, source_cons,
          hsource]
        simp [source]

theorem flatMap_put_eq_self {l : List Piece} (h : .hole p ∉ l) (new : List Piece) :
    l.flatMap (put p new) = l := by
  have hput : ∀ x ∈ l, put p new x = [x] := fun x hx =>
    if_neg fun heq : x = .hole p => h (heq ▸ hx)
  rw [List.flatMap_congr hput, List.flatMap_singleton']

/-! ## One placeholder after the other -/

/-- Pieces with the placeholders filled in one after the other, each in what the earlier ones have
left and put in. -/
def putAll (new : String → List Piece) : List String → List Piece → List Piece
  | [], l => l
  | p :: ps, l => putAll new ps (l.flatMap (put p (new p)))

section PutAll

variable {new : String → List Piece}

/-- The filler fills the holes of the pieces, as long as it puts in pieces that are found again. -/
theorem fill_source {Inv : List Piece → Prop} (hps : ∀ p ∈ ps, Named p)
    (hcut : ∀ l, Inv l → Cut l)
    (htext : ∀ l, Inv l → ∀ p ∈ ps, .hole p ∈ l →
      templateText? (row.get? p) = some (String.ofList (source (new p))))
    (hstep : ∀ l, Inv l → ∀ p ∈ ps, Inv (l.flatMap (put p (new p))))
    {l : List Piece} (hl : Inv l) :
    fill row ps (String.ofList (source l)) = some (String.ofList (source (putAll new ps l))) := by
  induction ps generalizing l with
  | nil => rfl
  | cons p ps ih =>
      obtain ⟨hp, hrest⟩ := List.forall_mem_cons.mp hps
      have hnext := ih hrest (fun l hl p hp => htext l hl p (List.mem_cons_of_mem _ hp))
        (fun l hl p hp => hstep l hl p (List.mem_cons_of_mem _ hp))
        (hstep l hl p List.mem_cons_self)
      have hoccurs : Text.contains (token p) (String.ofList (source l)) = true ↔ .hole p ∈ l := by
        rw [Text.contains_iff, String.toList_ofList, token_infix_source_iff (hcut l hl) hp]
      by_cases hmem : .hole p ∈ l
      · rw [fill_cons, if_pos (hoccurs.mpr hmem), htext l hl p List.mem_cons_self hmem,
          Option.bind_some, String.toList_ofList, String.toList_ofList,
          replace_token_source (hcut l hl) hp, hnext]
        rfl
      · rw [flatMap_put_eq_self hmem] at hnext
        rw [fill_cons_of_not_contains (mt hoccurs.mp hmem), hnext, putAll,
          flatMap_put_eq_self hmem]

theorem putAll_eq_self {l : List Piece} (h : ∀ p ∈ ps, .hole p ∉ l) : putAll new ps l = l := by
  induction ps with
  | nil => rfl
  | cons p ps ih =>
      obtain ⟨hp, hrest⟩ := List.forall_mem_cons.mp h
      rw [putAll, flatMap_put_eq_self hp, ih hrest]

/-- Pieces are filled in one by one. -/
theorem putAll_eq_flatMap (ps : List String) (l : List Piece) :
    putAll new ps l = l.flatMap fun x => putAll new ps [x] := by
  induction ps generalizing l with
  | nil => simp [putAll]
  | cons p ps ih =>
      have hone (x : Piece) : putAll new (p :: ps) [x] =
          (put p (new p) x).flatMap fun y => putAll new ps [y] := by
        rw [putAll, List.flatMap_singleton, ih]
      simp only [hone]
      rw [putAll, ih, List.flatMap_assoc]

/-- A hole gets the pieces that stand for it, in which the placeholders behind it are filled in. -/
theorem putAll_hole (hp : p ∈ ps) :
    putAll new ps [.hole p] = putAll new (behind p ps) (new p) := by
  induction ps with
  | nil => cases hp
  | cons q ps ih =>
      rw [putAll, List.flatMap_singleton, put]
      by_cases hqp : q = p
      · subst hqp
        rw [if_pos rfl, behind, List.dropWhile_cons_of_neg (by simp), List.tail_cons]
      · have hmem : p ∈ ps := (List.mem_cons.mp hp).resolve_left (Ne.symm hqp)
        rw [if_neg (by simpa using Ne.symm hqp), ih hmem, behind, behind,
          List.dropWhile_cons_of_pos (by simpa using hqp)]

end PutAll

theorem fill_eq_none (hps : ∀ q ∈ ps, Named q) (hp : p ∈ ps)
    (hoccurs : Text.contains (token p) value = true) (htext : templateText? (row.get? p) = none) :
    fill row ps value = none := by
  induction ps generalizing value with
  | nil => cases hp
  | cons q ps ih =>
      obtain ⟨hq, hrest⟩ := List.forall_mem_cons.mp hps
      by_cases hqp : q = p
      · rw [fill_cons, hqp, if_pos hoccurs, htext, Option.bind_none]
      have hmem : p ∈ ps := (List.mem_cons.mp hp).resolve_left (Ne.symm hqp)
      by_cases hcontains : Text.contains (token q) value = true
      · rw [fill_cons, if_pos hcontains]
        cases htextq : templateText? (row.get? q) with
        | none => rfl
        | some text =>
            refine ih hrest hmem ?_
            -- the hole of the other placeholder stays
            have hletters : source (text.toList.map .letter) = text.toList := by
              simp [source, List.flatMap_map, Piece.source]
            have hreplaced := replace_token_source (cut_pieces value.toList) hq
              (text.toList.map .letter)
            rw [hletters, source_pieces] at hreplaced
            have hhole : .hole p ∈ pieces value.toList := by
              rwa [← token_infix_source_iff (cut_pieces _) (hrest p hmem), source_pieces,
                ← Text.contains_iff]
            have hstays : .hole p ∈
                (pieces value.toList).flatMap (put q (text.toList.map .letter)) :=
              List.mem_flatMap.mpr ⟨.hole p, hhole, by simp [put, Ne.symm hqp]⟩
            obtain ⟨front, back, hsplit⟩ := List.append_of_mem hstays
            rw [Text.contains_iff, String.toList_ofList, hreplaced, hsplit, source_append,
              source_cons]
            exact ⟨source front, source back, by simp [Piece.source]⟩
      · rw [fill_cons_of_not_contains hcontains]
        exact ih hrest hmem hoccurs

/-! ## All placeholders at once -/

/-- What stands for a piece. -/
def shown (row : Entries Json) : Piece → List Char
  | .letter c => [c]
  | .hole p => ((templateText? (row.get? p)).getD "").toList

/-- A value with every placeholder filled in at once; one that occurs needs a value. -/
def fillAtOnce (row : Entries Json) (value : String) : Option String :=
  if ∀ p ∈ Expr.placeholders value, (templateText? (row.get? p)).isSome then
    some (String.ofList ((pieces value.toList).flatMap (shown row)))
  else none

/-- Pairs with their values changed. -/
def changeValues (f : String → Option String) (pairs : Pairs) : Option Pairs :=
  pairs.mapM fun (key, value) => (f value).map fun v => (key, v)

/-- The parameters that select the children of a parent row, with all placeholders of a value
filled in at once; none where a value is missing. -/
def substitute (c : Child) (row : Entries Json) : Option Pairs :=
  changeValues (fillAtOnce row) (splitPairs c.filter)

theorem instantiate_eq_changeValues (c : Child) (row : Entries Json) :
    c.instantiate row = changeValues (fill row c.placeholders) (splitPairs c.filter) :=
  rfl

/-- No opening brace stands outside the placeholders of the value, and none is in a text that one of
them gets. -/
structure Unbraced (row : Entries Json) (value : String) : Prop where
  template : .letter '\x7b' ∉ pieces value.toList
  texts : ∀ p ∈ Expr.placeholders value, ∀ text ∈ templateText? (row.get? p),
    '\x7b' ∉ text.toList

instance : Decidable (Unbraced row value) :=
  decidable_of_iff (.letter '\x7b' ∉ pieces value.toList ∧ ∀ p ∈ Expr.placeholders value,
    ∀ text ∈ templateText? (row.get? p), '\x7b' ∉ text.toList)
    ⟨fun h => ⟨h.1, h.2⟩, fun h => ⟨h.template, h.texts⟩⟩

/-- Letters other than opening braces, and holes with a text. -/
def Plain (row : Entries Json) : Piece → Prop
  | .letter c => c ≠ '\x7b'
  | .hole p => Named p ∧ ∃ text, templateText? (row.get? p) = some text ∧ '\x7b' ∉ text.toList

/-- The text of a placeholder, as pieces. -/
def letters (row : Entries Json) (p : String) : List Piece :=
  ((templateText? (row.get? p)).getD "").toList.map .letter

theorem source_letters (row : Entries Json) (p : String) :
    source (letters row p) = ((templateText? (row.get? p)).getD "").toList := by
  simp [source, letters, List.flatMap_map, Piece.source]

theorem cut_of_plain {l : List Piece} (h : ∀ x ∈ l, Plain row x) : Cut l := by
  induction l with
  | nil => trivial
  | cons x l ih =>
      obtain ⟨hx, hl⟩ := List.forall_mem_cons.mp h
      cases x with
      | letter x => exact ⟨fun heq => absurd heq hx, ih hl⟩
      | hole p => exact ⟨hx.1, ih hl⟩

theorem plain_flatMap_put {l : List Piece} (h : ∀ x ∈ l, Plain row x) (p : String) :
    ∀ x ∈ l.flatMap (put p (letters row p)), Plain row x := by
  intro x hx
  obtain ⟨y, hy, hxy⟩ := List.mem_flatMap.mp hx
  by_cases hyp : y = .hole p
  · obtain ⟨-, text, htext, hbrace⟩ := hyp ▸ h y hy
    rw [put, if_pos hyp, letters, htext] at hxy
    obtain ⟨a, ha, rfl⟩ := List.mem_map.mp hxy
    exact fun heq => hbrace (heq ▸ ha)
  · rw [put, if_neg hyp, List.mem_singleton] at hxy
    exact hxy ▸ h y hy

/-- Without braces that could make a placeholder, one after the other is at once. -/
theorem fill_eq_fillAtOnce (hps : ∀ p ∈ ps, Named p)
    (hvalue : ∀ p ∈ Expr.placeholders value, p ∈ ps) (h : Unbraced row value) :
    fill row ps value = fillAtOnce row value := by
  by_cases hall : ∀ p ∈ Expr.placeholders value, (templateText? (row.get? p)).isSome
  · have hplain : ∀ x ∈ pieces value.toList, Plain row x := by
      intro x hx
      cases x with
      | letter x => exact fun heq => h.template (heq ▸ hx)
      | hole p =>
          have hp := hole_mem_pieces_iff.mp hx
          obtain ⟨text, htext⟩ := Option.isSome_iff_exists.mp (hall p hp)
          exact ⟨hps p (hvalue p hp), text, htext, h.texts p hp text htext⟩
    have hfill : fill row ps (String.ofList (source (pieces value.toList))) =
        some (String.ofList (source (putAll (letters row) ps (pieces value.toList)))) := by
      refine fill_source hps (fun l => cut_of_plain) (fun l hl p _ hmem => ?_)
        (fun l hl p _ => plain_flatMap_put hl p) hplain
      obtain ⟨-, text, htext, -⟩ := hl _ hmem
      simp [source_letters, htext]
    rw [source_pieces, String.ofList_toList] at hfill
    rw [hfill, fillAtOnce, if_pos hall, putAll_eq_flatMap, source_flatMap]
    congr 2
    refine List.flatMap_congr fun x hx => ?_
    have hletters (p : String) : ∀ q, .hole q ∉ letters row p := by simp [letters]
    cases x with
    | letter x =>
        rw [putAll_eq_self (by simp)]
        rfl
    | hole p =>
        rw [putAll_hole (hvalue p (hole_mem_pieces_iff.mp hx)),
          putAll_eq_self fun q _ => hletters p q, source_letters, shown]
  · rw [fillAtOnce, if_neg hall]
    simp only [not_forall, Option.not_isSome_iff_eq_none] at hall
    obtain ⟨p, hp, htext⟩ := hall
    exact fill_eq_none hps (hvalue p hp) (mem_placeholders_iff.mp hp).2 htext

/-! ## The last placeholder -/

theorem behind_append (hp : p ∈ ps) (qs : List String) :
    behind p (ps ++ qs) = behind p ps ++ qs := by
  induction ps with
  | nil => cases hp
  | cons q ps ih =>
      by_cases hqp : q = p
      · simp [behind, hqp]
      · have hmem : p ∈ ps := (List.mem_cons.mp hp).resolve_left (Ne.symm hqp)
        simpa [behind, hqp] using ih hmem

theorem exists_eq_concat (hp : p ∈ ps) (h : behind p ps = []) :
    ∃ front, ps = front ++ [p] ∧ ∀ q ∈ front, behind q ps ≠ [] := by
  obtain ⟨front, rest, rfl, hfront⟩ := List.eq_append_cons_of_mem hp
  have hrest : rest = [] := by
    have hpass : (front ++ p :: rest).dropWhile (· ≠ p) = p :: rest := by
      rw [List.dropWhile_append_of_pos fun q hq => by
        simpa using fun heq : q = p => hfront (heq ▸ hq)]
      exact List.dropWhile_cons_of_neg (by simp)
    rwa [behind, hpass, List.tail_cons] at h
  subst hrest
  exact ⟨front, rfl, fun q hq => by simp [behind_append hq]⟩

theorem fill_append_of_not_contains (h : ∀ p ∈ ps, ¬ Text.contains (token p) value = true)
    (qs : List String) : fill row (ps ++ qs) value = fill row qs value := by
  induction ps with
  | nil => rfl
  | cons p ps ih =>
      obtain ⟨hp, hrest⟩ := List.forall_mem_cons.mp h
      rw [List.cons_append, fill_cons_of_not_contains hp, ih hrest]

/-- Where only the last placeholder occurs, nothing is filled in after it. -/
theorem fill_eq_fillAtOnce_of_last (hps : ∀ p ∈ ps, Named p)
    (hvalue : ∀ p ∈ Expr.placeholders value, p ∈ ps ∧ behind p ps = []) (row : Entries Json) :
    fill row ps value = fillAtOnce row value := by
  have hoccurs {q : String} (hq : q ∈ ps) (h : behind q ps ≠ []) :
      ¬ Text.contains (token q) value = true :=
    fun hin => h (hvalue q (mem_placeholders_iff.mpr ⟨hps q hq, hin⟩)).2
  by_cases hnone : Expr.placeholders value = []
  · have hshown : (pieces value.toList).flatMap (shown row) = value.toList := by
      conv_rhs => rw [← source_pieces value.toList, source]
      refine List.flatMap_congr fun x hx => ?_
      cases x with
      | letter x => rfl
      | hole p => simp [hole_mem_pieces_iff, hnone] at hx
    rw [fill_eq_self fun q hq hin => ?_, fillAtOnce, if_pos (by simp [hnone]), hshown,
      String.ofList_toList]
    have hmem := mem_placeholders_iff.mpr ⟨hps q hq, hin⟩
    simp [hnone] at hmem
  · obtain ⟨p, hp⟩ := List.exists_mem_of_ne_nil _ hnone
    obtain ⟨hmem, hlast⟩ := hvalue p hp
    obtain ⟨front, hfront, hbefore⟩ := exists_eq_concat hmem hlast
    have hpin : Text.contains (token p) value = true := (mem_placeholders_iff.mp hp).2
    have honly : ∀ q ∈ Expr.placeholders value, q = p := by
      intro q hq
      obtain ⟨hqmem, hqlast⟩ := hvalue q hq
      rcases List.mem_append.mp (hfront ▸ hqmem) with hqfront | hqp
      · exact absurd hqlast (hbefore q hqfront)
      · exact List.mem_singleton.mp hqp
    have hskip : fill row ps value = fill row [p] value := by
      conv_lhs => rw [hfront]
      exact fill_append_of_not_contains (fun q hq =>
        hoccurs (hfront ▸ List.mem_append_left _ hq) (hbefore q hq)) [p]
    rw [hskip, fill_cons, if_pos hpin, fillAtOnce]
    cases htext : templateText? (row.get? p) with
    | none => rw [if_neg fun h => by simpa [htext] using h p hp, Option.bind_none]
    | some text =>
        have hall : ∀ q ∈ Expr.placeholders value, (templateText? (row.get? q)).isSome :=
          fun q hq => by rw [honly q hq, htext]; rfl
        have hreplaced := replace_token_source (cut_pieces value.toList) (hps p hmem)
          (letters row p)
        rw [source_letters, htext, source_pieces, Option.getD_some, source_flatMap] at hreplaced
        rw [if_pos hall, Option.bind_some, fill, hreplaced]
        congr 2
        refine List.flatMap_congr fun x hx => ?_
        cases x with
        | letter x => rw [put, if_neg (by simp)]; rfl
        | hole q =>
            obtain rfl := honly q (hole_mem_pieces_iff.mp hx)
            rw [put, if_pos rfl, source_letters, shown]

/-! ## A placeholder before the last one -/

/-- A parent in which the value of `p` holds the placeholder `q`, and every value a mark. -/
def echo (p q r : String) : List Piece :=
  .letter '!' :: if r = p then [.hole q] else []

/-- That parent, with a value for each of the placeholders. -/
def echoes (p q : String) (ps : List String) : Entries Json :=
  ps.dedup.map fun r => (r, .string (String.ofList (source (echo p q r))))

theorem templateText?_echoes (p q : String) (hr : r ∈ ps) :
    templateText? ((echoes p q ps).get? r) = some (String.ofList (source (echo p q r))) := by
  have hkeys : (echoes p q ps).keys.Nodup := by
    simpa [Entries.keys, echoes, Function.comp_def] using List.nodup_dedup ps
  have hget : (echoes p q ps).get? r = some (.string (String.ofList (source (echo p q r)))) :=
    (Entries.get?_eq_some_iff hkeys).mpr
      (List.mem_map.mpr ⟨r, List.mem_dedup.mpr hr, rfl⟩)
  rw [hget]
  rfl

/-- A mark or a hole ends every name: what is put in makes no new placeholder. -/
theorem placeholder?_flatMap_echo (p q r : String) {l : List Piece}
    (h : placeholder? (source l) = none) :
    placeholder? (source (l.flatMap (put r (echo p q r)))) = none := by
  have hback (l : List Piece) (w rest : List Char) (hw : ∀ x ∈ w, x ≠ '\x7b' ∧ x ≠ '!')
      (hl : source (l.flatMap (put r (echo p q r))) = w ++ '\x7d' :: rest) :
      ∃ rest', source l = w ++ '\x7d' :: rest' := by
    induction l generalizing w with
    | nil => simp [source] at hl
    | cons x l ih =>
        cases x with
        | letter x =>
            have hput : put r (echo p q r) (.letter x) = [.letter x] := if_neg (by simp)
            rw [List.flatMap_cons, hput, List.singleton_append, source_cons, Piece.source,
              List.singleton_append] at hl
            rw [source_cons, Piece.source, List.singleton_append]
            cases w with
            | nil => exact ⟨source l, by rw [(List.cons.inj hl).1]; rfl⟩
            | cons y w =>
                obtain ⟨rfl, htail⟩ := List.cons.inj hl
                obtain ⟨rest', hrest⟩ := ih w (fun z hz => hw z (List.mem_cons_of_mem _ hz)) htail
                exact ⟨rest', by rw [hrest]; rfl⟩
        | hole o =>
            have hfirst : ∃ a rest', (a = '\x7b' ∨ a = '!') ∧
                source ((Piece.hole o :: l).flatMap (put r (echo p q r))) = a :: rest' := by
              rw [List.flatMap_cons, put]
              split
              · exact ⟨'!', _, .inr rfl, rfl⟩
              · exact ⟨'\x7b', _, .inl rfl, source_hole o _⟩
            obtain ⟨a, rest', ha, hshape⟩ := hfirst
            rw [hshape] at hl
            cases w with
            | nil => rcases ha with rfl | rfl <;> simp at hl
            | cons y w =>
                obtain ⟨rfl, -⟩ := List.cons.inj hl
                have hy := hw a List.mem_cons_self
                exact absurd ha (not_or.mpr hy)
  refine Option.eq_none_iff_forall_not_mem.mpr fun w hw => ?_
  obtain ⟨hname, rest, hrest⟩ := placeholder?_eq_some_iff.mp hw
  have hletters : ∀ x ∈ w, x ≠ '\x7b' ∧ x ≠ '!' := by
    intro x hx
    have hx := hname.ne (by rwa [String.toList_ofList])
    exact ⟨hx.1, hx.2.2⟩
  obtain ⟨rest', hsource⟩ := hback l w rest hletters hrest
  have hfound := placeholder?_eq_some_iff.mpr ⟨hname, rest', hsource⟩
  simp [h] at hfound

theorem cut_echo_append (hq : Named q) (p r : String) {l : List Piece} (hl : Cut l) :
    Cut (echo p q r ++ l) := by
  rw [echo]
  split
  · exact ⟨fun h => absurd h (by decide), hq, hl⟩
  · exact ⟨fun h => absurd h (by decide), hl⟩

theorem cut_flatMap_echo (hq : Named q) (p r : String) {l : List Piece} (hl : Cut l) :
    Cut (l.flatMap (put r (echo p q r))) := by
  induction l with
  | nil => trivial
  | cons x l ih =>
      have hrest := ih hl.tail
      rw [List.flatMap_cons, put]
      split
      · exact cut_echo_append hq p r hrest
      · cases x with
        | letter x => exact ⟨fun h => placeholder?_flatMap_echo p q r (hl.1 h), hrest⟩
        | hole o => exact ⟨hl.1, hrest⟩

/-- How often a text has the mark. -/
def marks (l : List Char) : Nat := l.count '!'

theorem marks_flatMap (l : List Piece) (f : Piece → List Char) :
    marks (l.flatMap f) = (l.map fun x => marks (f x)).sum :=
  List.count_flatMap

theorem marks_source_echo (hq : Named q) (p r : String) : marks (source (echo p q r)) = 1 := by
  have hfree : '!' ∉ (token q).toList := by
    have hname : '!' ∉ q.toList := fun h => (hq.ne h).2.2 rfl
    simp [toList_token, hname]
  by_cases hr : r = p <;>
    simp [marks, echo, hr, source, Piece.source, List.count_eq_zero.mpr hfree]

theorem marks_putAll_letter (new : String → List Piece) (ps : List String) (l : List Piece) :
    marks (source (putAll new ps (.letter '!' :: l))) = 1 + marks (source (putAll new ps l)) := by
  rw [putAll_eq_flatMap, List.flatMap_cons, putAll_eq_self (by simp), ← putAll_eq_flatMap,
    List.singleton_append, source_cons]
  simp [marks, Piece.source, Nat.add_comm]

theorem marks_shown_echoes (hq : Named q) (hr : r ∈ ps) :
    marks (shown (echoes p q ps) (.hole r)) = 1 := by
  rw [shown, templateText?_echoes p q hr, Option.getD_some, String.toList_ofList,
    marks_source_echo hq]

theorem one_le_marks_putAll_hole (hr : r ∈ ps) :
    1 ≤ marks (source (putAll (echo p q) ps [.hole r])) := by
  rw [putAll_hole hr, echo, marks_putAll_letter]
  omega

/-- A hole of a placeholder whose value holds a later one gets two. -/
theorem two_le_marks_putAll_hole (hp : p ∈ ps) (hq : q ∈ behind p ps) :
    2 ≤ marks (source (putAll (echo p q) ps [.hole p])) := by
  have hmore := one_le_marks_putAll_hole (p := p) (q := q) hq
  rw [putAll_hole hp, echo, marks_putAll_letter, if_pos rfl]
  omega

/-- That parent has a text for every placeholder of a value. -/
theorem fill_echoes (hps : ∀ r ∈ ps, Named r) (hq : q ∈ ps) (p value : String) :
    fill (echoes p q ps) ps value =
      some (String.ofList (source (putAll (echo p q) ps (pieces value.toList)))) := by
  have hfill : fill (echoes p q ps) ps (String.ofList (source (pieces value.toList))) = _ :=
    fill_source hps (fun l hl => hl) (fun l _ r hr _ => templateText?_echoes p q hr)
      (fun l hl r _ => cut_flatMap_echo (hps q hq) p r hl) (cut_pieces _)
  rwa [source_pieces, String.ofList_toList] at hfill

/-- What a placeholder that is not the last one gets is filled in again. -/
theorem fill_ne_fillAtOnce (hps : ∀ r ∈ ps, Named r)
    (hvalue : ∀ r ∈ Expr.placeholders value, r ∈ ps) (hp : p ∈ Expr.placeholders value)
    (hbehind : q ∈ behind p ps) (hq : q ∈ ps) :
    fill (echoes p q ps) ps value ≠ fillAtOnce (echoes p q ps) value := by
  have hname := hps q hq
  have hall : ∀ r ∈ Expr.placeholders value,
      (templateText? ((echoes p q ps).get? r)).isSome := fun r hr => by
    rw [templateText?_echoes p q (hvalue r hr)]
    rfl
  intro heq
  rw [fill_echoes hps hq, fillAtOnce, if_pos hall, putAll_eq_flatMap, source_flatMap] at heq
  have hmarks := congrArg marks (String.ofList_injective (Option.some.inj heq))
  rw [marks_flatMap, marks_flatMap] at hmarks
  -- no piece has fewer marks than at once, and the hole of `p` has more
  refine absurd hmarks (ne_of_gt (List.sum_lt_sum _ _ ?_ ⟨.hole p, hole_mem_pieces_iff.mpr hp, ?_⟩))
  · intro x hx
    cases x with
    | letter x =>
        rw [putAll_eq_self (by simp)]
        exact le_rfl
    | hole r =>
        have hr := hvalue r (hole_mem_pieces_iff.mp hx)
        rw [marks_shown_echoes hname hr]
        exact one_le_marks_putAll_hole hr
  · have hpps := hvalue p hp
    rw [marks_shown_echoes hname hpps]
    exact two_le_marks_putAll_hole hpps hbehind

/-! ## Pairs of a template -/

theorem changeValues_cons (f : String → Option String) (key value : String) (pairs : Pairs) :
    changeValues f ((key, value) :: pairs) = (f value).bind fun v =>
      (changeValues f pairs).map fun rest => (key, v) :: rest := by
  rw [changeValues, List.mapM_cons, ← changeValues]
  dsimp only
  cases f value with
  | none => rfl
  | some v => cases changeValues f pairs <;> rfl

/-- The values are changed one by one, if all of them can be. -/
theorem changeValues_eq_some {f : String → Option String} {pairs out : Pairs} :
    changeValues f pairs = some out ↔
      List.Forall₂ (fun a b => a.1 = b.1 ∧ f a.2 = some b.2) pairs out := by
  induction pairs generalizing out with
  | nil => simp [changeValues, eq_comm]
  | cons a pairs ih =>
      obtain ⟨key, value⟩ := a
      simp only [changeValues_cons, Option.bind_eq_some_iff, Option.map_eq_some_iff,
        List.forall₂_cons_left_iff]
      constructor
      · rintro ⟨v, hv, rest, hrest, rfl⟩
        exact ⟨(key, v), rest, ⟨rfl, hv⟩, ih.mp hrest, rfl⟩
      · rintro ⟨⟨_, v⟩, rest, ⟨rfl, hv⟩, hrest, rfl⟩
        exact ⟨v, hv, rest, ih.mpr hrest, rfl⟩

theorem exists_changeValues_eq_some {f : String → Option String} {pairs : Pairs}
    (h : ∀ pair ∈ pairs, ∃ text, f pair.2 = some text) :
    ∃ out, changeValues f pairs = some out := by
  refine ⟨pairs.map fun a => (a.1, (f a.2).getD ""), changeValues_eq_some.mpr ?_⟩
  refine List.forall₂_map_right_iff.mpr (List.forall₂_same.mpr fun a ha => ⟨rfl, ?_⟩)
  obtain ⟨text, htext⟩ := h a ha
  rw [htext, Option.getD_some]

theorem eq_of_changeValues {f g : String → Option String} {pairs out : Pairs}
    (hf : changeValues f pairs = some out)
    (hg : changeValues g pairs = some out) :
    ∀ pair ∈ pairs, f pair.2 = g pair.2 := by
  rw [changeValues_eq_some] at hf hg
  induction hf with
  | nil => exact List.forall_mem_nil _
  | cons hab _ ih =>
      cases hg with
      | cons hab' hrest => exact List.forall_mem_cons.mpr ⟨hab.2.trans hab'.2.symm, ih hrest⟩

theorem changeValues_congr {f g : String → Option String} {pairs : Pairs}
    (h : ∀ pair ∈ pairs, f pair.2 = g pair.2) : changeValues f pairs = changeValues g pairs := by
  induction pairs with
  | nil => rfl
  | cons a pairs ih =>
      obtain ⟨key, value⟩ := a
      obtain ⟨hvalue, hrest⟩ := List.forall_mem_cons.mp h
      have hvalue : f value = g value := hvalue
      rw [changeValues_cons, changeValues_cons, hvalue, ih hrest]

/-- What occurs in a value of a template occurs in the template. -/
theorem mem_placeholders_of_value {key : String} (hpair : (key, value) ∈ splitPairs c.filter)
    (hp : p ∈ Expr.placeholders value) : p ∈ c.placeholders := by
  obtain ⟨hname, hin⟩ := mem_placeholders_iff.mp hp
  refine mem_placeholders_iff.mpr ⟨hname, ?_⟩
  rw [Text.contains_iff] at hin ⊢
  obtain ⟨part, hpart, hcut⟩ := List.mem_map.mp hpair
  have hpart := (List.mem_filter.mp hpart).1
  obtain ⟨chars, hchars, rfl⟩ := List.mem_map.mp hpart
  rw [← Chars.splitText_singleton] at hchars
  refine List.IsInfix.trans ?_ (Chars.not_infix_of_mem_splitText (by simp) hchars).2
  cases hfirst : Text.cutFirst? "=" (String.ofList chars) with
  | none =>
      obtain ⟨-, rfl⟩ := Prod.mk.inj (by simpa [hfirst] using hcut)
      simp [toList_token] at hin
  | some sides =>
      obtain rfl : sides = (key, value) := by simpa [hfirst] using hcut
      obtain ⟨hsides, -⟩ := (Text.cutFirst?_eq_some_iff (c := '=') rfl).mp hfirst
      rw [← String.toList_ofList (l := chars), hsides, String.toList_append]
      exact hin.trans (List.suffix_append _ _).isInfix

/-- Filled in at once, a template fails only for a placeholder without a text. -/
theorem substitute_eq_none_iff (c : Child) (row : Entries Json) :
    c.substitute row = none ↔ ∃ pair ∈ splitPairs c.filter, ∃ p ∈ Expr.placeholders pair.2,
      templateText? (row.get? p) = none := by
  constructor
  · intro h
    by_contra hall
    push Not at hall
    obtain ⟨out, hout⟩ := exists_changeValues_eq_some (f := fillAtOnce row) fun pair hpair =>
      ⟨_, if_pos fun p hp => Option.isSome_iff_ne_none.mpr (hall pair hpair p hp)⟩
    rw [substitute, hout] at h
    cases h
  · rintro ⟨pair, hpair, p, hp, htext⟩
    refine Option.eq_none_iff_forall_not_mem.mpr fun out h => ?_
    obtain ⟨b, -, -, hb⟩ := exists_of_mem_left (changeValues_eq_some.mp h) hpair
    rw [fillAtOnce, if_neg fun hall => by simpa [htext] using hall p hp] at hb
    cases hb

/-- A filled-in template has the pairs of the template, with the same keys and in the same order. A
placeholder of a value that is missing or null leaves no children. Where neither the values of the
template nor the texts of the parent have stray opening braces, nothing else does, and all
placeholders are filled in at once. That holds for every parent exactly if every placeholder of a
value is the last one of the template. -/
theorem instantiate_substitutes (c : Child) :
    (∀ row pairs, c.instantiate row = some pairs →
      pairs.map Prod.fst = (splitPairs c.filter).map Prod.fst) ∧
    (∀ row, (∃ pair ∈ splitPairs c.filter, ∃ p ∈ Expr.placeholders pair.2,
      templateText? (row.get? p) = none) → c.instantiate row = none) ∧
    (∀ row, (∀ pair ∈ splitPairs c.filter, Unbraced row pair.2) →
      c.instantiate row = c.substitute row ∧
      (c.instantiate row = none ↔ ∃ pair ∈ splitPairs c.filter, ∃ p ∈ Expr.placeholders pair.2,
        templateText? (row.get? p) = none)) ∧
    ((∀ row, c.instantiate row = c.substitute row) ↔
      ∀ pair ∈ splitPairs c.filter, ∀ p ∈ Expr.placeholders pair.2,
        behind p c.placeholders = []) := by
  have hnamed : ∀ p ∈ c.placeholders, Named p := fun p hp => named_of_mem_placeholders hp
  refine ⟨?keys, ?missing, ?plain, ?last, ?_⟩
  case keys =>
    intro row pairs h
    rw [instantiate_eq_changeValues, changeValues_eq_some] at h
    exact (map_eq_of_forall₂ h fun a b hab => hab.1).symm
  case missing =>
    rintro row ⟨pair, hpair, p, hp, htext⟩
    refine Option.eq_none_iff_forall_not_mem.mpr fun pairs h => ?_
    rw [Option.mem_def, instantiate_eq_changeValues, changeValues_eq_some] at h
    obtain ⟨b, -, -, hb⟩ := exists_of_mem_left h hpair
    rw [fill_eq_none hnamed (mem_placeholders_of_value hpair hp)
      (mem_placeholders_iff.mp hp).2 htext] at hb
    cases hb
  case plain =>
    intro row hplain
    have heq : c.instantiate row = c.substitute row :=
      changeValues_congr fun pair hpair => fill_eq_fillAtOnce hnamed
        (fun p hp => mem_placeholders_of_value hpair hp) (hplain pair hpair)
    exact ⟨heq, heq ▸ substitute_eq_none_iff c row⟩
  case last =>
    intro hall pair hpair p hp
    by_contra hne
    obtain ⟨q, hbehind⟩ := List.exists_mem_of_ne_nil _ hne
    have hq : q ∈ c.placeholders := (List.dropWhile_suffix _).subset (List.mem_of_mem_tail hbehind)
    have hfill (value : String) := fill_echoes hnamed hq p value
    -- every value is filled in for that parent, so pair by pair in the same way as at once
    obtain ⟨out, hout⟩ : ∃ out, c.instantiate (echoes p q c.placeholders) = some out :=
      exists_changeValues_eq_some fun pair _ => ⟨_, hfill pair.2⟩
    exact fill_ne_fillAtOnce hnamed (fun r hr => mem_placeholders_of_value hpair hr) hp hbehind hq
      (eq_of_changeValues hout ((hall _).symm.trans hout) pair hpair)
  · intro hlast row
    exact changeValues_congr fun pair hpair => fill_eq_fillAtOnce_of_last hnamed
      (fun p hp => ⟨mem_placeholders_of_value hpair hp, hlast pair hpair p hp⟩) row

end EntityRest.Child

/-! ## A box with a code and a label -/

namespace EntityRest.Boxed

open Child (templateText?)

/-- The items of a box are those with its code and its label. -/
def items : Child where
  key := "items"
  entity := "items"
  filter := "box=\x7bcode\x7d&label=\x7blabel\x7d"

/-- A box whose texts have no braces. -/
def plainBox : Entries Json := [("code", .string "A1"), ("label", .string "old")]

theorem instantiate_plainBox : items.instantiate plainBox =
    some [("box", "A1"), ("label", "old")] := by
  have hplain : ∀ pair ∈ splitPairs items.filter, Child.Unbraced plainBox pair.2 := by decide
  rw [((Child.instantiate_substitutes items).2.2.1 plainBox hplain).1]
  decide

/-- The code of a box may be the other placeholder: it is filled in as well. -/
theorem instantiate_ne_substitute :
    items.instantiate [("code", .string "\x7blabel\x7d"), ("label", .string "old")] =
        some [("box", "old"), ("label", "old")] ∧
      items.substitute [("code", .string "\x7blabel\x7d"), ("label", .string "old")] =
        some [("box", "\x7blabel\x7d"), ("label", "old")] := by
  decide

end EntityRest.Boxed
