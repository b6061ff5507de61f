import EntityRest.Locale.Translator
import EntityRest.Proofs.Text.Bytes
import EntityRest.Proofs.Text.Split
import Mathlib.Data.List.MinMax
import Mathlib.Data.List.Nodup
import Mathlib.Data.List.Sort

/-! # Placeholders of messages

A message is filled in one argument after the other, longer names first, over the texts that are
already filled in. Beside it stands the substitution in one pass from left to right, which takes the
longest name behind every colon and looks at no value again. Both give the same where the parts of
the template between colons decide which names stand there and no value but the last brings a colon
in; for every template and all values exactly if there is at most one name. The order of the
arguments matters exactly if two names are of the same size. -/

namespace EntityRest.Locale

variable {args args' : Args} {a b : String × String} {name value seg s t w : List Char}
  {names : List String}

/-! ## One pass from left to right -/

/-- The argument of the longest name that a text starts with. -/
def longest? (args : Args) (s : List Char) : Option (String × String) :=
  (args.filter fun a => a.1.toList.isPrefixOf s).argmax fun a => a.1.toList.length

/-- The pass, with `skip` characters of the last placeholder still to be passed over. -/
def passFrom (args : Args) : Nat → List Char → List Char
  | _, [] => []
  | skip + 1, _ :: s => passFrom args skip s
  | 0, c :: s =>
    if c = ':' then
      match longest? args s with
      | some (name, value) => value.toList ++ passFrom args name.toList.length s
      | none => ':' :: passFrom args 0 s
    else c :: passFrom args 0 s

/-- The template with each placeholder replaced by the value of its name. -/
def substitute (template : String) (args : Args) : String :=
  String.ofList (passFrom args 0 template.toList)

theorem passFrom_eq (args : Args) (n : Nat) (s : List Char) :
    passFrom args n s = passFrom args 0 (s.drop n) := by
  induction n generalizing s with
  | zero => rfl
  | succ n ih =>
      cases s with
      | nil => rfl
      | cons c s => exact ih s

theorem passFrom_append (hw : ':' ∉ w) (s : List Char) :
    passFrom args 0 (w ++ s) = w ++ passFrom args 0 s := by
  induction w with
  | nil => rfl
  | cons c w ih =>
      have hc : c ≠ ':' := (List.ne_of_not_mem_cons hw).symm
      rw [List.cons_append, passFrom, if_neg hc, ih (List.not_mem_of_not_mem_cons hw),
        List.cons_append]

theorem passFrom_colon_of_some (h : longest? args s = some a) :
    passFrom args 0 (':' :: s) = a.2.toList ++ passFrom args 0 (s.drop a.1.toList.length) := by
  rw [passFrom, if_pos rfl, h, ← passFrom_eq]

theorem passFrom_colon_of_none (h : longest? args s = none) :
    passFrom args 0 (':' :: s) = ':' :: passFrom args 0 s := by
  rw [passFrom, if_pos rfl, h]

theorem mem_of_longest? (h : longest? args s = some a) :
    a ∈ args ∧ a.1.toList <+: s ∧
      ∀ b ∈ args, b.1.toList <+: s → b.1.toList.length ≤ a.1.toList.length := by
  have hmem := List.argmax_mem h
  rw [List.mem_filter, List.isPrefixOf_iff_prefix] at hmem
  refine ⟨hmem.1, hmem.2, fun b hb hstarts => ?_⟩
  exact List.le_of_mem_argmax (f := fun a : String × String => a.1.toList.length)
    (List.mem_filter.mpr ⟨hb, List.isPrefixOf_iff_prefix.mpr hstarts⟩) h

theorem longest?_eq_none_iff :
    longest? args s = none ↔ ∀ a ∈ args, ¬ a.1.toList <+: s := by
  rw [longest?, List.argmax_eq_none, List.filter_eq_nil_iff]
  simp

/-- Of two names that a text starts with, the shorter one starts the longer one. -/
theorem eq_of_starts (hnames : (args.map Prod.fst).Nodup) (ha : a ∈ args) (hb : b ∈ args)
    (hstarts : a.1.toList <+: s) (hstarts' : b.1.toList <+: s)
    (hlength : a.1.toList.length = b.1.toList.length) : a = b := by
  refine List.inj_on_of_nodup_map hnames ha hb (String.toList_injective ?_)
  exact (List.prefix_of_prefix_length_le hstarts hstarts' hlength.le).eq_of_length hlength

/-- Distinct names leave no choice. -/
theorem longest?_eq_some_iff (hnames : (args.map Prod.fst).Nodup) :
    longest? args s = some a ↔ a ∈ args ∧ a.1.toList <+: s ∧
      ∀ b ∈ args, b.1.toList <+: s → b.1.toList.length ≤ a.1.toList.length := by
  refine ⟨mem_of_longest?, ?_⟩
  rintro ⟨hmem, hstarts, hmax⟩
  cases hlongest : longest? args s with
  | none => exact absurd hstarts (longest?_eq_none_iff.mp hlongest a hmem)
  | some b =>
      obtain ⟨hmem', hstarts', hmax'⟩ := mem_of_longest? hlongest
      have hlength := le_antisymm (hmax b hmem' hstarts') (hmax' a hmem hstarts)
      rw [eq_of_starts hnames hmem' hmem hstarts' hstarts hlength]

theorem longest?_perm (hnames : (args.map Prod.fst).Nodup) (h : args.Perm args')
    (s : List Char) : longest? args s = longest? args' s := by
  have hnames' : (args'.map Prod.fst).Nodup := (h.map Prod.fst).nodup_iff.mp hnames
  ext a
  simp only [longest?_eq_some_iff hnames, longest?_eq_some_iff hnames', h.mem_iff]

/-- The pass does not depend on the order of the arguments. -/
theorem substitute_perm (hnames : (args.map Prod.fst).Nodup) (h : args.Perm args')
    (template : String) : substitute template args = substitute template args' := by
  have hpass (n : Nat) (s : List Char) : passFrom args n s = passFrom args' n s := by
    induction s generalizing n with
    | nil => cases n <;> rfl
    | cons c s ih =>
        cases n with
        | zero => simp only [passFrom, longest?_perm hnames h, ih]
        | succ n => exact ih n
  rw [substitute, substitute, hpass]

/-! ## One argument after the other -/

/-- Is the name of the first argument at least as long as that of the second? -/
def longerFirst (a b : String × String) : Bool := decide (b.1.utf8ByteSize ≤ a.1.utf8ByteSize)

theorem longerFirst_trans (a b c : String × String) (hab : longerFirst a b = true)
    (hbc : longerFirst b c = true) : longerFirst a c = true :=
  decide_eq_true ((of_decide_eq_true hbc).trans (of_decide_eq_true hab))

theorem longerFirst_total (a b : String × String) :
    (longerFirst a b || longerFirst b a) = true := by
  simpa [longerFirst] using Nat.le_total b.1.utf8ByteSize a.1.utf8ByteSize

/-- The order in which arguments are filled in. -/
def order (args : Args) : Args := args.mergeSort longerFirst

/-- The arguments filled in, each over the text that the earlier ones leave. -/
def rounds (args : Args) (s : List Char) : List Char :=
  args.foldl (fun s a => Chars.replace (':' :: a.1.toList) a.2.toList s) s

theorem rounds_cons (a : String × String) (args : Args) (s : List Char) :
    rounds (a :: args) s = rounds args (Chars.replace (':' :: a.1.toList) a.2.toList s) :=
  rfl

theorem interpolate_eq (template : String) (args : Args) :
    interpolate template args = String.ofList (rounds (order args) template.toList) := by
  calc
    interpolate template args = interpolate (String.ofList template.toList) args := by
      rw [String.ofList_toList]
    _ = String.ofList (rounds (order args) template.toList) :=
      List.foldl_hom String.ofList fun s a => by simp only [String.toList_ofList]

theorem order_perm (args : Args) : (order args).Perm args := List.mergeSort_perm args _

theorem pairwise_order (args : Args) :
    (order args).Pairwise fun a b => b.1.utf8ByteSize ≤ a.1.utf8ByteSize := by
  have hsorted := List.pairwise_mergeSort longerFirst_trans longerFirst_total args
  exact hsorted.imp of_decide_eq_true

theorem order_eq_self (h : args.Pairwise fun a b => b.1.utf8ByteSize ≤ a.1.utf8ByteSize) :
    order args = args :=
  List.mergeSort_of_pairwise (h.imp decide_eq_true)

theorem order_eq_of_perm (hsizes : (args.map fun a => a.1.utf8ByteSize).Nodup)
    (h : args.Perm args') : order args = order args' := by
  have hperm : (order args).Perm (order args') :=
    ((order_perm args).trans h).trans (order_perm args').symm
  refine hperm.eq_of_pairwise ?_ (pairwise_order args) (pairwise_order args')
  intro a b ha hb hab hba
  exact List.inj_on_of_nodup_map hsizes ((order_perm args).mem_iff.mp ha)
    ((order_perm args).mem_iff.mp (hperm.mem_iff.mpr hb)) (le_antisymm hba hab)

theorem sublist_order (h : [a, b].Sublist args) (hsize : b.1.utf8ByteSize ≤ a.1.utf8ByteSize) :
    [a, b].Sublist (order args) :=
  List.sublist_mergeSort longerFirst_trans longerFirst_total
    (List.pairwise_pair.mpr (decide_eq_true hsize)) h

/-! ## Blocks of a text -/

/-- A part of a text that is filled in: text that stays, or a colon and what stands behind it up to
the next colon. -/
inductive Block where
  | text (w : List Char)
  | colon (seg : List Char)

namespace Block

def chars : Block → List Char
  | text w => w
  | colon seg => ':' :: seg

def fill (name value : List Char) : Block → Block
  | text w => text w
  | colon seg =>
    if name.isPrefixOf seg then text (value ++ seg.drop name.length) else colon seg

def render (bs : List Block) : List Char := bs.flatMap chars

theorem render_cons (b : Block) (bs : List Block) : render (b :: bs) = b.chars ++ render bs := rfl

theorem fill_append (name value rest : List Char) :
    fill name value (colon (name ++ rest)) = text (value ++ rest) := by
  simp [fill]

theorem fill_of_not_starts (h : ¬ name <+: seg) (value : List Char) :
    fill name value (colon seg) = colon seg := by
  simp [fill, h]

/-- No colon stands in a block but in front of it, and every block but the last decides which names
stand there: no name goes on beyond it. -/
def Decides (args : Args) : List Block → Prop
  | [] => True
  | text w :: bs => ':' ∉ w ∧ Decides args bs
  | colon seg :: bs =>
    ':' ∉ seg ∧ (∀ a ∈ args, seg <+: a.1.toList → seg = a.1.toList ∨ bs = []) ∧ Decides args bs

variable {bs : List Block}

/-- A name that stands in a text stands in its first block. -/
theorem prefix_append_render_iff (h : Decides args (colon seg :: bs)) (ha : a ∈ args) :
    a.1.toList <+: seg ++ render bs ↔ a.1.toList <+: seg := by
  refine ⟨fun hname => ?_, fun hname => hname.trans (List.prefix_append seg _)⟩
  rcases List.prefix_or_prefix_of_prefix hname (List.prefix_append seg (render bs)) with hle | hlt
  · exact hle
  · rcases h.2.1 a ha hlt with heq | rfl
    · exact heq ▸ List.prefix_refl seg
    · simpa [render] using hname

/-- Replacing a placeholder fills in the blocks that start with its name. -/
theorem replace_render (h : Decides args bs) (ha : a ∈ args) :
    Chars.replace (':' :: a.1.toList) a.2.toList (render bs) =
      render (bs.map (fill a.1.toList a.2.toList)) := by
  induction bs with
  | nil => rfl
  | cons b bs ih =>
      rw [List.map_cons, render_cons, render_cons]
      cases b with
      | text w => rw [chars, Chars.replace_append_of_notMem h.1, ih h.2]; rfl
      | colon seg =>
          have hrest := ih h.2.2
          by_cases hstart : a.1.toList <+: seg
          · obtain ⟨rest, rfl⟩ := hstart
            have hfree : ':' ∉ rest := fun hmem => h.1 (List.mem_append_right _ hmem)
            rw [fill_append, chars, chars, ← List.cons_append, List.append_assoc,
              Chars.replace_append_left (List.cons_ne_nil ':' _),
              Chars.replace_append_of_notMem hfree, hrest, List.append_assoc]
          · have hnot : ¬ (':' :: a.1.toList <+: ':' :: (seg ++ render bs)) := by
              rwa [List.prefix_cons_inj, prefix_append_render_iff h ha]
            rw [fill_of_not_starts hstart, chars, List.cons_append, Chars.replace_cons hnot,
              Chars.replace_append_of_notMem h.1, hrest, List.cons_append]

/-- A value without a colon leaves the other blocks as decided as they were. -/
theorem Decides.map_fill (h : Decides args bs) (hvalue : ':' ∉ value) :
    Decides args (bs.map (fill name value)) := by
  induction bs with
  | nil => trivial
  | cons b bs ih =>
      cases b with
      | text w => exact ⟨h.1, ih h.2⟩
      | colon seg =>
          have hrest := ih h.2.2
          rw [List.map_cons]
          by_cases hstart : name <+: seg
          · obtain ⟨rest, rfl⟩ := hstart
            have hfree : ':' ∉ rest := fun hmem => h.1 (List.mem_append_right _ hmem)
            rw [fill_append]
            exact ⟨fun hmem => (List.mem_append.mp hmem).elim hvalue hfree, hrest⟩
          · rw [fill_of_not_starts hstart]
            exact ⟨h.1, fun a ha hle => (h.2.1 a ha hle).imp_right (by simp), hrest⟩

def fillAll (args : Args) (b : Block) : Block :=
  args.foldl (fun b a => b.fill a.1.toList a.2.toList) b

/-- The rounds fill in the blocks one by one, if no value but the last brings a colon in. -/
theorem rounds_render {filled : Args} (h : Decides args bs) (hfilled : ∀ a ∈ filled, a ∈ args)
    (hvalues : ∀ a ∈ filled.dropLast, ':' ∉ a.2.toList) :
    rounds filled (render bs) = render (bs.map (fillAll filled)) := by
  induction filled generalizing bs with
  | nil => exact congrArg render bs.map_id.symm
  | cons a filled ih =>
      obtain ⟨ha, hfilled⟩ := List.forall_mem_cons.mp hfilled
      have hmap : (bs.map (fill a.1.toList a.2.toList)).map (fillAll filled) =
          bs.map (fillAll (a :: filled)) := List.map_map
      rw [rounds_cons, replace_render h ha]
      cases filled with
      | nil => rw [← hmap]; exact congrArg render (List.map_id _).symm
      | cons b filled =>
          rw [List.dropLast_cons_cons] at hvalues
          obtain ⟨hvalue, hvalues⟩ := List.forall_mem_cons.mp hvalues
          rw [ih (h.map_fill hvalue) hfilled hvalues, hmap]

theorem fillAll_text (args : Args) (w : List Char) : fillAll args (text w) = text w := by
  induction args with
  | nil => rfl
  | cons a args ih => exact ih

/-- The first name that stands in a block is filled in. -/
theorem fillAll_colon (args : Args) (seg : List Char) :
    fillAll args (colon seg) =
      match args.find? fun a => a.1.toList.isPrefixOf seg with
      | some a => text (a.2.toList ++ seg.drop a.1.toList.length)
      | none => colon seg := by
  induction args with
  | nil => rfl
  | cons a args ih =>
      have hstep : fillAll (a :: args) (colon seg) =
          fillAll args ((colon seg).fill a.1.toList a.2.toList) := rfl
      by_cases hstart : a.1.toList <+: seg
      · obtain ⟨rest, rfl⟩ := hstart
        rw [hstep, fill_append, fillAll_text, List.find?_cons_of_pos (by simp)]
        simp
      · rw [hstep, fill_of_not_starts hstart, ih, List.find?_cons_of_neg (by simpa using hstart)]

end Block

/-! ## Both compared -/

open Block (text colon render fillAll Decides)

theorem size_lt_of_length_lt {p q : String} (hp : p.toList <+: s) (hq : q.toList <+: s)
    (h : p.toList.length < q.toList.length) : p.utf8ByteSize < q.utf8ByteSize := by
  by_contra hsize
  have hinfix := (List.prefix_of_prefix_length_le hp hq h.le).isInfix
  obtain rfl := Text.eq_of_infix hinfix (not_lt.mp hsize)
  exact lt_irrefl _ h

theorem find?_order (hnames : (args.map Prod.fst).Nodup) (s : List Char) :
    (order args).find? (fun a => a.1.toList.isPrefixOf s) = longest? args s := by
  have hmem {a : String × String} : a ∈ order args ↔ a ∈ args := (order_perm args).mem_iff
  cases hfound : (order args).find? fun a => a.1.toList.isPrefixOf s with
  | none =>
      rw [List.find?_eq_none] at hfound
      refine (longest?_eq_none_iff.mpr fun a ha hstarts => ?_).symm
      exact hfound a (hmem.mpr ha) (List.isPrefixOf_iff_prefix.mpr hstarts)
  | some a =>
      obtain ⟨hstarts, before, behind, horder, hbefore⟩ := List.find?_eq_some_iff_append.mp hfound
      have hstarts := List.isPrefixOf_iff_prefix.mp hstarts
      refine ((longest?_eq_some_iff hnames).mpr ⟨?_, hstarts, fun b hb hstarts' => ?_⟩).symm
      · exact hmem.mp (by simp [horder])
      · by_contra hlonger
        have hsize := size_lt_of_length_lt hstarts hstarts' (not_le.mp hlonger)
        have hsorted := pairwise_order args
        have hb := hmem.mpr hb
        rw [horder] at hsorted hb
        rcases List.mem_append.mp hb with hb | hb
        · have hnot := hbefore b hb
          rw [List.isPrefixOf_iff_prefix.mpr hstarts'] at hnot
          cases hnot
        · rcases List.mem_cons.mp hb with rfl | hb
          · exact hlonger le_rfl
          · have hle := List.rel_of_pairwise_cons (List.pairwise_append.mp hsorted).2.1 hb
            omega

theorem longest?_append_render {bs : List Block} (h : Decides args (colon seg :: bs)) :
    longest? args (seg ++ render bs) = longest? args seg := by
  rw [longest?, longest?]
  congr 1
  refine List.filter_congr fun a ha => ?_
  rw [Bool.eq_iff_iff, List.isPrefixOf_iff_prefix, List.isPrefixOf_iff_prefix]
  exact Block.prefix_append_render_iff h ha

/-- The pass fills in the blocks one by one. -/
theorem passFrom_render {bs : List Block} (hnames : (args.map Prod.fst).Nodup)
    (h : Decides args bs) :
    passFrom args 0 (render bs) = render (bs.map (fillAll (order args))) := by
  induction bs with
  | nil => rfl
  | cons b bs ih =>
      rw [List.map_cons, Block.render_cons, Block.render_cons]
      cases b with
      | text w =>
          rw [Block.fillAll_text, Block.chars, passFrom_append h.1, ih h.2]
      | colon seg =>
          have hrest := ih h.2.2
          have hlongest := longest?_append_render h
          rw [Block.fillAll_colon, find?_order hnames, Block.chars, List.cons_append]
          cases hfound : longest? args seg with
          | some a =>
              rw [hfound] at hlongest
              obtain ⟨-, ⟨rest, rfl⟩, -⟩ := mem_of_longest? hfound
              have hfree : ':' ∉ rest := fun hmem => h.1 (List.mem_append_right _ hmem)
              rw [passFrom_colon_of_some hlongest, List.append_assoc, List.drop_left,
                passFrom_append hfree, hrest]
              simp [Block.chars]
          | none =>
              rw [hfound] at hlongest
              rw [passFrom_colon_of_none hlongest, passFrom_append h.1, hrest]
              rfl

/-- The template cut in front of its colons. -/
def blocks (template : String) : List Block :=
  match Chars.splitChar ':' template.toList with
  | [] => []
  | w :: segs => text w :: segs.map colon

theorem render_blocks (template : String) : render (blocks template) = template.toList := by
  have hjoin (w : List Char) (segs : List (List Char)) :
      w ++ render (segs.map colon) = [':'].intercalate (w :: segs) := by
    induction segs generalizing w with
    | nil => simp [render]
    | cons seg segs ih =>
        rw [List.map_cons, Block.render_cons, Block.chars, List.cons_append, ih,
          List.intercalate_cons_cons, List.append_assoc, List.singleton_append]
  have htext := Chars.intercalate_splitChar ':' template.toList
  obtain ⟨w, segs, hsplit⟩ := List.exists_cons_of_ne_nil
    (Chars.splitChar_ne_nil ':' template.toList)
  rw [blocks, hsplit, ← htext, hsplit, ← hjoin]
  rfl

/-- What stands between two colons of the template decides which names stand there, and no value
brings a colon in but the one that is filled in last. -/
structure Fills (template : String) (args : Args) : Prop where
  delimited : ∀ seg ∈ (Text.splitChar ':' template).tail.dropLast, ∀ a ∈ args,
    seg.toList <+: a.1.toList → seg = a.1
  values : ∀ a ∈ (order args).dropLast, ':' ∉ a.2.toList

theorem decides_map_colon {segs : List (List Char)} (hfree : ∀ seg ∈ segs, ':' ∉ seg)
    (hdelimited : ∀ seg ∈ segs.dropLast, ∀ a ∈ args, seg <+: a.1.toList → seg = a.1.toList) :
    Decides args (segs.map colon) := by
  induction segs with
  | nil => trivial
  | cons seg segs ih =>
      obtain ⟨hseg, hfree⟩ := List.forall_mem_cons.mp hfree
      cases segs with
      | nil => exact ⟨hseg, fun _ _ _ => .inr rfl, trivial⟩
      | cons seg' segs =>
          rw [List.dropLast_cons_cons, List.forall_mem_cons] at hdelimited
          exact ⟨hseg, fun a ha hle => .inl (hdelimited.1 a ha hle), ih hfree hdelimited.2⟩

theorem Fills.decides {template : String} (h : Fills template args) :
    Decides args (blocks template) := by
  have hdelimited := h.delimited
  have hfree (seg : List Char) (hseg : seg ∈ Chars.splitChar ':' template.toList) : ':' ∉ seg :=
    Chars.notMem_of_mem_splitChar hseg
  obtain ⟨w, segs, hsplit⟩ := List.exists_cons_of_ne_nil
    (Chars.splitChar_ne_nil ':' template.toList)
  rw [hsplit, List.forall_mem_cons] at hfree
  rw [Text.splitChar, hsplit, List.map_cons, List.tail_cons, ← List.map_dropLast,
    List.forall_mem_map] at hdelimited
  rw [blocks, hsplit]
  refine ⟨hfree.1, decides_map_colon hfree.2 fun seg hseg a ha hle => ?_⟩
  have heq := hdelimited seg hseg a ha (by rwa [String.toList_ofList])
  rw [← heq, String.toList_ofList]

/-- Where the template and the values leave no doubt, both ways of filling in agree. -/
theorem interpolate_eq_of_fills (hnames : (args.map Prod.fst).Nodup) {template : String}
    (h : Fills template args) : interpolate template args = substitute template args := by
  rw [interpolate_eq, substitute, ← render_blocks, passFrom_render hnames h.decides,
    Block.rounds_render h.decides (fun a ha => (order_perm args).mem_iff.mp ha) h.values]

/-- With one name at most there is nothing to mix up. -/
theorem interpolate_eq_of_length_le_one (h : args.length ≤ 1) (template : String) :
    interpolate template args = substitute template args := by
  rw [interpolate_eq, substitute]
  cases args with
  | nil =>
      have hpass (s : List Char) : passFrom [] 0 s = s := by
        induction s with
        | nil => rfl
        | cons c s ih => simp [passFrom, longest?, ih, eq_comm]
      rw [hpass, order_eq_self .nil]
      rfl
  | cons a args =>
      obtain rfl : args = [] := List.length_eq_zero_iff.mp (by simpa using h)
      have hlongest (s : List Char) :
          longest? [a] s = if a.1.toList.isPrefixOf s then some a else none := by
        by_cases hstart : a.1.toList.isPrefixOf s <;> simp [longest?, hstart]
      have hreplace (n : Nat) (s : List Char) :
          Chars.replaceFrom (':' :: a.1.toList) a.2.toList n s = passFrom [a] n s := by
        induction s generalizing n with
        | nil => cases n <;> rfl
        | cons c s ih =>
            cases n with
            | succ n => exact ih n
            | zero =>
                by_cases hc : c = ':'
                · subst hc
                  by_cases hstart : a.1.toList.isPrefixOf s <;>
                    simp [Chars.replaceFrom, passFrom, hlongest, hstart, ih]
                · simp [Chars.replaceFrom, passFrom, hc, Ne.symm hc, ih]
      rw [order_eq_self (List.pairwise_singleton _ a), ← hreplace]
      rfl

/-! ## Values that are placeholders -/

/-- Arguments that leave every placeholder as it is, but that of `p`, which becomes the one of `q`,
and that of `q`, which is taken out. -/
def echo (p q name : String) : String × String :=
  (name, if name = p then ":" ++ q else if name = q then "" else ":" ++ name)

variable {p q x y : String}

theorem map_fst_map_echo (p q : String) (names : List String) :
    (names.map (echo p q)).map Prod.fst = names := by
  simp [echo, Function.comp_def]

/-- Arguments that replace a placeholder by itself can be left out. -/
theorem rounds_of_sublist {kept : Args} (h : kept.Sublist args) (hargs : args.Nodup)
    (hidle : ∀ a ∈ args, a ∈ kept ∨ a.2.toList = ':' :: a.1.toList) (s : List Char) :
    rounds args s = rounds kept s := by
  induction h generalizing s with
  | slnil => rfl
  | cons a hsub ih =>
      obtain ⟨ha, hargs⟩ := List.nodup_cons.mp hargs
      obtain ⟨hidle_a, hidle⟩ := List.forall_mem_cons.mp hidle
      have hsame := hidle_a.resolve_left fun hmem => ha (hsub.subset hmem)
      rw [rounds_cons, hsame, Chars.replace_same (List.cons_ne_nil ':' _), ih hargs hidle]
  | cons_cons a hsub ih =>
      obtain ⟨ha, hargs⟩ := List.nodup_cons.mp hargs
      have hidle := (List.forall_mem_cons.mp hidle).2
      rw [rounds_cons, rounds_cons, ih hargs fun b hb => (hidle b hb).imp_left fun hmem => ?_]
      exact (List.mem_cons.mp hmem).resolve_left fun heq => ha (heq ▸ hb)

/-- Only the arguments of the two names are felt. -/
theorem rounds_order_echo (hnames : names.Nodup) (h : [x, y].Sublist names)
    (hsize : y.utf8ByteSize ≤ x.utf8ByteSize) (hp : p ∈ [x, y]) (hq : q ∈ [x, y])
    (s : List Char) :
    rounds (order (names.map (echo p q))) s = rounds [echo p q x, echo p q y] s := by
  have hperm := order_perm (names.map (echo p q))
  have hnodup : (names.map (echo p q)).Nodup :=
    hnames.map fun a b hab => congrArg Prod.fst hab
  refine rounds_of_sublist (sublist_order (h.map (echo p q)) hsize)
    (hperm.nodup_iff.mpr hnodup) (fun a ha => ?_) s
  obtain ⟨name, -, rfl⟩ := List.mem_map.mp (hperm.mem_iff.mp ha)
  by_cases hkept : name ∈ [x, y]
  · exact .inl (List.mem_map_of_mem hkept)
  · have hne : name ≠ p := fun heq => hkept (heq ▸ hp)
    have hne' : name ≠ q := fun heq => hkept (heq ▸ hq)
    simp [echo, hne, hne']

/-- The placeholder that a value brings in is filled in too. -/
theorem interpolate_echo (hnames : names.Nodup) (h : [p, q].Sublist names)
    (hsize : q.utf8ByteSize ≤ p.utf8ByteSize) :
    interpolate (":" ++ p) (names.map (echo p q)) = "" := by
  have hne : p ≠ q := List.pairwise_pair.mp (hnames.sublist h)
  have hkept := rounds_order_echo (p := p) (q := q) hnames h hsize (by simp) (by simp)
  have hself {name : String} (value : List Char) :
      Chars.replace (':' :: name.toList) value (':' :: name.toList) = value :=
    Chars.replace_self (List.cons_ne_nil ':' _) value
  rw [interpolate_eq, hkept]
  simp [rounds, echo, hne.symm, hself]

/-- Unless its turn is over. -/
theorem interpolate_echo_of_swap (hnames : names.Nodup) (h : [q, p].Sublist names)
    (hsize : p.utf8ByteSize = q.utf8ByteSize) :
    interpolate (":" ++ p) (names.map (echo p q)) = ":" ++ q := by
  have hne : q ≠ p := List.pairwise_pair.mp (hnames.sublist h)
  have hkept := rounds_order_echo (p := p) (q := q) hnames h hsize.le (by simp) (by simp)
  have hself (value : List Char) :
      Chars.replace (':' :: p.toList) value (':' :: p.toList) = value :=
    Chars.replace_self (List.cons_ne_nil ':' _) value
  have hnot : ¬ (':' :: q.toList <:+: ':' :: p.toList) := by
    intro hinfix
    have heq := Text.eq_of_infix (p := ":" ++ p) (q := ":" ++ q) (by simpa using hinfix)
      (by simp [hsize])
    exact hne (by simpa using heq)
  rw [interpolate_eq, hkept]
  simp [rounds, echo, hne, Chars.replace_of_not_infix hnot, hself]

theorem substitute_echo (hnames : names.Nodup) (hp : p ∈ names) (q : String) :
    substitute (":" ++ p) (names.map (echo p q)) = ":" ++ q := by
  have hnodup : ((names.map (echo p q)).map Prod.fst).Nodup := by rwa [map_fst_map_echo]
  have hlongest : longest? (names.map (echo p q)) p.toList = some (echo p q p) := by
    refine (longest?_eq_some_iff hnodup).mpr ⟨?_, ?_, fun b _ hb => hb.length_le⟩
    · exact List.mem_map_of_mem hp
    · exact List.prefix_refl _
  have htext : (":" ++ p).toList = ':' :: p.toList := by simp
  rw [substitute, htext, passFrom_colon_of_some hlongest]
  simp [echo, passFrom]

/-- Two names are enough to tell the two ways of filling in apart. -/
theorem exists_interpolate_ne_substitute (hnames : names.Nodup) (h : 1 < names.length) :
    ∃ args : Args, (args.map Prod.fst).Perm names ∧
      ∃ template, interpolate template args ≠ substitute template args := by
  have hpair (p q : String) (rest : List String) (hperm : (p :: q :: rest).Perm names)
      (hsize : q.utf8ByteSize ≤ p.utf8ByteSize) : ∃ args : Args, (args.map Prod.fst).Perm names ∧
        ∃ template, interpolate template args ≠ substitute template args := by
    have hnodup := hperm.nodup_iff.mpr hnames
    refine ⟨(p :: q :: rest).map (echo p q), by rwa [map_fst_map_echo], ":" ++ p, ?_⟩
    rw [interpolate_echo hnodup (by simp) hsize, substitute_echo hnodup (by simp)]
    simp
  match names, h with
  | p :: q :: rest, _ =>
      rcases Nat.le_total q.utf8ByteSize p.utf8ByteSize with hsize | hsize
      · exact hpair p q rest (.refl _) hsize
      · exact hpair q p rest (.swap p q rest) hsize

/-- Two names of one size are enough for the order of the arguments to be felt. -/
theorem exists_interpolate_ne (hnames : names.Nodup)
    (h : ¬ (names.map String.utf8ByteSize).Nodup) :
    ∃ args args' : Args, (args.map Prod.fst).Perm names ∧ args.Perm args' ∧
      ∃ template, interpolate template args ≠ interpolate template args' := by
  rw [List.Nodup, List.pairwise_map, List.pairwise_iff_forall_sublist] at h
  push Not at h
  obtain ⟨p, q, hsub, hsize⟩ := h
  obtain ⟨rest, hperm⟩ := hsub.exists_perm_append
  have hnodup : (p :: q :: rest).Nodup := hperm.nodup_iff.mp hnames
  have hswap : (p :: q :: rest).Perm (q :: p :: rest) := .swap q p rest
  refine ⟨(p :: q :: rest).map (echo p q), (q :: p :: rest).map (echo p q), ?_, hswap.map _,
    ":" ++ p, ?_⟩
  · rw [map_fst_map_echo]
    exact hperm.symm
  · rw [interpolate_echo hnodup (by simp) hsize.ge,
      interpolate_echo_of_swap (hswap.nodup_iff.mp hnodup) (by simp) hsize]
    simp

/-! ## When both agree -/

/-- Both ways of filling in, over arguments with given distinct names: the pass never depends on the
order of the arguments, and it is what filling in gives where the template and the values leave no
doubt. For every template and all values that is so exactly if there is at most one name, and
filling in keeps from depending on the order exactly if no two names are of one size. -/
theorem interpolate_substitutes (names : List String) (hnames : names.Nodup) :
    (∀ args : Args, (args.map Prod.fst).Perm names → ∀ template,
      (∀ args', args.Perm args' → substitute template args = substitute template args') ∧
      (Fills template args → interpolate template args = substitute template args)) ∧
    ((∀ args : Args, (args.map Prod.fst).Perm names → ∀ template,
      interpolate template args = substitute template args) ↔ names.length ≤ 1) ∧
    ((∀ args args' : Args, (args.map Prod.fst).Perm names → args.Perm args' → ∀ template,
      interpolate template args = interpolate template args') ↔
        (names.map String.utf8ByteSize).Nodup) := by
  refine ⟨fun args hargs template => ?pass, ⟨fun hsame => ?few, fun hfew => ?exact⟩,
    ⟨fun hsame => ?sizes, fun hsizes => ?stable⟩⟩
  case pass =>
    have hnodup := hargs.nodup_iff.mpr hnames
    exact ⟨fun args' h => substitute_perm hnodup h template, interpolate_eq_of_fills hnodup⟩
  case few =>
    by_contra hmany
    obtain ⟨args, hargs, template, hne⟩ :=
      exists_interpolate_ne_substitute hnames (not_le.mp hmany)
    exact hne (hsame args hargs template)
  case exact =>
    intro args hargs template
    refine interpolate_eq_of_length_le_one ?_ template
    rwa [← List.length_map Prod.fst, hargs.length_eq]
  case sizes =>
    by_contra hrepeated
    obtain ⟨args, args', hargs, h, template, hne⟩ := exists_interpolate_ne hnames hrepeated
    exact hne (hsame args args' hargs h template)
  case stable =>
    intro args args' hargs h template
    have hnodup : ((args.map Prod.fst).map String.utf8ByteSize).Nodup :=
      (hargs.map _).nodup_iff.mpr hsizes
    rw [List.map_map] at hnodup
    rw [interpolate_eq, interpolate_eq, order_eq_of_perm hnodup h]

/-- A name that starts another one leaves it whole. -/
theorem interpolate_id_of_identity :
    ["id", "identity"].Nodup ∧ Fills ":id of :identity" [("id", "1"), ("identity", "user")] ∧
      interpolate ":id of :identity" [("id", "1"), ("identity", "user")] = "1 of user" ∧
      interpolate ":id of :identity" [("identity", "user"), ("id", "1")] = "1 of user" := by
  have hnames : ["id", "identity"].Nodup := by decide
  have hvalues : ∀ a ∈ [("id", "1"), ("identity", "user")], ':' ∉ a.2.toList := by decide
  have hfills : Fills ":id of :identity" [("id", "1"), ("identity", "user")] :=
    ⟨by decide, fun a ha => hvalues a ((order_perm _).mem_iff.mp (List.mem_of_mem_dropLast ha))⟩
  have hmain := interpolate_substitutes ["id", "identity"] hnames
  have hfilled := (hmain.1 [("id", "1"), ("identity", "user")] (.refl _) _).2 hfills
  have hswap := hmain.2.2.mpr (by decide) [("id", "1"), ("identity", "user")] _ (.refl _)
    (.swap _ _ _) ":id of :identity"
  have hpass : substitute ":id of :identity" [("id", "1"), ("identity", "user")] = "1 of user" := by
    decide +kernel
  exact ⟨hnames, hfills, hfilled.trans hpass, hswap.symm.trans (hfilled.trans hpass)⟩

/-- A value that looks like a placeholder is filled in, if its name comes later, and names of one
size come in the order of the arguments. -/
theorem interpolate_ne_substitute :
    interpolate "hello :name" [("name", ":id"), ("id", "7")] = "hello 7" ∧
      substitute "hello :name" [("name", ":id"), ("id", "7")] = "hello :id" ∧
      interpolate ":a" [("a", ":b"), ("b", "2")] = "2" ∧
      interpolate ":a" [("b", "2"), ("a", ":b")] = ":b" := by
  rw [interpolate_eq, interpolate_eq, interpolate_eq, order_eq_self (by decide),
    order_eq_self (by decide), order_eq_self (by decide)]
  decide +kernel

end EntityRest.Locale
