import EntityRest.Proofs.Calendar.Digits
import EntityRest.Settings.Duration

/-! # The grammar of durations

A duration is the text `0`, or one or more terms behind an optional plus sign, each term a decimal
number and a unit. The reader takes a term off the text in every pass, so it comes to an end without
a bound on the passes; what it accepts is that grammar and, beyond it, the plus sign alone. -/

namespace EntityRest

open Decimal (isDigit)

namespace Duration

variable {s rest t : List Char} {total : Binary64}

/-! ## Numbers -/

/-- A decimal number: digits with at most one point, and at least one digit. -/
def IsDecimal (s : List Char) : Prop :=
  (∀ c ∈ s, isNumberChar c = true) ∧ s.count '.' ≤ 1 ∧ ∃ c ∈ s, isDigit c = true

instance (s : List Char) : Decidable (IsDecimal s) := inferInstanceAs (Decidable (_ ∧ _ ∧ _))

theorem isNumberChar_iff {c : Char} : isNumberChar c = true ↔ isDigit c = true ∨ c = '.' := by
  simp [isNumberChar]

theorem ne_of_isNumberChar {c x : Char} (hx : isNumberChar x = false) (hc : isNumberChar c = true) :
    c ≠ x := by
  rintro rfl
  exact Bool.false_ne_true (hx.symm.trans hc)

theorem isSome_exponent?_iff (h : ∀ c ∈ s, isNumberChar c = true) :
    (Decimal.exponent? s).isSome ↔ s = [] := by
  cases s with
  | nil => simp [Decimal.exponent?]
  | cons c s =>
      have hc := h c List.mem_cons_self
      have hlower : c ≠ 'e' := ne_of_isNumberChar (by decide) hc
      have hupper : c ≠ 'E' := ne_of_isNumberChar (by decide) hc
      simp [Decimal.exponent?, hlower, hupper]

theorem count_point_eq_zero_iff (h : ∀ c ∈ s, isNumberChar c = true) :
    s.count '.' = 0 ↔ ∀ c ∈ s, isDigit c = true := by
  rw [List.count_eq_zero]
  constructor
  · intro hpoint c hc
    exact (isNumberChar_iff.mp (h c hc)).resolve_right fun heq => hpoint (heq ▸ hc)
  · exact fun hdigit hpoint => absurd (hdigit _ hpoint) (by decide)

theorem isNumberChar_of_isDigit {c : Char} (h : isDigit c = true) : isNumberChar c = true :=
  isNumberChar_iff.mpr (.inl h)

theorem isDecimal_of_digits (h : ∀ c ∈ s, isDigit c = true) : IsDecimal s ↔ s ≠ [] := by
  have hchars : ∀ c ∈ s, isNumberChar c = true := fun c hc => isNumberChar_of_isDigit (h c hc)
  have hcount : s.count '.' ≤ 1 := ((count_point_eq_zero_iff hchars).mpr h).trans_le zero_le_one
  constructor
  · rintro ⟨-, -, c, hc, -⟩
    exact List.ne_nil_of_mem hc
  · intro hne
    obtain ⟨c, hc⟩ := List.exists_mem_of_ne_nil s hne
    exact ⟨hchars, hcount, c, hc, h c hc⟩

/-- Behind a point there are digits, some unless there are some before it. -/
theorem isDecimal_of_point (h : ∀ c ∈ s, isDigit c = true) (ht : ∀ c ∈ t, isNumberChar c = true) :
    IsDecimal (s ++ '.' :: t) ↔ (∀ c ∈ t, isDigit c = true) ∧ (s ≠ [] ∨ t ≠ []) := by
  have hs : ∀ c ∈ s, isNumberChar c = true := fun c hc => isNumberChar_of_isDigit (h c hc)
  have hchars : ∀ c ∈ s ++ '.' :: t, isNumberChar c = true :=
    List.forall_mem_append.mpr ⟨hs, List.forall_mem_cons.mpr ⟨rfl, ht⟩⟩
  have hcount : (s ++ '.' :: t).count '.' ≤ 1 ↔ ∀ c ∈ t, isDigit c = true := by
    rw [← count_point_eq_zero_iff ht, List.count_append, (count_point_eq_zero_iff hs).mpr h,
      List.count_cons_self]
    omega
  rw [IsDecimal, hcount]
  constructor
  · rintro ⟨-, hdigits, c, hc, hdigit⟩
    refine ⟨hdigits, ?_⟩
    rcases List.mem_append.mp hc with hc | hc
    · exact .inl (List.ne_nil_of_mem hc)
    · obtain rfl | hc := List.mem_cons.mp hc
      · cases hdigit
      · exact .inr (List.ne_nil_of_mem hc)
  · rintro ⟨hdigits, hne | hne⟩
    · obtain ⟨c, hc⟩ := List.exists_mem_of_ne_nil s hne
      exact ⟨hchars, hdigits, c, List.mem_append_left _ hc, h c hc⟩
    · obtain ⟨c, hc⟩ := List.exists_mem_of_ne_nil t hne
      exact ⟨hchars, hdigits, c, by simp [hc], hdigits c hc⟩

theorem isSome_ofText?_iff (h : ∀ c ∈ s, isNumberChar c = true) :
    (Decimal.ofText? s).isSome ↔ IsDecimal s := by
  have hwhole : ∀ c ∈ s.takeWhile isDigit, isDigit c = true := fun c hc => List.mem_takeWhile_imp hc
  have hsplit : s.takeWhile isDigit ++ s.dropWhile isDigit = s := List.takeWhile_append_dropWhile
  have hhead := List.head?_dropWhile_not isDigit s
  simp only [Decimal.ofText?]
  generalize s.takeWhile isDigit = whole at hwhole hsplit ⊢
  generalize s.dropWhile isDigit = tail at hsplit hhead ⊢
  subst hsplit
  cases tail with
  | nil =>
      rw [List.append_nil, isDecimal_of_digits hwhole]
      simp [Decimal.exponent?]
  | cons x tail =>
      obtain ⟨hx, htail⟩ := List.forall_mem_cons.mp (List.forall_mem_append.mp h).2
      obtain rfl : x = '.' := (isNumberChar_iff.mp hx).resolve_left (Bool.eq_false_iff.mp hhead)
      rw [isDecimal_of_point hwhole htail]
      by_cases hall : ∀ c ∈ tail, isDigit c = true
      · have htake : tail.takeWhile isDigit = tail := List.takeWhile_eq_self_iff.mpr hall
        have hdrop : tail.dropWhile isDigit = [] := List.dropWhile_eq_nil_iff.mpr hall
        rw [and_iff_right hall]
        simp [Decimal.exponent?, htake, hdrop, or_iff_not_imp_left]
      · have hrest := isSome_exponent?_iff fun c hc =>
          htail c ((tail.dropWhile_sublist isDigit).subset hc)
        have hnone : Decimal.exponent? (tail.dropWhile isDigit) = none := by
          rwa [← Option.not_isSome_iff_eq_none, hrest, List.dropWhile_eq_nil_iff]
        simp [hnone, hall]

theorem isSome_read?_iff (h : ∀ c ∈ s, isNumberChar c = true) :
    (Binary.read? s : Option Binary64).isSome ↔ IsDecimal s := by
  have hlower : s.map Char.toLower = s := by
    refine (List.map_congr_left fun c hc => ?_).trans s.map_id
    rcases isNumberChar_iff.mp (h c hc) with hdigit | rfl
    · exact Decimal.toLower_of_isDigit hdigit
    · rfl
  have hsign : Decimal.splitSign s = (false, s) := by
    unfold Decimal.splitSign
    split
    · exact absurd rfl (ne_of_isNumberChar (by decide) (h _ List.mem_cons_self))
    · exact absurd rfl (ne_of_isNumberChar (by decide) (h _ List.mem_cons_self))
    · rfl
  have hword (word : List Char) (c : Char) (hc : c ∈ word) (hletter : isNumberChar c = false) :
      s ≠ word := by
    rintro rfl
    exact ne_of_isNumberChar hletter (h c hc) rfl
  rw [← isSome_ofText?_iff h]
  cases s with
  | nil => rfl
  | cons d ds =>
      have hinf := hword ['i', 'n', 'f'] 'i' (by decide) (by decide)
      have hinfinity := hword ['i', 'n', 'f', 'i', 'n', 'i', 't', 'y'] 'i' (by decide) (by decide)
      have hnan := hword ['n', 'a', 'n'] 'n' (by decide) (by decide)
      simp only [Binary.read?, Binary.read, List.isEmpty_cons, hsign, hlower, hinf, hinfinity, hnan]
      cases Decimal.ofText? (d :: ds) <;> simp [Except.toOption]

/-! ## Terms -/

def unitNames : List (List Char) :=
  [['n', 's'], ['u', 's'], ['µ', 's'], ['μ', 's'], ['m', 's'], ['s'], ['m'], ['h']]

def IsTerm (t : List Char) : Prop :=
  ∃ number unit, t = number ++ unit ∧ IsDecimal number ∧ unit ∈ unitNames

def IsTerms (s : List Char) : Prop := ∃ ts ≠ [], (∀ t ∈ ts, IsTerm t) ∧ s = ts.flatten

/-- Zero, or terms behind an optional plus sign. -/
def IsDuration (s : List Char) : Prop := s = ['0'] ∨ ∃ t, (s = t ∨ s = '+' :: t) ∧ IsTerms t

theorem isSome_lookup_units_iff {unit : List Char} :
    (units.lookup unit).isSome ↔ unit ∈ unitNames := by
  have hnames : unitNames = units.map Prod.fst := rfl
  simp [List.lookup_isSome_iff, hnames]

theorem IsTerm.exists_cons (h : IsTerm t) : ∃ c s, t = c :: s ∧ isNumberChar c = true := by
  obtain ⟨number, unit, rfl, ⟨hchars, -, c, hc, -⟩, -⟩ := h
  obtain ⟨d, ds, rfl⟩ := List.exists_cons_of_ne_nil (List.ne_nil_of_mem hc)
  exact ⟨d, ds ++ unit, rfl, hchars d List.mem_cons_self⟩

theorem IsTerms.exists_cons (h : IsTerms s) : ∃ c t, s = c :: t ∧ isNumberChar c = true := by
  obtain ⟨ts, hne, hts, rfl⟩ := h
  obtain ⟨t, ts, rfl⟩ := List.exists_cons_of_ne_nil hne
  obtain ⟨c, t, rfl, hc⟩ := (hts t List.mem_cons_self).exists_cons
  exact ⟨c, t ++ ts.flatten, rfl, hc⟩

/-! ## Passes of the loop -/

/-- One pass: the sum with the first term added, and what stands behind the term. -/
def readTerm? (total : Binary64) (s : List Char) : Option (Binary64 × List Char) :=
  let rest := s.dropWhile isNumberChar
  match (Binary.read? (s.takeWhile isNumberChar) : Option Binary64),
    units.lookup (rest.takeWhile fun c => !isNumberChar c) with
  | some n, some scale =>
    some (total.add (n.mul (.ofInt scale)), rest.dropWhile fun c => !isNumberChar c)
  | _, _ => none

theorem readTerms_cons (fuel : Nat) (total : Binary64) (c : Char) (s : List Char) :
    readTerms (fuel + 1) total (c :: s) =
      (readTerm? total (c :: s)).bind fun (total, rest) => readTerms fuel total rest := by
  simp only [readTerms, readTerm?]
  split <;> simp_all

theorem exists_of_readTerm? {total' : Binary64} (h : readTerm? total s = some (total', rest)) :
    ∃ t, IsTerm t ∧ s = t ++ rest := by
  simp only [readTerm?] at h
  split at h
  · rename_i n scale hnumber hscale
    obtain ⟨-, rfl⟩ := Prod.mk.inj (Option.some.inj h)
    have hdecimal := (isSome_read?_iff fun c hc => List.mem_takeWhile_imp hc).mp
      (Option.isSome_of_eq_some hnumber)
    have hunit := isSome_lookup_units_iff.mp (Option.isSome_of_eq_some hscale)
    refine ⟨_, ⟨_, _, rfl, hdecimal, hunit⟩, ?_⟩
    rw [List.append_assoc, List.takeWhile_append_dropWhile, List.takeWhile_append_dropWhile]
  · cases h

/-- A run of characters ends where another kind of character follows, or nothing. -/
theorem span_append {p : Char → Bool} {run : List Char} (hrun : ∀ c ∈ run, p c = true)
    (hrest : ∀ c ∈ rest.head?, p c = false) :
    (run ++ rest).takeWhile p = run ∧ (run ++ rest).dropWhile p = rest := by
  rw [List.takeWhile_append_of_pos hrun, List.dropWhile_append_of_pos hrun]
  cases rest with
  | nil => simp
  | cons c rest => simp [hrest c rfl]

theorem exists_readTerm? (total : Binary64) (ht : IsTerm t)
    (hrest : ∀ c ∈ rest.head?, isNumberChar c = true) :
    ∃ total', readTerm? total (t ++ rest) = some (total', rest) := by
  obtain ⟨number, unit, rfl, hdecimal, hunit⟩ := ht
  have hletters : ∀ u ∈ unitNames, u ≠ [] ∧ u.all (fun c => !isNumberChar c) = true := by decide
  obtain ⟨hne, hletter⟩ := hletters unit hunit
  have hletter := List.all_eq_true.mp hletter
  have hhead : ∀ c ∈ (unit ++ rest).head?, isNumberChar c = false := by
    intro c hc
    rw [List.head?_append_of_ne_nil unit hne] at hc
    simpa using hletter c (List.mem_of_mem_head? hc)
  obtain ⟨htake, hdrop⟩ := span_append hdecimal.1 hhead
  obtain ⟨htake', hdrop'⟩ := span_append hletter fun c hc => by
    rw [hrest c hc, Bool.not_true]
  obtain ⟨n, hn⟩ := Option.isSome_iff_exists.mp ((isSome_read?_iff hdecimal.1).mpr hdecimal)
  obtain ⟨scale, hscale⟩ := Option.isSome_iff_exists.mp (isSome_lookup_units_iff.mpr hunit)
  refine ⟨total.add (n.mul (.ofInt scale)), ?_⟩
  simp only [readTerm?, List.append_assoc, htake, hdrop, htake', hdrop', hn, hscale]

/-! ## The loop without a bound -/

/-- The loop from a sum and a text: it ends with the sum where nothing is left, and without one
where a pass finds no term. -/
inductive Runs : Binary64 → List Char → Option Binary64 → Prop
  | done (total : Binary64) : Runs total [] (some total)
  | refused {total : Binary64} {s : List Char} (hne : s ≠ []) (h : readTerm? total s = none) :
      Runs total s none
  | pass {total total' : Binary64} {s rest : List Char} {r : Option Binary64} (hne : s ≠ [])
      (h : readTerm? total s = some (total', rest)) (hrest : Runs total' rest r) : Runs total s r

/-- As many passes as characters are enough for the loop to end. -/
theorem runs_readTerms {fuel : Nat} (total : Binary64) (h : s.length ≤ fuel) :
    Runs total s (readTerms fuel total s) := by
  induction fuel generalizing total s with
  | zero =>
      obtain rfl := List.eq_nil_of_length_eq_zero (Nat.le_zero.mp h)
      exact .done total
  | succ fuel ih =>
      cases s with
      | nil => exact .done total
      | cons c s =>
          rw [readTerms_cons]
          cases hterm : readTerm? total (c :: s) with
          | none => exact .refused (List.cons_ne_nil c s) hterm
          | some p =>
              obtain ⟨total', rest⟩ := p
              refine .pass (List.cons_ne_nil c s) hterm (ih total' ?_)
              obtain ⟨t, ht, heq⟩ := exists_of_readTerm? hterm
              obtain ⟨d, ds, rfl, -⟩ := ht.exists_cons
              have hlength := congrArg List.length heq
              simp only [List.length_append, List.length_cons] at hlength h
              omega

theorem Runs.eq {r r' : Option Binary64} (h : Runs total s r) (h' : Runs total s r') : r = r' := by
  induction h with
  | done => cases h' <;> simp_all
  | refused hne h => cases h' <;> simp_all
  | pass hne h _ ih => cases h' <;> simp_all

/-- The loop ends with a sum exactly on texts of terms. -/
theorem Runs.isSome_iff {r : Option Binary64} (h : Runs total s r) :
    r.isSome ↔ ∃ ts : List (List Char), (∀ t ∈ ts, IsTerm t) ∧ s = ts.flatten := by
  have hgoes {ts : List (List Char)} (hts : ∀ t ∈ ts, IsTerm t) :
      ∀ c ∈ ts.flatten.head?, isNumberChar c = true := by
    by_cases hne : ts = []
    · simp [hne]
    · obtain ⟨c, s, heq, hc⟩ := IsTerms.exists_cons ⟨ts, hne, hts, rfl⟩
      simp [heq, hc]
  induction h with
  | done total => exact iff_of_true rfl ⟨[], by simp, rfl⟩
  | @refused total s hne h =>
      refine iff_of_false Bool.false_ne_true ?_
      rintro ⟨ts, hts, rfl⟩
      cases ts with
      | nil => exact hne rfl
      | cons t ts =>
          obtain ⟨ht, hts⟩ := List.forall_mem_cons.mp hts
          obtain ⟨total', hread⟩ := exists_readTerm? total ht (hgoes hts)
          rw [List.flatten_cons, hread] at h
          cases h
  | @pass total total' s rest r hne h hrest ih =>
      refine ih.trans ⟨?_, ?_⟩
      · rintro ⟨ts, hts, rfl⟩
        obtain ⟨t, ht, rfl⟩ := exists_of_readTerm? h
        exact ⟨t :: ts, List.forall_mem_cons.mpr ⟨ht, hts⟩, rfl⟩
      · rintro ⟨ts, hts, rfl⟩
        cases ts with
        | nil => exact absurd rfl hne
        | cons t ts =>
            obtain ⟨ht, hts⟩ := List.forall_mem_cons.mp hts
            obtain ⟨total'', hread⟩ := exists_readTerm? total ht (hgoes hts)
            rw [List.flatten_cons, hread] at h
            obtain ⟨-, rfl⟩ := Prod.mk.inj (Option.some.inj h)
            exact ⟨ts, hts, rfl⟩

/-! ## What is accepted -/

/-- The text behind an optional plus sign. -/
def unsigned : List Char → List Char
  | '+' :: s => s
  | s => s

/-- The span of a sum. -/
def ofSum (total : Binary64) : Duration := ⟨UInt64.ofNat (total.roundNat (UInt64.size - 1))⟩

/-- Reading a duration, with the loop as it runs. -/
inductive Reads : List Char → Option Duration → Prop
  | zero : Reads ['0'] (some ⟨0⟩)
  | empty : Reads [] none
  | terms {s : List Char} {r : Option Binary64} (hzero : s ≠ ['0']) (hne : s ≠ [])
      (h : Runs .zero (unsigned s) r) : Reads s (r.map ofSum)

theorem unsigned_cases (s : List Char) : s = unsigned s ∨ s = '+' :: unsigned s := by
  unfold unsigned
  split
  · exact .inr rfl
  · exact .inl rfl

theorem IsTerms.unsigned_eq (h : IsTerms s) : unsigned s = s := by
  obtain ⟨c, t, rfl, hc⟩ := h.exists_cons
  have hplus : c ≠ '+' := ne_of_isNumberChar (by decide) hc
  simp [unsigned, hplus]

theorem ofText?_eq (hzero : s ≠ ['0']) (hne : s ≠ []) :
    ofText? s = (readTerms (unsigned s).length .zero (unsigned s)).map ofSum := by
  unfold ofText?
  rw [if_neg hzero, if_neg (by simpa using hne)]
  rfl

theorem reads_ofText? (s : List Char) : Reads s (ofText? s) := by
  by_cases hzero : s = ['0']
  · rw [hzero]
    exact .zero
  by_cases hne : s = []
  · rw [hne]
    exact .empty
  · rw [ofText?_eq hzero hne]
    exact .terms hzero hne (runs_readTerms .zero le_rfl)

theorem Reads.eq {r r' : Option Duration} (h : Reads s r) (h' : Reads s r') : r = r' := by
  cases h with
  | zero => cases h' <;> simp_all
  | empty => cases h' <;> simp_all
  | terms hzero hne h =>
      cases h' with
      | zero => exact absurd rfl hzero
      | empty => exact absurd rfl hne
      | terms _ _ h' => rw [h.eq h']

theorem isSome_ofText?_iff_unsigned (hzero : s ≠ ['0']) (hne : s ≠ []) :
    (Duration.ofText? s).isSome ↔ ∃ ts : List (List Char),
      (∀ t ∈ ts, IsTerm t) ∧ unsigned s = ts.flatten := by
  rw [ofText?_eq hzero hne, Option.isSome_map, (runs_readTerms .zero le_rfl).isSome_iff]

/-- Reading a duration comes to an end on every text, with one result. A text is accepted if it is a
duration, or the plus sign alone, which no term needs to follow. -/
theorem reads_iff_and_isSome_iff (s : List Char) :
    (∀ r, Reads s r ↔ ofText? s = r) ∧ ((ofText? s).isSome ↔ IsDuration s ∨ s = ['+']) := by
  refine ⟨fun r => ⟨fun h => (reads_ofText? s).eq h, fun h => h ▸ reads_ofText? s⟩, ?_⟩
  by_cases hzero : s = ['0']
  · exact iff_of_true (by rw [hzero]; rfl) (.inl (.inl hzero))
  by_cases hne : s = []
  · refine iff_of_false (by rw [hne]; exact Bool.false_ne_true) ?_
    rintro ((h | ⟨t, h | h, hterms⟩) | h)
    · exact hzero h
    · obtain ⟨c, s, rfl, -⟩ := hterms.exists_cons
      exact List.cons_ne_nil c s (h.symm.trans hne)
    · exact List.cons_ne_nil '+' t (h.symm.trans hne)
    · exact List.cons_ne_nil '+' [] (h.symm.trans hne)
  rw [isSome_ofText?_iff_unsigned hzero hne]
  constructor
  · rintro ⟨ts, hts, heq⟩
    by_cases hts' : ts = []
    · -- no term at all: the text was the sign
      rw [hts', List.flatten_nil] at heq
      exact .inr ((unsigned_cases s).resolve_left (heq ▸ hne) |>.trans (by rw [heq]))
    · exact .inl (.inr ⟨unsigned s, unsigned_cases s, ts, hts', hts, heq⟩)
  · rintro ((h | ⟨t, h | h, hterms⟩) | h)
    · exact absurd h hzero
    · have hunsigned := hterms.unsigned_eq
      obtain ⟨ts, -, hts, heq⟩ := hterms
      exact ⟨ts, hts, by rw [h, hunsigned, heq]⟩
    · obtain ⟨ts, -, hts, heq⟩ := hterms
      exact ⟨ts, hts, by rw [h, ← heq]; rfl⟩
    · exact ⟨[], List.forall_mem_nil _, by rw [h]; rfl⟩

/-- The plus sign alone is no duration, and is read as one of no length. -/
theorem plus_accepted : ofText? ['+'] = some ⟨0⟩ ∧ ¬ IsDuration ['+'] := by
  refine ⟨by decide +kernel, ?_⟩
  rintro (h | ⟨t, h | h, hterms⟩)
  · exact absurd h (by decide)
  · obtain ⟨c, s, rfl, hc⟩ := hterms.exists_cons
    obtain ⟨rfl, -⟩ := List.cons.inj h
    exact absurd hc (by decide)
  · obtain ⟨c, s, rfl, -⟩ := hterms.exists_cons
    exact List.cons_ne_nil c s (List.cons.inj h).2.symm

end Duration

end EntityRest
