import EntityRest.Calendar.Reader
import EntityRest.Proofs.Text.Pieces
import Mathlib.Data.List.Count
import Mathlib.Data.List.Forall2

/-! # A text has one form

What a pattern reads is put together from what its items take, so a text that is read by a pattern
has the marks of that pattern: its colons, its letter before the time, no letter for UTC. These
marks tell the five forms of an instant apart. The order in which they are tried does not matter,
and a date is the date of the instant that its text writes. -/

namespace EntityRest

open Decimal (isDigit)

namespace Calendar

variable {item : Item} {items : List Item} {f g : Fields} {s r : List Char} {n : Nat} {c : Char}

/-! ## What the items of a pattern take -/

/-- Blanks, digits, signs and the point, which items take that are no literals. -/
def isFiller (c : Char) : Bool :=
  Chars.isBlank c || isDigit c || c = '-' || c = '+' || c = '.'

/-- The part of a text that an item takes. -/
def Item.Takes : Item → List Char → Prop
  | .literal c, w => w = [c]
  | _, w => ∀ x ∈ w, isFiller x = true

theorem isFiller_of_isDigit (h : isDigit c = true) : isFiller c = true := by simp [isFiller, h]

theorem isFiller_of_isBlank (h : Chars.isBlank c = true) : isFiller c = true := by
  simp [isFiller, h]

theorem exists_of_readNat? {width : Nat} (h : readNat? width s = some (n, r)) :
    ∃ ds, s = ds ++ r ∧ ∀ x ∈ ds, isDigit x = true := by
  simp only [readNat?] at h
  split at h
  · cases h
  · obtain ⟨-, rfl⟩ := Prod.mk.inj (Option.some.inj h)
    refine ⟨(s.takeWhile isDigit).take width, ?_, fun x hx => ?_⟩
    · have hprefix := (List.take_prefix width (s.takeWhile isDigit)).trans
        (List.takeWhile_prefix isDigit)
      exact (List.prefix_append_drop hprefix)
    · exact List.mem_takeWhile_imp (List.mem_of_mem_take hx)

theorem exists_of_readNanos? (h : readNanos? s = some (n, r)) :
    ∃ ds, s = ds ++ r ∧ ∀ x ∈ ds, isDigit x = true := by
  simp only [readNanos?] at h
  split at h
  · cases h
  · obtain ⟨-, rfl⟩ := Prod.mk.inj (Option.some.inj h)
    exact ⟨s.takeWhile isDigit, List.takeWhile_append_dropWhile.symm,
      fun x hx => List.mem_takeWhile_imp hx⟩

theorem exists_of_readYear? {y : Int} (h : readYear? s = some (y, r)) :
    ∃ w, s = w ++ r ∧ ∀ x ∈ w, isFiller x = true := by
  unfold readYear? at h
  split at h
  all_goals
    obtain ⟨⟨n, r'⟩, hread, heq⟩ := Option.map_eq_some_iff.mp h
    obtain ⟨-, rfl⟩ := Prod.mk.inj heq
    obtain ⟨ds, rfl, hds⟩ := exists_of_readNat? hread
    have hfiller : ∀ x ∈ ds, isFiller x = true := fun x hx => isFiller_of_isDigit (hds x hx)
  · exact ⟨'-' :: ds, rfl, List.forall_mem_cons.mpr ⟨by decide, hfiller⟩⟩
  · exact ⟨'+' :: ds, rfl, List.forall_mem_cons.mpr ⟨by decide, hfiller⟩⟩
  · exact ⟨ds, rfl, hfiller⟩

theorem exists_of_trimLeft (h : ∃ w, Chars.trimLeft s = w ++ r ∧ ∀ x ∈ w, isFiller x = true) :
    ∃ w, s = w ++ r ∧ ∀ x ∈ w, isFiller x = true := by
  obtain ⟨w, hw, hfiller⟩ := h
  refine ⟨s.takeWhile Chars.isBlank ++ w, ?_, fun x hx => ?_⟩
  · rw [List.append_assoc, ← hw, Chars.trimLeft, List.takeWhile_append_dropWhile]
  · rcases List.mem_append.mp hx with hblank | hx
    · exact isFiller_of_isBlank (List.mem_takeWhile_imp hblank)
    · exact hfiller x hx

/-- An item takes its part off the front of a text. -/
theorem exists_takes_of_read? (h : item.read? f s = some (g, r)) :
    ∃ w, s = w ++ r ∧ item.Takes w := by
  have hnumber {k : Nat} (hread : readNat? 2 (Chars.trimLeft s) = some (k, r)) :
      ∃ w, s = w ++ r ∧ ∀ x ∈ w, isFiller x = true := by
    obtain ⟨ds, hs, hds⟩ := exists_of_readNat? hread
    exact exists_of_trimLeft ⟨ds, hs, fun x hx => isFiller_of_isDigit (hds x hx)⟩
  cases item with
  | year =>
      obtain ⟨⟨y, r'⟩, hread, heq⟩ := Option.map_eq_some_iff.mp h
      obtain ⟨-, rfl⟩ := Prod.mk.inj heq
      exact exists_of_trimLeft (exists_of_readYear? hread)
  | month | day | hour | minute | second =>
      obtain ⟨⟨k, r'⟩, hread, heq⟩ := Option.map_eq_some_iff.mp h
      obtain ⟨-, rfl⟩ := Prod.mk.inj heq
      exact hnumber hread
  | fraction =>
      simp only [Item.read?] at h
      split at h
      · rename_i t
        obtain ⟨⟨k, r'⟩, hread, heq⟩ := Option.map_eq_some_iff.mp h
        obtain ⟨-, rfl⟩ := Prod.mk.inj heq
        obtain ⟨ds, rfl, hds⟩ := exists_of_readNanos? hread
        exact ⟨'.' :: ds, rfl, List.forall_mem_cons.mpr
          ⟨by decide, fun x hx => isFiller_of_isDigit (hds x hx)⟩⟩
      · obtain ⟨-, rfl⟩ := Prod.mk.inj (Option.some.inj h)
        exact ⟨[], rfl, List.forall_mem_nil _⟩
  | space =>
      obtain ⟨-, rfl⟩ := Prod.mk.inj (Option.some.inj h)
      exact exists_of_trimLeft ⟨[], rfl, List.forall_mem_nil _⟩
  | literal c =>
      simp only [Item.read?] at h
      split at h
      · split at h
        · rename_i heq
          obtain ⟨-, rfl⟩ := Prod.mk.inj (Option.some.inj h)
          exact ⟨[c], by rw [heq, List.singleton_append], rfl⟩
        · cases h
      · cases h

theorem exists_takes_of_readPattern? (h : readPattern? items f s = some g) :
    ∃ parts, s = parts.flatten ∧ List.Forall₂ Item.Takes items parts := by
  induction items generalizing f s with
  | nil =>
      unfold readPattern? at h
      split at h
      · exact ⟨[], by simpa using ‹s.isEmpty = true›, .nil⟩
      · cases h
  | cons item items ih =>
      unfold readPattern? at h
      split at h
      · rename_i f' r hread
        obtain ⟨w, rfl, hw⟩ := exists_takes_of_read? hread
        obtain ⟨parts, rfl, hparts⟩ := ih h
        exact ⟨w :: parts, rfl, .cons hw hparts⟩
      · cases h

theorem count_of_readPattern? (hc : isFiller c = false) (h : readPattern? items f s = some g) :
    s.count c = items.count (.literal c) := by
  obtain ⟨parts, rfl, hparts⟩ := exists_takes_of_readPattern? h
  clear h
  induction hparts with
  | nil => rfl
  | @cons item w items parts hw _ ih =>
      rw [List.flatten_cons, List.count_append, ih, List.count_cons, Nat.add_comm]
      have hfree (hw : ∀ x ∈ w, isFiller x = true) : w.count c = 0 :=
        List.count_eq_zero.mpr fun hmem => Bool.false_ne_true (hc.symm.trans (hw c hmem))
      congr 1
      cases item with
      | literal d =>
          obtain rfl : w = [d] := hw
          simp [List.count_singleton]
      | _ => exact hfree hw

/-! ## The strict form -/

theorem char?_eq_some_iff : char? c s = some r ↔ s = c :: r := by
  cases s with
  | nil => simp [char?]
  | cons d s => simp [char?, eq_comm]

theorem exists_of_exactly? {k : Nat} (h : exactly? k s = some (n, r)) : ∃ w, s = w ++ r := by
  simp only [exactly?] at h
  split at h
  · obtain ⟨-, rfl⟩ := Prod.mk.inj (Option.some.inj h)
    exact ⟨s.take k, (List.take_append_drop k s).symm⟩
  · cases h

/-- An offset is a letter for UTC or has a colon. -/
theorem mem_of_offset? {o : Int} (h : offset? s = some o) : 'Z' ∈ s ∨ 'z' ∈ s ∨ ':' ∈ s := by
  have hcolon {t t₁ t₂ : List Char} {x : Char} {k : Nat} (hhours : exactly? 2 t = some (k, t₁))
      (hchar : char? ':' t₁ = some t₂) : ':' ∈ x :: t := by
    obtain ⟨w, rfl⟩ := exists_of_exactly? hhours
    simp [char?_eq_some_iff.mp hchar]
  unfold offset? at h
  split at h
  · simp
  · simp
  · simp only [Option.bind_eq_bind] at h
    split_ifs at h
    case pos | pos =>
      simp only [Option.bind_some, Option.bind_eq_some_iff, Prod.exists] at h
      obtain ⟨_, _, hhours, _, hchar, -⟩ := h
      exact .inr (.inr (hcolon hhours hchar))
    case neg => cases h
  · cases h

/-- The strict form has a letter for UTC, or one colon more than a time. -/
theorem marks_of_readInternet? {t : Timestamp} (h : readInternet? s = some t) :
    'Z' ∈ s ∨ 'z' ∈ s ∨ 3 ≤ s.count ':' := by
  unfold readInternet? at h
  obtain ⟨⟨_, _⟩, hyear, h⟩ := Option.bind_eq_some_iff.mp h
  obtain ⟨_, hhyphen, h⟩ := Option.bind_eq_some_iff.mp h
  obtain ⟨⟨_, _⟩, hmonth, h⟩ := Option.bind_eq_some_iff.mp h
  obtain ⟨_, hhyphen', h⟩ := Option.bind_eq_some_iff.mp h
  obtain ⟨⟨_, _⟩, hday, h⟩ := Option.bind_eq_some_iff.mp h
  dsimp only at h
  split at h
  case h_2 => cases h
  split at h
  case isFalse => cases h
  obtain ⟨_, hletter, h⟩ := Option.bind_eq_some_iff.mp h
  obtain rfl := Option.some.inj hletter
  obtain ⟨⟨_, _⟩, hhour, h⟩ := Option.bind_eq_some_iff.mp h
  obtain ⟨_, hcolon, h⟩ := Option.bind_eq_some_iff.mp h
  obtain ⟨⟨_, _⟩, hminute, h⟩ := Option.bind_eq_some_iff.mp h
  obtain ⟨_, hcolon', h⟩ := Option.bind_eq_some_iff.mp h
  obtain ⟨⟨_, rest⟩, hsecond, h⟩ := Option.bind_eq_some_iff.mp h
  have hoffset : ∃ w zone o, rest = w ++ zone ∧ offset? zone = some o := by
    dsimp only at h
    split at h
    · obtain ⟨⟨_, zone⟩, hnanos, h⟩ := Option.bind_eq_some_iff.mp h
      obtain ⟨o, hzone, -⟩ := Option.bind_eq_some_iff.mp h
      obtain ⟨ds, rfl, -⟩ := exists_of_readNanos? hnanos
      exact ⟨'.' :: ds, zone, o, rfl, hzone⟩
    · obtain ⟨_, hnone, h⟩ := Option.bind_eq_some_iff.mp h
      obtain rfl := Option.some.inj hnone
      obtain ⟨o, hzone, -⟩ := Option.bind_eq_some_iff.mp h
      exact ⟨[], _, o, rfl, hzone⟩
  obtain ⟨w, zone, o, rfl, hzone⟩ := hoffset
  -- the parts of the text, from the year to the offset
  obtain ⟨year, rfl⟩ := exists_of_exactly? hyear
  obtain rfl := char?_eq_some_iff.mp hhyphen
  obtain ⟨month, rfl⟩ := exists_of_exactly? hmonth
  obtain rfl := char?_eq_some_iff.mp hhyphen'
  obtain ⟨day, rfl⟩ := exists_of_exactly? hday
  obtain ⟨hour, rfl⟩ := exists_of_exactly? hhour
  obtain rfl := char?_eq_some_iff.mp hcolon
  obtain ⟨minute, rfl⟩ := exists_of_exactly? hminute
  obtain rfl := char?_eq_some_iff.mp hcolon'
  obtain ⟨second, rfl⟩ := exists_of_exactly? hsecond
  simp only [List.mem_append, List.mem_cons, List.count_append, List.count_cons]
  rcases mem_of_offset? hzone with hz | hz | hz
  · simp [hz]
  · simp [hz]
  · have hpos := List.count_pos_iff.mpr hz
    simp only [beq_self_eq_true, if_true]
    omega

/-! ## Forms of an instant -/

/-- The instant that a whole text writes by a pattern, in UTC. -/
def readUtc? (pattern : List Item) (s : List Char) : Option Timestamp :=
  (readPattern? pattern {} s).bind Fields.timestamp?

/-- The midnight of the date that a whole text writes. -/
def readMidnight? (s : List Char) : Option Timestamp := (readDate? s).map Timestamp.ofDate

/-- The forms of an instant in the order in which they are tried. -/
def forms : List (List Char → Option Timestamp) :=
  readInternet? :: timestampPatterns.map readUtc? ++ [readMidnight?]

/-- Patterns with different marks do not read the same text. -/
theorem readPattern?_eq_none_of_count {items' : List Item} {f' : Fields} (hc : isFiller c = false)
    (hne : items.count (.literal c) ≠ items'.count (.literal c))
    (h : readPattern? items f s = some g) : readPattern? items' f' s = none := by
  refine Option.eq_none_iff_forall_ne_some.mpr fun g' h' => hne ?_
  rw [← count_of_readPattern? hc h, count_of_readPattern? hc h']

theorem readPattern?_eq_none_of_readInternet? {t : Timestamp} (h : readInternet? s = some t)
    (hitems : items ∈ datePattern :: timestampPatterns) : readPattern? items f s = none := by
  have hmarks : ∀ items ∈ datePattern :: timestampPatterns, items.count (.literal 'Z') = 0 ∧
      items.count (.literal 'z') = 0 ∧ items.count (.literal ':') ≤ 2 := by decide
  obtain ⟨hupper, hlower, hcolon⟩ := hmarks items hitems
  refine Option.eq_none_iff_forall_ne_some.mpr fun g hg => ?_
  rw [← count_of_readPattern? (by decide) hg] at hupper hlower hcolon
  rcases marks_of_readInternet? h with hmem | hmem | hcount
  · exact List.count_eq_zero.mp hupper hmem
  · exact List.count_eq_zero.mp hlower hmem
  · omega

/-- No text has two forms. -/
theorem pairwise_forms : forms.Pairwise fun a b => ∀ s t, a s = some t → b s = none := by
  have htime {p : List Item} {s : List Char} (h : readPattern? p {} s = none) :
      readUtc? p s = none := by rw [readUtc?, h, Option.bind_none]
  have hdate {s : List Char} (h : readPattern? datePattern {} s = none) :
      readMidnight? s = none := by
    rw [readMidnight?, readDate?, h, Option.bind_none, Option.map_none]
  have htimes : timestampPatterns.Pairwise fun p q =>
      p.count (.literal ':') ≠ q.count (.literal ':') ∨
        p.count (.literal 'T') ≠ q.count (.literal 'T') := by decide
  have halone : ∀ p ∈ timestampPatterns,
      p.count (.literal ':') ≠ datePattern.count (.literal ':') := by decide
  rw [forms, List.cons_append, List.pairwise_cons, List.pairwise_append, List.pairwise_map]
  refine ⟨?strict, htimes.imp ?times, List.pairwise_singleton _ _, ?alone⟩
  case strict =>
    intro form hform s t h
    rcases List.mem_append.mp hform with hform | hform
    · obtain ⟨p, hp, rfl⟩ := List.mem_map.mp hform
      exact htime (readPattern?_eq_none_of_readInternet? h (List.mem_cons_of_mem _ hp))
    · obtain rfl := List.mem_singleton.mp hform
      exact hdate (readPattern?_eq_none_of_readInternet? h List.mem_cons_self)
  case times =>
    intro p q hne s t h
    obtain ⟨g, hg, -⟩ := Option.bind_eq_some_iff.mp h
    rcases hne with hne | hne
    · exact htime (readPattern?_eq_none_of_count (by decide) hne hg)
    · exact htime (readPattern?_eq_none_of_count (by decide) hne hg)
  case alone =>
    intro form hform form' hform' s t h
    obtain ⟨p, hp, rfl⟩ := List.mem_map.mp hform
    obtain rfl := List.mem_singleton.mp hform'
    obtain ⟨g, hg, -⟩ := Option.bind_eq_some_iff.mp h
    exact hdate (readPattern?_eq_none_of_count (by decide) (halone p hp) hg)

end Calendar

open Calendar (forms)

theorem Timestamp.ofText?_eq (s : List Char) :
    Timestamp.ofText? s = forms.findSome? fun form => form (Chars.trim s) := by
  have htimes : (Calendar.timestampPatterns.findSome? fun pattern =>
        (Calendar.readPattern? pattern {} (Chars.trim s)).bind Calendar.Fields.timestamp?) =
      (Calendar.timestampPatterns.map Calendar.readUtc?).findSome? fun form =>
        form (Chars.trim s) := by
    rw [List.findSome?_map]
    rfl
  rw [Timestamp.ofText?, forms, List.cons_append, List.findSome?_cons, List.findSome?_append,
    htimes]
  cases Calendar.readInternet? (Chars.trim s) with
  | some t => rfl
  | none =>
      dsimp only
      cases List.findSome? _ (Calendar.timestampPatterns.map Calendar.readUtc?) with
      | some t => rfl
      | none => simp [Calendar.readMidnight?]

/-- An instant is read in whichever form its text has. -/
theorem Timestamp.ofText?_eq_some_iff {s : List Char} {t : Timestamp} :
    Timestamp.ofText? s = some t ↔ ∃ form ∈ forms, form (Chars.trim s) = some t := by
  rw [Timestamp.ofText?_eq, List.findSome?_eq_some_iff]
  constructor
  · rintro ⟨before, form, after, hforms, ht, -⟩
    exact ⟨form, by simp [hforms], ht⟩
  · rintro ⟨form, hform, ht⟩
    obtain ⟨before, after, hforms⟩ := List.append_of_mem hform
    refine ⟨before, form, after, hforms, ht, fun other hother => ?_⟩
    have hpairs := Calendar.pairwise_forms
    rw [hforms, List.pairwise_append] at hpairs
    refine Option.eq_none_iff_forall_ne_some.mpr fun t' ht' => ?_
    have hnone := hpairs.2.2 other hother form List.mem_cons_self _ _ ht'
    rw [ht] at hnone
    cases hnone

/-- A text is read as a date exactly if it is read as an instant, and then the date is that of the
instant in UTC. -/
theorem Date.ofText?_eq_map_date (s : List Char) :
    Date.ofText? s = (Timestamp.ofText? s).map Timestamp.date := by
  have htrim : Chars.trim (Chars.trim s) = Chars.trim s := Chars.trim_of_tight (Chars.tight_trim s)
  have hread : Timestamp.ofText? (Chars.trim s) = Timestamp.ofText? s := by
    rw [Timestamp.ofText?_eq, Timestamp.ofText?_eq, htrim]
  cases hdate : Calendar.readDate? (Chars.trim s) with
  | none => simp only [Date.ofText?, hdate, hread]
  | some d =>
      have hform : Timestamp.ofText? s = some (Timestamp.ofDate d) := by
        refine Timestamp.ofText?_eq_some_iff.mpr ⟨Calendar.readMidnight?, by simp [forms], ?_⟩
        rw [Calendar.readMidnight?, hdate, Option.map_some]
      rw [hform]
      simp only [Date.ofText?, hdate]
      rfl

/-- The offset brings the instant to the next day, and its date with it. -/
example : (Date.ofText? "2024-01-01T23:30:00-01:00".toList).map Date.day = some 2 := by
  decide +kernel

end EntityRest
