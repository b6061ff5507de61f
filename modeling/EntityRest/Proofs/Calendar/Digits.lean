import EntityRest.Calendar.Reader
import EntityRest.Proofs.Number.Integer
import EntityRest.Proofs.Text.Pieces
import Mathlib

/-! # Runs of digits in dates and times

A number that is padded to a width is read back by each of the readers of digits, whatever follows
it in the text, as long as a reader that takes fewer digits than there may be is stopped by what
follows. -/

namespace EntityRest

namespace Decimal

theorem ofDigits_eq (cs : List Char) : ofDigits cs = Nat.ofDigitChars 10 cs 0 := by
  rw [ofDigits, Nat.ofDigitChars_eq_foldl]
  congr 1
  funext n c
  rw [digitValue, Nat.mul_comm]
  rfl

theorem range_of_isDigit {c : Char} (h : isDigit c = true) : 48 ≤ c.toNat ∧ c.toNat ≤ 57 := by
  simpa [isDigit, Char.le_def, UInt32.le_iff_toNat_le] using h

theorem not_isBlank_of_isDigit {c : Char} (h : isDigit c = true) : Chars.isBlank c = false := by
  have hrange := range_of_isDigit h
  simp only [Chars.isBlank, Bool.or_eq_false_iff, Bool.and_eq_false_iff, decide_eq_false_iff_not]
  omega

theorem toLower_of_isDigit {c : Char} (h : isDigit c = true) : c.toLower = c := by
  have hletter : ¬ (c.val ≥ 'A'.val ∧ c.val ≤ 'Z'.val) := by
    rintro ⟨hupper, -⟩
    have hdigit : c.toNat ≤ 57 := (range_of_isDigit h).2
    have hlow : 65 ≤ c.toNat := UInt32.le_iff_toNat_le.mp hupper
    omega
  exact dif_neg hletter

end Decimal

namespace Chars

/-- A character that is not blank and is no `n` in either case. -/
def IsSolid (c : Char) : Prop := isBlank c = false ∧ c.toLower ≠ 'n'

instance (c : Char) : Decidable (IsSolid c) := inferInstanceAs (Decidable (_ ∧ _))

/-- A text of such characters, which is trimmed and is not the word `null`. -/
def Solid (s : List Char) : Prop := ∀ c ∈ s, IsSolid c

@[simp]
theorem solid_nil : Solid [] := by simp [Solid]

@[simp]
theorem solid_cons {c : Char} {s : List Char} : Solid (c :: s) ↔ IsSolid c ∧ Solid s := by
  simp [Solid]

@[simp]
theorem solid_append {s t : List Char} : Solid (s ++ t) ↔ Solid s ∧ Solid t := by
  simp [Solid, or_imp, forall_and]

theorem solid_of_isDigit {s : List Char} (h : ∀ c ∈ s, Decimal.isDigit c = true) : Solid s := by
  intro c hc
  refine ⟨Decimal.not_isBlank_of_isDigit (h c hc), ?_⟩
  rw [Decimal.toLower_of_isDigit (h c hc)]
  rintro rfl
  exact absurd (h 'n' hc) (by decide)

theorem Solid.trim {s : List Char} (h : Solid s) : trim s = s :=
  trim_of_tight (tight_of_forall fun c hc => (h c hc).1)

end Chars

open Decimal (isDigit ofDigits)

section Padded

variable {width n : Nat}

theorem isDigit_of_mem_padded {c : Char} (h : c ∈ padded width n) : isDigit c = true := by
  rcases List.mem_append.mp h with hzero | hdigit
  · rw [List.eq_of_mem_replicate hzero]
    decide
  · exact Decimal.isDigit_of_mem_toDigits hdigit

theorem padded_ne_nil (width n : Nat) : padded width n ≠ [] :=
  List.append_ne_nil_of_right_ne_nil _ Nat.toDigits_ne_nil

theorem ofDigits_padded : ofDigits (padded width n) = n := by
  rw [Decimal.ofDigits_eq, padded, Nat.ofDigitChars_append, Nat.ofDigitChars_replicate_zero,
    Nat.mul_zero, Nat.ofDigitChars_ten_toDigits]

theorem length_padded (hwidth : 0 < width) (hn : n < 10 ^ width) :
    (padded width n).length = width := by
  have hle := (Nat.length_toDigits_le_iff (by decide) hwidth).mpr hn
  rw [padded, List.length_append, List.length_replicate]
  exact Nat.sub_add_cancel hle

theorem exists_padded_eq_cons (width n : Nat) :
    ∃ c cs, padded width n = c :: cs ∧ isDigit c = true := by
  obtain ⟨c, cs, hcons⟩ := List.exists_cons_of_ne_nil (padded_ne_nil width n)
  exact ⟨c, cs, hcons, isDigit_of_mem_padded (hcons ▸ List.mem_cons_self)⟩

@[simp]
theorem solid_padded : Chars.Solid (padded width n) :=
  Chars.solid_of_isDigit fun _ => isDigit_of_mem_padded

theorem trimLeft_padded_append (rest : List Char) :
    Chars.trimLeft (padded width n ++ rest) = padded width n ++ rest := by
  obtain ⟨c, cs, hcons, hc⟩ := exists_padded_eq_cons width n
  rw [hcons, List.cons_append, Chars.trimLeft,
    List.dropWhile_cons_of_neg (by simp [Decimal.not_isBlank_of_isDigit hc])]

end Padded

namespace Calendar

variable {width n : Nat} {rest : List Char}

/-- What follows the digits of a number does not go on with them. -/
def Stops (rest : List Char) : Prop := ∀ c ∈ rest.head?, isDigit c = false

theorem stops_nil : Stops [] := by simp [Stops]

theorem stops_cons {c : Char} : Stops (c :: rest) ↔ isDigit c = false := by simp [Stops]

theorem takeWhile_of_stops (h : Stops rest) : rest.takeWhile isDigit = [] := by
  cases rest with
  | nil => rfl
  | cons c rest => rw [List.takeWhile_cons_of_neg (by simp [stops_cons.mp h])]

theorem dropWhile_of_stops (h : Stops rest) : rest.dropWhile isDigit = rest := by
  cases rest with
  | nil => rfl
  | cons c rest => rw [List.dropWhile_cons_of_neg (by simp [stops_cons.mp h])]

theorem readNat?_of_take_eq {limit : Nat}
    (h : (padded width n ++ rest.takeWhile isDigit).take limit = padded width n) :
    readNat? limit (padded width n ++ rest) = some (n, rest) := by
  rw [readNat?, List.takeWhile_append_of_pos fun _ => isDigit_of_mem_padded, h]
  simp [padded_ne_nil, ofDigits_padded]

theorem readNat?_padded (hwidth : 0 < width) (hn : n < 10 ^ width) :
    readNat? width (padded width n ++ rest) = some (n, rest) := by
  apply readNat?_of_take_eq
  rw [List.take_append_of_le_length (length_padded hwidth hn).ge,
    List.take_of_length_le (length_padded hwidth hn).le]

/-- A number of at most that many digits ends where the digits do. -/
theorem readNat?_padded_of_stops {limit : Nat} (hlimit : (padded width n).length ≤ limit)
    (hrest : Stops rest) : readNat? limit (padded width n ++ rest) = some (n, rest) := by
  apply readNat?_of_take_eq
  rw [takeWhile_of_stops hrest, List.append_nil, List.take_of_length_le hlimit]

theorem readNat?_of_stops {limit : Nat} (hrest : Stops rest) : readNat? limit rest = none := by
  rw [readNat?, takeWhile_of_stops hrest, List.take_nil]
  rfl

theorem exactly?_padded (hwidth : 0 < width) (hn : n < 10 ^ width) :
    exactly? width (padded width n ++ rest) = some (n, rest) := by
  have hlength := length_padded hwidth hn
  have htake : (padded width n ++ rest).take width = padded width n := by
    rw [List.take_append_of_le_length hlength.ge, List.take_of_length_le hlength.le]
  have hdrop : (padded width n ++ rest).drop width = rest := by
    rw [List.drop_append_of_le_length hlength.ge, List.drop_of_length_le hlength.le,
      List.nil_append]
  have hall : (padded width n).all isDigit = true :=
    List.all_eq_true.mpr fun _ => isDigit_of_mem_padded
  rw [exactly?, htake, hdrop]
  simp [hlength, hall, ofDigits_padded]

theorem exactly?_of_stops (hwidth : 0 < width) (hrest : Stops rest) :
    exactly? width rest = none := by
  obtain ⟨width, rfl⟩ := Nat.exists_eq_add_of_lt hwidth
  cases rest with
  | nil => simp [exactly?]
  | cons c rest => simp [exactly?, stops_cons.mp hrest]

theorem readNanos?_padded (hwidth : 0 < width) (hnine : width ≤ 9) (hn : n < 10 ^ width)
    (hrest : Stops rest) :
    readNanos? (padded width n ++ rest) = some (n * 10 ^ (9 - width), rest) := by
  have hlength := length_padded hwidth hn
  have htake : (padded width n).take 9 = padded width n :=
    List.take_of_length_le (hlength.trans_le hnine)
  rw [readNanos?, List.takeWhile_append_of_pos fun _ => isDigit_of_mem_padded,
    List.dropWhile_append_of_pos fun _ => isDigit_of_mem_padded, takeWhile_of_stops hrest,
    dropWhile_of_stops hrest, List.append_nil]
  simp [padded_ne_nil, htake, hlength, ofDigits_padded]

end Calendar

end EntityRest
