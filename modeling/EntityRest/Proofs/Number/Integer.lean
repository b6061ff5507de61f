import EntityRest.Number.Integer
import Mathlib.Data.Nat.Basic

/-! # Reading the digits of a number

A number is read back from its sign and decimal digits, in every range that it is in. -/

namespace EntityRest

theorem Decimal.isDigit_of_mem_toDigits {n : Nat} {c : Char} (h : c ∈ Nat.toDigits 10 n) :
    isDigit c = true := by
  have hdigit := Nat.isDigit_of_mem_toDigits (by decide) (by decide) h
  simpa [isDigit, Char.isDigit, Char.le_def] using hdigit

namespace IntRange

variable {range : IntRange}

/-- Digits are read until the number leaves the range, and it only grows. -/
theorem readDigits_eq_ok (hlow : range.low ≤ 0) {cs : List Char}
    (hcs : ∀ c ∈ cs, Decimal.isDigit c = true) {n : Nat}
    (hhigh : (Nat.ofDigitChars 10 cs n : Int) ≤ range.high) :
    range.readDigits false n cs = .ok (Nat.ofDigitChars 10 cs n : Int) := by
  induction cs generalizing n with
  | nil => rfl
  | cons c cs ih =>
      obtain ⟨hc, hcs⟩ := List.forall_mem_cons.mp hcs
      rw [Nat.ofDigitChars_cons] at hhigh ⊢
      have hstep : (n : Int) * 10 + (Decimal.digitValue c : Nat) =
          ((10 * n + (c.toNat - '0'.toNat) : Nat) : Int) := by
        have hzero : '0'.toNat = 48 := rfl
        rw [Decimal.digitValue, hzero]
        omega
      have hgrows : 10 * n + (c.toNat - '0'.toNat) ≤
          Nat.ofDigitChars 10 cs (10 * n + (c.toNat - '0'.toNat)) := by
        rw [Nat.ofDigitChars_eq_ofDigitChars_zero]
        exact Nat.le_add_right_of_le (Nat.le_mul_of_pos_left _ (Nat.pow_pos (by decide)))
      rw [readDigits, if_pos hc]
      simp only [Bool.false_eq_true, if_false, hstep]
      rw [if_neg (by omega), if_neg (by omega), ih hcs hhigh]

def Holds (range : IntRange) (n : Int) : Prop := range.low ≤ n ∧ n ≤ range.high

instance (n : Int) : Decidable (range.Holds n) := inferInstanceAs (Decidable (_ ∧ _))

theorem holds_of_readDigits {negative : Bool} {n k : Int} {cs : List Char} (hn : range.Holds n)
    (h : range.readDigits negative n cs = .ok k) : range.Holds k := by
  induction cs generalizing n with
  | nil => exact Except.ok.inj h ▸ hn
  | cons c cs ih =>
      rw [readDigits] at h
      split at h
      · dsimp only at h
        generalize (if negative = true then n * 10 - (Decimal.digitValue c : Int)
          else n * 10 + (Decimal.digitValue c : Int)) = m at h
        split at h
        · cases h
        · rename_i hlow
          split at h
          · cases h
          · rename_i hhigh
            exact ih ⟨Int.not_lt.mp hlow, Int.not_lt.mp hhigh⟩ h
      · cases h

theorem holds_of_read (hzero : range.Holds 0) {cs : List Char} {k : Int}
    (h : range.read cs = .ok k) : range.Holds k := by
  unfold read at h
  split at h
  case h_1 | h_2 | h_3 => cases h
  case h_4 | h_6 => exact holds_of_readDigits hzero h
  case h_5 =>
    split at h
    · exact holds_of_readDigits hzero h
    · cases h

theorem read_cons {c : Char} (hc : Decimal.isDigit c = true) (cs : List Char) :
    range.read (c :: cs) = range.readDigits false 0 (c :: cs) := by
  have hplus : c ≠ '+' := by
    rintro rfl
    cases hc
  have hminus : c ≠ '-' := by
    rintro rfl
    cases hc
  unfold read
  split <;> simp_all

theorem read_toDigits (hlow : range.low ≤ 0) {n : Nat} (hhigh : (n : Int) ≤ range.high) :
    range.read (Nat.toDigits 10 n) = .ok (n : Int) := by
  have hdigits : ∀ c ∈ Nat.toDigits 10 n, Decimal.isDigit c = true :=
    fun c hc => Decimal.isDigit_of_mem_toDigits hc
  obtain ⟨c, cs, hcs⟩ := List.exists_cons_of_ne_nil (Nat.toDigits_ne_nil (n := n) (b := 10))
  have hvalue : Nat.ofDigitChars 10 (c :: cs) 0 = n := hcs ▸ Nat.ofDigitChars_ten_toDigits
  rw [hcs] at hdigits ⊢
  rw [read_cons (hdigits c List.mem_cons_self)]
  exact hvalue ▸ readDigits_eq_ok hlow hdigits (n := 0) (hvalue.symm ▸ hhigh)

/-- The range of the opposite numbers. -/
def mirror (range : IntRange) : IntRange := ⟨-range.high, -range.low⟩

/-- Behind a minus sign the digits count down as they count up in the mirrored range. -/
theorem readDigits_mirror (n k : Int) (cs : List Char) :
    range.readDigits true (-n) cs = .ok (-k) ↔ range.mirror.readDigits false n cs = .ok k := by
  induction cs generalizing n with
  | nil => simp only [readDigits, Except.ok.injEq, Int.neg_inj]
  | cons c cs ih =>
      have hstep : -n * 10 - (Decimal.digitValue c : Int) =
          -(n * 10 + (Decimal.digitValue c : Int)) := by omega
      by_cases hc : Decimal.isDigit c = true
      · rw [readDigits, readDigits, if_pos hc, if_pos hc]
        simp only [if_true, Bool.false_eq_true, if_false, hstep, mirror]
        generalize n * 10 + (Decimal.digitValue c : Int) = m at ih ⊢
        by_cases hlow : -m < range.low
        · rw [if_pos hlow, if_pos (show -range.low < m by omega)]
          split <;> simp
        · rw [if_neg hlow, if_neg (show ¬ -range.low < m by omega)]
          by_cases hhigh : range.high < -m
          · rw [if_pos hhigh, if_pos (show m < -range.high by omega)]
            simp
          · rw [if_neg hhigh, if_neg (show ¬ m < -range.high by omega)]
            exact ih m
      · rw [readDigits, readDigits, if_neg hc, if_neg hc]
        simp

theorem read_neg_toDigits (hhigh : 0 ≤ range.high) {n : Nat} (hlow : range.low ≤ -(n : Int))
    (hbelow : range.low < 0) : range.read ('-' :: Nat.toDigits 10 n) = .ok (-(n : Int)) := by
  obtain ⟨c, cs, hcs⟩ := List.exists_cons_of_ne_nil (Nat.toDigits_ne_nil (n := n) (b := 10))
  have hup : range.mirror.readDigits false 0 (Nat.toDigits 10 n) = .ok (n : Int) := by
    have hvalue : Nat.ofDigitChars 10 (Nat.toDigits 10 n) 0 = n := Nat.ofDigitChars_ten_toDigits
    have hmirror : range.mirror.low ≤ 0 := Int.neg_nonpos_of_nonneg hhigh
    have hbound : (Nat.ofDigitChars 10 (Nat.toDigits 10 n) 0 : Int) ≤ range.mirror.high := by
      rw [hvalue]
      exact Int.le_neg_of_le_neg hlow
    have hread := readDigits_eq_ok hmirror (fun _ => Decimal.isDigit_of_mem_toDigits) hbound
    rwa [hvalue] at hread
  have hdown := (range.readDigits_mirror 0 n _).mpr hup
  rw [hcs] at hdown ⊢
  rw [read]
  · rw [if_pos hbelow]
    exact hdown
  · exact List.cons_ne_nil c cs

end IntRange

theorem toList_toString_int (n : Int) :
    (toString n).toList = if n < 0 then '-' :: Nat.toDigits 10 n.natAbs
      else Nat.toDigits 10 n.natAbs := by
  cases n with
  | ofNat m =>
      rw [if_neg (by simp)]
      simp [Int.repr, Nat.repr_eq_ofList_toDigits]
  | negSucc m =>
      rw [if_pos (Int.negSucc_lt_zero m)]
      simp [Int.repr, Nat.repr_eq_ofList_toDigits]

theorem readInt64?_toString (n : Int64) : readInt64? (toString n.toInt).toList = some n := by
  have hlow : -(2 : Int) ^ 63 ≤ n.toInt := n.le_toInt
  have hhigh : n.toInt < (2 : Int) ^ 63 := n.toInt_lt
  have hread : (IntRange.signed 64).read (toString n.toInt).toList = .ok n.toInt := by
    rw [toList_toString_int]
    split
    case isTrue hneg =>
      have habs : -(n.toInt.natAbs : Int) = n.toInt := by omega
      have h := (IntRange.signed 64).read_neg_toDigits (n := n.toInt.natAbs) (by decide)
        (show -(2 : Int) ^ 63 ≤ _ by omega) (by decide)
      rwa [habs] at h
    case isFalse hneg =>
      have habs : (n.toInt.natAbs : Int) = n.toInt := by omega
      have h := (IntRange.signed 64).read_toDigits (n := n.toInt.natAbs) (by decide)
        (show _ ≤ (2 : Int) ^ 63 - 1 by omega)
      rwa [habs] at h
  rw [readInt64?, hread]
  exact congrArg some (Int64.ofInt_toInt n)

end EntityRest
