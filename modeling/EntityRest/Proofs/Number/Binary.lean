import EntityRest.Number.Binary
import Mathlib.Algebra.Order.Field.Rat
import Mathlib.Data.Nat.Log
import Mathlib.Data.Rat.Cast.CharZero
import Mathlib.Order.Monotone.Basic

/-! # Floats as rational numbers

A finite float is an exact rational number. It is whole where that number is an integer, and then
its whole part is the integer brought into the bounds. An integer too long for the fraction of the
format is rounded, to an integer no smaller than the power of two below it. -/

namespace EntityRest

/-! ## Rounded quotients -/

theorem div_le_roundDiv (num den : Nat) : num / den ≤ roundDiv num den := by
  unfold roundDiv
  dsimp only
  split
  · exact Nat.le_refl _
  · split <;> omega

theorem le_roundDiv {num den m : Nat} (hden : 0 < den) (h : m * den ≤ num) :
    m ≤ roundDiv num den :=
  Nat.le_trans ((Nat.le_div_iff_mul_le hden).mpr h) (div_le_roundDiv num den)

theorem roundDiv_le {num den m : Nat} (hden : 0 < den) (h : num ≤ m * den) :
    roundDiv num den ≤ m := by
  have hq : num / den ≤ m := Nat.div_le_of_le_mul (Nat.mul_comm m den ▸ h)
  unfold roundDiv
  dsimp only
  rcases Nat.lt_or_eq_of_le hq with hlt | heq
  · split
    · exact hq
    · split <;> omega
  · -- The quotient is the bound itself, and nothing is left over.
    have hrest : num % den = 0 := by
      have hsum := Nat.div_add_mod num den
      rw [heq, Nat.mul_comm] at hsum
      omega
    rw [if_pos (by omega)]
    exact hq

namespace BinaryFormat

variable {F : BinaryFormat}

theorem band_pos (F : BinaryFormat) : 0 < Nat.pow 2 F.fraction := Nat.two_pow_pos F.fraction

/-- A rank as a band and a place in it. The place after the last one is the first of the next
band, and has the same value. -/
theorem units_of_band {shift r : Nat} (hlow : Nat.pow 2 F.fraction ≤ r)
    (hhigh : r ≤ 2 * Nat.pow 2 F.fraction) :
    F.units (shift * Nat.pow 2 F.fraction + r) = r * Nat.pow 2 shift := by
  have hband := F.band_pos
  unfold units
  dsimp only
  generalize Nat.pow 2 F.fraction = band at *
  rw [if_neg (by omega)]
  rcases Nat.lt_or_eq_of_le hhigh with hlt | rfl
  · obtain ⟨s, rfl⟩ := Nat.exists_eq_add_of_le hlow
    have hs : s < band := by omega
    have hsplit : shift * band + (band + s) = s + (shift + 1) * band := by
      rw [Nat.add_mul]
      omega
    rw [hsplit, Nat.add_mul_mod_self_right, Nat.add_mul_div_right _ _ hband,
      Nat.mod_eq_of_lt hs, Nat.div_eq_of_lt hs, Nat.zero_add, Nat.add_sub_cancel]
  · have hsplit : shift * band + 2 * band = (shift + 2) * band := (Nat.add_mul _ _ _).symm
    have hpow : Nat.pow 2 (shift + 1) = Nat.pow 2 shift * 2 := rfl
    rw [hsplit, Nat.mul_mod_left, Nat.mul_div_cancel _ hband, Nat.add_zero,
      show shift + 2 - 1 = shift + 1 from rfl, hpow, Nat.mul_comm 2 band, Nat.mul_assoc,
      Nat.mul_comm 2]

theorem units_of_le {rank : Nat} (h : rank ≤ 2 * Nat.pow 2 F.fraction) : F.units rank = rank := by
  rcases Nat.lt_or_ge rank (Nat.pow 2 F.fraction) with hrank | hrank
  · exact if_pos hrank
  · have hfirst : F.units (0 * Nat.pow 2 F.fraction + rank) = rank * Nat.pow 2 0 :=
      units_of_band hrank h
    rwa [Nat.zero_mul, Nat.zero_add, show Nat.pow 2 0 = 1 from rfl, Nat.mul_one] at hfirst

theorem units_lt_units_succ (F : BinaryFormat) (rank : Nat) :
    F.units rank < F.units (rank + 1) := by
  have hband := F.band_pos
  rcases Nat.lt_or_ge rank (Nat.pow 2 F.fraction) with hrank | hrank
  · rw [units_of_le (by omega), units_of_le (by omega)]
    exact Nat.lt_succ_self rank
  · -- The place in the band, which the next rank is at most at the end of.
    obtain ⟨shift, r, rfl, hr, hr'⟩ : ∃ shift r, rank = shift * Nat.pow 2 F.fraction + r ∧
        Nat.pow 2 F.fraction ≤ r ∧ r < 2 * Nat.pow 2 F.fraction := by
      have hq : 1 ≤ rank / Nat.pow 2 F.fraction := (Nat.one_le_div_iff hband).mpr hrank
      have hsum := Nat.div_add_mod' rank (Nat.pow 2 F.fraction)
      have hrest := Nat.mod_lt rank hband
      obtain ⟨shift, hshift⟩ := Nat.exists_eq_add_of_le' hq
      rw [hshift, Nat.succ_mul] at hsum
      exact ⟨shift, Nat.pow 2 F.fraction + rank % Nat.pow 2 F.fraction, by omega, by omega,
        by omega⟩
    rw [Nat.add_assoc, units_of_band hr (Nat.le_of_lt hr'),
      units_of_band (Nat.le_succ_of_le hr) hr']
    exact Nat.mul_lt_mul_of_pos_right (Nat.lt_succ_self r) (Nat.two_pow_pos shift)

/-- Larger ranks stand for larger numbers. -/
theorem units_strictMono (F : BinaryFormat) : StrictMono F.units :=
  strictMono_nat_of_lt_succ F.units_lt_units_succ

end BinaryFormat

namespace Binary

variable {F : BinaryFormat} {low high : Int}

/-- The rational number that a finite float is. -/
def value? (x : Binary F) : Option ℚ :=
  x.units?.map fun n : Int => (n : ℚ) / (Nat.pow 2 F.unit : Nat)

theorem unit_pos (F : BinaryFormat) : 0 < Nat.pow 2 F.unit := Nat.two_pow_pos F.unit

theorem value?_eq_some_int_iff {x : Binary F} {k : Int} :
    x.value? = some (k : ℚ) ↔ x.units? = some (k * (Nat.pow 2 F.unit : Nat)) := by
  have hunit : ((Nat.pow 2 F.unit : Nat) : ℚ) ≠ 0 := Nat.cast_ne_zero.mpr (unit_pos F).ne'
  rw [value?, Option.map_eq_some_iff]
  constructor
  · rintro ⟨n, hn, hk⟩
    rw [div_eq_iff hunit] at hk
    rw [hn]
    exact congrArg some (by exact_mod_cast hk)
  · intro h
    refine ⟨_, h, ?_⟩
    rw [div_eq_iff hunit]
    push_cast
    rfl

/-- A float has no part after the point exactly if it is an integer. -/
theorem isWhole_iff {x : Binary F} : x.isWhole = true ↔ ∃ k : Int, x.value? = some (k : ℚ) := by
  simp only [value?_eq_some_int_iff]
  unfold isWhole
  split
  case h_1 n hn =>
    simp only [decide_eq_true_eq, hn, Option.some.injEq]
    rw [← Int.dvd_iff_emod_eq_zero, dvd_iff_exists_eq_mul_left]
  case h_2 hn => simp [hn]

theorem isWhole_eq_false_iff {x : Binary F} :
    x.isWhole = false ↔ ∀ k : Int, x.value? ≠ some (k : ℚ) := by
  rw [← Bool.not_eq_true, isWhole_iff, not_exists]

/-- The whole part of an integer is the integer, brought into the bounds. -/
theorem truncate_of_value? {x : Binary F} {k : Int} (h : x.value? = some (k : ℚ)) :
    x.truncate low high = max low (min high k) := by
  have hunit := unit_pos F
  rw [value?_eq_some_int_iff] at h
  cases x with
  | nan s => cases h
  | inf s => cases h
  | finite s rank =>
      have hn := Option.some.inj h
      unfold truncate
      dsimp only at hn ⊢
      generalize F.units rank = n at hn ⊢
      generalize Nat.pow 2 F.unit = unit at hn hunit ⊢
      have hunit' : (unit : Int) ≠ 0 := by omega
      cases s with
      | false =>
          have hdiv : ((n / unit : Nat) : Int) = k := by
            rw [Int.natCast_ediv, show (n : Int) = k * unit from hn, Int.mul_ediv_cancel _ hunit']
          simp [hdiv]
      | true =>
          have hneg : (n : Int) = -k * unit := by
            rw [Int.neg_mul, ← show -(n : Int) = k * unit from hn, Int.neg_neg]
          have hdiv : ((n / unit : Nat) : Int) = -k := by
            rw [Int.natCast_ediv, hneg, Int.mul_ediv_cancel _ hunit']
          simp [hdiv]

/-- Between integers the magnitudes are in the order of the values. -/
theorem abs_lt_iff {x y : Binary F} {k n : Int} (hx : x.value? = some (k : ℚ))
    (hy : y.value? = some (n : ℚ)) : x.abs.lt y = true ↔ -n < k ∧ k < n := by
  have hunit : (0 : Int) < (Nat.pow 2 F.unit : Nat) := Int.natCast_pos.mpr (unit_pos F)
  rw [value?_eq_some_int_iff] at hx hy
  generalize ((Nat.pow 2 F.unit : Nat) : Int) = unit at hunit hx hy
  have hscaled : -n < k ∧ k < n ↔ -(n * unit) < k * unit ∧ k * unit < n * unit := by
    rw [← Int.neg_mul, Int.mul_lt_mul_right hunit, Int.mul_lt_mul_right hunit]
  cases x with
  | nan s => cases hx
  | inf s => cases hx
  | finite s a =>
    cases y with
    | nan t => cases hy
    | inf t => cases hy
    | finite t b =>
      have hranks : F.units a < F.units b ↔ a.val < b.val := F.units_strictMono.lt_iff_lt
      rw [hscaled, ← Option.some.inj hx, ← Option.some.inj hy]
      unfold abs lt place?
      cases s <;> cases t <;> simp <;> omega

/-- The rank of an integer that fills the fraction: the band of its highest bit in units, and a
place in it. -/
theorem rankOfRatio_one {n : Nat} (h : 2 ^ F.fraction ≤ n) :
    ∃ shift r, (n * Nat.pow 2 F.unit).log2 = F.fraction + shift ∧
      rankOfRatio F n 1 = shift * Nat.pow 2 F.fraction + r ∧
      Nat.pow 2 F.fraction ≤ r ∧ r ≤ 2 * Nat.pow 2 F.fraction := by
  have hle : 2 ^ F.fraction ≤ n * Nat.pow 2 F.unit :=
    Nat.le_trans h (Nat.le_mul_of_pos_right n (unit_pos F))
  have hrank : rankOfRatio F n 1 =
      ((n * Nat.pow 2 F.unit).log2 - F.fraction) * Nat.pow 2 F.fraction +
        roundDiv (n * Nat.pow 2 F.unit)
          (Nat.pow 2 ((n * Nat.pow 2 F.unit).log2 - F.fraction)) := by
    unfold rankOfRatio
    dsimp only
    rw [Nat.div_one, Nat.one_mul]
  generalize n * Nat.pow 2 F.unit = w at hle hrank ⊢
  have hne : w ≠ 0 := (Nat.lt_of_lt_of_le (Nat.two_pow_pos F.fraction) hle).ne'
  have hlog : F.fraction ≤ w.log2 := (Nat.le_log2 hne).mpr hle
  obtain ⟨shift, hshift⟩ := Nat.exists_eq_add_of_le hlog
  have hlow : 2 ^ (F.fraction + shift) ≤ w := hshift ▸ Nat.log2_self_le hne
  have hhigh : w < 2 ^ (F.fraction + shift + 1) := hshift ▸ Nat.lt_log2_self
  rw [hshift, Nat.add_sub_cancel_left] at hrank
  refine ⟨shift, _, hshift, hrank, le_roundDiv (Nat.two_pow_pos shift) ?_,
    roundDiv_le (Nat.two_pow_pos shift) ?_⟩
  · rwa [Nat.pow_add] at hlow
  · rw [Nat.add_right_comm, Nat.pow_add, Nat.pow_succ, Nat.mul_comm _ 2] at hhigh
    exact Nat.le_of_lt hhigh

/-- An integer that fills the fraction of the format is rounded to an integer, which stays above
every power of two that is no larger. -/
theorem exists_value?_ofInt {n a b : Nat} (hfraction : F.fraction ≤ a) (hlow : 2 ^ a ≤ n)
    (hhigh : n < 2 ^ b) (hroom : b + F.unit + 1 < F.bands + F.fraction) :
    ∃ k : Nat, (ofInt n : Binary F).value? = some ((k : Int) : ℚ) ∧ 2 ^ a ≤ k := by
  obtain ⟨shift, r, hlog, hrank, hr, hr'⟩ :=
    rankOfRatio_one (F := F) (Nat.le_trans (Nat.pow_le_pow_right Nat.two_pos hfraction) hlow)
  have hn : 0 < n := Nat.lt_of_lt_of_le (Nat.two_pow_pos a) hlow
  have hne : n * Nat.pow 2 F.unit ≠ 0 := (Nat.mul_pos hn (unit_pos F)).ne'
  have hbit : a + F.unit ≤ F.fraction + shift := by
    rw [← hlog, Nat.le_log2 hne, Nat.pow_add]
    exact Nat.mul_le_mul_right _ hlow
  have hbit' : F.fraction + shift < b + F.unit := by
    rw [← hlog, Nat.log2_lt hne, Nat.pow_add]
    exact Nat.mul_lt_mul_of_pos_right hhigh (unit_pos F)
  have hlimit : rankOfRatio F n 1 < F.limit := by
    calc rankOfRatio F n 1
      _ ≤ shift * Nat.pow 2 F.fraction + 2 * Nat.pow 2 F.fraction :=
          hrank ▸ Nat.add_le_add_left hr' _
      _ = (shift + 2) * Nat.pow 2 F.fraction := (Nat.add_mul _ _ _).symm
      _ < F.bands * Nat.pow 2 F.fraction := Nat.mul_lt_mul_of_pos_right (by omega) F.band_pos
  -- The bits of the value below the unit are zero.
  obtain ⟨t, rfl⟩ : ∃ t, shift = t + F.unit := ⟨shift - F.unit, by omega⟩
  have hunits : F.units (rankOfRatio F n 1) = r * Nat.pow 2 t * Nat.pow 2 F.unit := by
    rw [hrank, BinaryFormat.units_of_band hr hr', Nat.mul_assoc]
    exact congrArg (r * ·) (Nat.pow_add 2 t F.unit)
  refine ⟨r * Nat.pow 2 t, ?_, ?_⟩
  · have hnonneg : ¬ (n : Int) < 0 := Int.not_lt.mpr (Int.natCast_nonneg n)
    rw [value?_eq_some_int_iff, ofInt, ofRatio, Int.natAbs_natCast, ofRank, dif_pos hlimit, units?,
      decide_eq_false hnonneg, hunits]
    exact congrArg some (Int.natCast_mul _ _)
  · calc 2 ^ a
      _ ≤ 2 ^ (F.fraction + t) := Nat.pow_le_pow_right Nat.two_pos (by omega)
      _ = Nat.pow 2 F.fraction * Nat.pow 2 t := Nat.pow_add _ _ _
      _ ≤ r * Nat.pow 2 t := Nat.mul_le_mul_right _ hr

end Binary

end EntityRest
