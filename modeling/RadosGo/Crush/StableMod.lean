import RadosGo.Library.StableResidue
import RadosGo.Crush.Hash

namespace RadosGo

/-- The highest bit is clear. -/
theorem and_highest_eq_zero (value : UInt32) : value &&& 0x80000000 = 0 ↔ value.toNat < 2 ^ 31 := by
  have bound := value.toNat_lt
  rw [← UInt32.toNat_inj, UInt32.toNat_and]
  have highest : UInt32.toNat 0x80000000 = 2 ^ 31 := rfl
  rw [highest, Nat.and_two_pow]
  cases top : value.toNat.testBit 31 with
  | false =>
    rw [Nat.testBit_eq_decide_div_mod_eq, decide_eq_false_iff_not] at top
    simp only [Bool.toNat_false, Nat.zero_mul, UInt32.toNat_zero, true_iff]
    omega
  | true =>
    rw [Nat.testBit_eq_decide_div_mod_eq, decide_eq_true_iff] at top
    simp only [Bool.toNat_true, Nat.one_mul, UInt32.toNat_zero]
    omega

variable {bits : Nat} {value count larger : UInt32}

/-- A value that is shifted to the left by the bits which have been counted. -/
theorem leadingZeros_add_size {significant : Nat} (narrow : bits ≤ 32) (below : significant < 2 ^ bits)
    (shifted : value.toNat = significant * 2 ^ (32 - bits)) : leadingZeros bits value + significant.size = bits := by
  induction bits generalizing value with
  | zero =>
    have zero : significant = 0 := by simpa using below
    rw [zero]
    rfl
  | succ bits ih =>
    have split : 2 ^ 31 = 2 ^ bits * 2 ^ (31 - bits) := by rw [← Nat.pow_add, Nat.add_sub_cancel' (by omega)]
    have positive : 0 < 2 ^ (31 - bits) := Nat.two_pow_pos _
    have width : 32 - (bits + 1) = 31 - bits := by omega
    rw [width] at shifted
    have highest : value.toNat < 2 ^ 31 ↔ significant < 2 ^ bits := by
      rw [shifted, split]
      exact Nat.mul_lt_mul_right positive
    by_cases clear : significant < 2 ^ bits
    · have doubled : (value <<< 1).toNat = significant * 2 ^ (32 - bits) := by
        have wider : 32 - bits = 31 - bits + 1 := by omega
        have fits : value.toNat * 2 < 2 ^ 32 := by
          have := highest.mpr clear
          omega
        rw [UInt32.toNat_shiftLeft, UInt32.toNat_one, Nat.mod_eq_of_lt (by decide : 1 < 32), Nat.shiftLeft_eq,
          Nat.pow_one, Nat.mod_eq_of_lt fits, shifted, wider, Nat.pow_succ, Nat.mul_assoc]
      have counted := ih (by omega) clear doubled
      rw [leadingZeros, if_pos ((and_highest_eq_zero value).mpr (highest.mpr clear))]
      omega
    · have full : significant.size = bits + 1 :=
        Nat.le_antisymm (Nat.size_le.mpr below) (Nat.lt_size.mpr (Nat.le_of_not_lt clear))
      rw [leadingZeros, if_neg fun zero => clear (highest.mp ((and_highest_eq_zero value).mp zero)), full,
        Nat.zero_add]

theorem leadingZeros32_eq (value : UInt32) : 32 - leadingZeros32 value = value.toNat.size := by
  have counted := leadingZeros_add_size le_rfl value.toNat_lt (by simp : value.toNat = value.toNat * 2 ^ (32 - 32))
  rw [leadingZeros32]
  omega

theorem toNat_mask (narrow : bits ≤ 32) : (UInt32.ofNat (2 ^ bits) - 1).toNat = 2 ^ bits - 1 := by
  have positive : 0 < 2 ^ bits := Nat.two_pow_pos bits
  rw [UInt32.toNat_sub, UInt32.toNat_ofNat', UInt32.toNat_one]
  rcases narrow.lt_or_eq with less | rfl
  · have fits : 2 ^ bits < 2 ^ 32 := Nat.pow_lt_pow_right (by decide) less
    omega
  · rfl

theorem toNat_halfMask (narrow : bits ≤ 32) : ((UInt32.ofNat (2 ^ bits) - 1) >>> 1).toNat = 2 ^ (bits - 1) - 1 := by
  rw [UInt32.toNat_shiftRight, toNat_mask narrow, UInt32.toNat_one, Nat.mod_eq_of_lt (by decide : 1 < 32),
    Nat.shiftRight_eq_div_pow]
  cases bits with
  | zero => rfl
  | succ bits =>
    rw [Nat.add_sub_cancel, Nat.pow_succ]
    omega

theorem toNat_stableMod (value count : UInt32) (positive : 0 < count) :
    (stableMod value count).toNat = stableResidue value.toNat count.toNat := by
  have nonzero : count ≠ 0 := fun zero => absurd positive (by rw [zero]; decide)
  have one : 1 ≤ count.toNat := UInt32.lt_iff_toNat_lt.mp positive
  have less : (count - 1).toNat = count.toNat - 1 := UInt32.toNat_sub_of_le _ _ one
  have narrow : (count.toNat - 1).size ≤ 32 := Nat.size_le.mpr (by have := count.toNat_lt; omega)
  simp only [stableMod, if_neg nonzero, leadingZeros32_eq, less, stableResidue, UInt32.lt_iff_toNat_lt,
    UInt32.toNat_and, toNat_mask narrow, Nat.and_two_pow_sub_one_eq_mod]
  split
  · rw [UInt32.toNat_and, toNat_mask narrow, Nat.and_two_pow_sub_one_eq_mod]
  · rw [UInt32.toNat_and, toNat_halfMask narrow, Nat.and_two_pow_sub_one_eq_mod]

theorem stableMod_lt (positive : 0 < count) : stableMod value count < count := by
  rw [UInt32.lt_iff_toNat_lt, toNat_stableMod value count positive]
  exact stableResidue_lt (UInt32.lt_iff_toNat_lt.mp positive)

theorem stableMod_stableMod (positive : 0 < count) (grows : count ≤ larger) :
    stableMod (stableMod value larger) count = stableMod value count := by
  rw [← UInt32.toNat_inj, toNat_stableMod _ _ positive, toNat_stableMod _ _ positive,
    toNat_stableMod _ _ (UInt32.lt_of_lt_of_le positive grows)]
  exact stableResidue_stableResidue (UInt32.lt_iff_toNat_lt.mp positive) grows

theorem stableMod_eq_or_le (positive : 0 < count) (grows : count ≤ larger) :
    stableMod value larger = stableMod value count ∨ count ≤ stableMod value larger := by
  rw [← UInt32.toNat_inj, UInt32.le_iff_toNat_le, toNat_stableMod _ _ positive,
    toNat_stableMod _ _ (UInt32.lt_of_lt_of_le positive grows)]
  exact stableResidue_eq_or_le (UInt32.lt_iff_toNat_lt.mp positive) grows

end RadosGo
