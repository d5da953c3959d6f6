import Mathlib

namespace RadosGo

/-- The residue of a value by the power of two which covers the count, or by half of it. -/
def stableResidue (value count : Nat) : Nat :=
  let bits := (count - 1).size
  if value % 2 ^ bits < count then value % 2 ^ bits else value % 2 ^ (bits - 1)

variable {value count larger bits : Nat}

theorem count_le_two_pow (positive : 0 < count) : count ≤ 2 ^ (count - 1).size := by
  have below : count - 1 < 2 ^ (count - 1).size := Nat.size_le.mp le_rfl
  omega

/-- Half of the power is below the count, where there is a half. -/
theorem two_pow_lt_count (positive : 0 < count) (nonzero : (count - 1).size ≠ 0) :
    2 ^ ((count - 1).size - 1) < count := by
  have below : 2 ^ ((count - 1).size - 1) ≤ count - 1 := Nat.lt_size.mp (by omega)
  omega

/-- What does not fit is not covered by the power zero. -/
theorem size_ne_zero_of_le (positive : 0 < count) (outside : count ≤ value % 2 ^ (count - 1).size) :
    (count - 1).size ≠ 0 := by
  intro zero
  rw [zero, pow_zero, Nat.mod_one] at outside
  omega

theorem stableResidue_lt (positive : 0 < count) : stableResidue value count < count := by
  simp only [stableResidue]
  split
  · assumption
  · next outside =>
    have nonzero := size_ne_zero_of_le positive (Nat.le_of_not_lt outside)
    exact (Nat.mod_lt _ (Nat.two_pow_pos _)).trans (two_pow_lt_count positive nonzero)

theorem stableResidue_of_lt (below : value < count) : stableResidue value count = value := by
  have positive : 0 < count := Nat.zero_lt_of_lt below
  have same : value % 2 ^ (count - 1).size = value := Nat.mod_eq_of_lt (below.trans_le (count_le_two_pow positive))
  simp only [stableResidue, same, if_pos below]

/-- A residue by a power which is not smaller has the same stable residue. -/
theorem stableResidue_mod (enough : (count - 1).size ≤ bits) :
    stableResidue (value % 2 ^ bits) count = stableResidue value count := by
  have whole : value % 2 ^ bits % 2 ^ (count - 1).size = value % 2 ^ (count - 1).size :=
    Nat.mod_mod_of_dvd _ (Nat.pow_dvd_pow 2 enough)
  have half : value % 2 ^ bits % 2 ^ ((count - 1).size - 1) = value % 2 ^ ((count - 1).size - 1) :=
    Nat.mod_mod_of_dvd _ (Nat.pow_dvd_pow 2 (by omega))
  simp only [stableResidue, whole, half]

theorem stableResidue_stableResidue (positive : 0 < count) (grows : count ≤ larger) :
    stableResidue (stableResidue value larger) count = stableResidue value count := by
  have sizes : (count - 1).size ≤ (larger - 1).size := Nat.size_le_size (by omega)
  by_cases fits : value % 2 ^ (larger - 1).size < larger
  · have residue : stableResidue value larger = value % 2 ^ (larger - 1).size := if_pos fits
    rw [residue, stableResidue_mod sizes]
  · have residue : stableResidue value larger = value % 2 ^ ((larger - 1).size - 1) := if_neg fits
    rw [residue]
    rcases sizes.lt_or_eq with smaller | same
    · exact stableResidue_mod (by omega)
    -- Both counts are covered by one power: the value fits neither of them.
    · have outside : ¬value % 2 ^ (count - 1).size < count := by
        rw [same]
        omega
      have nonzero := size_ne_zero_of_le positive (Nat.le_of_not_lt outside)
      have halved : stableResidue value count = value % 2 ^ ((count - 1).size - 1) := if_neg outside
      rw [halved, ← same]
      exact stableResidue_of_lt ((Nat.mod_lt _ (Nat.two_pow_pos _)).trans (two_pow_lt_count positive nonzero))

/-- A larger count moves values only behind the smaller one. -/
theorem stableResidue_eq_or_le (positive : 0 < count) (grows : count ≤ larger) :
    stableResidue value larger = stableResidue value count ∨ count ≤ stableResidue value larger := by
  by_cases below : stableResidue value larger < count
  · left
    rw [← stableResidue_stableResidue positive grows, stableResidue_of_lt below]
  · exact .inr (Nat.le_of_not_lt below)

/-- The values of one stable residue are those of one residue by a power of two. -/
theorem stableResidue_eq_iff_mod {seed : Nat} (below : seed < count) :
    ∃ bits ≤ (count - 1).size, seed < 2 ^ bits ∧ ∀ value, stableResidue value count = seed ↔
      value % 2 ^ bits = seed := by
  have positive : 0 < count := Nat.zero_lt_of_lt below
  have covers := count_le_two_pow positive
  have halves := two_pow_lt_count positive
  simp only [stableResidue]
  generalize (count - 1).size = size at covers halves ⊢
  cases size with
  | zero =>
    refine ⟨0, le_rfl, by omega, fun value => ?_⟩
    simp [Nat.mod_one, positive]
  | succ half =>
    have more := halves (Nat.succ_ne_zero half)
    rw [Nat.add_sub_cancel] at more
    rw [Nat.pow_succ] at covers
    have split (value : Nat) : value % (2 ^ half * 2) = value % 2 ^ half ∨
        value % (2 ^ half * 2) = value % 2 ^ half + 2 ^ half := by
      have bound := Nat.mod_lt (value / 2 ^ half) (by decide : 0 < 2)
      rw [Nat.mod_mul]
      rcases (by omega : value / 2 ^ half % 2 = 0 ∨ value / 2 ^ half % 2 = 1) with even | odd
      · exact .inl (by rw [even, Nat.mul_zero, Nat.add_zero])
      · exact .inr (by rw [odd, Nat.mul_one])
    by_cases whole : seed + 2 ^ half < count ∨ 2 ^ half ≤ seed
    · rw [Nat.pow_succ, Nat.add_sub_cancel]
      refine ⟨half + 1, le_rfl, by rw [Nat.pow_succ]; omega, fun value => ?_⟩
      have low := Nat.mod_lt value (Nat.two_pow_pos half)
      have cases := split value
      rw [Nat.pow_succ]
      split <;> omega
    · rw [Nat.pow_succ, Nat.add_sub_cancel]
      refine ⟨half, Nat.le_succ half, by omega, fun value => ?_⟩
      have cases := split value
      split <;> omega

end RadosGo
