import Mathlib

namespace RadosGo

namespace WordOrder

scoped instance uint8LinearOrder : LinearOrder UInt8 where
  le_refl := UInt8.le_refl
  le_trans _ _ _ := UInt8.le_trans
  lt_iff_le_not_ge left right := by
    change left.toNat < right.toNat ↔ left.toNat ≤ right.toNat ∧ ¬right.toNat ≤ left.toNat
    omega
  le_antisymm _ _ := UInt8.le_antisymm
  le_total := UInt8.le_total
  toDecidableLE := inferInstance
  toDecidableEq := inferInstance
  toDecidableLT := inferInstance

scoped instance uint32LinearOrder : LinearOrder UInt32 where
  le_refl := UInt32.le_refl
  le_trans _ _ _ := UInt32.le_trans
  lt_iff_le_not_ge left right := by
    change left.toNat < right.toNat ↔ left.toNat ≤ right.toNat ∧ ¬right.toNat ≤ left.toNat
    omega
  le_antisymm _ _ := UInt32.le_antisymm
  le_total := UInt32.le_total
  toDecidableLE := inferInstance
  toDecidableEq := inferInstance
  toDecidableLT := inferInstance

end WordOrder

section Order

variable {α β : Type} [LinearOrder α] [LinearOrder β]

theorem cmp_toLex (left left' : α) (right right' : β) :
    cmp (toLex (left, right)) (toLex (left', right')) = (cmp left left').then (cmp right right') := by
  rw [cmp_eq_compare, cmp_eq_compare, cmp_eq_compare, Prod.Lex.compare_def]
  rfl

theorem cmp_coe_withTop (left right : α) : cmp (left : WithTop α) right = cmp left right := by
  simp [cmp, cmpUsing]

variable {cut : Nat → α} {n : Nat}

theorem cut_le_cut (ordered : ∀ i < n, cut i ≤ cut (i + 1)) {i j : Nat} (le : i ≤ j) (bound : j ≤ n) :
    cut i ≤ cut j := by
  induction j, le using Nat.le_induction with
  | base => exact le_rfl
  | succ j le ih => exact (ih (by omega)).trans (ordered j bound)

/-- Cuts in order divide the range between the first and the last of them: every
member lies between exactly one pair of neighbours. -/
theorem existsUnique_between_cuts (ordered : ∀ i < n, cut i ≤ cut (i + 1)) (x : α) :
    (cut 0 ≤ x ∧ x < cut n) ↔ ∃! i, i < n ∧ cut i ≤ x ∧ x < cut (i + 1) := by
  constructor
  · rintro ⟨low, high⟩
    -- the last cut that is not above `x` starts its range
    have found : ∃ i, x < cut i := ⟨n, high⟩
    have after := Nat.find_spec found
    have least : ∀ i < Nat.find found, cut i ≤ x := fun i before => not_lt.mp (Nat.find_min found before)
    have bound : Nat.find found ≤ n := Nat.find_min' found high
    have positive : Nat.find found ≠ 0 := fun zero => by
      rw [zero] at after
      exact absurd low (not_le.mpr after)
    have next : Nat.find found - 1 + 1 = Nat.find found := by omega
    refine ⟨Nat.find found - 1, ⟨by omega, least _ (by omega), next ▸ after⟩, ?_⟩
    rintro i ⟨inside, lower, upper⟩
    have above : ¬Nat.find found ≤ i := fun le => by
      have := (cut_le_cut ordered le (by omega)).trans lower
      exact absurd after (not_lt.mpr this)
    have below : Nat.find found ≤ i + 1 := Nat.find_min' found upper
    omega
  · rintro ⟨i, ⟨inside, lower, upper⟩, -⟩
    exact ⟨(cut_le_cut ordered (Nat.zero_le i) (by omega)).trans lower,
      upper.trans_le (cut_le_cut ordered (by omega) le_rfl)⟩

end Order

end RadosGo
