import RadosGo.Objecter.Backoff
import RadosGo.Library.Cuts

namespace RadosGo

open WordOrder

/-- Where a bit comes from when neighbouring groups of `width` bits change places. -/
def swapIndex (width i : Nat) : Nat := if i / width % 2 = 0 then i + width else i - width

variable {i : Nat} {left right : HObject}

theorem swapBits_testBit (width : Nat) (mask value : UInt32) (positive : 0 < width) (narrow : width < 32)
    (selects : ∀ i < 32, mask.toNat.testBit i = decide (i / width % 2 = 0)) (bound : i < 32) :
    (swapBits (UInt32.ofNat width) mask value).toNat.testBit i = value.toNat.testBit (swapIndex width i) := by
  have shift : (UInt32.ofNat width).toNat % 32 = width := by
    rw [UInt32.toNat_ofNat', Nat.mod_eq_of_lt (by omega : width < 2 ^ 32), Nat.mod_eq_of_lt narrow]
  rw [swapBits, UInt32.toNat_or, UInt32.toNat_and, UInt32.toNat_shiftRight, UInt32.toNat_shiftLeft,
    UInt32.toNat_and, shift,
    Nat.testBit_or, Nat.testBit_and, Nat.testBit_shiftRight, Nat.testBit_mod_two_pow, Nat.testBit_shiftLeft,
    Nat.testBit_and, selects i bound, swapIndex, Nat.add_comm width i]
  rcases Nat.lt_or_ge i width with first | later
  · have group : i / width = 0 := Nat.div_eq_of_lt first
    simp [group, Nat.not_le.mpr first]
  · have group : 0 < i / width := Nat.div_pos later positive
    have previous : (i - width) / width = i / width - 1 := by simpa using Nat.sub_mul_div i width 1
    rw [selects (i - width) (by omega), previous]
    rcases Nat.mod_two_eq_zero_or_one (i / width) with even | odd
    · have unselected : (i / width - 1) % 2 ≠ 0 := by omega
      simp [even, unselected]
    · have selected : (i / width - 1) % 2 = 0 := by omega
      simp [odd, selected, bound, later]

theorem swapIndex_lt : ∀ i < 32, swapIndex 16 i < 32 ∧ swapIndex 8 i < 32 ∧ swapIndex 4 i < 32 ∧
    swapIndex 2 i < 32 := by
  decide

theorem swapIndex_reverses : ∀ i < 32,
    swapIndex 1 (swapIndex 2 (swapIndex 4 (swapIndex 8 (swapIndex 16 i)))) = 31 - i := by decide

theorem reverseBits_testBit (value : UInt32) (bound : i < 32) :
    (reverseBits value).toNat.testBit i = value.toNat.testBit (31 - i) := by
  have bound16 := (swapIndex_lt i bound).1
  have bound8 := (swapIndex_lt _ bound16).2.1
  have bound4 := (swapIndex_lt _ bound8).2.2.1
  have bound2 := (swapIndex_lt _ bound4).2.2.2
  refine (swapBits_testBit 16 0x0000ffff _ (by decide) (by decide) (by decide) bound).trans ?_
  refine (swapBits_testBit 8 0x00ff00ff _ (by decide) (by decide) (by decide) bound16).trans ?_
  refine (swapBits_testBit 4 0x0f0f0f0f _ (by decide) (by decide) (by decide) bound8).trans ?_
  refine (swapBits_testBit 2 0x33333333 _ (by decide) (by decide) (by decide) bound4).trans ?_
  refine (swapBits_testBit 1 0x55555555 _ (by decide) (by decide) (by decide) bound2).trans ?_
  rw [swapIndex_reverses i bound]

@[simp] theorem reverseBits_reverseBits (value : UInt32) : reverseBits (reverseBits value) = value := by
  refine UInt32.toNat_inj.mp (Nat.eq_of_testBit_eq fun i => ?_)
  rcases Nat.lt_or_ge i 32 with bound | outside
  · rw [reverseBits_testBit _ bound, reverseBits_testBit _ (by omega), Nat.sub_sub_self (by omega)]
  · have wide (word : UInt32) : word.toNat < 2 ^ i :=
      word.toNat_lt.trans_le (Nat.pow_le_pow_right (by decide) outside)
    rw [Nat.testBit_lt_two_pow (wide _), Nat.testBit_lt_two_pow (wide _)]

/-- The place of an object in the order of a placement group. Before the end of the
order, objects at one place differ at most in whether their key is spelled out. -/
def HObject.position (object : HObject) :
    WithTop (Int ×ₗ UInt32 ×ₗ Bytes ×ₗ Bytes ×ₗ Bytes ×ₗ Nat) :=
  if object.max then ⊤
  else (toLex (object.pool, toLex (reverseBits object.hash, toLex (object.namespace_, toLex (effectiveKey object,
    toLex (object.object, object.snapshot))))) : Int ×ₗ UInt32 ×ₗ Bytes ×ₗ Bytes ×ₗ Bytes ×ₗ Nat)

theorem HObject.position_of_max {object : HObject} (isMax : object.max = true) : object.position = ⊤ := by
  simp [position, isMax]

theorem HObject.position_of_not_max {object : HObject} (notMax : object.max = false) :
    object.position = (toLex (object.pool, toLex (reverseBits object.hash, toLex (object.namespace_,
      toLex (effectiveKey object, toLex (object.object, object.snapshot))))) :
        Int ×ₗ UInt32 ×ₗ Bytes ×ₗ Bytes ×ₗ Bytes ×ₗ Nat) := by
  simp [position, notMax]

/-- Byte strings are compared by the first byte that differs. -/
theorem compareOrdered_bytes (left right : Bytes) :
    compareOrdered left right = (List.instLinearOrder.compare left right : Ordering) := by
  rw [← cmp_eq_compare]
  simp only [compareOrdered, cmp, cmpUsing]
  congr

/-- Without keys the effective keys are the names, which are compared next anyway. -/
theorem compareKey_then (left right : HObject) (rest : Ordering) :
    (if left.key ≠ [] ∨ right.key ≠ [] then compareOrdered (effectiveKey left) (effectiveKey right) else .eq).then
      ((compareOrdered left.object right.object).then rest) =
    (compareOrdered (effectiveKey left) (effectiveKey right)).then
      ((compareOrdered left.object right.object).then rest) := by
  split
  · rfl
  · next keys =>
    obtain ⟨leftKey, rightKey⟩ : left.key = [] ∧ right.key = [] := by simpa using keys
    have leftName : effectiveKey left = left.object := by simp [effectiveKey, leftKey]
    have rightName : effectiveKey right = right.object := by simp [effectiveKey, rightKey]
    rw [leftName, rightName]
    cases compareOrdered left.object right.object <;> rfl

/-- The comparison of the source is that of a linear order. -/
theorem compareHObject_eq_cmp (left right : HObject) :
    compareHObject left right = cmp left.position right.position := by
  cases leftMax : left.max with
  | true =>
    cases rightMax : right.max with
    | true => simp [compareHObject, HObject.position, leftMax, rightMax]
    | false => simp [compareHObject, HObject.position, compareBool, leftMax, rightMax, cmp, cmpUsing]
  | false =>
    cases rightMax : right.max with
    | true => simp [compareHObject, HObject.position, compareBool, leftMax, rightMax, cmp, cmpUsing]
    | false =>
      have unequal : ¬(left.max && right.max) = true := by simp [leftMax]
      have places : compareBool left.max right.max = .eq := by rw [leftMax, rightMax]; rfl
      rw [compareHObject, if_neg unequal, places, compareKey_then, HObject.position_of_not_max leftMax,
        HObject.position_of_not_max rightMax, cmp_coe_withTop, cmp_toLex, cmp_toLex, cmp_toLex, cmp_toLex, cmp_toLex,
        compareOrdered_bytes, compareOrdered_bytes, compareOrdered_bytes, ← cmp_eq_compare, ← cmp_eq_compare,
        ← cmp_eq_compare]
      rfl

theorem compareHObject_eq_lt_iff : compareHObject left right = .lt ↔ left.position < right.position := by
  rw [compareHObject_eq_cmp, cmp_eq_lt_iff]

theorem compareHObject_ne_gt_iff : compareHObject left right ≠ .gt ↔ left.position ≤ right.position := by
  rw [compareHObject_eq_cmp, Ne, cmp_eq_gt_iff, not_lt]

theorem HObject.position_eq_iff (leftPlaced : left.max = false) (rightPlaced : right.max = false) :
    left.position = right.position ↔ left.pool = right.pool ∧ left.hash = right.hash ∧
      left.namespace_ = right.namespace_ ∧ effectiveKey left = effectiveKey right ∧ left.object = right.object ∧
      left.snapshot = right.snapshot := by
  have hashes : reverseBits left.hash = reverseBits right.hash ↔ left.hash = right.hash :=
    (Function.Involutive.injective reverseBits_reverseBits).eq_iff
  rw [position_of_not_max leftPlaced, position_of_not_max rightPlaced, WithTop.coe_inj]
  simp only [EmbeddingLike.apply_eq_iff_eq, Prod.mk.injEq, hashes]

theorem Backoff.contains_iff (backoff : Backoff) (target : HObject) : backoff.contains target = true ↔
    if backoff.begin_.position = backoff.end_.position then target.position = backoff.begin_.position
    else target.position ∈ Set.Ico backoff.begin_.position backoff.end_.position := by
  unfold Backoff.contains
  simp only [compareHObject_eq_cmp, cmp_eq_eq_iff]
  split
  · simp
  · simp only [← compareHObject_eq_cmp, Bool.and_eq_true, decide_eq_true_eq, compareHObject_ne_gt_iff,
      compareHObject_eq_lt_iff, Set.mem_Ico]

/-- The comparison of positions is a total preorder: that of a lexicographic order in which all positions at the end
are one. A backoff is a half-open interval of it, or one position. -/
theorem compareHObject_lexicographic :
    (∀ left right, compareHObject left right = cmp left.position right.position) ∧
    (∀ left right, compareHObject right left = (compareHObject left right).swap) ∧
    (∀ left middle right, compareHObject left middle ≠ .gt → compareHObject middle right ≠ .gt →
      compareHObject left right ≠ .gt) ∧
    (∀ left right : HObject, left.max = false → right.max = false → (compareHObject left right = .eq ↔
      left.pool = right.pool ∧ left.hash = right.hash ∧ left.namespace_ = right.namespace_ ∧
        effectiveKey left = effectiveKey right ∧ left.object = right.object ∧ left.snapshot = right.snapshot)) ∧
    ∀ (backoff : Backoff) (target : HObject), backoff.contains target = true ↔
      if backoff.begin_.position = backoff.end_.position then target.position = backoff.begin_.position
      else target.position ∈ Set.Ico backoff.begin_.position backoff.end_.position := by
  refine ⟨compareHObject_eq_cmp, fun left right => ?_, fun left middle right low high => ?_,
    fun left right leftPlaced rightPlaced => ?_, Backoff.contains_iff⟩
  · rw [compareHObject_eq_cmp, compareHObject_eq_cmp, cmp_swap]
  · rw [compareHObject_ne_gt_iff] at low high ⊢
    exact low.trans high
  · rw [compareHObject_eq_cmp, cmp_eq_eq_iff, HObject.position_eq_iff leftPlaced rightPlaced]

/-- A key that is spelled out is compared with the name of an object without one. -/
theorem compareHObject_lexicographic_keys :
    compareHObject { key := [1], object := [1] } { object := [1] } = .eq ∧
      compareHObject { object := [1] } { key := [1], object := [1] } = .eq := by
  obtain ⟨-, swaps, -, equal, -⟩ := compareHObject_lexicographic
  have same := (equal { key := [1], object := [1] } { object := [1] } rfl rfl).mpr (by decide)
  refine ⟨same, ?_⟩
  rw [swaps, same]
  rfl

end RadosGo
