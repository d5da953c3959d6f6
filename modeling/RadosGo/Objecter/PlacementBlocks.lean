import RadosGo.Crush.StableMod
import RadosGo.Objecter.Enumeration

namespace RadosGo

open WordOrder

/-- The last bits of a hash are the first ones of its reversal. -/
theorem reverseBits_div_eq_iff {bits : Nat} (narrow : bits ≤ 32) (left right : UInt32) :
    (reverseBits left).toNat / 2 ^ (32 - bits) = (reverseBits right).toNat / 2 ^ (32 - bits) ↔
      left.toNat % 2 ^ bits = right.toNat % 2 ^ bits := by
  have front (value : UInt32) {i : Nat} (bound : i < bits) :
      ((reverseBits value).toNat / 2 ^ (32 - bits)).testBit i = value.toNat.testBit (bits - 1 - i) := by
    rw [Nat.testBit_div_two_pow, reverseBits_testBit _ (by omega)]
    congr 1
    omega
  have short (value : UInt32) : (reverseBits value).toNat / 2 ^ (32 - bits) < 2 ^ bits := by
    rw [Nat.div_lt_iff_lt_mul (Nat.two_pow_pos _), ← Nat.pow_add, Nat.add_sub_cancel' narrow]
    exact UInt32.toNat_lt _
  constructor
  · intro same
    refine Nat.eq_of_testBit_eq fun i => ?_
    rw [Nat.testBit_mod_two_pow, Nat.testBit_mod_two_pow]
    by_cases bound : i < bits
    · have mirrored : bits - 1 - (bits - 1 - i) = i := by omega
      have := congrArg (Nat.testBit · (bits - 1 - i)) same
      simp only [front _ (by omega : bits - 1 - i < bits), mirrored] at this
      rw [this]
    · simp [bound]
  · intro same
    refine Nat.eq_of_testBit_eq fun i => ?_
    by_cases bound : i < bits
    · have := congrArg (Nat.testBit · (bits - 1 - i)) same
      simp only [Nat.testBit_mod_two_pow, (by omega : bits - 1 - i < bits), decide_true, Bool.true_and] at this
      rw [front _ bound, front _ bound, this]
    · have wide := Nat.pow_le_pow_right (by decide : 0 < 2) (Nat.le_of_not_lt bound)
      rw [Nat.testBit_lt_two_pow ((short _).trans_le wide), Nat.testBit_lt_two_pow ((short _).trans_le wide)]

/-- The hashes of a placement group are an interval, ordered by their reversals. -/
theorem stableMod_interval {count seed : UInt32} (below : seed < count) :
    ∃ low high : UInt32, low ≤ high ∧
      ∀ hash, stableMod hash count = seed ↔ low ≤ reverseBits hash ∧ reverseBits hash ≤ high := by
  have positive : 0 < count := UInt32.lt_of_le_of_lt UInt32.zero_le below
  obtain ⟨bits, size, short, residue⟩ := stableResidue_eq_iff_mod (UInt32.lt_iff_toNat_lt.mp below)
  have narrow : bits ≤ 32 := size.trans (Nat.size_le.mpr (by have := count.toNat_lt; omega))
  have whole : 2 ^ (32 - bits) * 2 ^ bits = 2 ^ 32 := by rw [← Nat.pow_add, Nat.sub_add_cancel narrow]
  generalize rev : (reverseBits seed).toNat / 2 ^ (32 - bits) = quotient
  have width := Nat.two_pow_pos (32 - bits)
  have fits : quotient * 2 ^ (32 - bits) + 2 ^ (32 - bits) ≤ 2 ^ 32 := by
    have := rev ▸ (Nat.div_lt_iff_lt_mul width).mpr
      (by rw [Nat.mul_comm, whole]; exact UInt32.toNat_lt (reverseBits seed))
    rw [← Nat.succ_mul, ← whole, Nat.mul_comm (2 ^ (32 - bits))]
    exact Nat.mul_le_mul_right _ this
  have range : UInt32.size = 2 ^ 32 := rfl
  have low : (UInt32.ofNat (quotient * 2 ^ (32 - bits))).toNat = quotient * 2 ^ (32 - bits) :=
    UInt32.toNat_ofNat_of_lt' (by omega)
  have high : (UInt32.ofNat (quotient * 2 ^ (32 - bits) + (2 ^ (32 - bits) - 1))).toNat =
      quotient * 2 ^ (32 - bits) + (2 ^ (32 - bits) - 1) := UInt32.toNat_ofNat_of_lt' (by omega)
  refine ⟨_, _, UInt32.le_iff_toNat_le.mpr (low ▸ high ▸ Nat.le_add_right _ _), fun hash => ?_⟩
  have same := reverseBits_div_eq_iff narrow hash seed
  rw [Nat.mod_eq_of_lt short, rev] at same
  rw [← UInt32.toNat_inj, toNat_stableMod _ _ positive, residue, ← same, UInt32.le_iff_toNat_le,
    UInt32.le_iff_toNat_le, low, high, Nat.div_eq_iff width]
  omega

/-- In one pool the order of the objects is first that of the reversals of their hashes. -/
theorem HObject.reverseBits_le {left right : HObject} (leftPlaced : left.max = false)
    (rightPlaced : right.max = false) (samePool : left.pool = right.pool) (before : left.position ≤ right.position) :
    reverseBits left.hash ≤ reverseBits right.hash := by
  rw [position_of_not_max leftPlaced, position_of_not_max rightPlaced, WithTop.coe_le_coe,
    Prod.Lex.toLex_le_toLex] at before
  have rest := (before.resolve_left fun less => less.ne samePool).2
  rw [Prod.Lex.toLex_le_toLex] at rest
  rcases rest with less | ⟨same, -⟩
  · exact less.le
  · exact same.le

/-- The begin of the whole order has the first hash. -/
theorem HObject.InPool.reverseBits_le {left right : HObject} {poolID : Int64} (leftIn : left.InPool poolID)
    (rightIn : right.InPool poolID) (before : left.position ≤ right.position) :
    reverseBits left.hash ≤ reverseBits right.hash := by
  have ofMin {object : HObject} (isMin : object.isMin = true) : object.hash = 0 ∧
    object.pool = Int64.minValue.toInt := by
    simp only [HObject.isMin, Bool.and_eq_true, beq_iff_eq] at isMin
    exact ⟨isMin.1.1.2, isMin.2⟩
  rcases leftIn.place with leftMin | ⟨leftPool, -⟩
  · rw [(ofMin leftMin).1]
    exact UInt32.zero_le
  · refine HObject.reverseBits_le leftIn.notMax rightIn.notMax ?_ before
    rcases rightIn.place with rightMin | ⟨rightPool, -⟩
    · -- nothing of a pool comes before the begin of the order
      rw [position_of_not_max leftIn.notMax, position_of_not_max rightIn.notMax, WithTop.coe_le_coe,
        Prod.Lex.toLex_le_toLex] at before
      have above : right.pool ≤ left.pool := by
        rw [leftPool, (ofMin rightMin).2]
        exact poolID.le_toInt
      exact above.antisymm' (before.elim le_of_lt fun same => same.1.le)
    · rw [leftPool, rightPool]

/-- What three members in order have. -/
theorem triplewise_of_pairwise {α : Type} {before : α → α → Prop} {holds : α → α → α → Prop} {members : List α}
    (sorted : members.Pairwise before) (between : ∀ a b c, before a b → before b c → holds a b c) :
    members.Triplewise holds := by
  induction sorted with
  | nil => exact .nil
  | cons first rest ih =>
    refine .cons (rest.imp_of_mem fun {b c} inRest _ after => between _ b c (first b inRest) after) ih

section Enumeration

variable {fetch : Fetch} {poolID : Int64} {end_ : HObject} {limit : Nat}

/-- The cursor of an enumeration never moves back. -/
theorem enumerateRound_upwards {round : Nat} {result result' : EnumerationResult}
    (unfinished : compareHObject result.next end_ = .lt)
    (run : enumerateRound fetch poolID end_ limit round result = .ok result') :
    result.next.position ≤ result'.next.position := by
  unfold enumerateRound at run
  obtain ⟨⟨page, entryCursors⟩, -, run⟩ := except_bind_ok run
  simp only at run
  split at run
  · cases run
  obtain ⟨_, valid, run⟩ := except_bind_ok run
  unfold validateEnumerationPage at valid
  simp only at valid
  split at valid
  · cases valid
  obtain ⟨_, ordered, valid⟩ := except_bind_ok valid
  have page_after : result.next.position ≤ page.next.position := by
    by_cases isMax : page.next.max = true
    · rw [HObject.position_of_max isMax]
      exact le_top
    · split at valid
      · cases valid
      next after =>
      have greater : compareHObject page.next result.next = .gt := by simpa [HObject.isMax, isMax] using after
      rw [compareHObject_eq_cmp, cmp_eq_gt_iff] at greater
      exact greater.le
  have stop_after : result.next.position ≤
      (if compareHObject page.next end_ = .gt then end_ else page.next).position := by
    split
    · exact (compareHObject_eq_lt_iff.mp unfinished).le
    · exact page_after
  cases run
  simp only
  generalize (if compareHObject page.next end_ = .gt then end_ else page.next) = stop at stop_after ⊢
  generalize (if compareHObject page.next end_ = .gt then _ else page.entries.length) = entryCount
  split
  · rw [List.getD_eq_getElem?_getD]
    cases found : entryCursors[limit - result.entries.length]? with
    | none => exact stop_after
    | some cursor => exact (validateEntries_ok ordered).2.1 cursor (List.mem_of_getElem? found)
  · exact stop_after

variable (fetch poolID end_ limit)

/-- The cursors with which an enumeration fetches its pages. -/
def enumerateCursors : Nat → Nat → EnumerationResult → List HObject
  | 0, _, _ => []
  | fuel + 1, round, result =>
    if result.entries.length < limit ∧ compareHObject result.next end_ = .lt then
      result.next :: match enumerateRound fetch poolID end_ limit round result with
        | .error _ => []
        | .ok result => enumerateCursors fuel (round + 1) result
    else []

theorem enumerateCursors_upwards (fuel round : Nat) (result : EnumerationResult) :
    (∀ cursor ∈ enumerateCursors fetch poolID end_ limit fuel round result, result.next.position ≤ cursor.position) ∧
    (enumerateCursors fetch poolID end_ limit fuel round result).Pairwise fun left right =>
      left.position ≤ right.position := by
  induction fuel generalizing round result with
  | zero => exact ⟨fun _ => nofun, .nil⟩
  | succ fuel ih =>
    rw [enumerateCursors]
    split
    · next going =>
      cases run : enumerateRound fetch poolID end_ limit round result with
      | error => simp
      | ok result' =>
        obtain ⟨above, sorted⟩ := ih (round + 1) result'
        have upwards := enumerateRound_upwards going.2 run
        refine ⟨fun cursor member => ?_, .cons (fun cursor member => upwards.trans (above cursor member)) sorted⟩
        rcases List.mem_cons.mp member with rfl | member
        · exact le_rfl
        · exact upwards.trans (above cursor member)
    · exact ⟨fun _ => nofun, .nil⟩

end Enumeration

/-- The hashes of a placement group are an interval in the order of their reversals, so its objects are one block of
the order of its pool, and an enumeration does not come back to a placement group which it has left. -/
theorem placement_groups_contiguous {count seed : UInt32} (below : seed < count) :
    (∃ low high : UInt32, low ≤ high ∧
      ∀ hash, stableMod hash count = seed ↔ low ≤ reverseBits hash ∧ reverseBits hash ≤ high) ∧
    (∀ left middle right : HObject, left.max = false → middle.max = false → right.max = false →
      left.pool = middle.pool → middle.pool = right.pool →
      compareHObject left middle ≠ .gt → compareHObject middle right ≠ .gt →
      stableMod left.hash count = seed → stableMod right.hash count = seed → stableMod middle.hash count = seed) ∧
    ∀ fetch (poolID : Int64) start end_ limit fuel,
      (enumerateCursors fetch poolID end_ limit fuel 0 { next := start }).Triplewise fun left middle right =>
        left.InPool poolID → middle.InPool poolID → right.InPool poolID →
        stableMod left.hash count = seed → stableMod right.hash count = seed →
          stableMod middle.hash count = seed := by
  obtain ⟨low, high, bounds, interval⟩ := stableMod_interval below
  have between {left middle right : UInt32} (lower : reverseBits left ≤ reverseBits middle)
      (upper : reverseBits middle ≤ reverseBits right) (first : stableMod left count = seed)
      (last : stableMod right count = seed) : stableMod middle count = seed := by
    rw [interval] at first last ⊢
    exact ⟨first.1.trans lower, upper.trans last.2⟩
  refine ⟨⟨low, high, bounds, interval⟩, ?_, ?_⟩
  · intro left middle right leftPlaced middlePlaced rightPlaced pools pools' before after
    rw [compareHObject_ne_gt_iff] at before after
    exact between (HObject.reverseBits_le leftPlaced middlePlaced pools before)
      (HObject.reverseBits_le middlePlaced rightPlaced pools' after)
  · intro fetch poolID start end_ limit fuel
    refine triplewise_of_pairwise (enumerateCursors_upwards fetch poolID end_ limit fuel 0 { next := start }).2 ?_
    intro left middle right before after leftIn middleIn rightIn
    exact between (leftIn.reverseBits_le middleIn before) (middleIn.reverseBits_le rightIn after)

/-- The placement groups of a pool with three of them: the second one has every other hash. -/
theorem placement_groups_contiguous_odd : (1 : UInt32) < 3 ∧ ∃ low high : UInt32, low ≤ high ∧
    ∀ hash, stableMod hash 3 = 1 ↔ low ≤ reverseBits hash ∧ reverseBits hash ≤ high :=
  ⟨by decide, (placement_groups_contiguous (by decide)).1⟩

end RadosGo
