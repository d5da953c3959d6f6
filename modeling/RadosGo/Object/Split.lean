import RadosGo.Object.Cursor

namespace RadosGo

open List WordOrder

/-- An object lies in the half-open range between two cursors. -/
def InRange (lower upper : ObjectCursor) (object : HObject) : Prop :=
  ∃ lowerObject upperObject, lower.hobject = .ok lowerObject ∧ upper.hobject = .ok upperObject ∧
    compareHObject lowerObject object ≠ .gt ∧ compareHObject object upperObject = .lt

def NotAfter (lower upper : ObjectCursor) : Prop :=
  ∃ order, compareObjectCursors lower upper = .ok order ∧ order ≠ .gt

/-- Boundaries that divide a range: in order, from its begin to its end, and every
object of the range lies between exactly one pair of neighbours. -/
structure Splits (begin_ end_ : ObjectCursor) (partitions : Nat) (boundaries : List ObjectCursor) : Prop where
  length : boundaries.length = partitions + 1
  first : boundaries[0]? = some begin_
  last : boundaries[partitions]? = some end_
  ordered : ∀ i lower upper, boundaries[i]? = some lower → boundaries[i + 1]? = some upper → NotAfter lower upper
  covers : ∀ object, InRange begin_ end_ object ↔
    ∃! i, ∃ lower upper, boundaries[i]? = some lower ∧ boundaries[i + 1]? = some upper ∧ InRange lower upper object

def HObject.Unnamed (object : HObject) : Prop := object.namespace_ = [] ∧ object.key = [] ∧ object.object = []

/-- The reversed hash at which a range ends, just after the last one at the end of the order. -/
def HObject.hashEnd (object : HObject) : Nat := if object.max then 2 ^ 32 else (reverseBits object.hash).toNat

def HObject.hashDistance (start finish : HObject) : Nat := finish.hashEnd - (reverseBits start.hash).toNat

/-- When a range can be divided at reversed hashes alone. Its begin comes before the
first position of its hash, or the first division is already at a later hash; its end
does not come before the first position of its hash. -/
structure Divisible (pool : Pool) (start finish : HObject) (partitions : Nat) : Prop where
  begins : start.max = false
  leaves : start.pool < pool.id.toInt ∨ start.Unnamed ∨ partitions ≤ start.hashDistance finish
  ends : finish.max = true ∨ finish.pool = pool.id.toInt ∧ (finish.snapshot = noSnap ∨ ¬finish.Unnamed)

section Bytes

theorem bytes_not_lt_nil (bytes : Bytes) : ¬List.instLinearOrder.toLT.lt bytes [] := not_lex_nil

theorem bytes_nil_lt {bytes : Bytes} : List.instLinearOrder.toLT.lt [] bytes ↔ bytes ≠ [] := by
  cases bytes with
  | nil => exact iff_of_false not_lex_nil (not_not.mpr rfl)
  | cons byte rest => exact iff_of_true .nil (cons_ne_nil _ _)

end Bytes

theorem effectiveKey_eq_nil {object : HObject} : effectiveKey object = [] ↔ object.key = [] ∧ object.object = [] := by
  rw [effectiveKey]
  split
  · next key => simp [key]
  · next key => simp [not_not.mp key]

theorem mapM_ok {α β ε : Type} {f : α → Except ε β} {g : α → β} {items : List α}
    (each : ∀ item ∈ items, f item = .ok (g item)) : items.mapM f = .ok (items.map g) := by
  induction items with
  | nil => rfl
  | cons item rest ih =>
    rw [mapM_cons, each item mem_cons_self, ih fun other member => each other (mem_cons_of_mem _ member)]
    rfl

namespace Pool

/-- The first position of a reversed hash in a pool. -/
def hashObject (pool : Pool) (reversed : Nat) : HObject where
  snapshot := noSnap
  hash := reverseBits (UInt32.ofNat reversed)
  pool := pool.id.toInt

def hashCursor (pool : Pool) (reversed : Nat) : ObjectCursor where
  poolID := pool.id
  namespace_ := pool.namespace_
  value := (pool.hashObject reversed).wireBytes

variable {pool : Pool} {start finish object : HObject} {partitions : Nat}

theorem hashObject_inPool (pool : Pool) (reversed : Nat) : (pool.hashObject reversed).InPool pool.id :=
  ⟨rfl, .inr ⟨rfl, rfl⟩⟩

theorem hashObject_representable (pool : Pool) (reversed : Nat) : (pool.hashObject reversed).Representable :=
  ⟨show noSnap < 2 ^ 64 by decide, pool.id.le_toInt, pool.id.toInt_lt⟩

theorem hashCursor_hobject (pool : Pool) (reversed : Nat) :
    (pool.hashCursor reversed).hobject = .ok (pool.hashObject reversed) :=
  hobject_wireBytes (pool.hashObject_representable reversed) (pool.hashObject_inPool reversed)
    (show 39 + 0 ≤ objectCursorMaxBytes by decide) _

theorem hashObject_position (pool : Pool) (reversed : Nat) :
    (pool.hashObject reversed).position = (toLex (pool.id.toInt, toLex (UInt32.ofNat reversed, toLex ([], toLex ([],
      toLex ([], noSnap))))) : Int ×ₗ UInt32 ×ₗ Bytes ×ₗ Bytes ×ₗ Bytes ×ₗ Nat) := by
  rw [HObject.position_of_not_max (pool.hashObject_inPool reversed).notMax, hashObject, reverseBits_reverseBits]
  rfl

variable {reversed index : Nat} {difference startHash : UInt64}

theorem position_le_hashObject (inPool : object.InPool pool.id) (bound : reversed < 2 ^ 32) :
    object.position ≤ (pool.hashObject reversed).position ↔
      object.pool < pool.id.toInt ∨ (reverseBits object.hash).toNat < reversed ∨
        (reverseBits object.hash).toNat = reversed ∧ object.Unnamed := by
  have same : reverseBits object.hash = UInt32.ofNat reversed ↔ (reverseBits object.hash).toNat = reversed := by
    rw [← UInt32.toNat_inj, UInt32.toNat_ofNat', Nat.mod_eq_of_lt bound]
  have before : reverseBits object.hash < UInt32.ofNat reversed ↔ (reverseBits object.hash).toNat < reversed := by
    rw [UInt32.lt_iff_toNat_lt, UInt32.toNat_ofNat', Nat.mod_eq_of_lt bound]
  have poolLe := inPool.pool_le
  have snapshotLe := inPool.snapshot_le
  rw [HObject.position_of_not_max inPool.notMax, hashObject_position, WithTop.coe_le_coe]
  simp only [Prod.Lex.toLex_le_toLex, same, before, bytes_not_lt_nil, false_or, effectiveKey_eq_nil, HObject.Unnamed]
  rcases poolLe.lt_or_eq with lower | equal
  · simp [lower]
  · simp only [equal, lt_irrefl, false_or, true_and]
    tauto

theorem hashObject_le_position (inPool : object.InPool pool.id) (bound : reversed < 2 ^ 32) :
    (pool.hashObject reversed).position ≤ object.position ↔
      object.pool = pool.id.toInt ∧ (reversed < (reverseBits object.hash).toNat ∨
        reversed = (reverseBits object.hash).toNat ∧ (¬object.Unnamed ∨ object.snapshot = noSnap)) := by
  have same : UInt32.ofNat reversed = reverseBits object.hash ↔ reversed = (reverseBits object.hash).toNat := by
    rw [← UInt32.toNat_inj, UInt32.toNat_ofNat', Nat.mod_eq_of_lt bound]
  have before : UInt32.ofNat reversed < reverseBits object.hash ↔ reversed < (reverseBits object.hash).toNat := by
    rw [UInt32.lt_iff_toNat_lt, UInt32.toNat_ofNat', Nat.mod_eq_of_lt bound]
  have poolLe := inPool.pool_le
  have snapshotLe : noSnap ≤ object.snapshot ↔ object.snapshot = noSnap :=
    ⟨fun le => le_antisymm inPool.snapshot_le le, fun equal => equal.ge⟩
  rw [HObject.position_of_not_max inPool.notMax, hashObject_position, WithTop.coe_le_coe]
  simp only [Prod.Lex.toLex_le_toLex, same, before, bytes_nil_lt, snapshotLe, HObject.Unnamed,
    eq_comm (a := ([] : Bytes)), effectiveKey_eq_nil, poolLe.not_gt, false_or, eq_comm (a := pool.id.toInt), Ne]
  refine and_congr_right fun _ => or_congr_right (and_congr_right fun _ => ?_)
  by_cases namespace_ : object.namespace_ = []
  · by_cases name : object.object = []
    · by_cases key : object.key = [] <;> simp [namespace_, name, key]
    · simp [namespace_, name]
  · simp [namespace_]

/-- The quotient and the remainder are scaled one by one, which loses nothing. -/
theorem scaled_quotient (difference index : Nat) (positive : 0 < partitions) :
    difference / partitions * index + difference % partitions * index / partitions =
      difference * index / partitions := by
  conv_rhs => rw [← Nat.div_add_mod difference partitions, Nat.add_mul, Nat.mul_assoc, Nat.mul_add_div positive]

theorem scaled_lt {difference : Nat} (positive : 0 < difference) (inside : index < partitions) :
    difference * index / partitions < difference :=
  Nat.div_lt_of_lt_mul (by rw [Nat.mul_comm partitions]; exact Nat.mul_lt_mul_of_pos_left inside positive)

/-- Nothing overflows in the computation of a boundary. -/
theorem boundary_reversed (total : startHash.toNat + difference.toNat ≤ 2 ^ 32)
    (bound : partitions ≤ maxCursorPartitions) (inside : index < partitions) :
    (startHash + difference / UInt64.ofNat partitions * UInt64.ofNat index +
        difference % UInt64.ofNat partitions * UInt64.ofNat index / UInt64.ofNat partitions).toNat =
      startHash.toNat + difference.toNat * index / partitions := by
  have bound20 : partitions ≤ 2 ^ 20 := bound
  have positive : 0 < partitions := by omega
  have split := scaled_quotient difference.toNat index positive
  have scaled : difference.toNat * index / partitions ≤ difference.toNat :=
    Nat.div_le_of_le_mul (by rw [Nat.mul_comm partitions]; exact Nat.mul_le_mul_left _ inside.le)
  have remainder : difference.toNat % partitions * index < 2 ^ 20 * 2 ^ 20 :=
    Nat.mul_lt_mul'' ((Nat.mod_lt _ positive).trans_le bound20) (by omega)
  simp only [UInt64.toNat_add, UInt64.toNat_mul, UInt64.toNat_div, UInt64.toNat_mod, UInt64.toNat_ofNat',
    Nat.mod_eq_of_lt (by omega : partitions < 2 ^ 64), Nat.mod_eq_of_lt (by omega : index < 2 ^ 64),
    Nat.mod_eq_of_lt (by omega : difference.toNat % partitions * index < 2 ^ 64)]
  rw [← split] at scaled ⊢
  generalize difference.toNat / partitions * index = quotient at scaled ⊢
  generalize difference.toNat % partitions * index / partitions = rest at scaled ⊢
  omega

theorem boundary_eq (starts : startHash.toNat < 2 ^ 32) (total : startHash.toNat + difference.toNat ≤ 2 ^ 32)
    (bound : partitions ≤ maxCursorPartitions) (inside : index < partitions) :
    pool.boundary startHash difference partitions index =
      .ok (pool.hashCursor (startHash.toNat + difference.toNat * index / partitions)) := by
  have reversed := boundary_reversed total bound inside
  have below : startHash.toNat + difference.toNat * index / partitions < 2 ^ 32 := by
    rcases Nat.eq_zero_or_pos difference.toNat with zero | positive
    · simpa [zero] using starts
    · have := scaled_lt positive inside
      omega
  have word (wide : UInt64) : wide.toUInt32 = UInt32.ofNat wide.toNat :=
    UInt32.toNat_inj.mp (by rw [UInt64.toNat_toUInt32, UInt32.toNat_ofNat'])
  rw [boundary, if_neg]
  · rw [word, reversed]
    exact (newObjectCursor_eq pool.id pool.namespace_ (pool.hashObject _)).trans
      (if_pos (show 39 + 0 ≤ objectCursorMaxBytes by decide))
  · rw [ge_iff_le, UInt64.le_iff_toNat_le, reversed, not_le]
    exact below

theorem ownsCursor_iff {cursor : ObjectCursor} :
    pool.ownsCursor cursor = true ↔ cursor.valid = true ∧ cursor.poolID = pool.id ∧
      cursor.namespace_ = pool.namespace_ := by
  simp [ownsCursor, and_assoc]

theorem boundaries_eq (pool : Pool) {finishHash : UInt64} (starts : startHash.toNat < 2 ^ 32)
    (ordered : startHash.toNat ≤ finishHash.toNat) (finishes : finishHash.toNat ≤ 2 ^ 32)
    (bound : partitions ≤ maxCursorPartitions) :
    (range' 1 (partitions - 1)).mapM (pool.boundary startHash (finishHash - startHash) partitions) =
      .ok ((range' 1 (partitions - 1)).map fun i =>
        pool.hashCursor (startHash.toNat + (finishHash.toNat - startHash.toNat) * i / partitions)) := by
  have difference := UInt64.toNat_sub_of_le finishHash startHash (UInt64.le_iff_toNat_le.mpr ordered)
  refine mapM_ok fun index member => ?_
  rw [mem_range'_1] at member
  rw [← difference]
  exact boundary_eq starts (by omega) bound (by omega)

theorem hashEnd_le (object : HObject) : object.hashEnd ≤ 2 ^ 32 := by
  rw [HObject.hashEnd]
  split
  · exact le_rfl
  · exact (UInt32.toNat_lt _).le

def cutHash (start finish : HObject) (partitions index : Nat) : Nat :=
  (reverseBits start.hash).toNat + start.hashDistance finish * index / partitions

/-- The objects at the boundaries. -/
def cutObject (pool : Pool) (start finish : HObject) (partitions index : Nat) : HObject :=
  if index = 0 then start
  else if index = partitions then finish
  else pool.hashObject (cutHash start finish partitions index)

variable {begin_ end_ : ObjectCursor}

section Owned

variable (ownsBegin : pool.ownsCursor begin_ = true) (ownsEnd : pool.ownsCursor end_ = true)
    (decodesBegin : begin_.hobject = .ok start) (decodesEnd : end_.hobject = .ok finish)

include ownsBegin ownsEnd decodesBegin decodesEnd

theorem compare_owned : compareObjectCursors begin_ end_ = .ok (compareHObject start finish) := by
  obtain ⟨-, beginPool, beginNamespace⟩ := ownsCursor_iff.mp ownsBegin
  obtain ⟨-, endPool, endNamespace⟩ := ownsCursor_iff.mp ownsEnd
  exact compareObjectCursors_eq (beginPool.trans endPool.symm)
    (beginNamespace.trans endNamespace.symm) decodesBegin decodesEnd

theorem notAfter_iff : NotAfter begin_ end_ ↔ start.position ≤ finish.position := by
  rw [NotAfter, compare_owned ownsBegin ownsEnd decodesBegin decodesEnd, ← compareHObject_ne_gt_iff]
  constructor
  · rintro ⟨order, same, notGreater⟩
    rwa [Except.ok.inj same]
  · intro notGreater
    exact ⟨_, rfl, notGreater⟩

/-- The hashes of a range are in order even where its begin or its end is that of the whole order. -/
theorem startHash_le_hashEnd
    (ordered : start.position ≤ finish.position) : (reverseBits start.hash).toNat ≤ finish.hashEnd := by
  have zero : (reverseBits 0).toNat = 0 := by decide
  obtain ⟨-, beginPool, -⟩ := ownsCursor_iff.mp ownsBegin
  obtain ⟨-, endPool, -⟩ := ownsCursor_iff.mp ownsEnd
  rcases ObjectCursor.hobject_ok decodesBegin with ⟨-, rfl⟩ | ⟨-, -, -, startIn⟩
  · exact zero.le.trans (Nat.zero_le _)
  · rcases ObjectCursor.hobject_ok decodesEnd with ⟨-, rfl⟩ | ⟨-, -, -, finishIn⟩
    · exact (reverseBits start.hash).toNat_lt.le
    · rw [HObject.hashEnd, if_neg (by simp [finishIn.notMax])]
      rw [HObject.position_of_not_max startIn.notMax, HObject.position_of_not_max finishIn.notMax, WithTop.coe_le_coe,
        Prod.Lex.toLex_le_toLex, Prod.Lex.toLex_le_toLex] at ordered
      rcases ordered with lower | ⟨-, earlier | ⟨same, -⟩⟩
      · rcases startIn.place with isMin | ⟨inPool, -⟩
        · simp only [HObject.isMin, Bool.and_eq_true, beq_iff_eq] at isMin
          rw [isMin.1.1.2, zero]
          exact Nat.zero_le _
        · have high := finishIn.pool_le
          rw [inPool, beginPool] at lower
          rw [endPool] at high
          exact absurd lower high.not_gt
      · exact (UInt32.lt_iff_toNat_lt.mp earlier).le
      · exact (congrArg UInt32.toNat same).le

theorem splitCursor_eq
    (ordered : start.position ≤ finish.position) (positive : 0 < partitions)
    (bound : partitions ≤ maxCursorPartitions) :
    pool.splitCursor begin_ end_ partitions =
      .ok (begin_ :: (range' 1 (partitions - 1)).map (fun i => pool.hashCursor (cutHash start finish partitions i)) ++
        [end_]) := by
  have hashes := startHash_le_hashEnd ownsBegin ownsEnd decodesBegin decodesEnd ordered
  have startHash : (reverseBits start.hash).toUInt64.toNat = (reverseBits start.hash).toNat := UInt32.toNat_toUInt64 _
  have finishHash : (if finish.isMax then (1 : UInt64) <<< 32 else (reverseBits finish.hash).toUInt64).toNat =
      finish.hashEnd := by
    rw [HObject.isMax, HObject.hashEnd]
    cases finish.max with
    | true => rfl
    | false => exact UInt32.toNat_toUInt64 _
  have interior := boundaries_eq pool (startHash.trans_lt (UInt32.toNat_lt _))
    (startHash.trans_le (hashes.trans_eq finishHash.symm)) (finishHash.trans_le (hashEnd_le finish)) bound
  have notGreater : compareHObject start finish ≠ .gt := compareHObject_ne_gt_iff.mpr ordered
  rw [splitCursor, if_neg (by simp [ownsBegin, ownsEnd, positive.ne', bound]),
    compare_owned ownsBegin ownsEnd decodesBegin decodesEnd, decodesBegin, decodesEnd]
  rw [startHash, finishHash] at interior
  cases order : compareHObject start finish with
  | gt => exact absurd order notGreater
  | lt | eq =>
    simp only [interior]
    rfl

theorem boundary_at (positive : 0 < partitions) (inside : index ≤ partitions) :
    ∃ cursor, (begin_ :: (range' 1 (partitions - 1)).map
      (fun i => pool.hashCursor (cutHash start finish partitions i)) ++
        [end_])[index]? = some cursor ∧ pool.ownsCursor cursor = true ∧
      cursor.hobject = .ok (pool.cutObject start finish partitions index) := by
  rcases Nat.eq_zero_or_pos index with rfl | later
  · exact ⟨begin_, rfl, ownsBegin, by rwa [cutObject, if_pos rfl]⟩
  · obtain ⟨index, rfl⟩ := Nat.exists_eq_add_of_lt later
    rw [Nat.zero_add] at inside ⊢
    rw [cutObject, if_neg (Nat.succ_ne_zero index), cons_append, getElem?_cons_succ]
    rcases Nat.lt_or_ge index (partitions - 1) with interior | last
    · have owned (reversed : Nat) : pool.ownsCursor (pool.hashCursor reversed) = true :=
        ownsCursor_iff.mpr ⟨ObjectCursor.valid_of_hobject (pool.hashCursor_hobject reversed), rfl, rfl⟩
      refine ⟨pool.hashCursor (cutHash start finish partitions (index + 1)), ?_, owned _, ?_⟩
      · rw [getElem?_append_left (by simpa using interior), getElem?_map, getElem?_range' interior]
        simp [Nat.add_comm]
      · rw [if_neg (by omega)]
        exact pool.hashCursor_hobject _
    · obtain rfl : index = partitions - 1 := by omega
      refine ⟨end_, ?_, ownsEnd, by rwa [if_pos (by omega)]⟩
      rw [getElem?_append_right (by simp)]
      simp

end Owned

theorem cutHash_le_cutHash {other : Nat} (le : index ≤ other) :
    cutHash start finish partitions index ≤ cutHash start finish partitions other :=
  Nat.add_le_add_left (Nat.div_le_div_right (Nat.mul_le_mul_left _ le)) _

theorem cutHash_le_hashEnd (hashes : (reverseBits start.hash).toNat ≤ finish.hashEnd) (inside : index < partitions) :
    cutHash start finish partitions index < finish.hashEnd ∨
      cutHash start finish partitions index = finish.hashEnd ∧ finish.hashEnd = (reverseBits start.hash).toNat := by
  rw [cutHash]
  rcases Nat.eq_zero_or_pos (start.hashDistance finish) with zero | positive
  · rw [zero, Nat.zero_mul, Nat.zero_div]
    rw [HObject.hashDistance] at zero
    omega
  · have := scaled_lt positive inside
    rw [HObject.hashDistance] at this ⊢
    omega

theorem cutHash_lt (hashes : (reverseBits start.hash).toNat ≤ finish.hashEnd) (inside : index < partitions) :
    cutHash start finish partitions index < 2 ^ 32 := by
  have limit := hashEnd_le finish
  have startLimit := (reverseBits start.hash).toNat_lt
  rcases cutHash_le_hashEnd hashes inside with before | ⟨same, atStart⟩ <;> omega

theorem hashObject_le_hashObject {later : Nat} (le : reversed ≤ later) (bound : later < 2 ^ 32) :
    (pool.hashObject reversed).position ≤ (pool.hashObject later).position := by
  have word : (reverseBits (pool.hashObject reversed).hash).toNat = reversed := by
    rw [hashObject, reverseBits_reverseBits, UInt32.toNat_ofNat', Nat.mod_eq_of_lt (by omega)]
  rw [position_le_hashObject (pool.hashObject_inPool reversed) bound, word]
  rcases le.lt_or_eq with before | same
  · exact .inr (.inl before)
  · exact .inr (.inr ⟨same, rfl, rfl, rfl⟩)

/-- The begin of a range comes before the first division. -/
theorem start_le_cut (inPool : start.InPool pool.id) (hashes : (reverseBits start.hash).toNat ≤ finish.hashEnd)
    (several : 1 < partitions) :
    start.position ≤ (pool.hashObject (cutHash start finish partitions 1)).position ↔
      start.pool < pool.id.toInt ∨ start.Unnamed ∨ partitions ≤ start.hashDistance finish := by
  have first : cutHash start finish partitions 1 =
    (reverseBits start.hash).toNat + start.hashDistance finish / partitions := by
    rw [cutHash, Nat.mul_one]
  have divides : 0 < start.hashDistance finish / partitions ↔ partitions ≤ start.hashDistance finish :=
    Nat.div_pos_iff.trans (and_iff_right (by omega))
  rw [position_le_hashObject inPool (cutHash_lt hashes several), first]
  constructor
  · rintro (lower | before | ⟨-, unnamed⟩)
    · exact .inl lower
    · exact .inr (.inr (divides.mp (by omega)))
    · exact .inr (.inl unnamed)
  · rintro (lower | unnamed | wide)
    · exact .inl lower
    · rcases Nat.eq_zero_or_pos (start.hashDistance finish / partitions) with zero | positive
      · exact .inr (.inr ⟨by omega, unnamed⟩)
      · exact .inr (.inl (by omega))
    · have := divides.mpr wide
      exact .inr (.inl (by omega))

/-- The last division does not come after the end of a range. -/
theorem cut_le_finish (inPool : finish.InPool pool.id) (hashes : (reverseBits start.hash).toNat ≤ finish.hashEnd)
    (inside : index < partitions) :
    (pool.hashObject (cutHash start finish partitions index)).position ≤ finish.position ↔
      finish.pool = pool.id.toInt ∧ (finish.snapshot = noSnap ∨ ¬finish.Unnamed) := by
  have hashEnd : finish.hashEnd = (reverseBits finish.hash).toNat := by simp [HObject.hashEnd, inPool.notMax]
  have limit := cutHash_le_hashEnd hashes inside
  rw [hashObject_le_position inPool (cutHash_lt hashes inside), ← hashEnd]
  refine and_congr_right fun _ => ?_
  constructor
  · rintro (before | ⟨-, unnamed | snapshot⟩)
    · -- an end with a hash is not the begin of the order
      rcases inPool.place with isMin | ⟨-, snapshot⟩
      · simp only [HObject.isMin, Bool.and_eq_true, beq_iff_eq] at isMin
        rw [hashEnd, isMin.1.1.2] at before
        exact absurd before (Nat.not_lt_zero _)
      · exact .inl snapshot
    · exact .inr unnamed
    · exact .inl snapshot
  · intro named
    rcases limit with before | ⟨same, -⟩
    · exact .inl before
    · exact .inr ⟨same, named.symm⟩

/-- The boundaries are in order exactly when the range is divisible. -/
theorem cuts_ordered_iff (startPlace : start.max = true ∨ start.InPool pool.id)
    (finishPlace : finish.max = true ∨ finish.InPool pool.id)
    (hashes : (reverseBits start.hash).toNat ≤ finish.hashEnd) (ordered : start.position ≤ finish.position)
    (positive : 0 < partitions) :
    (∀ index < partitions, (pool.cutObject start finish partitions index).position ≤
        (pool.cutObject start finish partitions (index + 1)).position) ↔
      partitions = 1 ∨ Divisible pool start finish partitions := by
  rcases Nat.eq_or_lt_of_le positive with single | several
  · obtain rfl : partitions = 1 := single.symm
    refine iff_of_true (fun index inside => ?_) (.inl rfl)
    obtain rfl : index = 0 := by omega
    exact ordered
  have interior {index : Nat} (later : 0 < index) (inside : index < partitions) :
      pool.cutObject start finish partitions index = pool.hashObject (cutHash start finish partitions index) := by
    rw [cutObject, if_neg later.ne', if_neg inside.ne]
  have last : pool.cutObject start finish partitions partitions = finish := by
    rw [cutObject, if_neg (by omega), if_pos rfl]
  rw [or_iff_right (by omega)]
  constructor
  · intro cuts
    have atStart := cuts 0 positive
    have atEnd := cuts (partitions - 1) (by omega)
    rw [interior (by omega) (by omega), Nat.sub_add_cancel positive, last] at atEnd
    rw [interior Nat.zero_lt_one several] at atStart
    rcases startPlace with isMax | startIn
    · rw [cutObject, if_pos rfl, HObject.position_of_max isMax, hashObject_position] at atStart
      exact absurd atStart (WithTop.not_top_le_coe _)
    · refine ⟨startIn.notMax, (start_le_cut startIn hashes several).mp atStart, ?_⟩
      rcases finishPlace with isMax | finishIn
      · exact .inl isMax
      · exact .inr ((cut_le_finish finishIn hashes (by omega)).mp atEnd)
  · intro divisible index inside
    have startIn := startPlace.resolve_left (by simp [divisible.begins])
    rcases Nat.eq_zero_or_pos index with rfl | later
    · rw [interior Nat.zero_lt_one several]
      exact (start_le_cut startIn hashes several).mpr divisible.leaves
    rw [interior later inside]
    rcases Nat.lt_or_eq_of_le (show index + 1 ≤ partitions from inside) with before | ending
    · rw [interior (Nat.succ_pos index) before]
      exact hashObject_le_hashObject (cutHash_le_cutHash (Nat.le_succ index)) (cutHash_lt hashes before)
    · rw [ending, last]
      rcases finishPlace with isMax | finishIn
      · rw [HObject.position_of_max isMax]
        exact le_top
      · exact (cut_le_finish finishIn hashes inside).mpr (divisible.ends.resolve_left (by simp [finishIn.notMax]))

theorem inRange_iff {lower upper : ObjectCursor} {lowerObject upperObject : HObject}
    (decodesLower : lower.hobject = .ok lowerObject) (decodesUpper : upper.hobject = .ok upperObject)
    (object : HObject) :
    InRange lower upper object ↔ lowerObject.position ≤ object.position ∧ object.position < upperObject.position := by
  rw [InRange, ← compareHObject_ne_gt_iff, ← compareHObject_eq_lt_iff]
  constructor
  · rintro ⟨lowerObject', upperObject', decodes, decodes', inRange⟩
    rw [decodesLower] at decodes
    rw [decodesUpper] at decodes'
    rwa [Except.ok.inj decodes, Except.ok.inj decodes']
  · intro inRange
    exact ⟨_, _, decodesLower, decodesUpper, inRange⟩

/-- Boundaries that are decoded to objects in order divide their range. -/
theorem splits_iff {boundaries : List ObjectCursor} {cut : Nat → HObject}
    (length : boundaries.length = partitions + 1)
    (first : boundaries[0]? = some begin_) (last : boundaries[partitions]? = some end_)
    (each : ∀ index ≤ partitions, ∃ cursor, boundaries[index]? = some cursor ∧ pool.ownsCursor cursor = true ∧
      cursor.hobject = .ok (cut index)) :
    Splits begin_ end_ partitions boundaries ↔
      ∀ index < partitions, (cut index).position ≤ (cut (index + 1)).position := by
  have neighbours {index : Nat} {lower upper : ObjectCursor} (atIndex : boundaries[index]? = some lower)
      (atNext : boundaries[index + 1]? = some upper) : index < partitions ∧ pool.ownsCursor lower = true ∧
        pool.ownsCursor upper = true ∧ lower.hobject = .ok (cut index) ∧ upper.hobject = .ok (cut (index + 1)) := by
    have inside := (List.getElem?_eq_some_iff.mp atNext).1
    obtain ⟨lower', same, ownsLower, decodesLower⟩ := each index (by omega)
    obtain ⟨upper', same', ownsUpper, decodesUpper⟩ := each (index + 1) (by omega)
    obtain rfl := Option.some.inj (same.symm.trans atIndex)
    obtain rfl := Option.some.inj (same'.symm.trans atNext)
    exact ⟨by omega, ownsLower, ownsUpper, decodesLower, decodesUpper⟩
  constructor
  · intro splits index inside
    obtain ⟨lower, atIndex, ownsLower, decodesLower⟩ := each index inside.le
    obtain ⟨upper, atNext, ownsUpper, decodesUpper⟩ := each (index + 1) inside
    exact (notAfter_iff ownsLower ownsUpper decodesLower decodesUpper).mp
      (splits.ordered index lower upper atIndex atNext)
  · intro ordered
    obtain ⟨_, same, -, decodesBegin⟩ := each 0 (Nat.zero_le _)
    obtain ⟨_, same', -, decodesEnd⟩ := each partitions le_rfl
    obtain rfl := Option.some.inj (first.symm.trans same)
    obtain rfl := Option.some.inj (last.symm.trans same')
    refine ⟨length, first, last, fun index lower upper atIndex atNext => ?_, fun object => ?_⟩
    · obtain ⟨inside, ownsLower, ownsUpper, decodesLower, decodesUpper⟩ := neighbours atIndex atNext
      exact (notAfter_iff ownsLower ownsUpper decodesLower decodesUpper).mpr (ordered index inside)
    · rw [inRange_iff decodesBegin decodesEnd, existsUnique_between_cuts ordered]
      refine existsUnique_congr fun index => ?_
      constructor
      · rintro ⟨inside, inRange⟩
        obtain ⟨lower, atIndex, -, decodesLower⟩ := each index inside.le
        obtain ⟨upper, atNext, -, decodesUpper⟩ := each (index + 1) inside
        exact ⟨lower, upper, atIndex, atNext, (inRange_iff decodesLower decodesUpper object).mpr inRange⟩
      · rintro ⟨lower, upper, atIndex, atNext, inRange⟩
        obtain ⟨inside, -, -, decodesLower, decodesUpper⟩ := neighbours atIndex atNext
        exact ⟨inside, (inRange_iff decodesLower decodesUpper object).mp inRange⟩

/-- `SplitCursor` returns boundaries for every range. They divide it exactly when
there is nothing to divide or the range is divisible at hashes alone. -/
theorem splitCursor_divides (ownsBegin : pool.ownsCursor begin_ = true) (ownsEnd : pool.ownsCursor end_ = true)
    (decodesBegin : begin_.hobject = .ok start) (decodesEnd : end_.hobject = .ok finish)
    (notAfter : NotAfter begin_ end_) (positive : 1 ≤ partitions) (bound : partitions ≤ maxCursorPartitions) :
    ∃ boundaries, pool.splitCursor begin_ end_ partitions = .ok boundaries ∧
      (Splits begin_ end_ partitions boundaries ↔ partitions = 1 ∨ Divisible pool start finish partitions) := by
  have ordered := (notAfter_iff ownsBegin ownsEnd decodesBegin decodesEnd).mp notAfter
  have place {cursor : ObjectCursor} {object : HObject} (owns : pool.ownsCursor cursor = true)
      (decodes : cursor.hobject = .ok object) : object.max = true ∨ object.InPool pool.id := by
    rcases ObjectCursor.hobject_ok decodes with ⟨-, rfl⟩ | ⟨-, -, -, inPool⟩
    · exact .inl rfl
    · exact .inr ((ownsCursor_iff.mp owns).2.1 ▸ inPool)
  refine ⟨_, splitCursor_eq ownsBegin ownsEnd decodesBegin decodesEnd ordered positive bound, ?_⟩
  refine Iff.trans ?_ (cuts_ordered_iff (place ownsBegin decodesBegin) (place ownsEnd decodesEnd)
    (startHash_le_hashEnd ownsBegin ownsEnd decodesBegin decodesEnd ordered) ordered positive)
  refine splits_iff ?_ rfl ?_ fun index inside =>
    boundary_at ownsBegin ownsEnd decodesBegin decodesEnd positive inside
  · simp only [length_append, length_cons, length_map, length_range', length_nil]
    omega
  · rw [getElem?_append_right (by simp; omega)]
    simp [Nat.sub_add_cancel positive]

def smallPool : Pool where
  id := 1

def wholeBegin : ObjectCursor where
  poolID := 1
  namespace_ := []
  value := HObject.wireBytes { pool := Int64.minValue.toInt }

/-- The whole pool in four parts. -/
theorem splitCursor_divides_whole : smallPool.beginObjectCursor = .ok wholeBegin ∧
    ∃ boundaries, smallPool.splitCursor wholeBegin smallPool.endObjectCursor 4 = .ok boundaries ∧
      Splits wholeBegin smallPool.endObjectCursor 4 boundaries := by
  have decodes : wholeBegin.hobject = .ok { pool := Int64.minValue.toInt } := by decide +kernel
  have owned : smallPool.ownsCursor wholeBegin = true := by decide +kernel
  have ownedEnd : smallPool.ownsCursor smallPool.endObjectCursor = true := by decide
  have notAfter := (notAfter_iff owned ownedEnd decodes rfl).mpr le_top
  obtain ⟨boundaries, returned, divides⟩ :=
    splitCursor_divides owned ownedEnd decodes rfl notAfter (by decide : 1 ≤ 4) (by decide)
  exact ⟨newObjectCursor_eq _ _ _, boundaries, returned, divides.mpr (.inr ⟨rfl, .inl (by decide), .inl rfl⟩)⟩

/-- A position at hash 0 in the small pool. -/
def namedObject (name : Bytes) : HObject where
  object := name
  snapshot := noSnap
  pool := 1

def namedCursor (name : Bytes) : ObjectCursor where
  poolID := 1
  namespace_ := []
  value := (namedObject name).wireBytes

/-- A range inside one hash: the boundary in the middle comes before the begin, so the
first part is no range and the second holds objects from before the begin. -/
theorem splitCursor_before_begin :
    smallPool.splitCursor (namedCursor [98]) (namedCursor [99]) 2 =
      .ok [namedCursor [98], namedCursor [], namedCursor [99]] ∧
    NotAfter (namedCursor [98]) (namedCursor [99]) ∧
    compareObjectCursors (namedCursor [98]) (namedCursor []) = .ok .gt ∧
    ¬∃ boundaries, smallPool.splitCursor (namedCursor [98]) (namedCursor [99]) 2 = .ok boundaries ∧
      Splits (namedCursor [98]) (namedCursor [99]) 2 boundaries := by
  have returned : smallPool.splitCursor (namedCursor [98]) (namedCursor [99]) 2 =
      .ok [namedCursor [98], namedCursor [], namedCursor [99]] := by decide +kernel
  have compared : compareObjectCursors (namedCursor [98]) (namedCursor []) = .ok .gt := by decide +kernel
  refine ⟨returned, ⟨.lt, by decide +kernel, nofun⟩, compared, ?_⟩
  rintro ⟨boundaries, same, splits⟩
  obtain rfl := Except.ok.inj (returned.symm.trans same)
  obtain ⟨order, result, notGreater⟩ := splits.ordered 0 _ _ rfl rfl
  exact notGreater (Except.ok.inj (result.symm.trans compared))

end Pool

end RadosGo
