import RadosGo.Objecter.Position
import RadosGo.Wire.ObjectCodec

namespace RadosGo

structure Pool where
  id : Int64
  namespace_ : Bytes := []
  deriving DecidableEq

structure ObjectCursor where
  poolID : Int64
  namespace_ : Bytes
  value : Bytes := []
  end_ : Bool := false
  deriving DecidableEq

def objectCursorMaxBytes : Nat := 1024

def maxCursorPartitions : Nat := 2 ^ 20

def noSnap : Nat := 2 ^ 64 - 2

namespace HObject

def isMin (object : HObject) : Bool :=
  object.snapshot == 0 && object.hash == 0 && !object.max && object.pool == Int64.minValue.toInt

def isMax (object : HObject) : Bool := object.max

end HObject

namespace ObjectCursor

def valid (cursor : ObjectCursor) : Bool := cursor.end_ || cursor.value != []

def hobject (cursor : ObjectCursor) : Except GoError HObject :=
  if cursor.end_ then .ok { max := true }
  else if cursor.value = [] then .error Sentinel.invalidArgument
  else
    match unmarshalHObject cursor.value objectCursorMaxBytes with
    | .error _ => .error Sentinel.invalidArgument
    | .ok object =>
      if object.isMax || (!object.isMin && (object.pool != cursor.poolID.toInt || object.snapshot != noSnap)) then
        .error Sentinel.invalidArgument
      else .ok object

end ObjectCursor

def newObjectCursor (poolID : Int64) (namespace_ : Bytes) (object : HObject) : Except Fault ObjectCursor :=
  match marshalHObject object objectCursorMaxBytes with
  | .error _ => .error (.panicked "fixed-size object cursor exceeded its encoding bound")
  | .ok value => .ok { poolID, namespace_, value }

def compareObjectCursors (left right : ObjectCursor) : Except GoError Ordering :=
  if !left.valid || !right.valid || left.poolID != right.poolID || left.namespace_ != right.namespace_ then
    .error Sentinel.invalidArgument
  else if left.end_ || right.end_ then
    if left.end_ = right.end_ then .ok .eq
    else if left.end_ then .ok .gt
    else .ok .lt
  else
    match left.hobject, right.hobject with
    | .ok leftObject, .ok rightObject => .ok (compareHObject leftObject rightObject)
    | _, _ => .error Sentinel.invalidArgument

namespace Pool

def beginObjectCursor (pool : Pool) : Except Fault ObjectCursor :=
  newObjectCursor pool.id pool.namespace_ { pool := Int64.minValue.toInt }

def endObjectCursor (pool : Pool) : ObjectCursor where
  poolID := pool.id
  namespace_ := pool.namespace_
  end_ := true

def ownsCursor (pool : Pool) (cursor : ObjectCursor) : Bool :=
  cursor.valid && cursor.poolID == pool.id && cursor.namespace_ == pool.namespace_

/-- One round of the loop of `SplitCursor`. -/
def boundary (pool : Pool) (startHash difference : UInt64) (partitions index : Nat) : Except Fault ObjectCursor :=
  let parts := UInt64.ofNat partitions
  let reversed :=
    startHash + difference / parts * UInt64.ofNat index + difference % parts * UInt64.ofNat index / parts
  if reversed ≥ (1 : UInt64) <<< 32 then .ok pool.endObjectCursor
  else newObjectCursor pool.id pool.namespace_
    { snapshot := noSnap, hash := reverseBits reversed.toUInt32, pool := pool.id.toInt }

def splitCursor (pool : Pool) (begin_ end_ : ObjectCursor) (partitions : Nat) : Except Fault (List ObjectCursor) :=
  if partitions = 0 ∨ partitions > maxCursorPartitions ∨ !pool.ownsCursor begin_ ∨ !pool.ownsCursor end_ then
    .error (.err Sentinel.invalidArgument)
  else
    match compareObjectCursors begin_ end_, begin_.hobject, end_.hobject with
    | .error _, _, _ | .ok .gt, _, _ | .ok _, .error _, _ | .ok _, .ok _, .error _ =>
      .error (.err Sentinel.invalidArgument)
    | .ok _, .ok startObject, .ok finishObject => do
      let startHash := (reverseBits startObject.hash).toUInt64
      let finishHash := if finishObject.isMax then (1 : UInt64) <<< 32 else (reverseBits finishObject.hash).toUInt64
      let interior ← (List.range' 1 (partitions - 1)).mapM
        (pool.boundary startHash (finishHash - startHash) partitions)
      .ok (begin_ :: interior ++ [end_])

end Pool

/-- The objects, apart from the end, which a cursor of a pool may name: the begin of
the whole order, or an object of the pool itself. -/
structure HObject.InPool (object : HObject) (poolID : Int64) : Prop where
  notMax : object.max = false
  place : object.isMin = true ∨ object.pool = poolID.toInt ∧ object.snapshot = noSnap

variable {poolID : Int64}

theorem HObject.InPool.accepted {object : HObject} (inPool : object.InPool poolID) :
    (object.isMax || (!object.isMin && (object.pool != poolID.toInt || object.snapshot != noSnap))) = false := by
  rcases inPool.place with isMin | ⟨pool, snapshot⟩
  · simp [HObject.isMax, inPool.notMax, isMin]
  · simp [HObject.isMax, inPool.notMax, pool, snapshot]

theorem HObject.InPool.pool_le {object : HObject} (inPool : object.InPool poolID) : object.pool ≤ poolID.toInt := by
  rcases inPool.place with isMin | ⟨same, -⟩
  · simp only [HObject.isMin, Bool.and_eq_true, beq_iff_eq] at isMin
    rw [isMin.2]
    exact poolID.le_toInt
  · exact same.le

theorem HObject.InPool.snapshot_le {object : HObject} (inPool : object.InPool poolID) : object.snapshot ≤ noSnap := by
  rcases inPool.place with isMin | ⟨-, same⟩
  · simp only [HObject.isMin, Bool.and_eq_true, beq_iff_eq] at isMin
    simp [isMin.1.1.1]
  · exact same.le

namespace ObjectCursor

variable {cursor left right : ObjectCursor} {object leftObject rightObject : HObject}

/-- What a cursor that can be decoded names. -/
theorem hobject_ok (decoded : cursor.hobject = .ok object) :
    cursor.end_ = true ∧ object = { max := true } ∨
      cursor.end_ = false ∧ cursor.value ≠ [] ∧ object.Representable ∧ object.InPool cursor.poolID := by
  revert decoded
  fun_cases hobject cursor
  all_goals rintro ⟨⟩
  · next atEnd => exact .inl ⟨atEnd, rfl⟩
  · next notEnd nonempty read accepted =>
    simp only [HObject.isMax, Bool.or_eq_true, Bool.and_eq_true, Bool.not_eq_true', bne_iff_ne, not_or, not_and,
      Bool.not_eq_true, not_not] at accepted
    refine .inr ⟨by simpa using notEnd, nonempty, unmarshalHObject_representable read, accepted.1, ?_⟩
    cases isMin : HObject.isMin _ with
    | true => exact .inl rfl
    | false => exact .inr (accepted.2 isMin)

theorem valid_of_hobject (decoded : cursor.hobject = .ok object) : cursor.valid = true := by
  rcases hobject_ok decoded with ⟨atEnd, -⟩ | ⟨-, nonempty, -⟩
  · simp [valid, atEnd]
  · simp [valid, nonempty]

end ObjectCursor

open ObjectCursor in
/-- Cursors of one pool are ordered as the objects they name. -/
theorem compareObjectCursors_eq {left right : ObjectCursor} {leftObject rightObject : HObject}
    (samePool : left.poolID = right.poolID) (sameNamespace : left.namespace_ = right.namespace_)
    (leftDecoded : left.hobject = .ok leftObject) (rightDecoded : right.hobject = .ok rightObject) :
    compareObjectCursors left right = .ok (compareHObject leftObject rightObject) := by
  rw [compareObjectCursors, if_neg (by simp [valid_of_hobject leftDecoded, valid_of_hobject rightDecoded, samePool,
    sameNamespace]), leftDecoded, rightDecoded]
  rcases hobject_ok leftDecoded with ⟨leftEnd, rfl⟩ | ⟨leftEnd, -, -, leftIn⟩
  · rcases hobject_ok rightDecoded with ⟨rightEnd, rfl⟩ | ⟨rightEnd, -, -, rightIn⟩
    · simp [leftEnd, rightEnd, compareHObject]
    · simp [leftEnd, rightEnd, compareHObject, rightIn.notMax, compareBool]
  · rcases hobject_ok rightDecoded with ⟨rightEnd, rfl⟩ | ⟨rightEnd, -, -, -⟩
    · simp [leftEnd, rightEnd, compareHObject, leftIn.notMax, compareBool]
    · simp [leftEnd, rightEnd]

theorem newObjectCursor_eq (poolID : Int64) (namespace_ : Bytes) (object : HObject) :
    newObjectCursor poolID namespace_ object =
      if 39 + object.nameLength ≤ objectCursorMaxBytes then .ok { poolID, namespace_, value := object.wireBytes }
      else .error (.panicked "fixed-size object cursor exceeded its encoding bound") := by
  rw [newObjectCursor, marshalHObject_eq object (by decide)]
  by_cases fits : 39 + object.nameLength ≤ objectCursorMaxBytes
  · rw [if_pos fits, if_pos fits]
  · rw [if_neg fits, if_neg fits]

theorem hobject_wireBytes {object : HObject} (representable : object.Representable) (inPool : object.InPool poolID)
    (fits : 39 + object.nameLength ≤ objectCursorMaxBytes) (namespace_ : Bytes) :
    ObjectCursor.hobject { poolID, namespace_, value := object.wireBytes } = .ok object := by
  have nonempty : object.wireBytes ≠ [] := List.ne_nil_of_length_pos (by rw [object.wireBytes_length]; omega)
  simp only [ObjectCursor.hobject, Bool.false_eq_true, if_false, if_neg nonempty,
    unmarshalHObject_wireBytes representable (by decide) fits, inPool.accepted]

end RadosGo
