import RadosGo.Objecter.Request

namespace RadosGo

/-- Exchanges neighbouring groups of bits, of which the mask selects the lower ones. -/
def swapBits (width mask value : UInt32) : UInt32 := ((value >>> width) &&& mask) ||| ((value &&& mask) <<< width)

def reverseBits (value : UInt32) : UInt32 :=
  swapBits 16 0x0000ffff (swapBits 8 0x00ff00ff
    (swapBits 4 0x0f0f0f0f (swapBits 2 0x33333333 (swapBits 1 0x55555555 value))))

def compareOrdered {α : Type} [LT α] [DecidableLT α] (left right : α) : Ordering :=
  if left < right then .lt else if right < left then .gt else .eq

def compareBool (left right : Bool) : Ordering :=
  if left = right then .eq else if !left then .lt else .gt

def effectiveKey (object : HObject) : Bytes := if object.key ≠ [] then object.key else object.object

/-- The order of the objects of a placement group: the first difference decides. -/
def compareHObject (left right : HObject) : Ordering :=
  if left.max && right.max then .eq
  else
    (compareBool left.max right.max).then <|
    (compareOrdered left.pool right.pool).then <|
    (compareOrdered (reverseBits left.hash) (reverseBits right.hash)).then <|
    (compareOrdered left.namespace_ right.namespace_).then <|
    (if left.key ≠ [] ∨ right.key ≠ [] then compareOrdered (effectiveKey left) (effectiveKey right) else .eq).then <|
    (compareOrdered left.object right.object).then <|
    compareOrdered left.snapshot right.snapshot

inductive BackoffOperation where
  | block
  | unblock
  deriving DecidableEq, Repr

structure Backoff where
  pg : PG
  operation : BackoffOperation
  id : Nat
  begin_ : HObject
  end_ : HObject
  deriving DecidableEq, Repr

/-- An empty range stands for the one object at its ends. -/
def Backoff.contains (backoff : Backoff) (target : HObject) : Bool :=
  if compareHObject backoff.begin_ backoff.end_ = .eq then decide (compareHObject target backoff.begin_ = .eq)
  else decide (compareHObject backoff.begin_ target ≠ .gt) && decide (compareHObject target backoff.end_ = .lt)

def backoffCharge (backoff : Backoff) : Nat :=
  1024 + backoff.begin_.key.length + backoff.begin_.object.length + backoff.begin_.namespace_.length +
    backoff.end_.key.length + backoff.end_.object.length + backoff.end_.namespace_.length

end RadosGo
