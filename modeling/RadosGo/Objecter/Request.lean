import RadosGo.Wire.Codec
import RadosGo.Msgr.Control

namespace RadosGo

structure PG where
  pool : Nat
  seed : Nat
  preferred : Int
  deriving DecidableEq, Repr

/-- An object in the order of a placement group. -/
structure HObject where
  key : Bytes := []
  object : Bytes := []
  snapshot : Nat := 0
  hash : UInt32 := 0
  max : Bool := false
  namespace_ : Bytes := []
  pool : Int := 0
  deriving DecidableEq, Repr

structure Target where
  poolID : Int
  object : Bytes
  locator : Bytes := []
  namespace_ : Bytes := []
  snapshot : Nat := 0
  snapshotSequence : Nat := 0
  writeSnapshots : List Nat := []
  deriving DecidableEq, Repr

structure Route where
  epoch : Nat
  pg : PG
  rawHash : UInt32
  primary : Int
  shard : Int := 0
  sharded : Bool := false
  addresses : List EntityAddr
  deriving DecidableEq, Repr

/-- An operation, as far as the retry loop looks at it. -/
structure Operation where
  code : Nat
  flags : Nat := 0
  length : Nat := 0
  deriving DecidableEq, Repr

structure Request where
  mapEpoch : Nat
  pg : PG
  shard : Int
  sharded : Bool
  objectHash : UInt32
  poolID : Int
  object : Bytes
  locator : Bytes
  namespace_ : Bytes
  snapshot : Nat
  snapshotSequence : Nat
  writeSnapshots : List Nat
  transactionID : Nat
  clientGlobalID : Nat
  clientIncarnation : Int
  retry : Int
  flags : Nat
  explicitFlags : Bool
  features : Nat
  operations : List Operation
  deriving DecidableEq, Repr

structure OperationResult where
  operation : Nat
  code : Int
  data : Bytes := []
  deriving DecidableEq, Repr

structure Redirect where
  pool : Int
  locator : Bytes
  namespace_ : Bytes
  object : Bytes
  deriving DecidableEq, Repr

structure Reply where
  object : Bytes
  pg : PG
  flags : Int := 0
  result : Int := 0
  retry : Int := -1
  version : Nat := 0
  redirect : Option Redirect := none
  operations : List OperationResult := []
  deriving DecidableEq, Repr

/-- `EncodeRequest` and `DecodeReply` with the limits of one client, and their
variants which share the buffers of the caller and of the message. What
matters of the encoding is the transaction ID in the header. -/
structure RequestCodec where
  encodeRequest : Request → Except GoError Message
  encodeImmutableRequest : Request → Except GoError Message
  decodeReply : Message → Except GoError Reply
  decodeOwnedReply : Message → Except GoError Reply
  encodeRequest_id : ∀ request message, encodeRequest request = .ok message →
    message.header.transactionID = request.transactionID
  encodeImmutableRequest_id : ∀ request message, encodeImmutableRequest request = .ok message →
    message.header.transactionID = request.transactionID

def opRead : Nat := 0x1201
def opNotify : Nat := 0x1206
def opNotifyAck : Nat := 0x1207
def opWatch : Nat := 0x220f

def opFlagFailOK : Nat := 0x2

def flagOnDisk : Nat := 0x4
def flagRetry : Nat := 0x8
def flagIgnoreCache : Nat := 0x8000
def flagIgnoreOverlay : Nat := 0x20000
def flagRedirected : Nat := 0x200000
def flagReturnVector : Nat := 0x04000000

def featureMonitorClient : Nat := 0x2e070282d2354004 ||| 2 ^ 5 ||| 2 ^ 15 ||| 0x0f04088090212a04 ||| 2 ^ 36
def featureOSDClient : Nat := featureMonitorClient ||| 2 ^ 12 ||| 2 ^ 9 ||| 2 ^ 56 ||| 2 ^ 58 ||| 2 ^ 59

/-- The conversion `int32(value)` of a counter. -/
def toInt32 (value : Nat) : Int := Int.bmod value (2 ^ 32)

def toUint64 (value : Int) : Nat := (value % 2 ^ 64).toNat

def explicitCoordinationFlags (operations : List Operation) : Bool :=
  operations.all (fun operation =>
    operation.code == opWatch || operation.code == opNotify || operation.code == opNotifyAck) &&
  !operations.isEmpty

/-- Once an outcome is unknown, every later error is reported beside it. -/
def preserveOutcomeUnknown (previous : Option GoError) (current : GoError) : GoError :=
  match previous with
  | some earlier =>
    if earlier.Is .outcomeUnknown then .join (earlier.text ++ "\n" ++ current.text) earlier current else current
  | none => current

theorem preserveOutcomeUnknown_is (previous : Option GoError) (current : GoError) :
    (preserveOutcomeUnknown previous current).Is .outcomeUnknown =
      (errorIs previous .outcomeUnknown || current.Is .outcomeUnknown) := by
  cases previous with
  | none => simp [preserveOutcomeUnknown]
  | some earlier => cases unknown : earlier.Is .outcomeUnknown <;> simp [preserveOutcomeUnknown, unknown, GoError.Is]

/-- `takeTransactionID` on the counter of the client. -/
def takeTransactionID (nextTransaction : Nat) : Except GoError (Nat × Nat) :=
  if nextTransaction = maxUint64 then .error Sentinel.wireLimitExceeded
  else
    let transactionID := if nextTransaction = 0 then 1 else nextTransaction
    .ok (transactionID, transactionID + 1)

end RadosGo
