import RadosGo.Msgr.Frame

namespace RadosGo

open Failing

def secureSecretSize : Nat := 64
def secureKeySize : Nat := 16

/-- An authenticated cipher under one key, without additional data. -/
structure AEAD where
  seals : (nonce plaintext : Bytes) → Bytes
  opens : (nonce ciphertext : Bytes) → Option Bytes

/-- One direction of a connection. -/
structure SecureDirection where
  aead : AEAD
  fixed : Nat
  counter : Nat
  exhausted : Bool := false
  /-- The nonces which the cipher was given so far, the last one first. The code keeps no such list. -/
  nonces : List Bytes := []
  bounded : counter ≤ maxUint64

structure SecureCodec where
  tx : SecureDirection
  rx : SecureDirection

namespace SecureDirection

def newSecureDirection (aead : AEAD) (seed : Bytes) : SecureDirection where
  aead := aead
  fixed := fromLittleEndian (seed.take 4)
  counter := fromLittleEndian ((seed.drop 4).take 8)
  bounded := by
    have small := fromLittleEndian_lt ((seed.drop 4).take 8)
    have width : 256 ^ ((seed.drop 4).take 8).length ≤ 256 ^ 8 :=
      Nat.pow_le_pow_right (by decide) (List.length_take_le ..)
    exact Nat.le_of_lt_succ (Nat.lt_of_lt_of_le small width)

variable (direction : SecureDirection)

def availableLocked (count : Nat) : Bool :=
  count = 0 ∨ (!direction.exhausted ∧ count - 1 ≤ maxUint64 - direction.counter)

def nonce : Bytes := littleEndian 4 direction.fixed ++ littleEndian 8 direction.counter

/-- The last number is used as well. -/
def advance : SecureDirection :=
  if last : direction.counter = maxUint64 then { direction with exhausted := true }
  else { direction with counter := direction.counter + 1, bounded := Nat.lt_of_le_of_ne direction.bounded last }

def nonceLocked : Failing GoError SecureDirection Bytes := do
  let direction ← get
  if !direction.availableLocked 1 then throw (GoError.sentinel .counterExhausted)
  set direction.advance
  return direction.nonce

/-- The cipher is given a nonce. -/
def given (nonce : Bytes) : SecureDirection := { direction with nonces := nonce :: direction.nonces }

def sealLocked (plaintext : Bytes) : Failing GoError SecureDirection Bytes := do
  let nonce ← nonceLocked
  let direction ← get
  set (direction.given nonce)
  return direction.aead.seals nonce plaintext

end SecureDirection

open SecureDirection

/-- The cipher is that of `crypto/aes` with `cipher.NewGCM`, for each key. -/
def newSecureCodec (cipher : Bytes → AEAD) (secret : Bytes) (server : Bool) : Except GoError SecureCodec :=
  if secret.length ≠ secureSecretSize then
    .error (GoError.errorf Sentinel.invalidSecret s!"got {secret.length} bytes, want {secureSecretSize}")
  else
    let clientRX := (secret.drop 16).take 12
    let clientTX := (secret.drop 28).take 12
    let aead := cipher (secret.take secureKeySize)
    let rxSeed := if server then clientTX else clientRX
    let txSeed := if server then clientRX else clientTX
    .ok ⟨newSecureDirection aead txSeed, newSecureDirection aead rxSeed⟩

section Sizes

/-- A number is rounded up to a multiple of the block size. -/
def paddedSecureLength (length : Nat) : Nat := (length + secureBlockSize - 1) / secureBlockSize * secureBlockSize

def zeros (count : Nat) : Bytes := List.replicate count 0

def allZero (data : Bytes) : Bool := data.all (· = 0)

def padded (data : Bytes) : Bytes := data ++ zeros (paddedSecureLength data.length - data.length)

/-- The loop over the lengths behind the first one. -/
def sumPadded : Nat → List Nat → Except GoError Nat
  | wireSize, [] => .ok wireSize
  | wireSize, length :: rest =>
    if wireSize > maxUint64 - paddedSecureLength length then .error Sentinel.limitExceeded
    else sumPadded (wireSize + paddedSecureLength length) rest

/-- What a first segment adds that does not fit into the first record: a record with the rest of it. -/
def secondRecord (length : Nat) : Nat :=
  if paddedSecureLength length > secureInlineSize then
    paddedSecureLength length - secureInlineSize + secureTagSize
  else 0

/-- A frame has a first record, one with the rest of the first segment and one with the other segments. -/
def secureRecords (lengths : List Nat) : Nat :=
  (if paddedSecureLength (lengths.headD 0) > secureInlineSize then 2 else 1) + if lengths.length > 1 then 1 else 0

def secureWireSize (lengths : List Nat) : Except GoError Nat :=
  let wireSize := securePreamble + secondRecord (lengths.headD 0)
  if lengths.length > 1 then sumPadded (wireSize + (secureBlockSize + secureTagSize)) lengths.tail else .ok wireSize

/-- The size and the number of the records of a frame. -/
def secureSizes (limits : Limits) (lengths : List Nat) : Except GoError (Nat × Nat) := do
  let wireSize ← secureWireSize lengths
  if wireSize > limits.maxFrameBytes ∨ wireSize > maxInt then throw (GoError.sentinel .limitExceeded)
  return (wireSize, secureRecords lengths)

/-- The loop of `prepareSecureFrame` over the segments, from one on. -/
def secureDescribe (limits : Limits) : Nat → List Segment → Except GoError (List SegmentDescriptor)
  | _, [] => .ok []
  | index, segment :: rest =>
    if segment.data.length > maxUint32 ∨ segment.data.length > limits.maxSegmentBytes then
      .error Sentinel.limitExceeded
    else if !validAlignment segment.alignment then
      .error (GoError.errorf Sentinel.malformed s!"segment {index} alignment {segment.alignment}")
    else do
      let descriptors ← secureDescribe limits (index + 1) rest
      return segment.descriptor :: descriptors

structure Prepared where
  descriptors : List SegmentDescriptor
  segments : List Segment
  wireSize : Nat
  records : Nat

def prepareSecureFrame (frame : Frame) (limits : Limits) : Except GoError Prepared := do
  let segments ← normalizeSegments frame.segments
  if !validTag frame.tag then throw (GoError.errorf Sentinel.malformed s!"tag {frame.tag.code.toNat}")
  let descriptors ← secureDescribe limits 0 segments
  let (wireSize, records) ← secureSizes limits (descriptors.map SegmentDescriptor.length)
  return ⟨descriptors, segments, wireSize, records⟩

/-- The loop of `validateSecureDescriptors`, from one descriptor on. -/
def checkDescriptors (limits : Limits) : Nat → List SegmentDescriptor → Except GoError Unit
  | _, [] => .ok ()
  | index, descriptor :: rest =>
    if !validAlignment descriptor.alignment then
      .error (GoError.errorf Sentinel.malformed s!"segment {index} alignment {descriptor.alignment}")
    else if descriptor.length > limits.maxSegmentBytes then .error Sentinel.limitExceeded
    else checkDescriptors limits (index + 1) rest

def validateSecureDescriptors (descriptors : List SegmentDescriptor) (limits : Limits) :
    Except GoError (Nat × Nat) := do
  checkDescriptors limits 0 descriptors
  secureSizes limits (descriptors.map SegmentDescriptor.length)

end Sizes

section Encode

/-- The last block of a frame with more than one segment. -/
def secureEpilogue : Bytes := lateStatusComplete :: zeros (secureBlockSize - 1)

def leasedPayloadPrefix : Nat := 1024

/-- The payload of a lease that `NewPaddedMessageLease` made. Its storage has room for other segments in front of
it and the last block behind it. -/
structure LeasedPayload where
  payload : Bytes
  nonempty : payload ≠ []
  blocks : payload.length % secureBlockSize = 0

/-- The segments in front of the payload, or nothing if they have no room. -/
def leasedPrefix : Nat → List Segment → Option Bytes
  | _, [] => some []
  | prefixSize, segment :: rest =>
    if paddedSecureLength segment.data.length > leasedPayloadPrefix - prefixSize then none
    else (leasedPrefix (prefixSize + paddedSecureLength segment.data.length) rest).map (padded segment.data ++ ·)

/-- The segments behind the first one, as they lie in the storage of the lease. The code compares addresses: only
a segment that is the payload of the lease lies there. -/
def securePlaintext (lease : LeasedPayload) (rest : List Segment) : Option Bytes :=
  match rest.getLast? with
  | none => none
  | some last =>
    if last.data ≠ lease.payload then none
    else (leasedPrefix 0 rest.dropLast).map (· ++ (lease.payload ++ secureEpilogue))

/-- The plaintext of the last record. -/
def remainingPlaintext (lease : Option LeasedPayload) (rest : List Segment) : Bytes :=
  let copied := rest.flatMap (fun segment => padded segment.data) ++ secureEpilogue
  match lease.bind fun lease => securePlaintext lease rest with
  | some plaintext => if plaintext.length = copied.length then plaintext else copied
  | none => copied

/-- The plaintext of the first record. -/
def firstPlaintext (tag : Tag) (descriptors : List SegmentDescriptor) (data : Bytes) : Bytes :=
  encodePreamble tag descriptors ++ (data.take secureInlineSize ++ zeros (secureInlineSize - data.length))

/-- The bytes of a first segment behind those in the first record. -/
def secondPlaintext (data : Bytes) : Bytes :=
  data.drop secureInlineSize ++ zeros (paddedSecureLength data.length - data.length)

/-- The record with the rest of a first segment, if it has one. -/
def sealSecond (first : Bytes) : Failing GoError SecureDirection Bytes :=
  if paddedSecureLength first.length > secureInlineSize then sealLocked (secondPlaintext first) else return []

def encodeInto (lease : Option LeasedPayload) (frame : Frame) (limits : Limits) :
    Failing GoError SecureDirection Bytes := do
  let prepared ← MonadExcept.ofExcept (prepareSecureFrame frame limits)
  if !(← get).availableLocked prepared.records then throw (GoError.sentinel .counterExhausted)
  let first := (prepared.segments.headD ⟨0, []⟩).data
  let result ← sealLocked (firstPlaintext frame.tag prepared.descriptors first)
  let second ← sealSecond first
  if prepared.segments.length = 1 then return result ++ second
  let last ← sealLocked (remainingPlaintext lease prepared.segments.tail)
  return result ++ second ++ last

end Encode

section Read

variable {β : Type}

/-- The reader of a secure codec also has the direction of the codec. -/
def askBudget (reader : Reader β) (reservation : Reservation) : Receiving (SecureDirection × β) Unit :=
  ask fun rest =>
    let (err, budget) := reader.reserve reservation rest.2
    (err, (rest.1, budget))

/-- The nonce is used even if the record is not authentic. -/
def openLocked (ciphertext : Bytes) : Receiving (SecureDirection × β) Bytes := do
  let input ← get
  let (result, direction) := nonceLocked.exec input.rest.1
  set { input with rest := (direction, input.rest.2) }
  let nonce ← MonadExcept.ofExcept result
  set { input with rest := (direction.given nonce, input.rest.2) }
  match direction.aead.opens nonce ciphertext with
  | none => throw (GoError.errorf Sentinel.integrity "secure authentication tag")
  | some plaintext => return plaintext

/-- The segments behind the first one, and the bytes behind them. -/
def splitSegments : Nat → Bytes → List SegmentDescriptor → Except GoError (List Segment × Bytes)
  | _, remaining, [] => .ok ([], remaining)
  | index, remaining, descriptor :: rest =>
    let size := paddedSecureLength descriptor.length
    if !allZero ((remaining.take size).drop descriptor.length) then
      .error (GoError.errorf Sentinel.malformed s!"segment {index} padding")
    else do
      let (segments, epilogue) ← splitSegments (index + 1) (remaining.drop size) rest
      return (⟨descriptor.alignment, remaining.take descriptor.length⟩ :: segments, epilogue)

def checkSecureEpilogue (epilogue : Bytes) : Except GoError Unit :=
  let status := epilogue.getD 0 0
  if epilogue.length ≠ secureBlockSize ∨ !allZero (epilogue.drop 1) then
    .error (GoError.errorf Sentinel.malformed "secure epilogue padding")
  else if status &&& 0x0f = lateStatusComplete then .ok ()
  else if status &&& 0x0f = lateStatusAborted then .error Sentinel.aborted
  else .error (GoError.errorf Sentinel.malformed ("late status " ++ hexText status.toNat))

/-- What `Read` reserves before it reads the records behind the first one, and what it keeps. -/
structure SecureBudget where
  peak : Nat
  retained : Nat
  inlineControl : Bool

def secureBudget (hasPreludeBuffer : Bool) (tag : Tag) (descriptors : List SegmentDescriptor) (wireSize : Nat) :
    SecureBudget :=
  let first := (descriptors.headD ⟨0, 0⟩).length
  let firstPadded := paddedSecureLength first
  let remainingSize := wireSize - securePreamble - secondRecord first
  let inlineControl := tag ≠ .message ∧ firstPadded ≤ secureInlineSize ∧ descriptors.length = 1
  if inlineControl then ⟨0, 0, true⟩
  else if firstPadded > secureInlineSize then
    { peak := securePreamble + (firstPadded + secondRecord first) + remainingSize
      retained := firstPadded + (if hasPreludeBuffer then securePreamble else 0) + remainingSize
      inlineControl := false }
  else ⟨securePreamble + remainingSize, securePreamble + remainingSize, false⟩

/-- The first segment with its padding. -/
def readFirst (first : Bytes) (length : Nat) : Receiving (SecureDirection × β) Bytes := do
  if paddedSecureLength length > secureInlineSize then
    let ciphertext ← readFull "secure segment 0" (secondRecord length)
    let remainder ← openLocked ciphertext
    return (first.drop preambleSize).take secureInlineSize ++ remainder
  else return (first.drop preambleSize).take secureInlineSize

/-- The first segment without its padding. -/
def trimFirst (descriptor : SegmentDescriptor) (firstData : Bytes) : Except GoError Segment :=
  if !allZero (firstData.drop descriptor.length) then .error (GoError.errorf Sentinel.malformed "segment 0 padding")
  else .ok ⟨descriptor.alignment, firstData.take descriptor.length⟩

/-- A control frame in one record keeps its prelude. -/
def releasePrelude (reader : Reader β) (inlineControl : Bool) : Receiving (SecureDirection × β) Unit :=
  if !inlineControl then askBudget reader .releasePrelude else return ()

/-- The segments behind the first one. -/
def readRemaining (reader : Reader β) (descriptors : List SegmentDescriptor) (remainingSize : Nat) :
    Receiving (SecureDirection × β) (List Segment) := do
  if descriptors.length = 1 then return []
  askBudget reader (.backing remainingSize)
  let remainingCiphertext ← readFull "secure remaining segments" remainingSize
  let remaining ← openLocked remainingCiphertext
  let (segments, epilogue) ← MonadExcept.ofExcept (splitSegments 1 remaining descriptors.tail)
  MonadExcept.ofExcept (checkSecureEpilogue epilogue)
  return segments

def SecureCodec.read (reader : Reader β) (limits : Limits) : Receiving (SecureDirection × β) Frame := do
  if !(← get).rest.1.availableLocked 1 then throw (GoError.sentinel .counterExhausted)
  if limits.maxFrameBytes < securePreamble then throw (GoError.sentinel .limitExceeded)
  askBudget reader .prelude
  let firstCiphertext ← readFull "secure preamble" securePreamble
  let first ← openLocked firstCiphertext
  let (tag, descriptors) ← MonadExcept.ofExcept (decodePreamble (first.take preambleSize))
  let (wireSize, records) ← MonadExcept.ofExcept (validateSecureDescriptors descriptors limits)
  if !(← get).rest.1.availableLocked (records - 1) then throw (GoError.sentinel .counterExhausted)
  let budget := secureBudget reader.hasPreludeBuffer tag descriptors wireSize
  askBudget reader (.bytes budget.peak)
  releasePrelude reader budget.inlineControl
  let descriptor := descriptors.headD ⟨0, 0⟩
  let firstData ← readFirst first descriptor.length
  let segment ← MonadExcept.ofExcept (trimFirst descriptor firstData)
  let segments ← readRemaining reader descriptors (wireSize - securePreamble - secondRecord descriptor.length)
  askBudget reader (.bytes budget.retained)
  return { tag, segments := segment :: segments }

end Read

end RadosGo
