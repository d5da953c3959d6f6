import RadosGo.Library.Failing
import RadosGo.Msgr.Message
import RadosGo.Wire.Crc

namespace RadosGo

open Sentinel

def preambleSize : Nat := 32
def maxSegments : Nat := 4
def lateStatusAborted : UInt8 := 0x01
def lateStatusComplete : UInt8 := 0x0e
def secureTagSize : Nat := 16
def secureBlockSize : Nat := 16
def secureInlineSize : Nat := 48

/-- The first record of a secure frame. -/
def securePreamble : Nat := preambleSize + secureInlineSize + secureTagSize

/-- The bytes of the tags. -/
def Tag.code : Tag → UInt8
  | hello => 1
  | authRequest => 2
  | authBadMethod => 3
  | authReplyMore => 4
  | authRequestMore => 5
  | authDone => 6
  | authSignature => 7
  | clientIdent => 8
  | serverIdent => 9
  | identMissingFeatures => 10
  | sessionReconnect => 11
  | sessionReset => 12
  | sessionRetry => 13
  | sessionRetryGlobal => 14
  | sessionReconnectOK => 15
  | wait => 16
  | message => 17
  | keepalive2 => 18
  | keepalive2Ack => 19
  | ack => 20
  | compressionRequest => 21
  | compressionDone => 22
  | other code => code

def Tag.ofCode (code : UInt8) : Tag :=
  ([hello, authRequest, authBadMethod, authReplyMore, authRequestMore, authDone, authSignature, clientIdent,
    serverIdent,
    identMissingFeatures, sessionReconnect, sessionReset, sessionRetry, sessionRetryGlobal, sessionReconnectOK, wait,
    message, keepalive2, keepalive2Ack, ack, compressionRequest, compressionDone].find? (·.code = code)).getD
      (other code)

/-- From `TagHello` to `TagAck`. -/
def validTag : Tag → Bool
  | .compressionRequest | .compressionDone | .other _ => false
  | _ => true

def validAlignment (alignment : Nat) : Bool := alignment ≠ 0 ∧ alignment &&& (alignment - 1) = 0

/-- A number as `%#x` prints it. -/
def hexText (value : Nat) : String := "0x" ++ String.ofList (Nat.toDigits 16 value)

structure SegmentDescriptor where
  length : Nat
  alignment : Nat
  deriving DecidableEq, Repr

def Segment.descriptor (segment : Segment) : SegmentDescriptor := ⟨segment.data.length, segment.alignment⟩

/-- Trailing empty segments are dropped, but not the first one. -/
def trimSegments : List Segment → List Segment
  | [] => []
  | first :: rest => first :: rest.rdropWhile fun segment => segment.data.length = 0

def normalizeSegments (segments : List Segment) : Except GoError (List Segment) :=
  if segments.length < 1 ∨ segments.length > maxSegments then
    .error (GoError.errorf malformed s!"segment count {segments.length}")
  else .ok (trimSegments segments)

section Preamble

def encodeDescriptor (descriptor : SegmentDescriptor) : Bytes :=
  littleEndian 4 descriptor.length ++ littleEndian 2 descriptor.alignment

/-- The bytes of the preamble which its checksum covers. -/
def preambleBody (tag : Tag) (descriptors : List SegmentDescriptor) : Bytes :=
  let written := tag.code :: UInt8.ofNat descriptors.length :: descriptors.flatMap encodeDescriptor
  written ++ List.replicate (28 - written.length) 0

def encodePreamble (tag : Tag) (descriptors : List SegmentDescriptor) : Bytes :=
  let body := preambleBody tag descriptors
  body ++ littleEndian 4 (crc32c 0 body).toNat

def descriptorAt (preamble : Bytes) (index : Nat) : SegmentDescriptor :=
  let field := preamble.drop (2 + index * 6)
  ⟨fromLittleEndian (field.take 4), fromLittleEndian ((field.drop 4).take 2)⟩

def decodePreamble (preamble : Bytes) : Except GoError (Tag × List SegmentDescriptor) := do
  let got := (crc32c 0 (preamble.take 28)).toNat
  let want := fromLittleEndian (preamble.drop 28)
  if got ≠ want then
    throw (GoError.errorf integrity
      ("preamble crc calculated=" ++ hexText got ++ " encoded=" ++ hexText want))
  let tag := Tag.ofCode (preamble.getD 0 0)
  if !validTag tag then throw (GoError.errorf malformed s!"tag {tag.code.toNat}")
  let count := (preamble.getD 1 0).toNat
  if count < 1 ∨ count > maxSegments then throw (GoError.errorf malformed s!"segment count {count}")
  if preamble.getD 26 0 ≠ 0 ∨ preamble.getD 27 0 ≠ 0 then
    throw (GoError.errorf malformed "flags or reserved byte")
  let all := (List.range maxSegments).map (descriptorAt preamble)
  if ∃ descriptor ∈ all.drop count, descriptor ≠ ⟨0, 0⟩ then
    throw (GoError.errorf malformed "nonzero unused descriptor")
  let descriptors := all.take count
  if count > 1 ∧ (descriptors.getLastD ⟨0, 0⟩).length = 0 then
    throw (GoError.errorf malformed "trailing empty segment")
  return (tag, descriptors)

end Preamble

section Reader

/-- What a codec asks of its reader beside bytes. -/
inductive Reservation where
  | prelude
  | bytes (count : Nat)
  | releasePrelude
  | backing (size : Nat)
  deriving DecidableEq, Repr

/-- How a reader with a budget in the state `β` answers. -/
structure Reader (β : Type) where
  reserve : Reservation → β → Option GoError × β
  /-- It brings a buffer for the first record. -/
  hasPreludeBuffer : Bool

/-- A reader that takes no part in a budget. -/
def plainReader : Reader Unit where
  reserve _ budget := (none, budget)
  hasPreludeBuffer := false

/-- The bytes that have not been read, and what else a codec changes while it reads. -/
structure Input (γ : Type) where
  unread : Bytes
  rest : γ
  deriving DecidableEq

abbrev Receiving (γ : Type) := Failing GoError (Input γ)

variable {γ : Type}

/-- `io.ReadFull`, with the error that the codec makes of a failure. -/
def readFull (what : String) (size : Nat) : Receiving γ Bytes := do
  let input ← get
  if size ≤ input.unread.length then
    set { input with unread := input.unread.drop size }
    return input.unread.take size
  set { input with unread := [] }
  throw (GoError.errorf malformed
    (what ++ ": " ++ if input.unread.length = 0 then "EOF" else "unexpected EOF"))

def ask (answer : γ → Option GoError × γ) : Receiving γ Unit := do
  let input ← get
  let (err, rest) := answer input.rest
  set { input with rest }
  if let some err := err then throw err

end Reader

structure CRCCodec where
  withDataCRC : Bool

namespace CRCCodec

/-- The first segment has its checksum behind it unless it is empty. -/
def addition (index length : Nat) : Nat := if index = 0 ∧ length > 0 then length + 4 else length

/-- The loop of `Encode` over the segments, from one on. -/
def describe (limits : Limits) : Nat → Nat → List Segment → Except GoError (List SegmentDescriptor × Nat)
  | _, total, [] => .ok ([], total)
  | index, total, segment :: rest =>
    if segment.data.length > maxUint32 ∨ segment.data.length > limits.maxSegmentBytes then
      .error limitExceeded
    else if !validAlignment segment.alignment then
      .error (GoError.errorf malformed s!"segment {index} alignment {segment.alignment}")
    else if total > maxUint64 - addition index segment.data.length then .error limitExceeded
    else do
      let (descriptors, total) ← describe limits (index + 1) (total + addition index segment.data.length) rest
      return (segment.descriptor :: descriptors, total)

/-- The epilogue of a frame with more than one segment. -/
def withEpilogue (count total : Nat) : Nat := if count > 1 then total + 13 else total

variable (codec : CRCCodec)

def dataCRC (data : Bytes) : Nat := if codec.withDataCRC then (crc32c 0xffffffff data).toNat else 0

def encodeFirst (segment : Segment) : Bytes :=
  segment.data ++ if segment.data.length > 0 then littleEndian 4 (codec.dataCRC segment.data) else []

/-- The checksum of a segment that there is not is zero. -/
def encodeEpilogue (rest : List Segment) : Bytes :=
  lateStatusComplete :: (List.range (maxSegments - 1)).flatMap fun index =>
    littleEndian 4 ((rest[index]?.map fun segment => codec.dataCRC segment.data).getD 0)

def encodeSegments : List Segment → Bytes
  | [] => []
  | first :: rest =>
    codec.encodeFirst first ++ rest.flatMap Segment.data ++ if rest.length > 0 then codec.encodeEpilogue rest else []

/-- What `Encode` and `Read` check of the total. -/
def fits (total : Nat) (limits : Limits) : Bool := total ≤ limits.maxFrameBytes ∧ total ≤ maxInt

def encode (frame : Frame) (limits : Limits) : Except GoError Bytes := do
  let segments ← normalizeSegments frame.segments
  if !validTag frame.tag then throw (GoError.errorf malformed s!"tag {frame.tag.code.toNat}")
  let (descriptors, total) ← describe limits 0 preambleSize segments
  if !fits (withEpilogue segments.length total) limits then throw (GoError.sentinel .limitExceeded)
  return encodePreamble frame.tag descriptors ++ codec.encodeSegments segments

/-- The loop of `Read` over the descriptors, from one on. -/
def measure (limits : Limits) : Nat → Nat → List SegmentDescriptor → Except GoError Nat
  | _, total, [] => .ok total
  | index, total, descriptor :: rest =>
    if descriptor.length > limits.maxSegmentBytes ∨ !validAlignment descriptor.alignment then
      .error limitExceeded
    else if total > maxUint64 - addition index descriptor.length then .error limitExceeded
    else measure limits (index + 1) (total + addition index descriptor.length) rest

variable {γ : Type}

def readSegment (index : Nat) (descriptor : SegmentDescriptor) : Receiving γ Segment := do
  let data ← readFull s!"segment {index}" descriptor.length
  if index = 0 ∧ descriptor.length > 0 then
    let encoded ← readFull "segment 0 crc" 4
    if codec.withDataCRC ∧ (crc32c 0xffffffff data).toNat ≠ fromLittleEndian encoded then
      throw (GoError.errorf integrity "segment 0 crc")
  return ⟨descriptor.alignment, data⟩

def readSegments : Nat → List SegmentDescriptor → Receiving γ (List Segment)
  | _, [] => return []
  | index, descriptor :: rest => do
    let segment ← codec.readSegment index descriptor
    return segment :: (← readSegments (index + 1) rest)

/-- The checksums of the epilogue, from that of one segment on. -/
def checkData : Nat → Bytes → List Segment → Except GoError Unit
  | _, _, [] => .ok ()
  | index, sums, segment :: rest =>
    if codec.withDataCRC ∧ (crc32c 0xffffffff segment.data).toNat ≠ fromLittleEndian (sums.take 4) then
      .error (GoError.errorf integrity s!"segment {index} crc")
    else checkData (index + 1) (sums.drop 4) rest

def checkEpilogue (epilogue : Bytes) (segments : List Segment) : Except GoError Unit :=
  let status := epilogue.getD 0 0
  if status &&& 0x0f = lateStatusComplete then codec.checkData 1 (epilogue.drop 1) (segments.drop 1)
  else if status &&& 0x0f = lateStatusAborted then .error aborted
  else .error (GoError.errorf malformed ("late status " ++ hexText status.toNat))

/-- A small control frame is reserved from the allowance for controls. -/
def reservePayload (reader : Reader γ) (tag : Tag) (payloadBytes : Nat) : Receiving γ Unit := do
  if tag ≠ .message ∧ payloadBytes > 0 ∧ payloadBytes ≤ securePreamble then
    ask (reader.reserve .prelude)
    ask (reader.reserve (.bytes 0))
  else ask (reader.reserve (.bytes payloadBytes))

def read (reader : Reader γ) (limits : Limits) : Receiving γ Frame := do
  let preamble ← readFull "preamble" preambleSize
  let (tag, descriptors) ← MonadExcept.ofExcept (decodePreamble preamble)
  let total ← MonadExcept.ofExcept (measure limits 0 preambleSize descriptors)
  if !fits (withEpilogue descriptors.length total) limits then throw (GoError.sentinel .limitExceeded)
  reservePayload reader tag (descriptors.map SegmentDescriptor.length).sum
  let segments ← codec.readSegments 0 descriptors
  if descriptors.length > 1 then
    let epilogue ← readFull "epilogue" 13
    MonadExcept.ofExcept (codec.checkEpilogue epilogue segments)
  return { tag, segments }

end CRCCodec

section Message

open Decoding

def decodeMessageHeader (data : Bytes) : Except GoError MessageHeader :=
  if data.length ≠ messageHeaderSize then
    .error (GoError.errorf wireMalformed s!"message header length {data.length}")
  else
    let fields : Decoding MessageHeader := do
      let header : MessageHeader := {
        sequence := ← uint64, transactionID := ← uint64, type := ← uint16, priority := ← uint16, version := ← uint16,
        dataPrePaddingLength := ← uint32, dataOffset := ← uint16, ackSequence := ← uint64, flags := ← uint8,
        compatVersion := ← uint16, reserved := ← uint16 }
      finish
      if (← remaining) ≠ 0 then throw (GoError.errorf wireMalformed "trailing message header bytes")
      return header
    (fields.eval (newDecoder data 0)).1

def decodeMessage (frame : Frame) (limits : Limits) : Except GoError Message := do
  if frame.tag ≠ .message then throw (GoError.errorf wireMalformed s!"message tag {frame.tag.code.toNat}")
  if frame.segments.length < 1 ∨ frame.segments.length > messageAlignments.length then
    throw (GoError.errorf wireMalformed s!"message segment count {frame.segments.length}")
  validateMessageSegments frame.segments limits
  let payload (index : Nat) : Bytes := (frame.segments[index]?.map Segment.data).getD []
  let header ← decodeMessageHeader (payload 0)
  -- The check takes the length as an `uint32`.
  if header.dataPrePaddingLength > (payload 3).length % 2 ^ 32 then
    throw (GoError.errorf wireMalformed "data pre-padding exceeds data segment")
  let lengths : MessageLengths :=
    ⟨(payload 1).length % 2 ^ 32, (payload 2).length % 2 ^ 32, (payload 3).length % 2 ^ 32⟩
  return { header, lengths, front := payload 1, middle := payload 2, data := payload 3 }

end Message

end RadosGo
