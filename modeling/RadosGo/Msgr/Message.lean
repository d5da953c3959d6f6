import RadosGo.Errors
import RadosGo.Library.LittleEndian

namespace RadosGo

/-- The frame tags of messenger v2, with every other byte kept as it came. -/
inductive Tag where
  | hello
  | authRequest
  | authBadMethod
  | authReplyMore
  | authRequestMore
  | authDone
  | authSignature
  | clientIdent
  | serverIdent
  | identMissingFeatures
  | sessionReconnect
  | sessionReset
  | sessionRetry
  | sessionRetryGlobal
  | sessionReconnectOK
  | wait
  | message
  | keepalive2
  | keepalive2Ack
  | ack
  | compressionRequest
  | compressionDone
  | other (code : UInt8)
  deriving DecidableEq, Repr

structure Limits where
  maxSegmentBytes : Nat
  maxFrameBytes : Nat
  maxAddresses : Nat
  maxAuthBytes : Nat
  deriving DecidableEq, Repr

structure Segment where
  alignment : Nat
  data : List UInt8
  deriving DecidableEq, Repr

/-- A frame. The receive lease is the number of budget bytes that came with a
frame read from a transport, the payload lease names a caller's buffer. -/
structure Frame where
  tag : Tag
  segments : List Segment
  receiveLease : Option Nat := none
  payloadLease : Option Nat := none
  deriving DecidableEq, Repr

/-- The packed message header of messenger v2. -/
structure MessageHeader where
  sequence : Nat := 0
  transactionID : Nat := 0
  type : Nat := 0
  priority : Nat := 0
  version : Nat := 0
  dataPrePaddingLength : Nat := 0
  dataOffset : Nat := 0
  ackSequence : Nat := 0
  flags : Nat := 0
  compatVersion : Nat := 0
  reserved : Nat := 0
  deriving DecidableEq, Repr

structure MessageLengths where
  front : Nat := 0
  middle : Nat := 0
  data : Nat := 0
  deriving DecidableEq, Repr

structure Message where
  header : MessageHeader := {}
  lengths : MessageLengths := {}
  front : List UInt8 := []
  middle : List UInt8 := []
  data : List UInt8 := []
  transportGeneration : Nat := 0
  receiveLease : Option Nat := none
  transferred : Bool := false
  payloadLease : Option Nat := none
  deriving DecidableEq, Repr

def messageHeaderSize : Nat := 41

def maxUint64 : Nat := 2 ^ 64 - 1

def messageAlignments : List Nat := [8, 8, 8, 4096]

def encodeMessageHeader (header : MessageHeader) : List UInt8 :=
  littleEndian 8 header.sequence ++ littleEndian 8 header.transactionID ++
    littleEndian 2 header.type ++ littleEndian 2 header.priority ++ littleEndian 2 header.version ++
    littleEndian 4 header.dataPrePaddingLength ++ littleEndian 2 header.dataOffset ++
    littleEndian 8 header.ackSequence ++ littleEndian 1 header.flags ++
    littleEndian 2 header.compatVersion ++ littleEndian 2 header.reserved

@[simp] theorem encodeMessageHeader_length (header : MessageHeader) :
    (encodeMessageHeader header).length = messageHeaderSize := by
  simp [encodeMessageHeader, messageHeaderSize]

def checkedUint32Length (length : Nat) : Except GoError Nat :=
  if length > 2 ^ 32 - 1 then .error Sentinel.wireLimitExceeded else .ok length

/-- The loop of `validateMessageSegments` from one segment on, with the index
of that segment and the bytes counted before it. -/
def segmentTotal (limits : Limits) : Nat → Nat → List Segment → Except GoError Nat
  | _, total, [] => .ok total
  | index, total, segment :: rest =>
    let want := messageAlignments.getD index 0
    if segment.alignment ≠ want then
      .error (GoError.errorf Sentinel.wireMalformed ("message segment " ++ toString index ++
        " alignment " ++ toString segment.alignment ++ ", want " ++ toString want))
    else if segment.data.length > limits.maxSegmentBytes ∨ total > maxUint64 - segment.data.length then
      .error Sentinel.wireLimitExceeded
    else segmentTotal limits (index + 1) (total + segment.data.length) rest

def validateMessageSegments (segments : List Segment) (limits : Limits) : Except GoError Unit := do
  let total ← segmentTotal limits 0 0 segments
  if total > limits.maxFrameBytes then .error Sentinel.wireLimitExceeded else .ok ()

def MessageLengths.text (lengths : MessageLengths) : String :=
  "\x7bFront:" ++ toString lengths.front ++ " Middle:" ++ toString lengths.middle ++ " Data:" ++
    toString lengths.data ++ "\x7d"

/-- The checks which encoding and admission share. They differ in the error
variable for malformed messages and in the header bytes that they measure. -/
def messageSegments (invalid : Sentinel) (header : List UInt8) (message : Message) (limits : Limits) :
    Except GoError (List Segment) := do
  let front ← checkedUint32Length message.front.length
  let middle ← checkedUint32Length message.middle.length
  let data ← checkedUint32Length message.data.length
  let actual : MessageLengths := ⟨front, middle, data⟩
  if message.lengths ≠ actual then
    .error (GoError.errorf invalid ("message lengths " ++ message.lengths.text ++
      " do not match payloads " ++ actual.text))
  else if message.header.dataPrePaddingLength > data then
    .error (GoError.errorf invalid ("data pre-padding " ++
      toString message.header.dataPrePaddingLength ++ " exceeds data length " ++ toString data))
  else
    let segments := (messageAlignments.zip [header, message.front, message.middle, message.data]).map
      fun entry => Segment.mk entry.1 entry.2
    validateMessageSegments segments limits
    .ok segments

def encodeMessage (message : Message) (limits : Limits) : Except GoError Frame := do
  let segments ← messageSegments .wireMalformed (encodeMessageHeader message.header) message limits
  .ok { tag := .message, segments := segments }

def retainedMessageBytes (message : Message) : Nat :=
  messageHeaderSize + message.front.length + message.middle.length + message.data.length

def admissionMessageBytes (message : Message) (limits : Limits) : Except GoError Nat := do
  let _ ← messageSegments .malformed (List.replicate messageHeaderSize 0) message limits
  .ok (retainedMessageBytes message)

/-- `cloneMessage` copies the buffers; as values they stay what they were. -/
def cloneMessage (message : Message) : Message := { message with receiveLease := none }

/-- What the peer can tell two sends of one message apart by, beside the
sequence and transaction numbers. -/
def Message.payload (message : Message) : List (List UInt8) := [message.front, message.middle, message.data]

variable {limits : Limits} {message message' : Message} {bytes : Nat}

theorem segmentTotal_congr {segments segments' : List Segment} {index total : Nat}
    (same : segments.map (fun s => (s.alignment, s.data.length)) =
      segments'.map (fun s => (s.alignment, s.data.length))) :
    segmentTotal limits index total segments = segmentTotal limits index total segments' := by
  induction segments generalizing segments' index total with
  | nil => cases segments' with
    | nil => rfl
    | cons => simp at same
  | cons s rest ih => cases segments' with
    | nil => simp at same
    | cons s' rest' =>
      simp only [List.map_cons, List.cons.injEq, Prod.mk.injEq] at same
      simp only [segmentTotal, same.1.1, same.1.2]
      rw [ih same.2]

/-- Whether the checks pass depends on the header only through its length, so
assigning a sequence number never turns an admitted message into an invalid one. -/
theorem messageSegments_ok {invalid invalid' : Sentinel} {header header' : List UInt8} {segments : List Segment}
    (run : messageSegments invalid header message limits = .ok segments) (sameLength : header'.length = header.length)
    (samePayload : message'.payload = message.payload) (sameLengths : message'.lengths = message.lengths)
    (samePadding : message'.header.dataPrePaddingLength = message.header.dataPrePaddingLength) :
    messageSegments invalid' header' message' limits =
      .ok ((messageAlignments.zip (header' :: message.payload)).map fun entry =>
        Segment.mk entry.1 entry.2) := by
  obtain ⟨sameFront, sameMiddle, sameData⟩ : message'.front = message.front ∧
      message'.middle = message.middle ∧ message'.data = message.data := by
    simpa [Message.payload] using samePayload
  unfold messageSegments at run ⊢
  simp only [sameFront, sameMiddle, sameData, sameLengths, samePadding]
  cases front : checkedUint32Length message.front.length with
  | error => simp [front, bind, Except.bind] at run
  | ok frontLength =>
  cases middle : checkedUint32Length message.middle.length with
  | error => simp [front, middle, bind, Except.bind] at run
  | ok middleLength =>
  cases data : checkedUint32Length message.data.length with
  | error => simp [front, middle, data, bind, Except.bind] at run
  | ok dataLength =>
    simp only [front, middle, data, bind, Except.bind] at run ⊢
    split at run
    · simp at run
    rename_i lengthsMatch
    rw [if_neg lengthsMatch]
    split at run
    · simp at run
    rename_i paddingFits
    rw [if_neg paddingFits]
    have sameSizes : validateMessageSegments ((messageAlignments.zip
          [header', message.front, message.middle, message.data]).map fun entry =>
            Segment.mk entry.1 entry.2) limits =
        validateMessageSegments ((messageAlignments.zip
          [header, message.front, message.middle, message.data]).map fun entry =>
            Segment.mk entry.1 entry.2) limits := by
      unfold validateMessageSegments
      rw [segmentTotal_congr]
      simp [messageAlignments, sameLength]
    rw [sameSizes]
    split at run
    · simp at run
    · rfl

theorem admissionMessageBytes_ok (run : admissionMessageBytes message limits = .ok bytes) :
    bytes = retainedMessageBytes message ∧
      ∃ segments, messageSegments .malformed (List.replicate messageHeaderSize 0) message limits =
        .ok segments := by
  unfold admissionMessageBytes at run
  cases checks : messageSegments .malformed (List.replicate messageHeaderSize 0) message limits with
  | error => simp [checks, bind, Except.bind] at run
  | ok segments =>
    simp only [checks, bind, Except.bind, Except.ok.injEq] at run
    exact ⟨run.symm, segments, rfl⟩

/-- An admitted message always encodes, whatever numbers the owner writes into
its header afterwards. -/
theorem admitted_encodes (admitted : admissionMessageBytes message limits = .ok bytes)
    (samePayload : message'.payload = message.payload) (sameLengths : message'.lengths = message.lengths)
    (samePadding : message'.header.dataPrePaddingLength = message.header.dataPrePaddingLength) :
    encodeMessage message' limits = .ok
      { tag := .message
        segments := (messageAlignments.zip (encodeMessageHeader message'.header :: message.payload)).map
          fun entry => Segment.mk entry.1 entry.2 } := by
  obtain ⟨_, segments, checks⟩ := admissionMessageBytes_ok admitted
  unfold encodeMessage
  rw [messageSegments_ok checks (by simp) samePayload sameLengths samePadding]
  rfl

/-- Rewriting header numbers keeps a message admitted at the same size. -/
theorem admitted_congr (admitted : admissionMessageBytes message limits = .ok bytes)
    (samePayload : message'.payload = message.payload) (sameLengths : message'.lengths = message.lengths)
    (samePadding : message'.header.dataPrePaddingLength = message.header.dataPrePaddingLength) :
    admissionMessageBytes message' limits = .ok bytes := by
  obtain ⟨size, segments, checks⟩ := admissionMessageBytes_ok admitted
  have retained : retainedMessageBytes message' = retainedMessageBytes message := by
    simp only [Message.payload, List.cons.injEq, and_true] at samePayload
    simp [retainedMessageBytes, samePayload]
  unfold admissionMessageBytes
  rw [messageSegments_ok checks rfl samePayload sameLengths samePadding, size, ← retained]
  rfl

end RadosGo
