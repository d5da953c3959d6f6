import RadosGo.Msgr.FrameRoundTrip

namespace RadosGo

open Failing List

section Header

/-- The fields have the widths of their Go types. -/
structure MessageHeader.Fits (header : MessageHeader) : Prop where
  sequence : header.sequence < 2 ^ 64
  transactionID : header.transactionID < 2 ^ 64
  type : header.type < 2 ^ 16
  priority : header.priority < 2 ^ 16
  version : header.version < 2 ^ 16
  dataPrePaddingLength : header.dataPrePaddingLength < 2 ^ 32
  dataOffset : header.dataOffset < 2 ^ 16
  ackSequence : header.ackSequence < 2 ^ 64
  flags : header.flags < 2 ^ 8
  compatVersion : header.compatVersion < 2 ^ 16
  reserved : header.reserved < 2 ^ 16

open Decoding in
theorem decodeMessageHeader_encodeMessageHeader {header : MessageHeader} (fits : header.Fits) :
    decodeMessageHeader (encodeMessageHeader header) = .ok header := by
  have exact_ (width value : Nat) (small : value < 256 ^ width) (rest : Bytes) :
      (fixed width).eval ⟨littleEndian width value ++ rest, 0, none⟩ = (.ok value, ⟨rest, 0, none⟩) := by
    rw [eval_fixed, Nat.mod_eq_of_lt small]
  rw [decodeMessageHeader, if_neg (not_not_intro (encodeMessageHeader_length header)), newDecoder]
  dsimp only
  rw [← append_nil (encodeMessageHeader header)]
  simp only [encodeMessageHeader, append_assoc, uint64, uint16, uint32, uint8]
  rw [eval_bind (exact_ 8 _ fits.sequence _), eval_bind (exact_ 8 _ fits.transactionID _),
    eval_bind (exact_ 2 _ fits.type _), eval_bind (exact_ 2 _ fits.priority _), eval_bind (exact_ 2 _ fits.version _),
    eval_bind (exact_ 4 _ fits.dataPrePaddingLength _), eval_bind (exact_ 2 _ fits.dataOffset _),
    eval_bind (exact_ 8 _ fits.ackSequence _), eval_bind (exact_ 1 _ fits.flags _),
    eval_bind (exact_ 2 _ fits.compatVersion _), eval_bind (exact_ 2 _ fits.reserved _)]
  rfl

end Header

section Segments

/-- Data which a frame does not have is empty. -/
def dataAt (segments : List Segment) (index : Nat) : Bytes := (segments[index]?.map Segment.data).getD []

theorem dataAt_rdropWhile (segments : List Segment) (index : Nat) :
    dataAt (segments.rdropWhile fun segment => segment.data.length = 0) index = dataAt segments index := by
  induction segments using reverseRecOn with
  | nil => rfl
  | append_singleton segments last ih =>
    rw [rdropWhile_concat]
    split
    · next empty =>
      rw [ih, dataAt, dataAt]
      rcases Nat.lt_trichotomy index segments.length with inside | rfl | outside
      · rw [getElem?_append_left inside]
      · have blank : last.data = [] := length_eq_zero_iff.mp (of_decide_eq_true empty)
        simp [blank]
      · rw [getElem?_eq_none (by omega), getElem?_eq_none (by simp; omega)]
    · rfl

theorem dataAt_trimSegments (segments : List Segment) (index : Nat) :
    dataAt (trimSegments segments) index = dataAt segments index := by
  cases segments with
  | nil => rfl
  | cons first rest =>
    cases index with
    | zero => rfl
    | succ index => exact dataAt_rdropWhile rest index

/-- Sums to which empty segments add nothing are those of the segments that are kept. -/
theorem sum_rdropWhile {size : Segment → Nat}
    (blank : ∀ segment : Segment, segment.data.length = 0 → size segment = 0) (segments : List Segment) :
    ((segments.rdropWhile fun segment => segment.data.length = 0).map size).sum = (segments.map size).sum := by
  induction segments using reverseRecOn with
  | nil => rfl
  | append_singleton segments last ih =>
    rw [rdropWhile_concat]
    split
    · next empty => rw [ih, map_append, sum_append, map_singleton, sum_singleton,
        blank last (of_decide_eq_true empty), Nat.add_zero]
    · rfl

theorem additions_later (index : Nat) (segments : List Segment) :
    CRCCodec.additions (index + 1) segments = (segments.map fun segment => segment.data.length).sum := by
  induction segments generalizing index with
  | nil => rfl
  | cons segment rest ih => rw [CRCCodec.additions, ih, map_cons, sum_cons, CRCCodec.addition, if_neg (by simp)]

theorem trimSegments_prefix (segments : List Segment) : trimSegments segments <+: segments := by
  cases segments with
  | nil => exact prefix_rfl
  | cons first rest => exact prefix_cons_inj first |>.mpr (List.rdropWhile_prefix _ _)

variable {limits : Limits} {index total sum : Nat} {segments : List Segment}

theorem segmentTotal_le (run : segmentTotal limits index total segments = .ok sum) :
    total ≤ sum ∧ ∀ segment ∈ segments, segment.data.length ≤ limits.maxSegmentBytes := by
  induction segments generalizing index total with
  | nil =>
    cases run
    exact ⟨Nat.le_refl _, by simp⟩
  | cons segment rest ih =>
    rw [segmentTotal] at run
    split at run
    · cases run
    · split at run
      · cases run
      · next short =>
        obtain ⟨below, later⟩ := ih run
        exact ⟨by omega, forall_mem_cons.mpr ⟨by omega, later⟩⟩

theorem segmentTotal_append {first second : List Segment}
    (run : segmentTotal limits index total (first ++ second) = .ok sum) :
    ∃ less ≤ sum, segmentTotal limits index total first = .ok less := by
  induction first generalizing index total with
  | nil => exact ⟨total, (segmentTotal_le run).1, rfl⟩
  | cons segment rest ih =>
    rw [cons_append, segmentTotal] at run
    rw [segmentTotal]
    split at run
    · cases run
    · next aligned =>
      rw [if_neg aligned]
      split at run
      · cases run
      · next short =>
        rw [if_neg short]
        exact ih run

theorem validateMessageSegments_trim (valid : validateMessageSegments segments limits = .ok ()) :
    validateMessageSegments (trimSegments segments) limits = .ok () := by
  obtain ⟨dropped, whole⟩ := trimSegments_prefix segments
  obtain ⟨sum, run, below⟩ := except_bind_ok valid
  rw [← whole] at run
  obtain ⟨less, fewer, run⟩ := segmentTotal_append run
  rw [validateMessageSegments, except_bind_eq run]
  split at below
  · cases below
  · rw [if_neg (by omega)]

end Segments

section Encoded

variable {message : Message} {limits : Limits} {frame : Frame}

/-- The segments of a message. -/
def Message.segments (message : Message) : List Segment :=
  [⟨8, encodeMessageHeader message.header⟩, ⟨8, message.front⟩, ⟨8, message.middle⟩, ⟨4096, message.data⟩]

/-- What a successful `EncodeMessage` has checked. -/
structure Encodes (message : Message) (limits : Limits) : Prop where
  front : message.front.length ≤ maxUint32
  middle : message.middle.length ≤ maxUint32
  data : message.data.length ≤ maxUint32
  lengths : message.lengths = ⟨message.front.length, message.middle.length, message.data.length⟩
  padding : message.header.dataPrePaddingLength ≤ message.data.length
  valid : validateMessageSegments message.segments limits = .ok ()

theorem checkedUint32Length_ok {length checked : Nat} (run : checkedUint32Length length = .ok checked) :
    length ≤ maxUint32 ∧ checked = length := by
  rw [checkedUint32Length] at run
  split at run
  · cases run
  · next small => exact ⟨Nat.le_of_not_lt small, (Except.ok.inj run).symm⟩

theorem encodeMessage_ok (run : encodeMessage message limits = .ok frame) :
    Encodes message limits ∧ frame = { tag := .message, segments := message.segments } := by
  obtain ⟨segments, checks, returned⟩ := except_bind_ok run
  cases returned
  obtain ⟨_, checked, checks⟩ := except_bind_ok checks
  obtain ⟨front, rfl⟩ := checkedUint32Length_ok checked
  obtain ⟨_, checked, checks⟩ := except_bind_ok checks
  obtain ⟨middle, rfl⟩ := checkedUint32Length_ok checked
  obtain ⟨_, checked, checks⟩ := except_bind_ok checks
  obtain ⟨data, rfl⟩ := checkedUint32Length_ok checked
  dsimp only at checks
  split at checks
  · cases checks
  · next lengths =>
    split at checks
    · cases checks
    · next padding =>
      obtain ⟨⟨⟩, valid, returned⟩ := except_bind_ok checks
      cases returned
      exact ⟨⟨front, middle, data, not_not.mp lengths, Nat.le_of_not_lt padding, valid⟩, rfl⟩

/-- A message that was encoded is decoded from its segments, also without the empty ones at the end. -/
theorem decodeMessage_trim (encodes : Encodes message limits) (fits : message.header.Fits) :
    decodeMessage { tag := .message, segments := trimSegments message.segments } limits =
      .ok { header := message.header, lengths := message.lengths, front := message.front, middle := message.middle,
            data := message.data } := by
  have count : 1 ≤ (trimSegments message.segments).length ∧
    (trimSegments message.segments).length ≤ messageAlignments.length :=
    ⟨Nat.succ_le_succ (Nat.zero_le _), trimSegments_length_le _⟩
  have payload (index : Nat) : ((trimSegments message.segments)[index]?.map Segment.data).getD [] =
    dataAt message.segments index :=
    dataAt_trimSegments message.segments index
  have small {length : Nat} (bound : length ≤ maxUint32) : length % 2 ^ 32 = length :=
    Nat.mod_eq_of_lt (Nat.lt_succ_of_le bound)
  rw [decodeMessage, if_neg (not_not_intro rfl), if_neg (by dsimp only; omega),
    except_bind_eq (validateMessageSegments_trim encodes.valid)]
  simp only [payload]
  have header : decodeMessageHeader (dataAt message.segments 0) = .ok message.header :=
    decodeMessageHeader_encodeMessageHeader fits
  have front : dataAt message.segments 1 = message.front := rfl
  have middle : dataAt message.segments 2 = message.middle := rfl
  have data : dataAt message.segments 3 = message.data := rfl
  have padding := encodes.padding
  rw [except_bind_eq header, front, middle, data, small encodes.front, small encodes.middle, small encodes.data,
    if_neg (by omega), encodes.lengths]
  rfl

theorem Encodes.short (encodes : Encodes message limits) : ∀ segment ∈ message.segments,
    segment.Allowed limits := by
  obtain ⟨sum, run, -⟩ := except_bind_ok encodes.valid
  have short := (segmentTotal_le run).2
  have header : (encodeMessageHeader message.header).length ≤ maxUint32 := by
    rw [encodeMessageHeader_length]
    decide
  have uint32 : ∀ segment ∈ message.segments, segment.data.length ≤ maxUint32 := by
    simpa [Message.segments] using ⟨header, encodes.front, encodes.middle, encodes.data⟩
  have aligned : ∀ segment ∈ message.segments, validAlignment segment.alignment := by
    simp [Message.segments]
    decide
  exact fun segment member => ⟨uint32 segment member, short segment member, aligned segment member⟩

theorem segments_representable (message : Message) :
    ({ tag := .message, segments := message.segments } : Frame).Representable := by
  simp [Frame.Representable, Message.segments]

/-- The bytes of a message behind its header. -/
def Message.payloadBytes (message : Message) : Nat :=
  message.front.length + message.middle.length + message.data.length

/-- The size of the frame of a message. -/
def crcMessageBytes (message : Message) : Nat :=
  preambleSize + messageHeaderSize + 4 + message.payloadBytes + if message.payloadBytes = 0 then 0 else 13

/-- There is a segment behind the header exactly if there is a payload. -/
theorem trimmed_payload_iff (message : Message) :
    (trimSegments message.segments).length > 1 ↔ message.payloadBytes ≠ 0 := by
  have none : (trimSegments message.segments).length = 1 ↔ message.payloadBytes = 0 := by
    rw [Message.segments, trimSegments, length_cons, Nat.add_eq_right, length_eq_zero_iff,
      rdropWhile_eq_nil_iff]
    simp [Message.payloadBytes, and_assoc]
  have some : 1 ≤ (trimSegments message.segments).length := Nat.succ_le_succ (Nat.zero_le _)
  omega

theorem frameBytes_segments (message : Message) :
    CRCCodec.frameBytes (trimSegments message.segments) = crcMessageBytes message := by
  have payload := trimmed_payload_iff message
  have header : CRCCodec.addition 0 (encodeMessageHeader message.header).length = messageHeaderSize + 4 := by
    rw [encodeMessageHeader_length]
    rfl
  have total : CRCCodec.additions 0 (trimSegments message.segments) =
    messageHeaderSize + 4 + message.payloadBytes := by
    rw [Message.segments, trimSegments, CRCCodec.additions, additions_later, sum_rdropWhile fun _ empty =>
      empty, header]
    simp [Message.payloadBytes, Nat.add_assoc]
  rw [CRCCodec.frameBytes, total, crcMessageBytes, CRCCodec.withEpilogue, if_congr payload rfl rfl]
  by_cases none : message.payloadBytes = 0 <;> simp [none, Nat.add_assoc]

theorem crcMessageBytes_le (encodes : Encodes message limits) : crcMessageBytes message ≤ maxInt := by
  have front := encodes.front
  have middle := encodes.middle
  have data := encodes.data
  have wide : preambleSize + messageHeaderSize + 4 + 3 * maxUint32 + 13 ≤ maxInt := by decide
  rw [crcMessageBytes, Message.payloadBytes]
  split <;> omega

theorem accepts_segments_iff (encodes : Encodes message limits) :
    CRCCodec.Accepts { tag := .message, segments := message.segments } limits ↔
      crcMessageBytes message ≤ limits.maxFrameBytes := by
  have small := crcMessageBytes_le encodes
  constructor
  · intro accepts
    have fits := accepts.fits
    rw [frameBytes_segments, CRCCodec.fits, decide_eq_true_eq] at fits
    exact fits.1
  · intro fits
    refine ⟨Nat.succ_le_succ (Nat.zero_le _), Nat.le_refl _, rfl, fun segment member =>
      encodes.short segment (trimSegments_subset _ member), ?_⟩
    rw [frameBytes_segments, CRCCodec.fits, decide_eq_true_eq]
    exact ⟨fits, small⟩

end Encoded

/-- Framing, reading and decoding gives the message back. -/
def RoundTrips (codec : CRCCodec) (limits : Limits) (message : Message) (frame : Frame) : Prop :=
  ∃ data, codec.encode frame limits = .ok data ∧ ∀ rest, ∃ read decoded,
    (codec.read plainReader limits).exec ⟨data ++ rest, ()⟩ = (.ok read, ⟨rest, ()⟩) ∧
      decodeMessage read limits = .ok decoded ∧ decoded.header = message.header ∧ decoded.lengths = message.lengths ∧
      decoded.payload = message.payload

/-- Frames which are accepted are read back. Messages which are accepted are exactly if their frames do not exceed the
limit. -/
theorem frame_round_trip (codec : CRCCodec) (limits : Limits) :
    (∀ frame data, frame.Representable → codec.encode frame limits = .ok data → ∀ rest,
      (codec.read plainReader limits).exec ⟨data ++ rest, ()⟩ =
        (.ok { tag := frame.tag, segments := trimSegments frame.segments }, ⟨rest, ()⟩)) ∧
    (∀ message frame, message.header.Fits → encodeMessage message limits = .ok frame →
      (RoundTrips codec limits message frame ↔ crcMessageBytes message ≤ limits.maxFrameBytes)) := by
  refine ⟨fun frame data representable run rest => CRCCodec.exec_read representable run rest,
    fun message frame fits run => ?_⟩
  obtain ⟨encodes, rfl⟩ := encodeMessage_ok run
  rw [← accepts_segments_iff encodes]
  constructor
  · rintro ⟨data, encoded, -⟩
    exact (CRCCodec.encode_iff.mp encoded).1
  · intro accepts
    have encoded : codec.encode _ limits = .ok _ := CRCCodec.encode_iff.mpr ⟨accepts, rfl⟩
    exact ⟨_, encoded, fun rest => ⟨_, _, CRCCodec.exec_read (segments_representable message) encoded rest,
      decodeMessage_trim encodes fits, rfl, rfl, rfl⟩⟩

def smallMessage : Message := { lengths := ⟨1, 0, 0⟩, front := [7] }

theorem smallMessage_fits : smallMessage.header.Fits := by
  constructor <;> decide

theorem frame_round_trip_smallMessage : ∃ frame, encodeMessage smallMessage ⟨91, 91, 0, 0⟩ = .ok frame ∧
    RoundTrips ⟨true⟩ ⟨91, 91, 0, 0⟩ smallMessage frame :=
  ⟨_, rfl, ((frame_round_trip ⟨true⟩ ⟨91, 91, 0, 0⟩).2 smallMessage _ smallMessage_fits rfl).mpr (by decide)⟩

/-- A message of 42 bytes is accepted under a limit of 42 bytes, but its frame has 91. -/
theorem small_frame_refused : ∃ limits message frame, MessageHeader.Fits message.header ∧
    encodeMessage message limits = .ok frame ∧
      ∀ codec : CRCCodec, codec.encode frame limits = .error (GoError.sentinel .limitExceeded) := by
  exact ⟨⟨42, 42, 0, 0⟩, smallMessage, _, smallMessage_fits, rfl, fun codec => rfl⟩

end RadosGo
