import RadosGo.Msgr.Nonces

namespace RadosGo

open Failing SecureDirection

open List hiding after

/-- What is documented of AES-GCM: `Open` inverts `Seal`, which adds a tag. -/
structure AEAD.Lawful (aead : AEAD) : Prop where
  opens_seals : ∀ nonce plaintext, aead.opens nonce (aead.seals nonce plaintext) = some plaintext
  seals_length : ∀ nonce plaintext, (aead.seals nonce plaintext).length = plaintext.length + secureTagSize

section Plaintexts

@[simp] theorem zeros_length (count : Nat) : (zeros count).length = count := length_replicate

theorem allZero_zeros (count : Nat) : allZero (zeros count) := by
  rw [allZero, all_eq_true]
  intro byte member
  exact decide_eq_true (eq_of_mem_replicate member)

theorem leasedPrefix_eq {prefixSize : Nat} {segments : List Segment} {plaintext : Bytes}
    (fits : leasedPrefix prefixSize segments = some plaintext) :
    plaintext = segments.flatMap fun segment => padded segment.data := by
  induction segments generalizing prefixSize plaintext with
  | nil => exact (Option.some.inj fits).symm
  | cons segment rest ih =>
    rw [leasedPrefix] at fits
    split at fits
    · cases fits
    · obtain ⟨later, laterFits, rfl⟩ := Option.map_eq_some_iff.mp fits
      rw [flatMap_cons, ← ih laterFits]

theorem padded_blocks {data : Bytes} (blocks : data.length % secureBlockSize = 0) : padded data = data := by
  have spec := paddedSecureLength_spec data.length
  rw [secureBlockSize] at blocks
  rw [padded, show paddedSecureLength data.length - data.length = 0 by omega]
  exact append_nil data

/-- The storage of a lease has the bytes that would be copied. -/
theorem securePlaintext_eq {lease : LeasedPayload} {rest : List Segment} {plaintext : Bytes}
    (fits : securePlaintext lease rest = some plaintext) :
    plaintext = (rest.flatMap fun segment => padded segment.data) ++ secureEpilogue := by
  rw [securePlaintext] at fits
  split at fits
  · cases fits
  · next last isLast =>
    split at fits
    · cases fits
    · next same =>
      obtain ⟨front, frontFits, rfl⟩ := Option.map_eq_some_iff.mp fits
      have same : last.data = lease.payload := by simpa using same
      obtain ⟨others, rfl⟩ := getLast?_eq_some_iff.mp isLast
      rw [dropLast_concat] at frontFits
      rw [leasedPrefix_eq frontFits, flatMap_append, flatMap_singleton, same, padded_blocks lease.blocks,
        append_assoc]

theorem remainingPlaintext_eq (lease : Option LeasedPayload) (rest : List Segment) :
    remainingPlaintext lease rest = (rest.flatMap fun segment => padded segment.data) ++ secureEpilogue := by
  rw [remainingPlaintext]
  split
  · next plaintext found =>
    obtain ⟨payload, -, fits⟩ := Option.bind_eq_some_iff.mp found
    split
    · exact securePlaintext_eq fits
    · rfl
  · rfl

theorem flatMap_padded_length (segments : List Segment) :
    (segments.flatMap fun segment => padded segment.data).length =
      ((segments.map fun segment => segment.data.length).map paddedSecureLength).sum := by
  rw [length_flatMap, map_map]
  refine congrArg sum (map_congr_left fun segment _ => ?_)
  exact padded_length _

theorem splitSegments_padded (index : Nat) (segments : List Segment) (tail : Bytes) :
    splitSegments index ((segments.flatMap fun segment => padded segment.data) ++ tail)
      (segments.map Segment.descriptor) =
      .ok (segments, tail) := by
  induction segments generalizing index with
  | nil => rfl
  | cons segment rest ih =>
    have size : (padded segment.data).length = paddedSecureLength segment.descriptor.length := padded_length _
    have logical : segment.descriptor.length = segment.data.length := rfl
    rw [map_cons, splitSegments, flatMap_cons, append_assoc, take_left' size, drop_left' size,
      except_bind_eq (ih (index + 1)), padded, logical, drop_left, allZero_zeros, append_assoc, take_left]
    rfl

theorem checkSecureEpilogue_ok : checkSecureEpilogue secureEpilogue = .ok () := by decide

end Plaintexts

section Reading

variable {direction : SecureDirection} {count : Nat}

@[simp] theorem spend_aead : direction.spend.aead = direction.aead := advance_aead

@[simp] theorem after_aead : (direction.after count).aead = direction.aead := by
  induction count generalizing direction with
  | zero => rfl
  | succ count ih => rw [after, ih, spend_aead]

theorem exec_askBudget_plain (reservation : Reservation) (input : Input (SecureDirection × Unit)) :
    (askBudget plainReader reservation).exec input = (.ok (), input) := rfl

theorem exec_release (inlineControl : Bool) (input : Input (SecureDirection × Unit)) :
    (releasePrelude plainReader inlineControl).exec input = (.ok (), input) := by
  cases inlineControl with
  | true => rfl
  | false => rfl

theorem exec_openLocked (lawful : direction.aead.Lawful) (available : direction.availableLocked (count + 1))
    (plaintext unread : Bytes) :
    (openLocked (direction.aead.seals direction.nonce plaintext)).exec ⟨unread, (direction, ())⟩ =
      (.ok plaintext, ⟨unread, (direction.spend, ())⟩) := by
  have one := availableLocked_mono available (Nat.succ_le_succ (Nat.zero_le count))
  rw [openLocked, exec_bind (exec_get _)]
  dsimp only
  rw [exec_nonceLocked one]
  dsimp only
  rw [exec_bind (exec_set ..), exec_bind (exec_ofExcept ..), exec_bind (exec_set ..), advance_aead,
    lawful.opens_seals]
  rfl

variable {size : Nat} {descriptors : List SegmentDescriptor} {others : List Segment} {limits : Limits} {frame : Frame}

/-- A record is read and opened. -/
theorem exec_record (lawful : direction.aead.Lawful) (available : direction.availableLocked (count + 1))
    (what : String) {plaintext : Bytes} (long : plaintext.length + secureTagSize = size) (unread : Bytes) {α : Type}
    (next : Bytes → Receiving (SecureDirection × Unit) α) :
    (readFull what size >>= fun ciphertext => openLocked ciphertext >>= next).exec
        ⟨direction.aead.seals direction.nonce plaintext ++ unread, (direction, ())⟩ =
      (next plaintext).exec ⟨unread, (direction.spend, ())⟩ := by
  have length := (lawful.seals_length direction.nonce plaintext).trans long
  rw [exec_bind (exec_readFull what length unread _), exec_bind (exec_openLocked lawful available plaintext unread)]

/-- The zeros behind the first segment, in the records. -/
def firstPadding (length : Nat) : Nat :=
  if paddedSecureLength length > secureInlineSize then paddedSecureLength length - length
  else secureInlineSize - length

theorem exec_readFirst (lawful : direction.aead.Lawful) {data : Bytes}
    (available : direction.availableLocked ((secondPlaintexts data).length + count)) {tag : Tag}
    (few : descriptors.length ≤ maxSegments) (unread : Bytes) :
    (readFirst (firstPlaintext tag descriptors data) data.length).exec
        ⟨direction.sealAll (secondPlaintexts data) ++ unread, (direction, ())⟩ =
      (.ok (data ++ zeros (firstPadding data.length)),
        ⟨unread, (direction.after (secondPlaintexts data).length, ())⟩) := by
  have spec := paddedSecureLength_spec data.length
  have inside : ((firstPlaintext tag descriptors data).drop preambleSize).take secureInlineSize =
      data.take secureInlineSize ++ zeros (secureInlineSize - data.length) := by
    rw [firstPlaintext, drop_left' (encodePreamble_length few tag)]
    refine take_of_length_le ?_
    rw [length_append, length_take, zeros_length]
    omega
  rw [readFirst, inside]
  rw [secondPlaintexts] at available ⊢
  rw [firstPadding]
  split
  · next long =>
    rw [if_pos long, length_singleton, Nat.add_comm] at available
    have wide : paddedSecureLength data.length > 48 := long
    have size : (secondPlaintext data).length + secureTagSize = secondRecord data.length := by
      rw [secondRecord, if_pos long, secondPlaintext, length_append, length_drop, zeros_length, secureInlineSize]
      omega
    rw [sealAll, sealAll, append_nil, exec_record lawful available _ size, secondPlaintext,
      show secureInlineSize - data.length = 0 by rw [secureInlineSize]; omega, zeros, replicate_zero, append_nil,
      ← append_assoc, take_append_drop]
    rfl
  · next short =>
    have narrow : ¬paddedSecureLength data.length > 48 := short
    rw [take_of_length_le (by rw [secureInlineSize]; omega)]
    rfl

theorem trimFirst_ok (segment : Segment) (count : Nat) :
    trimFirst segment.descriptor (segment.data ++ zeros count) = .ok segment := by
  have logical : segment.descriptor.length = segment.data.length := rfl
  rw [trimFirst, logical, drop_left, allZero_zeros, take_left]
  rfl

/-- The plaintext of the record with the segments behind the first one. -/
def remainingPlaintexts (lease : Option LeasedPayload) (others : List Segment) : List Bytes :=
  if others.length = 0 then [] else [remainingPlaintext lease others]

theorem exec_readRemaining (lawful : direction.aead.Lawful) (lease : Option LeasedPayload) (first : Segment)
    (available : direction.availableLocked (remainingPlaintexts lease others).length)
    (long : others.length ≠ 0 →
      size = secureBlockSize + secureTagSize +
      ((others.map fun segment => segment.data.length).map paddedSecureLength).sum)
    (unread : Bytes) : (readRemaining plainReader ((first :: others).map Segment.descriptor) size).exec
        ⟨direction.sealAll (remainingPlaintexts lease others) ++ unread, (direction, ())⟩ =
      (.ok others, ⟨unread, (direction.after (remainingPlaintexts lease others).length, ())⟩) := by
  rw [readRemaining, length_map, length_cons]
  rw [remainingPlaintexts] at available ⊢
  by_cases empty : others.length = 0
  · obtain rfl := eq_nil_of_length_eq_zero empty
    rfl
  · rw [if_neg empty, length_singleton] at available
    rw [if_neg (by omega), if_neg empty, sealAll, sealAll, append_nil, remainingPlaintext_eq,
      exec_bind (exec_askBudget_plain _ _), exec_record lawful available _ (by
        rw [long empty, length_append, flatMap_padded_length, secureEpilogue, length_cons, zeros_length,
          secureBlockSize]
        omega), map_cons, tail_cons, splitSegments_padded, exec_bind (exec_ofExcept ..)]
    dsimp only
    rw [checkSecureEpilogue_ok, exec_bind (exec_ofExcept ..)]
    rfl

theorem checkDescriptors_ok (index : Nat) {segments : List Segment}
    (allowed : ∀ segment ∈ segments, segment.Allowed limits) :
    checkDescriptors limits index (segments.map Segment.descriptor) = .ok () := by
  induction segments generalizing index with
  | nil => rfl
  | cons segment rest ih =>
    obtain ⟨here, later⟩ := forall_mem_cons.mp allowed
    have aligned : validAlignment segment.descriptor.alignment := here.aligned
    have short : ¬segment.descriptor.length > limits.maxSegmentBytes := Nat.not_lt_of_le here.short
    rw [map_cons, checkDescriptors, if_neg (by simp [aligned]), if_neg short, ih (index + 1) later]

theorem validateSecureDescriptors_ok (accepts : SecureAccepts frame limits) :
    validateSecureDescriptors frame.prepared.descriptors limits =
      .ok (frame.prepared.wireSize, frame.prepared.records) := by
  have lengths : frame.prepared.descriptors.map SegmentDescriptor.length = frame.lengths := by
    rw [Frame.prepared, map_map]
    rfl
  have few : frame.lengths.length ≤ maxSegments := by
    rw [Frame.lengths_length]
    exact Nat.le_trans (trimSegments_length_le _) accepts.few
  rw [validateSecureDescriptors, Frame.prepared, except_bind_eq (checkDescriptors_ok 0 accepts.allowed)]
  exact (congrArg _ lengths).trans
    ((secureSizes_iff (Frame.lengths_small accepts.allowed) few).mpr ⟨⟨accepts.fits, accepts.int⟩, rfl⟩)

theorem plaintexts_eq (lease : Option LeasedPayload) {first : Segment}
    (shape : trimSegments frame.segments = first :: others) : plaintexts lease frame.tag frame.prepared =
      firstPlaintext frame.tag frame.prepared.descriptors first.data ::
        (secondPlaintexts first.data ++ remainingPlaintexts lease others) := by
  simp only [plaintexts, Frame.prepared, shape, headD_cons, tail_cons, length_cons, remainingPlaintexts,
    Nat.add_eq_right]

theorem firstPlaintext_length (few : descriptors.length ≤ maxSegments) (tag : Tag) (data : Bytes) :
    (firstPlaintext tag descriptors data).length + secureTagSize = securePreamble := by
  rw [firstPlaintext, length_append, encodePreamble_length few, length_append, length_take, zeros_length,
    securePreamble]
  omega

/-- A frame that was written is read, without its trailing empty segments, and the receiver uses the same nonces. -/
theorem SecureCodec.exec_read (lawful : direction.aead.Lawful) (lease : Option LeasedPayload)
    (representable : frame.Representable) (accepts : SecureAccepts frame limits)
    (available : direction.availableLocked frame.prepared.records) (unread : Bytes) :
    (SecureCodec.read plainReader limits).exec
        ⟨direction.sealAll (plaintexts lease frame.tag frame.prepared) ++ unread, (direction, ())⟩ =
      (.ok { tag := frame.tag, segments := trimSegments frame.segments },
        ⟨unread, (direction.after frame.prepared.records, ())⟩) := by
  have records : (plaintexts lease frame.tag frame.prepared).length = frame.prepared.records :=
    plaintexts_length accepts
  have present : frame.segments ≠ [] := ne_nil_of_length_pos accepts.some
  have described : Described frame.prepared.descriptors :=
    CRCCodec.described_of_allowed present accepts.few representable accepts.allowed
  have validated := validateSecureDescriptors_ok accepts
  have large : ¬limits.maxFrameBytes < securePreamble := by
    have fits := accepts.fits
    rw [secureBytes] at fits
    omega
  obtain ⟨first, others, shape⟩ : ∃ first others, trimSegments frame.segments = first :: others := by
    cases segments : frame.segments with
    | nil => exact absurd segments present
    | cons first rest => exact ⟨_, _, rfl⟩
  have descriptors : frame.prepared.descriptors = (first :: others).map Segment.descriptor := by
    rw [Frame.prepared, shape]
  have size : others.length ≠ 0 → frame.prepared.wireSize - securePreamble - secondRecord first.data.length =
      secureBlockSize + secureTagSize +
        ((others.map fun segment => segment.data.length).map paddedSecureLength).sum := by
    intro several
    have wireSize : frame.prepared.wireSize =
      secureBytes (first.data.length :: others.map fun segment => segment.data.length) := by
      rw [Frame.prepared, Frame.lengths, shape]
      rfl
    rw [wireSize, secureBytes_cons _ (by rwa [length_map])]
    omega
  rw [plaintexts_eq lease shape, length_cons, length_append] at records
  rw [← records] at available
  have second := availableLocked_spend available
  have last := availableLocked_after second
  have one := availableLocked_mono available (Nat.succ_le_succ (Nat.zero_le _))
  rw [plaintexts_eq lease shape, sealAll, sealAll_append, append_assoc, append_assoc, SecureCodec.read,
    exec_bind (exec_get _)]
  dsimp only
  rw [if_neg (by simp [one]), if_neg large, exec_bind (exec_askBudget_plain _ _),
    exec_record lawful available _ (firstPlaintext_length described.few _ _), firstPlaintext,
    take_left' (encodePreamble_length described.few _), decodePreamble_encodePreamble accepts.tag described,
    exec_bind (exec_ofExcept ..)]
  dsimp only
  rw [validated, exec_bind (exec_ofExcept ..), exec_bind (exec_get _)]
  dsimp only
  rw [← records, Nat.add_sub_cancel, if_neg (by simp [second]), exec_bind (exec_askBudget_plain _ _),
    exec_bind (exec_release _ _), descriptors, map_cons, headD_cons, ← map_cons]
  have logical : first.descriptor.length = first.data.length := rfl
  have few : ((first :: others).map Segment.descriptor).length ≤ maxSegments := by
    rw [← descriptors]
    exact described.few
  have advanced : direction.spend.aead.Lawful := by rwa [spend_aead]
  have opened : (direction.spend.after (secondPlaintexts first.data).length).aead.Lawful := by rwa [after_aead]
  rw [logical, ← firstPlaintext, exec_bind (exec_readFirst advanced second few _), trimFirst_ok,
    exec_bind (exec_ofExcept ..),
    exec_bind (exec_readRemaining opened lease first last size unread), exec_bind (exec_askBudget_plain _ _), shape,
      after, after_add]
  rfl

end Reading

section Streams

/-- A frame that was encoded, with the state of the sender behind it. -/
structure Sent where
  frame : Frame
  bytes : Bytes
  direction : SecureDirection

/-- The frames among some that one codec encodes. The others change nothing. -/
def sendAll (limits : Limits) : SecureDirection → List (Option LeasedPayload × Frame) → List Sent
  | _, [] => []
  | direction, (lease, frame) :: rest =>
    match (encodeInto lease frame limits).exec direction with
    | (.ok bytes, next) => ⟨frame, bytes, next⟩ :: sendAll limits next rest
    | (.error _, next) => sendAll limits next rest

/-- Some calls of `Read`, with the state of the receiver behind each of them. -/
def receiveAll (limits : Limits) : Nat → Receiving (SecureDirection × Unit) (List (Frame × SecureDirection))
  | 0 => return []
  | count + 1 => do
    let frame ← SecureCodec.read plainReader limits
    let direction := (← get).rest.1
    return (frame, direction) :: (← receiveAll limits count)

/-- What the receiver is to get. -/
def Sent.received (sent : Sent) : Frame × SecureDirection :=
  ({ tag := sent.frame.tag, segments := trimSegments sent.frame.segments }, sent.direction)

theorem exec_receiveAll {direction : SecureDirection} (lawful : direction.aead.Lawful) (limits : Limits)
    {attempts : List (Option LeasedPayload × Frame)} (representable : ∀ attempt ∈ attempts, attempt.2.Representable)
    (unread : Bytes) :
    ∃ last, (receiveAll limits (sendAll limits direction attempts).length).exec
        ⟨(sendAll limits direction attempts).flatMap Sent.bytes ++ unread, (direction, ())⟩ =
      (.ok ((sendAll limits direction attempts).map Sent.received), ⟨unread, (last, ())⟩) := by
  induction attempts generalizing direction with
  | nil => exact ⟨direction, rfl⟩
  | cons attempt attempts ih =>
    obtain ⟨lease, frame⟩ := attempt
    obtain ⟨here, later⟩ := forall_mem_cons.mp representable
    rw [sendAll]
    obtain ⟨prepared, prepares, available, run⟩ | ⟨prepared, -, -, run⟩ | ⟨err, -, -, run⟩ :=
      encodeInto_cases lease frame limits direction
    · obtain ⟨accepts, rfl⟩ := prepareSecureFrame_iff.mp prepares
      obtain ⟨last, received⟩ := @ih (direction.after frame.prepared.records) (by rwa [after_aead]) later
      refine ⟨last, ?_⟩
      rw [run]
      dsimp only
      rw [length_cons, receiveAll, flatMap_cons, append_assoc,
        exec_bind (SecureCodec.exec_read lawful lease here accepts available _), exec_bind (exec_get _),
          exec_bind received]
      rfl
    all_goals
      rw [run]
      exact ih lawful later

/-- The other side reads all frames that one side encodes, and its counter follows that of the sender. -/
theorem secure_round_trip {cipher : Bytes → AEAD} (lawful : ∀ key, (cipher key).Lawful) {secret : Bytes}
    (long : secret.length = secureSecretSize) (server : Bool) (limits : Limits)
    {attempts : List (Option LeasedPayload × Frame)}
    (representable : ∀ attempt ∈ attempts, attempt.2.Representable) (unread : Bytes) :
    ∃ sender receiver last, newSecureCodec cipher secret server = .ok sender ∧
      newSecureCodec cipher secret (!server) = .ok receiver ∧
      (receiveAll limits (sendAll limits sender.tx attempts).length).exec
          ⟨(sendAll limits sender.tx attempts).flatMap Sent.bytes ++ unread, (receiver.rx, ())⟩ =
        (.ok ((sendAll limits sender.tx attempts).map Sent.received), ⟨unread, (last, ())⟩) := by
  have made (role : Bool) : newSecureCodec cipher secret role = .ok _ := if_neg (not_not_intro long)
  have crossed : (if !server then (secret.drop 28).take 12 else (secret.drop 16).take 12) =
      if server then (secret.drop 16).take 12 else (secret.drop 28).take 12 := by
    cases server with
    | true => rfl
    | false => rfl
  have sealed : (newSecureDirection (cipher (secret.take secureKeySize))
      (if server then (secret.drop 16).take 12 else (secret.drop 28).take 12)).aead.Lawful := lawful _
  obtain ⟨last, received⟩ := exec_receiveAll sealed limits representable unread
  refine ⟨_, _, last, made server, made (!server), ?_⟩
  dsimp only
  rw [crossed]
  exact received

theorem lawful_nullCipher (key : Bytes) : (SecureCodec.nullCipher key).Lawful where
  opens_seals nonce plaintext := by
    have length : (plaintext ++ zeros secureTagSize).length = plaintext.length + secureTagSize := by
      rw [length_append, zeros_length]
    have opened : ((plaintext ++ zeros secureTagSize).take
      ((plaintext ++ zeros secureTagSize).length - secureTagSize)) = plaintext := by
      rw [length, Nat.add_sub_cancel, take_left]
    have tagged : ¬(plaintext ++ zeros secureTagSize).length < secureTagSize := by omega
    exact (if_neg tagged).trans (congrArg some opened)
  seals_length nonce plaintext := by
    rw [SecureCodec.nullCipher, length_append, zeros_length]

/-- A frame with an empty segment in the middle and one behind the last one. -/
def gapFrame : Frame := { tag := .message, segments := [⟨8, zeros 41⟩, ⟨8, []⟩, ⟨8, [7]⟩, ⟨8, []⟩] }

theorem gapFrame_representable : gapFrame.Representable := by
  rw [Frame.Representable]
  decide

def gapAttempts : List (Option LeasedPayload × Frame) := [(none, gapFrame), (none, gapFrame)]

theorem secure_round_trip_gapFrame : ∃ sender receiver last,
    newSecureCodec SecureCodec.nullCipher (zeros 64) true = .ok sender ∧
      newSecureCodec SecureCodec.nullCipher (zeros 64) (!true) = .ok receiver ∧
        (receiveAll ⟨48, 160, 0, 0⟩ (sendAll ⟨48, 160, 0, 0⟩ sender.tx gapAttempts).length).exec
            ⟨(sendAll ⟨48, 160, 0, 0⟩ sender.tx gapAttempts).flatMap Sent.bytes ++ [], (receiver.rx, ())⟩ =
          (.ok ((sendAll ⟨48, 160, 0, 0⟩ sender.tx gapAttempts).map Sent.received), ⟨[], (last, ())⟩) := by
  refine secure_round_trip lawful_nullCipher rfl true ⟨48, 160, 0, 0⟩ ?_ []
  rw [gapAttempts, forall_mem_cons, forall_mem_singleton]
  exact ⟨gapFrame_representable, gapFrame_representable⟩

end Streams

end RadosGo
