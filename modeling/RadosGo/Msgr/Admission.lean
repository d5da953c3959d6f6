import RadosGo.Msgr.MessageRoundTrip
import RadosGo.Msgr.Nonces
import RadosGo.Msgr.SessionRun

namespace RadosGo

open Failing SecureDirection

variable {message : Message} {limits : Limits}

/-- The size of the secure frame of a message. The header fits into the first record. -/
def secureMessageBytes (message : Message) : Nat :=
  securePreamble +
    if message.payloadBytes = 0 then 0
    else secureBlockSize + secureTagSize +
      (paddedSecureLength message.front.length + paddedSecureLength message.middle.length +
        paddedSecureLength message.data.length)

/-- The frame of a message. -/
def Message.frame (message : Message) : Frame := { tag := .message, segments := message.segments }

theorem secureBytes_frame (message : Message) : secureBytes message.frame.lengths = secureMessageBytes message := by
  have payload : (trimSegments message.frame.segments).length > 1 ↔ message.payloadBytes ≠ 0 :=
    trimmed_payload_iff message
  have total : (message.frame.lengths.tail.map paddedSecureLength).sum =
      paddedSecureLength message.front.length + paddedSecureLength message.middle.length +
        paddedSecureLength message.data.length := by
    have blank : ∀ segment : Segment, segment.data.length = 0 → paddedSecureLength segment.data.length = 0 := by
      intro segment empty
      rw [empty]
      rfl
    rw [Frame.lengths, Message.frame, Message.segments, trimSegments, List.map_cons, List.tail_cons, List.map_map]
    refine (sum_rdropWhile blank _).trans ?_
    simp [Nat.add_assoc]
  have header : message.frame.lengths.headD 0 = messageHeaderSize := encodeMessageHeader_length message.header
  have inline : secondRecord messageHeaderSize = 0 := rfl
  rw [secureBytes, total, header, inline, Frame.lengths_length, secureMessageBytes, Nat.add_zero]
  by_cases none : message.payloadBytes = 0
  · rw [if_pos none, if_neg fun some => payload.mp some none]
  · rw [if_neg none, if_pos (payload.mpr none)]

theorem secureMessageBytes_le (encodes : Encodes message limits) : secureMessageBytes message ≤ maxInt := by
  have bound {length : Nat} (small : length ≤ maxUint32) : paddedSecureLength length ≤ maxUint32 + 16 := by
    have padding := paddedSecureLength_spec length
    omega
  have payloads := Nat.add_le_add (Nat.add_le_add (bound encodes.front) (bound encodes.middle)) (bound encodes.data)
  rw [secureMessageBytes]
  split
  · decide
  · calc _ ≤ securePreamble +
      (secureBlockSize + secureTagSize + (maxUint32 + 16 + (maxUint32 + 16) + (maxUint32 + 16))) :=
          Nat.add_le_add_left (Nat.add_le_add_left payloads _) _
      _ ≤ maxInt := by decide

/-- The secure frame is the larger one. -/
theorem crcMessageBytes_le_secure (message : Message) : crcMessageBytes message ≤ secureMessageBytes message := by
  have front := (paddedSecureLength_spec message.front.length).1
  have middle := (paddedSecureLength_spec message.middle.length).1
  have data := (paddedSecureLength_spec message.data.length).1
  have fixed : preambleSize + messageHeaderSize + 4 ≤ securePreamble := by decide
  have epilogue : 13 ≤ secureBlockSize + secureTagSize := by decide
  rw [crcMessageBytes, secureMessageBytes]
  split
  · omega
  · rw [Message.payloadBytes]
    omega

theorem secureAccepts_frame_iff (encodes : Encodes message limits) :
    SecureAccepts message.frame limits ↔ secureMessageBytes message ≤ limits.maxFrameBytes := by
  constructor
  · intro accepts
    rw [← secureBytes_frame]
    exact accepts.fits
  · intro fits
    refine ⟨Nat.succ_le_succ (Nat.zero_le _), Nat.le_refl _, rfl,
      fun segment member => encodes.short segment (trimSegments_subset _ member), ?_, ?_⟩
    · rwa [secureBytes_frame]
    · rw [secureBytes_frame]
      exact secureMessageBytes_le encodes

/-- Both codecs take the frame, the secure one if it has enough nonces. -/
def Writable (limits : Limits) (frame : Frame) : Prop :=
  (∀ codec : CRCCodec, ∃ data, codec.encode frame limits = .ok data) ∧
    ∀ (lease : Option LeasedPayload) (direction : SecureDirection),
      secureRecords frame.lengths ≤ direction.remainingNonces →
      ∃ data, ((encodeInto lease frame limits).exec direction).1 = .ok data

theorem writable_frame_iff (encodes : Encodes message limits) :
    Writable limits message.frame ↔ secureMessageBytes message ≤ limits.maxFrameBytes := by
  constructor
  · rintro ⟨-, secure⟩
    -- A direction that has all its nonces.
    obtain ⟨data, run⟩ := secure none (newSecureDirection ⟨fun _ plaintext => plaintext, fun _ => some⟩ []) (by
      rw [secureRecords]
      split <;> split <;> decide)
    obtain ⟨prepared, prepares, -, -⟩ | ⟨prepared, -, -, refused⟩ | ⟨err, -, -, refused⟩ :=
      encodeInto_cases none message.frame limits _
    · exact (secureAccepts_frame_iff encodes).mp (prepareSecureFrame_iff.mp prepares).1
    · rw [refused] at run
      cases run
    · rw [refused] at run
      cases run
  · intro fits
    refine ⟨fun codec => ?_, fun lease direction enough => ?_⟩
    · have accepts := (accepts_segments_iff encodes).mpr (Nat.le_trans (crcMessageBytes_le_secure message) fits)
      exact ⟨_, CRCCodec.encode_iff.mpr ⟨accepts, rfl⟩⟩
    · have accepts := (secureAccepts_frame_iff encodes).mpr fits
      rw [exec_encodeInto accepts (availableLocked_iff.mpr enough)]
      exact ⟨_, rfl⟩

/-- The frame of an admitted message can be written exactly if its secure form does not exceed the limit. -/
theorem admitted_writable_iff {bytes : Nat} (admitted : admissionMessageBytes message limits = .ok bytes)
    (fresh : Bool)
    (seq ackSequence : Nat) : ∃ frame,
      encodeMessage (SessionOwner.numberMessage message fresh seq ackSequence) limits = .ok frame ∧
      (Writable limits frame ↔ secureMessageBytes message ≤ limits.maxFrameBytes) := by
  have built : encodeMessage (SessionOwner.numberMessage message fresh seq ackSequence) limits = .ok _ :=
    admitted_encodes admitted rfl rfl rfl
  obtain ⟨encodes, shape⟩ := encodeMessage_ok built
  exact ⟨_, built, by rw [shape]; exact writable_frame_iff encodes⟩

theorem admitted_writable_iff_smallMessage : ∃ frame,
    encodeMessage (SessionOwner.numberMessage smallMessage true 1 0) ⟨144, 144, 0, 0⟩ = .ok frame ∧
      Writable ⟨144, 144, 0, 0⟩ frame := by
  have admitted : admissionMessageBytes smallMessage ⟨144, 144, 0, 0⟩ = .ok 42 := rfl
  obtain ⟨frame, built, writable⟩ := admitted_writable_iff admitted true 1 0
  exact ⟨frame, built, writable.mpr (by decide)⟩

/-- A message of 42 bytes is admitted under a limit of 42 bytes, but no codec takes its frame. -/
theorem admitted_not_writable : ∃ frame, admissionMessageBytes smallMessage ⟨42, 42, 0, 0⟩ = .ok 42 ∧
    encodeMessage (SessionOwner.numberMessage smallMessage true 1 0) ⟨42, 42, 0, 0⟩ = .ok frame ∧
      (∀ codec : CRCCodec, codec.encode frame ⟨42, 42, 0, 0⟩ = .error (.sentinel .limitExceeded)) ∧
        ∀ direction : SecureDirection,
          (encodeInto none frame ⟨42, 42, 0, 0⟩).exec direction = (.error (.sentinel .limitExceeded), direction) :=
  ⟨_, rfl, rfl, fun _ => rfl, fun _ => rfl⟩

end RadosGo
