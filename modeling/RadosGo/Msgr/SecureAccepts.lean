import RadosGo.Msgr.FrameRoundTrip
import RadosGo.Msgr.Secure

namespace RadosGo

variable {limits : Limits} {frame : Frame}

section Sizes

theorem paddedSecureLength_spec (length : Nat) :
    length ≤ paddedSecureLength length ∧ paddedSecureLength length < length + 16 ∧
      paddedSecureLength length % 16 = 0 := by
  rw [paddedSecureLength, secureBlockSize]
  omega

@[simp] theorem paddedSecureLength_zero : paddedSecureLength 0 = 0 := rfl

@[simp] theorem padded_length (data : Bytes) : (padded data).length = paddedSecureLength data.length := by
  have := (paddedSecureLength_spec data.length).1
  rw [padded, List.length_append, zeros, List.length_replicate]
  omega

/-- The size of a frame of segments with these lengths. -/
def secureBytes (lengths : List Nat) : Nat :=
  securePreamble + secondRecord (lengths.headD 0) +
    if lengths.length > 1 then secureBlockSize + secureTagSize + (lengths.tail.map paddedSecureLength).sum else 0

theorem secureBytes_cons (length : Nat) {rest : List Nat} (several : rest.length ≠ 0) :
    secureBytes (length :: rest) =
      securePreamble + secondRecord length +
        (secureBlockSize + secureTagSize + (rest.map paddedSecureLength).sum) := by
  rw [secureBytes, List.length_cons, if_pos (by omega)]
  rfl

theorem sumPadded_ok {wireSize : Nat} {lengths : List Nat} (small : ∀ length ∈ lengths, length ≤ maxUint32)
    (room : wireSize + lengths.length * (maxUint32 + 16) ≤ maxUint64) :
    sumPadded wireSize lengths = .ok (wireSize + (lengths.map paddedSecureLength).sum) := by
  induction lengths generalizing wireSize with
  | nil => rfl
  | cons length rest ih =>
    obtain ⟨here, later⟩ := List.forall_mem_cons.mp small
    have padding := paddedSecureLength_spec length
    rw [List.length_cons, Nat.succ_mul] at room
    rw [sumPadded, if_neg (by omega), ih later (by omega), List.map_cons, List.sum_cons, Nat.add_assoc]

theorem secondRecord_le {length : Nat} (small : length ≤ maxUint32) : secondRecord length ≤ maxUint32 + 16 := by
  have padding := paddedSecureLength_spec length
  rw [secondRecord, secureInlineSize, secureTagSize]
  split <;> omega

/-- The computation of the size never overflows. -/
theorem secureWireSize_ok {lengths : List Nat} (small : ∀ length ∈ lengths, length ≤ maxUint32)
    (few : lengths.length ≤ maxSegments) : secureWireSize lengths = .ok (secureBytes lengths) := by
  have first : lengths.headD 0 ≤ maxUint32 := by
    cases lengths with
    | nil => exact Nat.zero_le _
    | cons length rest => exact small length List.mem_cons_self
  have shorter : lengths.tail.length ≤ maxSegments := Nat.le_trans (List.tail_sublist lengths).length_le few
  have room : securePreamble + secondRecord (lengths.headD 0) + (secureBlockSize + secureTagSize) +
      lengths.tail.length * (maxUint32 + 16) ≤ maxUint64 :=
    calc _ ≤ securePreamble + (maxUint32 + 16) + (secureBlockSize + secureTagSize) + maxSegments * (maxUint32 + 16) :=
          Nat.add_le_add (Nat.add_le_add_right (Nat.add_le_add_left (secondRecord_le first) _) _)
            (Nat.mul_le_mul_right _ shorter)
      _ ≤ maxUint64 := by decide
  rw [secureWireSize, secureBytes]
  split
  · rw [sumPadded_ok (fun length member => small length (List.mem_of_mem_tail member)) room, Nat.add_assoc]
  · rfl

end Sizes

theorem secureDescribe_iff {index : Nat} {segments : List Segment} {descriptors : List SegmentDescriptor} :
    secureDescribe limits index segments = .ok descriptors ↔
      (∀ segment ∈ segments, segment.Allowed limits) ∧ descriptors = segments.map Segment.descriptor := by
  induction segments generalizing index descriptors with
  | nil => simp [secureDescribe, eq_comm]
  | cons segment rest ih =>
    rw [List.forall_mem_cons, List.map_cons, secureDescribe]
    constructor
    · intro run
      split at run
      · cases run
      · next short =>
        split at run
        · cases run
        · next aligned =>
          obtain ⟨later, described, returned⟩ := except_bind_ok run
          cases returned
          obtain ⟨allowed, rfl⟩ := ih.mp described
          exact ⟨⟨⟨by omega, by omega, by simpa using aligned⟩, allowed⟩, rfl⟩
    · rintro ⟨⟨fine, allowed⟩, rfl⟩
      have short := fine.short
      have uint32 := fine.uint32
      rw [if_neg (by omega), if_neg (by simp [fine.aligned]), except_bind_eq (ih.mpr ⟨allowed, rfl⟩)]
      rfl

/-- The lengths of the segments which are written. -/
def Frame.lengths (frame : Frame) : List Nat := (trimSegments frame.segments).map fun segment => segment.data.length

theorem Frame.lengths_length (frame : Frame) : frame.lengths.length = (trimSegments frame.segments).length :=
  List.length_map _

theorem Frame.lengths_small (allowed : ∀ segment ∈ trimSegments frame.segments, segment.Allowed limits) :
    ∀ length ∈ frame.lengths, length ≤ maxUint32 := by
  intro length member
  obtain ⟨segment, inside, rfl⟩ := List.mem_map.mp member
  exact (allowed segment inside).uint32

/-- The frames which `prepareSecureFrame` accepts. -/
structure SecureAccepts (frame : Frame) (limits : Limits) : Prop where
  some : 1 ≤ frame.segments.length
  few : frame.segments.length ≤ maxSegments
  tag : validTag frame.tag
  allowed : ∀ segment ∈ trimSegments frame.segments, segment.Allowed limits
  fits : secureBytes frame.lengths ≤ limits.maxFrameBytes
  int : secureBytes frame.lengths ≤ maxInt

/-- What it makes of them. -/
def Frame.prepared (frame : Frame) : Prepared where
  descriptors := (trimSegments frame.segments).map Segment.descriptor
  segments := trimSegments frame.segments
  wireSize := secureBytes frame.lengths
  records := secureRecords frame.lengths

theorem secureSizes_iff {lengths : List Nat} (small : ∀ length ∈ lengths, length ≤ maxUint32)
    (few : lengths.length ≤ maxSegments) {sizes : Nat × Nat} :
    secureSizes limits lengths = .ok sizes ↔
      (secureBytes lengths ≤ limits.maxFrameBytes ∧ secureBytes lengths ≤ maxInt) ∧
      sizes = (secureBytes lengths, secureRecords lengths) := by
  rw [secureSizes, except_bind_eq (secureWireSize_ok small few)]
  split
  · next large =>
    constructor
    · intro run
      cases run
    · rintro ⟨fits, -⟩
      omega
  · next fits =>
    refine ⟨fun run => ⟨by omega, (Except.ok.inj run).symm⟩, ?_⟩
    rintro ⟨-, rfl⟩
    rfl

theorem prepareSecureFrame_iff {prepared : Prepared} :
    prepareSecureFrame frame limits = .ok prepared ↔ SecureAccepts frame limits ∧ prepared = frame.prepared := by
  have lengths : ((trimSegments frame.segments).map Segment.descriptor).map SegmentDescriptor.length =
    frame.lengths := by
    rw [List.map_map]
    rfl
  have shorter := trimSegments_length_le frame.segments
  constructor
  · intro run
    obtain ⟨segments, normal, run⟩ := except_bind_ok run
    rw [normalizeSegments] at normal
    split at normal
    · cases normal
    · next few =>
      cases normal
      dsimp only at run
      split at run
      · cases run
      · next tag =>
        obtain ⟨descriptors, described, run⟩ := except_bind_ok run
        obtain ⟨allowed, rfl⟩ := secureDescribe_iff.mp described
        obtain ⟨sizes, sized, returned⟩ := except_bind_ok run
        rw [lengths, secureSizes_iff (Frame.lengths_small allowed) (by rw [Frame.lengths_length]; omega)] at sized
        obtain ⟨fits, rfl⟩ := sized
        exact ⟨⟨by omega, by omega, by simpa using tag, allowed, fits.1, fits.2⟩, (Except.ok.inj returned).symm⟩
  · rintro ⟨⟨some, few, tag, allowed, fits, int⟩, rfl⟩
    have normal : normalizeSegments frame.segments = .ok (trimSegments frame.segments) := by
      rw [normalizeSegments, if_neg (by omega)]
    have sized : secureSizes limits frame.lengths = .ok (secureBytes frame.lengths, secureRecords frame.lengths) :=
      (secureSizes_iff (Frame.lengths_small allowed) (by rw [Frame.lengths_length]; omega)).mpr ⟨⟨fits, int⟩, rfl⟩
    rw [prepareSecureFrame, except_bind_eq normal]
    dsimp only
    rw [if_neg (by simp [tag]), except_bind_eq (secureDescribe_iff.mpr ⟨allowed, rfl⟩), lengths, except_bind_eq sized]
    rfl

end RadosGo
