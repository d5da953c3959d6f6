import RadosGo.Msgr.Frame
import RadosGo.Wire.Reading

namespace RadosGo

open Failing List

section Trimmed

theorem trimSegments_length_le (segments : List Segment) : (trimSegments segments).length ≤ segments.length := by
  cases segments with
  | nil => exact Nat.le_refl _
  | cons first rest => exact Nat.succ_le_succ (List.rdropWhile_prefix _ _).length_le

theorem trimSegments_subset (segments : List Segment) : trimSegments segments ⊆ segments := by
  cases segments with
  | nil => exact List.Subset.refl _
  | cons first rest => exact cons_subset_cons _ (List.rdropWhile_prefix _ _).subset

/-- Of several segments the last one is not empty. -/
theorem trimSegments_last {segments : List Segment} {last : Segment} (several : (trimSegments segments).length > 1)
    (isLast : (trimSegments segments).getLast? = some last) : last.data.length ≠ 0 := by
  cases segments with
  | nil => cases several
  | cons first rest =>
    rw [trimSegments] at several isLast
    have kept : rest.rdropWhile (fun segment => decide (segment.data.length = 0)) ≠ [] := by
      intro empty
      rw [empty] at several
      exact Nat.lt_irrefl _ several
    rw [getLast?_cons_of_ne_nil kept, getLast?_eq_getLast_of_ne_nil kept] at isLast
    cases isLast
    simpa using rdropWhile_last_not _ _ kept

end Trimmed

section Preamble

variable {tag : Tag} {a b : UInt8} {count : Nat}

theorem Tag.ofCode_code (valid : validTag tag) : Tag.ofCode tag.code = tag := by
  cases tag with
  | compressionRequest | compressionDone | other => cases valid
  | _ => rfl

@[simp] theorem encodeDescriptor_length (descriptor : SegmentDescriptor) :
    (encodeDescriptor descriptor).length = 6 := by
  simp [encodeDescriptor]

theorem encodeDescriptors_length (descriptors : List SegmentDescriptor) :
    (descriptors.flatMap encodeDescriptor).length = 6 * descriptors.length := by
  induction descriptors with
  | nil => rfl
  | cons descriptor rest ih =>
    rw [flatMap_cons, length_append, ih, encodeDescriptor_length, length_cons]
    omega

/-- The fields have the widths of their Go types. -/
structure SegmentDescriptor.Fits (descriptor : SegmentDescriptor) : Prop where
  length : descriptor.length < 2 ^ 32
  alignment : descriptor.alignment < 2 ^ 16

theorem descriptorAt_first {descriptor : SegmentDescriptor} (fits : descriptor.Fits) (tail : Bytes) :
    descriptorAt (a :: b :: (encodeDescriptor descriptor ++ tail)) 0 = descriptor := by
  have length : (littleEndian 4 descriptor.length).length = 4 := littleEndian_length ..
  have alignment : (littleEndian 2 descriptor.alignment).length = 2 := littleEndian_length ..
  change SegmentDescriptor.mk (fromLittleEndian ((encodeDescriptor descriptor ++ tail).take 4))
    (fromLittleEndian (((encodeDescriptor descriptor ++ tail).drop 4).take 2)) = descriptor
  rw [encodeDescriptor, append_assoc, take_left' length, drop_left' length, take_left' alignment,
    fromLittleEndian_littleEndian, fromLittleEndian_littleEndian,
    Nat.mod_eq_of_lt (show descriptor.length < 256 ^ 4 from fits.length),
    Nat.mod_eq_of_lt (show descriptor.alignment < 256 ^ 2 from fits.alignment)]

theorem descriptorAt_next (descriptor : SegmentDescriptor) (tail : Bytes) (index : Nat) :
    descriptorAt (a :: b :: (encodeDescriptor descriptor ++ tail))
      (index + 1) = descriptorAt (a :: b :: tail) index := by
  have skip : (a :: b :: (encodeDescriptor descriptor ++ tail)).drop (2 + (index + 1) * 6) =
      (a :: b :: tail).drop (2 + index * 6) := by
    rw [show 2 + (index + 1) * 6 = 2 + (6 + index * 6) by omega, ← drop_drop, ← drop_drop, ← drop_drop]
    exact congrArg (drop (index * 6)) (drop_left' (encodeDescriptor_length descriptor))
  rw [descriptorAt, skip, descriptorAt]

theorem descriptorAt_zeros {index : Nat} (within : 6 * index + 6 ≤ count) (tail : Bytes) :
    descriptorAt (a :: b :: (replicate count 0 ++ tail)) index = ⟨0, 0⟩ := by
  have zeros : (a :: b :: (replicate count 0 ++ tail)).drop (2 + index * 6) =
      replicate 6 0 ++ (replicate (count - 6 * index - 6) 0 ++ tail) := by
    rw [← drop_drop, ← append_assoc, replicate_append_replicate]
    change (replicate count 0 ++ tail).drop (index * 6) = _
    rw [drop_append_of_le_length (by rw [length_replicate]; omega), drop_replicate]
    congr 2
    omega
  rw [descriptorAt, zeros]
  rfl

variable {descriptors : List SegmentDescriptor}

/-- All fields of the preamble, the unused ones included. -/
theorem descriptorAt_all (fit : ∀ descriptor ∈ descriptors, descriptor.Fits)
    (tail : Bytes) {zeros : Nat} (wide : 6 * (count - descriptors.length) ≤ zeros)
    (few : descriptors.length ≤ count) :
    (range count).map (descriptorAt
      (a :: b :: (descriptors.flatMap encodeDescriptor ++ (replicate zeros 0 ++ tail)))) =
      descriptors ++ replicate (count - descriptors.length) ⟨0, 0⟩ := by
  induction descriptors generalizing count with
  | nil =>
    rw [flatMap_nil, nil_append, nil_append, length_nil, Nat.sub_zero]
    refine eq_replicate_iff.mpr ⟨by simp, fun descriptor member => ?_⟩
    obtain ⟨index, inside, rfl⟩ := mem_map.mp member
    have := mem_range.mp inside
    exact descriptorAt_zeros (by simp only [length_nil] at wide; omega) tail
  | cons descriptor rest ih =>
    obtain ⟨here, later⟩ := forall_mem_cons.mp fit
    obtain ⟨count, rfl⟩ : ∃ less, count = less + 1 := ⟨count - 1, by rw [length_cons] at few; omega⟩
    rw [length_cons] at few wide
    rw [range_succ_eq_map, map_cons, map_map, flatMap_cons, append_assoc,
      descriptorAt_first here, cons_append, length_cons, Nat.add_sub_add_right]
    refine congrArg (descriptor :: ·) ?_
    rw [← ih later (by omega) (by omega)]
    exact map_congr_left fun index _ => descriptorAt_next descriptor _ index

/-- Descriptors which `Encode` makes. -/
structure Described (descriptors : List SegmentDescriptor) : Prop where
  fit : ∀ descriptor ∈ descriptors, descriptor.Fits
  some : 1 ≤ descriptors.length
  few : descriptors.length ≤ maxSegments
  last : descriptors.length > 1 → (descriptors.getLastD ⟨0, 0⟩).length ≠ 0

theorem preambleBody_length (few : descriptors.length ≤ maxSegments) (tag : Tag) :
    (preambleBody tag descriptors).length = 28 := by
  have length := encodeDescriptors_length descriptors
  have most : maxSegments = 4 := rfl
  simp only [preambleBody, length_append, length_cons, length_replicate]
  omega

theorem encodePreamble_length (few : descriptors.length ≤ maxSegments) (tag : Tag) :
    (encodePreamble tag descriptors).length = preambleSize := by
  rw [encodePreamble, length_append, preambleBody_length few, littleEndian_length]
  rfl

theorem decodePreamble_encodePreamble (valid : validTag tag) (described : Described descriptors) :
      decodePreamble (encodePreamble tag descriptors) = .ok (tag, descriptors) := by
  have most : maxSegments = 4 := rfl
  obtain ⟨fit, some, few, last⟩ := described
  have length := preambleBody_length few tag
  have sum : fromLittleEndian ((encodePreamble tag descriptors).drop 28) =
      (crc32c 0 ((encodePreamble tag descriptors).take 28)).toNat := by
    rw [encodePreamble, drop_left' length, take_left' length, fromLittleEndian_littleEndian]
    exact Nat.mod_eq_of_lt (UInt32.toNat_lt _)
  have written := encodeDescriptors_length descriptors
  have body (tail : Bytes) : preambleBody tag descriptors ++ tail = tag.code :: UInt8.ofNat descriptors.length ::
      (descriptors.flatMap encodeDescriptor ++ (replicate (26 - 6 * descriptors.length) 0 ++ tail)) := by
    rw [preambleBody]
    simp only [cons_append, append_assoc, length_cons, written]
    rw [show 28 - (6 * descriptors.length + 1 + 1) = 26 - 6 * descriptors.length by omega]
  have shape : encodePreamble tag descriptors = _ := body _
  have flag (position : Nat) (low : 26 ≤ position) (high : position < 28) :
      (encodePreamble tag descriptors).getD position 0 = 0 := by
    rw [encodePreamble, getD_append _ _ _ _ (by omega), preambleBody, getD_append_right _ _ _ _ (by
      rw [length_cons, length_cons, written]; omega)]
    exact getD_replicate _ (by rw [length_cons, length_cons, written]; omega)
  have all : (range maxSegments).map (descriptorAt (encodePreamble tag descriptors)) =
      descriptors ++ replicate (maxSegments - descriptors.length) ⟨0, 0⟩ := by
    rw [shape]
    exact descriptorAt_all fit _ (by omega) few
  have count : ((encodePreamble tag descriptors).getD 1 0).toNat = descriptors.length := by
    rw [shape]
    exact UInt8.toNat_ofNat_of_lt' (Nat.lt_of_le_of_lt few (by decide))
  have first : Tag.ofCode ((encodePreamble tag descriptors).getD 0 0) = tag := by
    rw [shape]
    exact Tag.ofCode_code valid
  have unused : ¬∃ descriptor ∈ replicate (maxSegments - descriptors.length) (⟨0, 0⟩ : SegmentDescriptor),
      descriptor ≠ ⟨0, 0⟩ := by
    rintro ⟨descriptor, member, other⟩
    exact other (eq_of_mem_replicate member)
  unfold decodePreamble
  simp only [sum, first, valid, count, all, drop_left, take_left, flag 26 (by decide) (by decide),
    flag 27 (by decide) (by decide)]
  rw [if_neg (by simp), if_neg (by simp), if_neg (by omega), if_neg (by simp), if_neg unused,
    if_neg (fun both => last both.1 both.2)]
  rfl

end Preamble

section Input

variable {γ : Type}

/-- Reading what is there. -/
theorem exec_readFull (what : String) {size : Nat} {bytes : Bytes} (long : bytes.length = size)
    (rest : Bytes) (g : γ) : (readFull what size).exec ⟨bytes ++ rest, g⟩ = (.ok bytes, ⟨rest, g⟩) := by
  rw [readFull, exec_bind (exec_get _)]
  dsimp only
  rw [if_pos (by rw [length_append]; omega), exec_bind (exec_set ..), take_left' long, drop_left' long]
  rfl

end Input

/-- A segment has the width of the Go types, and the limits allow it. -/
structure Segment.Allowed (segment : Segment) (limits : Limits) : Prop where
  uint32 : segment.data.length ≤ maxUint32
  short : segment.data.length ≤ limits.maxSegmentBytes
  aligned : validAlignment segment.alignment

/-- The alignments are numbers of 16 bits. -/
def Frame.Representable (frame : Frame) : Prop := ∀ segment ∈ frame.segments, segment.alignment < 2 ^ 16

namespace CRCCodec

variable {limits : Limits} {codec : CRCCodec}

theorem describe_allowed {index total sum : Nat} {segments : List Segment} {descriptors : List SegmentDescriptor}
    (run : describe limits index total segments = .ok (descriptors, sum)) :
      ∀ segment ∈ segments, segment.Allowed limits := by
  induction segments generalizing index total descriptors with
  | nil => simp
  | cons segment rest ih =>
    rw [describe] at run
    split at run
    · cases run
    · next short =>
      split at run
      · cases run
      · next aligned =>
        split at run
        · cases run
        · obtain ⟨⟨later, sum'⟩, described, returned⟩ := except_bind_ok run
          obtain ⟨rfl, rfl⟩ := Prod.mk.inj (Except.ok.inj returned)
          have fine : segment.Allowed limits := ⟨by omega, by omega, by simpa using aligned⟩
          exact forall_mem_cons.mpr ⟨fine, ih described⟩

/-- What the loops over segments and descriptors add. -/
def additions : Nat → List Segment → Nat
  | _, [] => 0
  | index, segment :: rest => addition index segment.data.length + additions (index + 1) rest

theorem addition_le {length : Nat} (small : length ≤ maxUint32) (index : Nat) :
    addition index length ≤ maxUint32 + 4 := by
  rw [addition]
  split <;> omega

/-- Both loops come to the same sum, which never overflows. -/
theorem describe_of_allowed (index total : Nat) {segments : List Segment}
    (allowed : ∀ segment ∈ segments, segment.Allowed limits)
    (room : total + segments.length * (maxUint32 + 4) ≤ maxUint64) :
    describe limits index total segments = .ok (segments.map Segment.descriptor, total + additions index segments) ∧
      measure limits index total (segments.map Segment.descriptor) = .ok (total + additions index segments) := by
  induction segments generalizing index total with
  | nil => exact ⟨rfl, rfl⟩
  | cons segment rest ih =>
    obtain ⟨fine, later⟩ := forall_mem_cons.mp allowed
    have added := addition_le fine.uint32 index
    rw [length_cons, Nat.succ_mul] at room
    have below : ¬total > maxUint64 - addition index segment.data.length := by omega
    have below' : ¬total > maxUint64 - addition index segment.descriptor.length := below
    obtain ⟨described, measured⟩ := ih (index + 1) (total + addition index segment.data.length) later (by omega)
    have short := fine.short
    have uint32 := fine.uint32
    constructor
    · rw [describe, if_neg (by omega), if_neg (by simp [fine.aligned]), if_neg below,
        except_bind_eq described, additions, Nat.add_assoc]
      rfl
    · rw [map_cons, measure, if_neg (by simpa [Segment.descriptor, fine.aligned] using fine.short), if_neg below',
        additions, ← Nat.add_assoc]
      exact measured

/-- The size of a frame. -/
def frameBytes (segments : List Segment) : Nat := withEpilogue segments.length (preambleSize + additions 0 segments)

variable {γ : Type} {data : Bytes}

theorem exec_readSegment_later (index : Nat) (segment : Segment) (rest : Bytes) (g : γ) :
    (codec.readSegment (index + 1) segment.descriptor).exec ⟨segment.data ++ rest, g⟩ = (.ok segment, ⟨rest, g⟩) := by
  have long : segment.data.length = segment.descriptor.length := rfl
  rw [readSegment, exec_bind (exec_readFull _ long rest g)]
  rfl

theorem exec_readSegments_later (index : Nat) (segments : List Segment) (rest : Bytes) (g : γ) :
    (codec.readSegments (index + 1) (segments.map Segment.descriptor)).exec
      ⟨segments.flatMap Segment.data ++ rest, g⟩ =
      (.ok segments, ⟨rest, g⟩) := by
  induction segments generalizing index with
  | nil => rfl
  | cons segment segments ih =>
    rw [map_cons, readSegments, flatMap_cons, append_assoc,
      exec_bind (exec_readSegment_later index segment _ g), exec_bind (ih (index + 1))]
    rfl

theorem dataCRC_lt (data : Bytes) : codec.dataCRC data < 256 ^ 4 := by
  rw [dataCRC]
  split
  · exact UInt32.toNat_lt _
  · decide

/-- The checksum that was written is the one that is computed, if any is. -/
theorem dataCRC_fits (data : Bytes) :
    ¬(codec.withDataCRC ∧ (crc32c 0xffffffff data).toNat ≠ fromLittleEndian
      (littleEndian 4 (codec.dataCRC data))) := by
  rintro ⟨checked, other⟩
  rw [fromLittleEndian_littleEndian, Nat.mod_eq_of_lt (dataCRC_lt data), dataCRC, if_pos checked] at other
  exact other rfl

theorem exec_readSegment_first (segment : Segment) (rest : Bytes) (g : γ) :
    (codec.readSegment 0 segment.descriptor).exec ⟨codec.encodeFirst segment ++ rest, g⟩ =
      (.ok segment, ⟨rest, g⟩) := by
  have long : segment.data.length = segment.descriptor.length := rfl
  rw [readSegment, encodeFirst, append_assoc, exec_bind (exec_readFull _ long _ g)]
  dsimp only
  by_cases some : segment.data.length > 0
  · have checked : 0 = 0 ∧ segment.descriptor.length > 0 := ⟨rfl, some⟩
    rw [if_pos checked, if_pos some, exec_bind (exec_readFull _ (littleEndian_length ..) rest g),
      if_neg (dataCRC_fits segment.data)]
    rfl
  · have unchecked : ¬(0 = 0 ∧ segment.descriptor.length > 0) := fun both => some both.2
    rw [if_neg unchecked, if_neg some]
    rfl

theorem exec_readSegments (first : Segment) (others : List Segment) (rest : Bytes) (g : γ) :
    (codec.readSegments 0 ((first :: others).map Segment.descriptor)).exec
        ⟨codec.encodeFirst first ++ (others.flatMap Segment.data ++ rest), g⟩ =
          (.ok (first :: others), ⟨rest, g⟩) := by
  rw [map_cons, readSegments, exec_bind (exec_readSegment_first first _ g),
    exec_bind (exec_readSegments_later 0 others rest g)]
  rfl

theorem checkData_ok (index : Nat) (segments : List Segment) (tail : Bytes) :
    codec.checkData index (segments.flatMap (fun segment => littleEndian 4 (codec.dataCRC segment.data)) ++
      tail) segments =
      .ok () := by
  induction segments generalizing index with
  | nil => rfl
  | cons segment rest ih =>
    have length : (littleEndian 4 (codec.dataCRC segment.data)).length = 4 := littleEndian_length ..
    rw [checkData, flatMap_cons, append_assoc, take_left' length, drop_left' length,
      if_neg (dataCRC_fits segment.data), ih]

theorem encodeEpilogue_eq {codec : CRCCodec} {rest : List Segment} (few : rest.length ≤ maxSegments - 1) : ∃ tail,
    codec.encodeEpilogue rest =
      lateStatusComplete :: (rest.flatMap (fun segment => littleEndian 4 (codec.dataCRC segment.data)) ++ tail) := by
  match rest, few with
  | [], _ => exact ⟨_, rfl⟩
  | [_], _ => exact ⟨_, rfl⟩
  | [_, _], _ => exact ⟨_, rfl⟩
  | [_, _, _], _ => exact ⟨_, rfl⟩

theorem encodeEpilogue_length (rest : List Segment) : (codec.encodeEpilogue rest).length = 13 := by
  simp [encodeEpilogue, maxSegments, range_succ]

theorem checkEpilogue_ok (first : Segment) {rest : List Segment} (few : rest.length ≤ maxSegments - 1) :
    codec.checkEpilogue (codec.encodeEpilogue rest) (first :: rest) = .ok () := by
  obtain ⟨tail, shape⟩ := encodeEpilogue_eq few
  have complete : lateStatusComplete &&& 0x0f = lateStatusComplete := by decide
  rw [shape, checkEpilogue]
  exact (if_pos complete).trans (checkData_ok 1 rest tail)

theorem described_of_allowed {segments : List Segment} (some : segments ≠ []) (few : segments.length ≤ maxSegments)
    (representable : ∀ segment ∈ segments, segment.alignment < 2 ^ 16)
    (allowed : ∀ segment ∈ trimSegments segments, segment.Allowed limits) :
    Described ((trimSegments segments).map Segment.descriptor) := by
  have shorter := trimSegments_length_le segments
  refine ⟨fun descriptor member => ?_, ?_, ?_, fun several => ?_⟩
  · obtain ⟨segment, inside, rfl⟩ := mem_map.mp member
    exact ⟨Nat.lt_succ_of_le (allowed segment inside).uint32, representable segment (trimSegments_subset _ inside)⟩
  · cases segments with
    | nil => exact absurd rfl some
    | cons first rest => simp [trimSegments]
  · rw [length_map]
    omega
  · rw [length_map] at several
    have kept : trimSegments segments ≠ [] := ne_nil_of_length_pos (by omega)
    rw [getLastD_eq_getLast?, getLast?_map, getLast?_eq_getLast_of_ne_nil kept]
    exact trimSegments_last several (getLast?_eq_getLast_of_ne_nil kept)

/-- What `Encode` accepts. -/
structure Accepts (frame : Frame) (limits : Limits) : Prop where
  some : 1 ≤ frame.segments.length
  few : frame.segments.length ≤ maxSegments
  tag : validTag frame.tag
  allowed : ∀ segment ∈ trimSegments frame.segments, segment.Allowed limits
  fits : fits (frameBytes (trimSegments frame.segments)) limits

theorem room_of_few {segments : List Segment} (few : segments.length ≤ maxSegments) :
    preambleSize + (trimSegments segments).length * (maxUint32 + 4) ≤ maxUint64 := by
  have shorter := trimSegments_length_le segments
  have product : (trimSegments segments).length * (maxUint32 + 4) ≤ 4 * (maxUint32 + 4) :=
    Nat.mul_le_mul_right _ (Nat.le_trans shorter few)
  have wide : preambleSize + 4 * (maxUint32 + 4) ≤ maxUint64 := by decide
  omega

theorem encode_iff {frame : Frame} : codec.encode frame limits = .ok data ↔
    Accepts frame limits ∧ data = encodePreamble frame.tag ((trimSegments frame.segments).map Segment.descriptor) ++
      codec.encodeSegments (trimSegments frame.segments) := by
  constructor
  · intro run
    obtain ⟨segments, normal, run⟩ := except_bind_ok run
    rw [normalizeSegments] at normal
    split at normal
    · cases normal
    · next few =>
      cases normal
      dsimp only at run
      split at run
      · cases run
      · next valid =>
        obtain ⟨⟨descriptors, total⟩, described, run⟩ := except_bind_ok run
        have allowed := describe_allowed described
        obtain ⟨same, -⟩ := describe_of_allowed 0 preambleSize allowed (room_of_few (by omega))
        obtain ⟨rfl, rfl⟩ := Prod.mk.inj (Except.ok.inj (described.symm.trans same))
        dsimp only at run
        split at run
        · cases run
        · next fit =>
          exact ⟨⟨by omega, by omega, by simpa using valid, allowed, by simpa [frameBytes] using fit⟩,
            (Except.ok.inj run).symm⟩
  · rintro ⟨⟨some, few, tag, allowed, fits⟩, rfl⟩
    have normal : normalizeSegments frame.segments = .ok (trimSegments frame.segments) := by
      rw [normalizeSegments, if_neg (by omega)]
    obtain ⟨described, -⟩ := describe_of_allowed 0 preambleSize allowed (room_of_few few)
    rw [frameBytes] at fits
    rw [encode, except_bind_eq normal]
    dsimp only
    rw [if_neg (by simp [tag]), except_bind_eq described]
    dsimp only
    rw [if_neg (by simp [fits])]
    rfl

/-- A frame that was written is read, without its trailing empty segments. -/
theorem exec_read {frame : Frame} (representable : frame.Representable) (run : codec.encode frame limits = .ok data)
    (rest : Bytes) : (codec.read plainReader limits).exec ⟨data ++ rest, ()⟩ =
      (.ok { tag := frame.tag, segments := trimSegments frame.segments }, ⟨rest, ()⟩) := by
  obtain ⟨⟨some, few, valid, allowed, fit⟩, rfl⟩ := encode_iff.mp run
  obtain ⟨-, measured⟩ := describe_of_allowed 0 preambleSize allowed (room_of_few few)
  rw [frameBytes] at fit
  have present : frame.segments ≠ [] := ne_nil_of_length_pos some
  have described := described_of_allowed present few representable allowed
  have shorter := trimSegments_length_le frame.segments
  obtain ⟨first, others, shape⟩ : ∃ first others, trimSegments frame.segments = first :: others := by
    cases segments : frame.segments with
    | nil => exact absurd segments present
    | cons first rest => exact ⟨_, _, rfl⟩
  rw [shape] at described measured fit shorter ⊢
  rw [read, append_assoc, exec_bind (exec_readFull _ (encodePreamble_length described.few _) _ _),
    decodePreamble_encodePreamble valid described, exec_bind (exec_ofExcept _ _)]
  dsimp only
  rw [measured, exec_bind (exec_ofExcept _ _), length_map, if_neg (by simpa using fit)]
  have reserved (input : Input Unit) (tag : Tag) (count : Nat) : (reservePayload plainReader tag count).exec input =
    (.ok (), input) := by
    rw [reservePayload]
    split <;> rfl
  rw [exec_bind (reserved ..), encodeSegments, append_assoc, append_assoc,
    exec_bind (exec_readSegments first others _ _)]
  by_cases several : others.length > 0
  · have few : others.length ≤ maxSegments - 1 := by
      rw [length_cons] at shorter
      omega
    have epilogue : (first :: others).length > 1 := Nat.succ_lt_succ several
    rw [if_pos several, if_pos epilogue, exec_bind (exec_readFull _ (encodeEpilogue_length others) rest ()),
      checkEpilogue_ok first few, exec_bind (exec_ofExcept _ _)]
    rfl
  · have noEpilogue : ¬(first :: others).length > 1 := fun long => several (Nat.lt_of_succ_lt_succ long)
    rw [if_neg several, if_neg noEpilogue]
    rfl

end CRCCodec

end RadosGo
