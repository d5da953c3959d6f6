import RadosGo.Crush.Replicated
import RadosGo.Maps.Incremental
import RadosGo.Wire.Reading

namespace RadosGo.Maps

open Decoding

section Wrapped

variable {α β γ : Type} {name : String} {clientLocal : Nat} {body : Decoding α} {trailer : Decoding β} {data : Bytes}

variable {d d' closed client : Decoder} {value : α} {crc size : Nat} {rest : β}

/-- The bytes around the client part are read alike whatever is read from it. -/
theorem decodeWrapped_ok
    (run : (decodeWrapped name clientLocal body trailer data).eval d = (.ok (value, crc, rest), d')) :
    ∃ client, (body.eval client).1 = .ok value ∧ ∀ {γ : Type} {other : Decoding γ} {value' : γ},
      (other.eval client).1 = .ok value' →
        (decodeWrapped name clientLocal other trailer data).eval d = (.ok (value', crc, rest), d') := by
  obtain ⟨⟨size, client, wrapper⟩, middle, opened, run⟩ := eval_bind_ok run
  obtain ⟨_, _, read, run⟩ := eval_bind_ok run
  rw [eval_within] at read
  obtain ⟨ok, rfl⟩ := Prod.mk.inj read
  obtain ⟨closing, _, closed, run⟩ := eval_bind_ok run
  rw [eval_pure] at run
  obtain ⟨same, rfl⟩ := Prod.mk.inj run
  obtain ⟨rfl, rfl⟩ := Prod.mk.inj (Except.ok.inj same)
  refine ⟨client, ok, fun ok' => ?_⟩
  rw [decodeWrapped, eval_bind opened]
  dsimp only
  rw [eval_bind ((eval_within middle).trans (congrArg (·, middle) ok')), eval_bind closed]
  rfl

/-- A checksum that fits closes the wrapper. -/
theorem closeWrapper_eval {read : Decoder} (version : Nat × Decoder) (opened : Decoder)
    (part : (versioned 12).eval d = (.ok version, opened)) (fine : opened.err = none)
    (sum : uint32.eval opened = (.ok crc, read)) (trail : trailer.eval read = (.ok rest, closed))
    (ended : closed.err = none) (long : 6 + (size - opened.data.length) + 4 ≤ data.length)
    (fits : (crc32c (crc32c 0xffffffff (data.take (6 + (size - opened.data.length))))
      (data.drop (6 + (size - opened.data.length) + 4))).toNat = crc) :
    (closeWrapper name trailer data size).eval d = (.ok (crc, rest), closed) := by
  rw [closeWrapper, eval_bind part, eval_bind (eval_finish fine), eval_bind (eval_remaining opened), eval_bind sum,
    eval_bind trail, eval_bind (eval_finish ended)]
  dsimp only
  rw [if_neg (Nat.not_lt.mpr long), if_neg (not_not.mpr fits)]
  rfl

/-- The evaluation of the three parts, each on its own. -/
theorem decodeWrapped_eval {wrapper : Decoder}
    (opening : (openWrapper name clientLocal).eval d = (.ok (size, client, wrapper), d'))
    (read : (body.eval client).1 = .ok value)
    (closing : (closeWrapper name trailer data size).eval wrapper = (.ok (crc, rest), closed))
    (ended : d'.data = []) :
    (decodeWrapped name clientLocal body trailer data).eval d = (.ok (value, crc, rest), d') := by
  rw [decodeWrapped, eval_bind opening]
  dsimp only
  rw [eval_bind ((eval_within d').trans (congrArg (·, d') read)), endWrapper, bind_assoc,
    eval_bind ((eval_within d').trans (congrArg (·, d') (congrArg Prod.fst closing))), bind_assoc,
    eval_bind (eval_remaining d'), ended]
  rfl

/-- A payload up to its checksum: the client part, an empty one and room for the rest. -/
def wrapPayload (version : Nat) (client : Bytes) (rest : Nat) : Bytes :=
  [8, 1] ++ littleEndian 4 (client.length + 12 + rest) ++ Encoder.envelope version 1 client ++ Encoder.envelope 1 1 []

def sealPayload (version : Nat) (client : Bytes) (crc : UInt32) (tail : Bytes) : Bytes :=
  wrapPayload version client (4 + tail.length) ++ (littleEndian 4 crc.toNat ++ tail)

theorem openWrapper_eval (client rest : Bytes) {max : Nat} (version : 1 ≤ clientLocal ∧ clientLocal < 256)
    (fits : client.length + 12 + rest.length ≤ max) (small : max ≤ maxUint32) :
    (openWrapper name clientLocal).eval (newDecoder (wrapPayload clientLocal client rest.length ++ rest) max) =
      (.ok (client.length + 12 + rest.length, newDecoder client max, ⟨Encoder.envelope 1 1 [] ++ rest, max, none⟩),
        ⟨[], max, none⟩) := by
  generalize parts : Encoder.envelope clientLocal 1 client ++ (Encoder.envelope 1 1 [] ++ rest) = wrapper
  have length : wrapper.length = client.length + 12 + rest.length := by
    rw [← parts]
    simp [Encoder.envelope, littleEndian_length]
    omega
  have shape : wrapPayload clientLocal client rest.length ++ rest = Encoder.envelope 8 1 wrapper ++ [] := by
    rw [Encoder.envelope, length, ← parts]
    simp [wrapPayload, littleEndian]
  rw [shape, openWrapper, newDecoder,
    eval_bind (eval_versioned (by decide) (by decide) (by decide) (length ▸ fits) (by omega)),
    eval_bind (eval_finish rfl)]
  dsimp only
  rw [if_neg (by decide)]
  rw [eval_within, newDecoder, ← parts,
    eval_bind (eval_versioned version.2 version.1 (by decide) (by omega) (by omega)), eval_bind (eval_finish rfl)]
  dsimp only
  rw [if_neg (Nat.lt_irrefl _)]
  rw [parts, length]
  rfl

/-- What is sealed with its checksum is read if the client part is. -/
theorem decodeWrapped_sealed {client tail : Bytes} {crc : UInt32} {max : Nat}
    (version : 1 ≤ clientLocal ∧ clientLocal < 256)
    (fits : client.length + 16 + tail.length ≤ max) (small : max ≤ maxUint32)
    (read : (body.eval (newDecoder client max)).1 = .ok value)
    (trail : trailer.eval ⟨tail, max, none⟩ = (.ok rest, ⟨[], max, none⟩))
    (sum : crc32c 0xffffffff (wrapPayload clientLocal client (4 + tail.length) ++ tail) = crc) :
    (decodeWrapped name clientLocal body trailer (sealPayload clientLocal client crc tail)).eval
      (newDecoder (sealPayload clientLocal client crc tail) max) =
      (.ok (value, crc.toNat, rest), ⟨[], max, none⟩) := by
  have length : (littleEndian 4 crc.toNat ++ tail).length = 4 + tail.length := by
    rw [List.length_append, littleEndian_length]
  have opening : (openWrapper name clientLocal).eval _ = _ :=
    openWrapper_eval client (littleEndian 4 crc.toNat ++ tail) version (by omega) small
  have part : (versioned 12).eval ⟨Encoder.envelope 1 1 [] ++ (littleEndian 4 crc.toNat ++ tail), max, none⟩ =
      (.ok (1, newDecoder [] max), ⟨littleEndian 4 crc.toNat ++ tail, max, none⟩) :=
    eval_versioned (by decide) (by decide) (by decide) (Nat.zero_le _) (Nat.zero_le _)
  have stored : uint32.eval ⟨littleEndian 4 crc.toNat ++ tail, max, none⟩ = (.ok crc.toNat, ⟨tail, max, none⟩) := by
    rw [uint32, eval_fixed, show crc.toNat % 256 ^ 4 = crc.toNat from Nat.mod_eq_of_lt crc.toNat_lt]
  have covered : (wrapPayload clientLocal client (4 + tail.length)).length = client.length + 12 + 6 := by
    simp [wrapPayload, Encoder.envelope, littleEndian_length]
    omega
  rw [length] at opening
  refine decodeWrapped_eval opening read (closeWrapper_eval _ _ part rfl stored trail rfl ?_ ?_) rfl
  · dsimp only
    rw [length, sealPayload, List.length_append, covered, length]
    omega
  · dsimp only
    rw [length, Nat.add_sub_cancel, Nat.add_comm 6, ← covered, sealPayload, List.take_left, ← List.drop_drop,
      List.drop_left, List.drop_left' (littleEndian_length ..), ← crc32c_append, sum]

end Wrapped

variable {limits : Limits} {data : Bytes}

variable {osdMap : OSDMap} {closed : Decoder}

theorem decodeOSDMap_ok (decoded : decodeOSDMap limits data = .ok osdMap) :
    ∃ decoded crc client, ((decodeOSDMapClient limits).eval client).1 = .ok decoded ∧
      osdMap = { decoded with crc, crcVerified := true } ∧
      ∀ {γ : Type} {other : Decoding γ} {value : γ}, (other.eval client).1 = .ok value →
        ((decodeWrapped "osdmap" 10 other (pure ()) data).eval (newDecoder data limits.maxBytes)).1 =
          .ok (value, crc, ()) := by
  obtain ⟨⟨⟩, valid, run⟩ := except_bind_ok decoded
  obtain ⟨⟨client, crc, ⟨⟩⟩, read, returned⟩ := except_bind_ok run
  obtain ⟨decoder, body, others⟩ := decodeWrapped_ok (Prod.ext read rfl)
  cases returned
  exact ⟨client, crc, decoder, body, rfl, fun other => congrArg Prod.fst (others other)⟩

theorem decodeOSDMapIncremental_ok {incremental : OSDMapIncremental}
    (decoded : decodeOSDMapIncremental limits data = .ok incremental) :
    ∃ decoded incrementalCRC fullCRC client, ((decodeIncrementalClient limits).eval client).1 = .ok decoded ∧
      incremental = { decoded with incrementalCRC, fullCRC } := by
  obtain ⟨⟨⟩, valid, run⟩ := except_bind_ok decoded
  obtain ⟨⟨client, crc, full⟩, read, returned⟩ := except_bind_ok run
  obtain ⟨decoder, body, -⟩ := decodeWrapped_ok (Prod.ext read rfl)
  cases returned
  exact ⟨client, crc, full, decoder, body, rfl⟩

/-- What a successful application is: a full map replaces the current one, or the changes are applied to it. -/
theorem apply_cases {ranges : Ranges} {current next : OSDMap} {incremental : OSDMapIncremental}
    (applied : applyOSDMapIncremental ranges current incremental limits = .ok next) :
    incremental.fsid = current.fsid ∧ incremental.epoch = (current.epoch + 1) % 2 ^ 32 ∧
      (incremental.fullMap.length ≠ 0 ∧ decodeOSDMap limits incremental.fullMap = .ok next ∧
          next.fsid = current.fsid ∧ next.epoch = incremental.epoch ∨
        incremental.fullMap.length = 0 ∧ applyChanges ranges current incremental = .ok next) := by
  revert applied
  fun_cases applyOSDMapIncremental ranges current incremental limits
  any_goals rintro ⟨⟩
  · next fsid epoch full =>
    refine fun applied => ⟨not_not.mp fsid, not_not.mp epoch, .inl ⟨full, ?_⟩⟩
    revert applied
    fun_cases replaceMap current incremental limits
    all_goals rintro ⟨⟩
    next decoded same =>
      push Not at same
      exact ⟨decoded, same.1, same.2.1⟩
  · next fsid epoch none => exact fun applied => ⟨not_not.mp fsid, not_not.mp epoch, .inr ⟨not_not.mp none, applied⟩⟩

theorem decodeOSDMap_of {client : OSDMap} {crc : Nat} (valid : validateOSDMapLimits limits = .ok ())
    (run : (decodeWrapped "osdmap" 10 (decodeOSDMapClient limits) (pure ()) data).eval
      (newDecoder data limits.maxBytes) = (.ok (client, crc, ()), closed)) :
    decodeOSDMap limits data = .ok { client with crc, crcVerified := true } := by
  rw [decodeOSDMap, except_bind_eq valid]
  dsimp only
  rw [run]
  rfl

theorem decodeOSDMapIncremental_of {client : OSDMapIncremental} {crc full : Nat}
    (valid : validateOSDMapLimits limits = .ok ())
    (run : (decodeWrapped "incremental" 9 (decodeIncrementalClient limits) uint32 data).eval
      (newDecoder data limits.maxBytes) = (.ok (client, crc, full), closed)) :
    decodeOSDMapIncremental limits data = .ok { client with incrementalCRC := crc, fullCRC := full } := by
  rw [decodeOSDMapIncremental, except_bind_eq valid]
  dsimp only
  rw [run]
  rfl

section Sealed

variable {client : Bytes} {crc : UInt32} (valid : validateOSDMapLimits limits = .ok ())
    (small : limits.maxBytes ≤ maxUint32)

include valid small

theorem decodeOSDMap_sealed (fits : client.length + 16 ≤ limits.maxBytes)
    (read : ((decodeOSDMapClient limits).eval (newDecoder client limits.maxBytes)).1 = .ok osdMap)
    (sum : crc32c 0xffffffff (wrapPayload 10 client 4 ++ []) = crc) :
    decodeOSDMap limits (sealPayload 10 client crc []) = .ok { osdMap with crc := crc.toNat, crcVerified := true } :=
  decodeOSDMap_of valid (decodeWrapped_sealed (by decide) fits small read (eval_pure () _) sum)

theorem decodeOSDMapIncremental_sealed {incremental : OSDMapIncremental}
    (fits : client.length + 20 ≤ limits.maxBytes)
    (read : ((decodeIncrementalClient limits).eval (newDecoder client limits.maxBytes)).1 = .ok incremental)
    (sum : crc32c 0xffffffff (wrapPayload 9 client 8 ++ [0, 0, 0, 0]) = crc) :
    decodeOSDMapIncremental limits (sealPayload 9 client crc [0, 0, 0, 0]) =
      .ok { incremental with incrementalCRC := crc.toNat, fullCRC := 0 } :=
  decodeOSDMapIncremental_of valid (decodeWrapped_sealed (by decide) fits small read rfl sum)

end Sealed

theorem Yields.of_eval {α : Type} {x : Decoding α} {property : α → Prop} {d : Decoder} {value : α}
    (yields : Yields x property) (ok : (x.eval d).1 = .ok value) : property value := yields (Prod.ext ok rfl)

section TwoPools

def samplePoolEntry (id : Nat) : Bytes :=
  words [id, 0] ++ Encoder.envelope 5 5 ([1, 2, 0, 2] ++ words [1, 1] ++ List.replicate 40 0 ++ words [1, 0, 0])

def sampleNameEntry (id : Nat) (name : UInt8) : Bytes := words [id, 0, 1] ++ [name]

/-- Two pools, a name for the first one and one for the given one, and two OSDs. -/
def sampleClient (second : Nat) (crush : Bytes) : Bytes :=
  List.replicate 16 1 ++ words [5, 0, 0, 0, 0, 2] ++ samplePoolEntry 1 ++ samplePoolEntry 2 ++
    words [2] ++ sampleNameEntry 1 97 ++ sampleNameEntry second 98 ++
    words [2, 0, 2, 2, 3, 3, 2, 0x10000, 0x10000, 2] ++ [2, 0, 0, 0, 0, 2, 0, 0, 0, 0] ++
    words [0, 0, 0, crush.length] ++ crush ++ List.replicate 44 0

def twoPoolsCRC : UInt32 := 0xca9f4c6

/-- A map with two pools and two OSDs. -/
def twoPoolsPayload : Bytes := sealPayload 10 (sampleClient 2 Crush.CrushMap.twoHosts) twoPoolsCRC []

theorem twoPools_sum : crc32c 0xffffffff (wrapPayload 10 (sampleClient 2 Crush.CrushMap.twoHosts) 4 ++ []) =
    twoPoolsCRC :=
  crc32c_sums [0xe0e75ac3, 0xec9cd8e8, 0x3d46a86e, 0x2576930b, 0xe819b5f3, 0x8ae3b0b9, 0xd61febab, 0xbb5a0f91,
    0x1eb12e8, 0x7c00a9b3, 0xe9c8ed71, 0xd1b97bf6, twoPoolsCRC] (by decide +kernel) rfl

def sampleLimits : Limits := ⟨1000, 10, 10, 10, 10, 10, 10, 10⟩

def samplePool (id : Int) (name : Bytes) : Pool where
  id := id
  name := name
  poolType := poolTypeReplicated
  size := 2
  minimumSize := 1
  crushRule := 0
  objectHash := 2
  pgCount := 1
  placementPGCount := 1
  stripeWidth := 0
  flags := 1
  snapshotSequence := 0
  snapshots := ∅
  erasureCodeProfile := []
  nonprimaryShards := (0, 0)
  applicationMetadata := ∅
  options := ∅

/-- What is decoded from the payload. -/
def twoPoolsMap : OSDMap where
  fsid := List.replicate 16 1
  epoch := 5
  created := {}
  modified := {}
  pools := Finmap.insert 2 (samplePool 2 [98]) (Finmap.singleton 1 (samplePool 1 [97]))
  nameToID := Finmap.insert [98] 2 (Finmap.singleton [97] 1)
  poolMax := 2
  flags := 0
  maxOSD := 2
  osdState := [3, 3]
  osdWeight := [0x10000, 0x10000]
  clientAddresses := [[], []]
  pgTemp := ∅
  primaryTemp := ∅
  primaryAffinity := []
  crushData := Crush.CrushMap.twoHosts
  erasureCodeProfiles := ∅
  pgUpmap := ∅
  pgUpmapItems := ∅
  crushVersion := 0
  newRemovedSnapshots := ∅
  newPurgedSnapshots := ∅
  lastUpChange := {}
  lastInChange := {}
  pgUpmapPrimaries := ∅
  crc := twoPoolsCRC.toNat
  crcVerified := true

theorem twoPools_decoded : decodeOSDMap sampleLimits twoPoolsPayload = .ok twoPoolsMap := by
  have read : ((decodeOSDMapClient sampleLimits).eval
      (newDecoder (sampleClient 2 Crush.CrushMap.twoHosts) sampleLimits.maxBytes)).1 =
      .ok { twoPoolsMap with crc := 0, crcVerified := false } := by
    decide +kernel
  exact decodeOSDMap_sealed rfl (by decide) (by decide +kernel) read twoPools_sum

end TwoPools

end RadosGo.Maps
