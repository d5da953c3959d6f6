import RadosGo.Objecter.Request

namespace RadosGo

open Encoder Decoding

def encodeHObject (encoder : Encoder) (object : HObject) : Encoder :=
  encoder.versioned 4 3 fun payload =>
    ((((((payload.string object.key).string object.object).uint64 object.snapshot).uint32 object.hash.toNat).bool
      object.max).string object.namespace_).int64 object.pool

def marshalHObject (object : HObject) (maxBytes : Nat) : Except GoError Bytes :=
  (encodeHObject (newEncoder maxBytes) object).bytesResult

/-- The fields inside the envelope. -/
def decodeHObjectPayload (version : Nat) : Decoding HObject := do
  let key ← string
  let object ← string
  let snapshot ← uint64
  let hash ← uint32
  let max ← Decoding.bool
  let namespace_ ← fieldSince 4 version string []
  let pool ← fieldSince 4 version Decoding.int64 0
  if (← failed) ∨ (← remaining) ≠ 0 then throw (GoError.sentinel .malformedReply)
  return { key, object, snapshot, hash := UInt32.ofNat hash, max, namespace_, pool }

def decodeHObject : Decoding HObject := do
  let (version, payload) ← versioned 4
  if (← failed) ∨ version < 3 ∨ version > 4 then throw (GoError.sentinel .unsupportedVersion)
  within payload (decodeHObjectPayload version)

def unmarshalHObject (data : Bytes) (maxBytes : Nat) : Except GoError HObject :=
  match decodeHObject.eval (newDecoder data maxBytes) with
  | (.error err, _) => .error err
  | (.ok object, decoder) =>
    if decoder.err.isSome ∨ decoder.data.length ≠ 0 then .error Sentinel.malformedReply else .ok object

/-- The numbers of an object have the widths of their Go types. -/
structure HObject.Representable (object : HObject) : Prop where
  snapshot : object.snapshot < 2 ^ 64
  pool_low : -2 ^ 63 ≤ object.pool
  pool_high : object.pool < 2 ^ 63

def HObject.payloadBytes (object : HObject) : Bytes :=
  stringBytes object.key ++ stringBytes object.object ++ littleEndian 8 object.snapshot ++
    littleEndian 4 object.hash.toNat ++ littleEndian 1 object.max.toNat ++ stringBytes object.namespace_ ++
    littleEndian 8 (object.pool % 2 ^ 64).toNat

/-- The encoding of an object when nothing limits its length. -/
def HObject.wireBytes (object : HObject) : Bytes := envelope 4 3 object.payloadBytes

def HObject.nameLength (object : HObject) : Nat :=
  object.key.length + object.object.length + object.namespace_.length

theorem HObject.payloadBytes_length (object : HObject) : object.payloadBytes.length = 33 + object.nameLength := by
  simp only [payloadBytes, stringBytes, List.length_append, littleEndian_length, nameLength]
  omega

theorem HObject.wireBytes_length (object : HObject) : object.wireBytes.length = 39 + object.nameLength := by
  simp only [wireBytes, envelope, List.length_append, littleEndian_length, payloadBytes_length]
  omega

variable {maxBytes : Nat} {object : HObject}

theorem Encoder.Wrote.hObject {e : Encoder} {written : Bytes} (wrote : Wrote e maxBytes written)
    (small : maxBytes ≤ maxUint32) (object : HObject) :
    Wrote (encodeHObject e object) maxBytes (written ++ object.wireBytes) := by
  have payload := (((((((newEncoder_wrote maxBytes).string small object.key).string small object.object).raw
    (littleEndian 8 object.snapshot)).raw (littleEndian 4 object.hash.toNat)).bool object.max).string small
      object.namespace_).raw (littleEndian 8 (object.pool % 2 ^ 64).toNat)
  rw [List.nil_append] at payload
  exact wrote.versioned small 4 3 payload

theorem marshalHObject_eq (object : HObject) (small : maxBytes ≤ maxUint32) : marshalHObject object maxBytes =
      if 39 + object.nameLength ≤ maxBytes then .ok object.wireBytes else .error Sentinel.wireLimitExceeded := by
  have wrote := (newEncoder_wrote maxBytes).hObject small object
  rw [List.nil_append] at wrote
  rw [← HObject.wireBytes_length]
  exact wrote.bytesResult

theorem decodeHObjectPayload_eval (representable : object.Representable) (small : maxBytes ≤ maxUint32)
    (fits : object.nameLength ≤ maxBytes) :
    (decodeHObjectPayload 4).eval ⟨object.payloadBytes, maxBytes, none⟩ = (.ok object, ⟨[], maxBytes, none⟩) := by
  have names : object.nameLength = object.key.length + object.object.length + object.namespace_.length := rfl
  have hash : object.hash.toNat % 256 ^ 4 = object.hash.toNat := Nat.mod_eq_of_lt object.hash.toNat_lt
  have snapshot : object.snapshot % 256 ^ 8 = object.snapshot := Nat.mod_eq_of_lt representable.snapshot
  rw [decodeHObjectPayload, HObject.payloadBytes]
  simp only [List.append_assoc]
  rw [eval_bind (eval_string (by omega) (by omega)), eval_bind (eval_string (by omega) (by omega)), Decoding.uint64,
    Decoding.uint32, eval_bind (eval_fixed 8 _), eval_bind (eval_fixed 4 _), eval_bind (eval_bool _), fieldSince,
    if_pos (Nat.le_refl 4), eval_bind (eval_string (by omega) (by omega)), fieldSince, if_pos (Nat.le_refl 4),
    ← List.append_nil (littleEndian 8 _), eval_bind (eval_int64 representable.pool_low representable.pool_high),
    eval_bind (eval_failed _), hash, snapshot, UInt32.ofNat_toNat]
  rfl

theorem decodeHObject_eval (representable : object.Representable) (small : maxBytes ≤ maxUint32)
    (fits : 39 + object.nameLength ≤ maxBytes) (rest : Bytes) :
    decodeHObject.eval ⟨object.wireBytes ++ rest, maxBytes, none⟩ = (.ok object, ⟨rest, maxBytes, none⟩) := by
  have length := object.payloadBytes_length
  rw [decodeHObject, HObject.wireBytes,
    eval_bind (eval_versioned (by decide) (by decide) (by decide) (by omega) (by omega)), eval_bind (eval_failed _)]
  refine (eval_within _).trans ?_
  rw [newDecoder, decodeHObjectPayload_eval representable small (by omega)]

/-- What was encoded within the limit is read back. -/
theorem unmarshalHObject_wireBytes (representable : object.Representable) (small : maxBytes ≤ maxUint32)
    (fits : 39 + object.nameLength ≤ maxBytes) : unmarshalHObject object.wireBytes maxBytes = .ok object := by
  have decoded := decodeHObject_eval representable small fits []
  rw [List.append_nil] at decoded
  simp [unmarshalHObject, newDecoder, decoded]

theorem decodeHObjectPayload_yields (version : Nat) :
    Yields (decodeHObjectPayload version) HObject.Representable := by
  have poolBounds : Yields (fieldSince 4 version Decoding.int64 0) fun pool => -2 ^ 63 ≤ pool ∧ pool < 2 ^ 63 := by
    rw [fieldSince]
    split
    · exact yields_int64
    · exact yields_pure (by decide)
  refine (Yields.any _).bind fun key _ => (Yields.any _).bind fun object _ => ?_
  refine (yields_fixed 8).bind fun snapshot snapshotBound => (Yields.any _).bind fun hash _ => ?_
  refine (Yields.any _).bind fun max _ => (Yields.any _).bind fun namespace_ _ => ?_
  refine poolBounds.bind fun pool bounds => (Yields.any _).bind fun _ _ => (Yields.any _).bind fun _ _ => ?_
  split
  · exact (yields_throw _ fun _ => False).bind fun _ impossible => impossible.elim
  · exact yields_pure ⟨snapshotBound, bounds.1, bounds.2⟩

theorem decodeHObject_yields : Yields decodeHObject HObject.Representable := by
  refine (Yields.any _).bind fun ⟨version, payload⟩ _ => (Yields.any _).bind fun _ _ => ?_
  split
  · exact (yields_throw _ fun _ => False).bind fun _ impossible => impossible.elim
  · exact yields_within (decodeHObjectPayload_yields version)

theorem unmarshalHObject_representable {data : Bytes} (decoded : unmarshalHObject data maxBytes = .ok object) :
    object.Representable := by
  rw [unmarshalHObject] at decoded
  split at decoded
  · cases decoded
  · next read =>
    split at decoded
    · cases decoded
    · cases decoded
      exact decodeHObject_yields read

end RadosGo
