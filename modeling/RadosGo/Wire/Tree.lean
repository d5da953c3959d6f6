import RadosGo.Wire.Codec

namespace RadosGo

/-- A value without an envelope. -/
inductive Scalar where
  | uint8 (value : UInt8)
  | uint16 (value : UInt16)
  | uint32 (value : UInt32)
  | uint64 (value : UInt64)
  | int8 (value : Int8)
  | int16 (value : Int16)
  | int32 (value : Int32)
  | int64 (value : Int64)
  | bool (value : Bool)
  | bytes (value : Bytes)
  | string (value : Bytes)
  | raw (value : Bytes)
  deriving DecidableEq

/-- The read that fits a value. A raw field is read with its length. -/
inductive Kind where
  | uint8
  | uint16
  | uint32
  | uint64
  | int8
  | int16
  | int32
  | int64
  | bool
  | bytes
  | string
  | raw (size : Nat)
  deriving DecidableEq

/-- A sequence of values and of envelopes, each of which holds such a sequence. -/
inductive Tree (leaf node : Type) where
  | done
  | field (value : leaf) (rest : Tree leaf node)
  | versioned (header : node) (payload rest : Tree leaf node)
  deriving DecidableEq

/-- What an envelope says about its payload. -/
structure Header where
  version : UInt8
  compat : UInt8
  deriving DecidableEq

namespace Scalar

def kind : Scalar → Kind
  | uint8 _ => .uint8
  | uint16 _ => .uint16
  | uint32 _ => .uint32
  | uint64 _ => .uint64
  | int8 _ => .int8
  | int16 _ => .int16
  | int32 _ => .int32
  | int64 _ => .int64
  | bool _ => .bool
  | bytes _ => .bytes
  | string _ => .string
  | raw value => .raw value.length

def size : Scalar → Nat
  | uint8 _ | int8 _ | bool _ => 1
  | uint16 _ | int16 _ => 2
  | uint32 _ | int32 _ => 4
  | uint64 _ | int64 _ => 8
  | bytes value | string value => 4 + value.length
  | raw value => value.length

def encode (e : Encoder) : Scalar → Encoder
  | uint8 value => e.uint8 value.toNat
  | uint16 value => e.uint16 value.toNat
  | uint32 value => e.uint32 value.toNat
  | uint64 value => e.uint64 value.toNat
  | int8 value => e.int8 value.toInt
  | int16 value => e.int16 value.toInt
  | int32 value => e.int32 value.toInt
  | int64 value => e.int64 value.toInt
  | bool value => e.bool value
  | bytes value => e.bytes value
  | string value => e.string value
  | raw value => e.raw value

/-- The bytes of a value. -/
def wire : Scalar → Bytes
  | uint8 value => littleEndian 1 value.toNat
  | uint16 value => littleEndian 2 value.toNat
  | uint32 value => littleEndian 4 value.toNat
  | uint64 value => littleEndian 8 value.toNat
  | int8 value => littleEndian 1 (value.toInt % 2 ^ 8).toNat
  | int16 value => littleEndian 2 (value.toInt % 2 ^ 16).toNat
  | int32 value => littleEndian 4 (value.toInt % 2 ^ 32).toNat
  | int64 value => littleEndian 8 (value.toInt % 2 ^ 64).toNat
  | bool value => littleEndian 1 value.toNat
  | bytes value | string value => Encoder.stringBytes value
  | raw value => value

end Scalar

open Decoding in
def Kind.read : Kind → Decoding Scalar
  | uint8 => return .uint8 (UInt8.ofNat (← Decoding.uint8))
  | uint16 => return .uint16 (UInt16.ofNat (← Decoding.uint16))
  | uint32 => return .uint32 (UInt32.ofNat (← Decoding.uint32))
  | uint64 => return .uint64 (UInt64.ofNat (← Decoding.uint64))
  | int8 => return .int8 (Int8.ofInt (← Decoding.int8))
  | int16 => return .int16 (Int16.ofInt (← Decoding.int16))
  | int32 => return .int32 (Int32.ofInt (← Decoding.int32))
  | int64 => return .int64 (Int64.ofInt (← Decoding.int64))
  | bool => return .bool (← Decoding.bool)
  | bytes => return .bytes (← Decoding.bytes)
  | string => return .string (← Decoding.string)
  | raw size => return .raw (← Decoding.raw size)

namespace Tree

/-- An encoder is given the values of the tree, an inner one those of an envelope. -/
def encode : Tree Scalar Header → Encoder → Encoder
  | done, e => e
  | field value rest, e => rest.encode (value.encode e)
  | versioned header payload rest, e =>
    rest.encode (e.versioned header.version.toNat header.compat.toNat payload.encode)

def size : Tree Scalar Header → Nat
  | done => 0
  | field value rest => value.size + rest.size
  | versioned _ payload rest => 6 + payload.size + rest.size

/-- The length of each payload fits its header. -/
def EnvelopesFit : Tree Scalar Header → Prop
  | done => True
  | field _ rest => rest.EnvelopesFit
  | versioned _ payload rest => payload.size ≤ maxUint32 ∧ payload.EnvelopesFit ∧ rest.EnvelopesFit

def wire : Tree Scalar Header → Bytes
  | done => []
  | field value rest => value.wire ++ rest.wire
  | versioned header payload rest =>
    Encoder.envelope header.version.toNat header.compat.toNat payload.wire ++ rest.wire

/-- The reads of a tree. The nodes are the local versions; the inner decoder is dropped after the reads of its
payload. -/
def read : Tree Kind UInt8 → Decoding (Tree Scalar UInt8)
  | done => return .done
  | field kind rest => return .field (← kind.read) (← rest.read)
  | versioned localVersion payload rest => do
    let (version, inner) ← Decoding.versioned localVersion.toNat
    let values ← Decoding.within inner payload.read
    return .versioned (UInt8.ofNat version) values (← rest.read)

/-- The reads fit the values of the tree and leave some of them, as do the reads inside of its envelopes. -/
inductive Reads : Tree Kind UInt8 → Tree Scalar Header → Tree Scalar UInt8 → Tree Scalar Header → Prop where
  | done {left} : Reads .done left .done left
  | field {kinds written values left value} (rest : Reads kinds written values left) :
      Reads (.field value.kind kinds) (.field value written) (.field value values) left
  | versioned {kinds written values left inner payload innerValues innerLeft localVersion} {header : Header}
      (compatible : header.compat ≤ localVersion) (within : Reads inner payload innerValues innerLeft)
      (rest : Reads kinds written values left) :
      Reads (.versioned localVersion inner kinds) (.versioned header payload written)
        (.versioned header.version innerValues values) left

end Tree

section Writing

open Encoder

theorem Scalar.wire_length (value : Scalar) : value.wire.length = value.size := by
  cases value with
  | bytes | string => simp [wire, size, stringBytes]
  | raw => rfl
  | _ => exact littleEndian_length _ _

theorem Scalar.wrote {e : Encoder} {max : Nat} {written : Bytes} (wrote : Wrote e max written)
    (small : max ≤ maxUint32) (value : Scalar) : Wrote (value.encode e) max (written ++ value.wire) := by
  cases value with
  | bool value => exact wrote.bool value
  | bytes value => exact wrote.string small value
  | string value => exact wrote.string small value
  | _ => exact wrote.raw _

namespace Tree

theorem wire_length (tree : Tree Scalar Header) : tree.wire.length = tree.size := by
  induction tree with
  | done => rfl
  | field value rest ih => rw [wire, List.length_append, value.wire_length, ih, size]
  | versioned header payload rest ihPayload ihRest =>
    rw [wire, List.length_append, ihRest, size]
    simp only [envelope, List.length_append, littleEndian_length, ihPayload]

/-- An encoder that is given a tree holds its bytes, or has failed because they are too many. -/
theorem wrote {e : Encoder} {max : Nat} {written : Bytes} (start : Wrote e max written) (small : max ≤ maxUint32)
    (tree : Tree Scalar Header) : Wrote (tree.encode e) max (written ++ tree.wire) := by
  induction tree generalizing e written with
  | done =>
    rw [wire, List.append_nil]
    exact start
  | field value rest ih =>
    rw [wire, ← List.append_assoc]
    exact ih (value.wrote start small)
  | versioned header payload rest ihPayload ihRest =>
    have inner : Wrote (payload.encode (newEncoder max)) max payload.wire := ihPayload (newEncoder_wrote max)
    rw [wire, ← List.append_assoc]
    exact ihRest (start.versioned small _ _ inner)

theorem envelopesFit_of_size {tree : Tree Scalar Header} (small : tree.size ≤ maxUint32) : tree.EnvelopesFit := by
  induction tree with
  | done => trivial
  | field value rest ih =>
    rw [size] at small
    exact ih (by omega)
  | versioned header payload rest ihPayload ihRest =>
    rw [size] at small
    exact ⟨by omega, ihPayload (by omega), ihRest (by omega)⟩

/-- The limit is the only reason why a tree is not encoded. -/
theorem bytesResult_encode {max : Nat} (small : max ≤ maxUint32) (tree : Tree Scalar Header) :
    (tree.encode (newEncoder max)).bytesResult =
      if tree.size ≤ max then .ok tree.wire else .error Sentinel.wireLimitExceeded := by
  rw [← tree.wire_length]
  exact (tree.wrote (newEncoder_wrote max) small).bytesResult

end Tree

end Writing

section Reading

open Decoding

variable {max : Nat} {rest : Bytes}

theorem eval_fixed_of_lt {width value : Nat} (small : value < 256 ^ width) :
    (fixed width).eval ⟨littleEndian width value ++ rest, max, none⟩ = (.ok value, ⟨rest, max, none⟩) := by
  rw [eval_fixed, Nat.mod_eq_of_lt small]

/-- A signed value is read back from its residue. -/
theorem eval_signed (width bits : Nat) (wide : 2 ^ (bits + 1) = 256 ^ width) {value : Int} (low : -2 ^ bits ≤ value)
    (high : value < 2 ^ bits) :
    (do return Int.bmod (← fixed width) (2 ^ (bits + 1)) : Decoding Int).eval
        ⟨littleEndian width (value % 2 ^ (bits + 1)).toNat ++ rest, max, none⟩ = (.ok value, ⟨rest, max, none⟩) := by
  have positive : (0 : Int) < 2 ^ (bits + 1) := Int.pow_pos (by decide)
  have lower := Int.emod_nonneg value (Int.ne_of_gt positive)
  have upper := Int.emod_lt_of_pos value positive
  have small : (value % 2 ^ (bits + 1)).toNat < 256 ^ width := by
    rw [← wide]
    zify
    omega
  rw [eval_bind (eval_fixed_of_lt small), eval_pure, Int.toNat_of_nonneg lower]
  exact congrArg (fun read => (Except.ok read, _)) (bmod_emod_two_pow low high)

/-- Every scalar is read back by the reader of its kind, which leaves what follows. -/
theorem Scalar.eval_read (value : Scalar) (fits : value.size ≤ max) (small : value.size ≤ maxUint32) :
    value.kind.read.eval ⟨value.wire ++ rest, max, none⟩ = (.ok value, ⟨rest, max, none⟩) := by
  cases value with
  | uint8 value =>
    rw [kind, Kind.read, Decoding.uint8, wire, eval_bind (eval_fixed_of_lt value.toNat_lt), UInt8.ofNat_toNat]
    rfl
  | uint16 value =>
    rw [kind, Kind.read, Decoding.uint16, wire, eval_bind (eval_fixed_of_lt value.toNat_lt), UInt16.ofNat_toNat]
    rfl
  | uint32 value =>
    rw [kind, Kind.read, Decoding.uint32, wire, eval_bind (eval_fixed_of_lt value.toNat_lt), UInt32.ofNat_toNat]
    rfl
  | uint64 value =>
    rw [kind, Kind.read, Decoding.uint64, wire, eval_bind (eval_fixed_of_lt value.toNat_lt), UInt64.ofNat_toNat]
    rfl
  | int8 value =>
    have read : Decoding.int8.eval ⟨(int8 value).wire ++ rest, max, none⟩ = (.ok value.toInt, ⟨rest, max, none⟩) :=
      eval_signed 1 7 rfl value.le_toInt value.toInt_lt
    rw [kind, Kind.read, eval_bind read, Int8.ofInt_toInt]
    rfl
  | int16 value =>
    have read : Decoding.int16.eval ⟨(int16 value).wire ++ rest, max, none⟩ = (.ok value.toInt, ⟨rest, max, none⟩) :=
      eval_signed 2 15 rfl value.le_toInt value.toInt_lt
    rw [kind, Kind.read, eval_bind read, Int16.ofInt_toInt]
    rfl
  | int32 value =>
    have read : Decoding.int32.eval ⟨(int32 value).wire ++ rest, max, none⟩ = (.ok value.toInt, ⟨rest, max, none⟩) :=
      eval_signed 4 31 rfl value.le_toInt value.toInt_lt
    rw [kind, Kind.read, eval_bind read, Int32.ofInt_toInt]
    rfl
  | int64 value =>
    have read : Decoding.int64.eval ⟨(int64 value).wire ++ rest, max, none⟩ = (.ok value.toInt, ⟨rest, max, none⟩) :=
      eval_signed 8 63 rfl value.le_toInt value.toInt_lt
    rw [kind, Kind.read, eval_bind read, Int64.ofInt_toInt]
    rfl
  | bool value =>
    rw [kind, Kind.read, wire, eval_bind (eval_bool value)]
    rfl
  | bytes value =>
    rw [size] at fits small
    have read : Decoding.bytes.eval ⟨(bytes value).wire ++ rest, max, none⟩ = (.ok value, ⟨rest, max, none⟩) :=
      eval_string (by omega) (by omega)
    rw [kind, Kind.read, eval_bind read]
    rfl
  | string value =>
    rw [size] at fits small
    rw [kind, Kind.read, wire, eval_bind (eval_string (by omega) (by omega))]
    rfl
  | raw value =>
    have taken : (Decoding.raw value.length).eval ⟨value ++ rest, max, none⟩ = (.ok value, ⟨rest, max, none⟩) := by
      rw [Decoding.raw, eval_bind (eval_take value)]
      rfl
    rw [kind, Kind.read, wire, eval_bind taken]
    rfl

/-- A reader of a compatible version opens the envelope, also one of a newer version. -/
theorem Header.eval_opened (header : Header) {localVersion : UInt8} (compatible : header.compat ≤ localVersion)
    {payload : Bytes} (short : payload.length ≤ max) (small : payload.length ≤ maxUint32) (rest : Bytes) :
    (versioned localVersion.toNat).eval
        ⟨Encoder.envelope header.version.toNat header.compat.toNat payload ++ rest, max, none⟩ =
      (.ok (header.version.toNat, newDecoder payload max), ⟨rest, max, none⟩) :=
  eval_versioned header.version.toNat_lt (UInt8.le_iff_toNat_le.mp compatible) header.compat.toNat_lt short small

namespace Tree

/-- What fits the values of a tree reads them and ends behind them. -/
theorem Reads.eval {kinds : Tree Kind UInt8} {written left : Tree Scalar Header} {values : Tree Scalar UInt8}
    (reads : Reads kinds written values left) (fits : written.size ≤ max) (small : written.size ≤ maxUint32)
    (rest : Bytes) :
    kinds.read.eval ⟨written.wire ++ rest, max, none⟩ = (.ok values, ⟨left.wire ++ rest, max, none⟩) := by
  induction reads generalizing rest with
  | done => rfl
  | @field kinds written values left value _ ih =>
    rw [size] at fits small
    rw [wire, List.append_assoc, read, eval_bind (value.eval_read (by omega) (by omega)),
      eval_bind (ih (by omega) (by omega) rest)]
    rfl
  | @versioned kinds written values left inner payload innerValues innerLeft localVersion header compatible _ _
      ihInner ihRest =>
    rw [size] at fits small
    have length := payload.wire_length
    have opened := header.eval_opened compatible (show payload.wire.length ≤ max by omega) (by omega)
      (written.wire ++ rest)
    have inside : (within (newDecoder payload.wire max) inner.read).eval ⟨written.wire ++ rest, max, none⟩ =
        (.ok innerValues, ⟨written.wire ++ rest, max, none⟩) := by
      have read := ihInner (by omega) (by omega) []
      rw [List.append_nil] at read
      rw [eval_within]
      exact congrArg (fun result => (Prod.fst result, _)) read
    rw [wire, List.append_assoc, read, eval_bind opened]
    dsimp only
    rw [eval_bind inside, eval_bind (ihRest (by omega) (by omega) rest), UInt8.ofNat_toNat]
    rfl

end Tree

end Reading

open Decoding Encoder in
/-- Trees of values are written if they fit the limit, what was written is read back, and what the reads of an
envelope leave is skipped. -/
theorem tree_round_trip (tree : Tree Scalar Header) (limit : UInt32) :
    ((∃ data, (tree.encode (newEncoder limit.toNat)).bytesResult = .ok data) ↔
      tree.size ≤ limit.toNat ∧ tree.EnvelopesFit) ∧
    (∀ data, (tree.encode (newEncoder limit.toNat)).bytesResult = .ok data →
      data.length = tree.size ∧ ∀ max ≥ data.length, ∀ rest kinds values, Tree.Reads kinds tree values .done →
        kinds.read.eval ⟨data ++ rest, max, none⟩ = (.ok values, ⟨rest, max, none⟩)) ∧
    (∀ header payload data, tree = .versioned header payload .done →
      (tree.encode (newEncoder limit.toNat)).bytesResult = .ok data →
        ∀ max ≥ data.length, ∀ rest (localVersion : UInt8),
        header.compat ≤ localVersion → ∀ {α : Type} (read : Nat → Decoding α),
          (do let (version, inner) ← versioned localVersion.toNat
              within inner (read version) : Decoding α).eval ⟨data ++ rest, max, none⟩ =
            (((read header.version.toNat).eval (newDecoder payload.wire max)).1, ⟨rest, max, none⟩)) := by
  have uint32 : limit.toNat ≤ maxUint32 := Nat.le_of_lt_succ limit.toNat_lt
  have result := tree.bytesResult_encode uint32
  have written : ∀ {data}, (tree.encode (newEncoder limit.toNat)).bytesResult = .ok data → tree.size ≤ limit.toNat ∧
    data = tree.wire := by
    intro data run
    rw [result] at run
    split at run
    · next fits => exact ⟨fits, (Except.ok.inj run).symm⟩
    · cases run
  refine ⟨⟨?_, ?_⟩, ?_, ?_⟩
  · rintro ⟨data, run⟩
    have fits := (written run).1
    exact ⟨fits, Tree.envelopesFit_of_size (Nat.le_trans fits uint32)⟩
  · rintro ⟨fits, -⟩
    exact ⟨tree.wire, result.trans (if_pos fits)⟩
  · intro data run
    obtain ⟨fits, rfl⟩ := written run
    refine ⟨tree.wire_length, fun max enough rest kinds values reads => ?_⟩
    rw [tree.wire_length] at enough
    exact reads.eval enough (Nat.le_trans fits uint32) rest
  · rintro header payload data rfl run max enough rest localVersion compatible α read
    obtain ⟨fits, rfl⟩ := written run
    rw [Tree.wire_length] at enough
    rw [Tree.size] at fits enough
    have length := payload.wire_length
    have opened := header.eval_opened compatible (show payload.wire.length ≤ max by omega) (by omega) rest
    rw [Tree.wire, Tree.wire, List.append_nil, eval_bind opened]
    exact eval_within _

/-- An envelope of version 3 with a field that the reads do not know, and a field behind it. -/
def newerEnvelope : Tree Scalar Header :=
  .versioned ⟨3, 1⟩ (.field (.uint16 5) (.field (.string [104, 105]) .done)) (.field (.bool true) .done)

theorem tree_round_trip_newerEnvelope :
    ∃ data, (newerEnvelope.encode (Encoder.newEncoder 15)).bytesResult = .ok data ∧
    (Tree.versioned 2 (.field Kind.uint16 .done) (.field Kind.bool .done)).read.eval ⟨data ++ [9], 15, none⟩ =
      (.ok (.versioned 3 (.field (.uint16 5) .done) (.field (.bool true) .done)), ⟨[9], 15, none⟩) := by
  obtain ⟨written, reads, -⟩ := tree_round_trip newerEnvelope 15
  obtain ⟨data, run⟩ := written.mpr ⟨by decide, by decide, ⟨trivial, trivial⟩⟩
  obtain ⟨length, read⟩ := reads data run
  refine ⟨data, run, read 15 (by rw [length]; decide) [9] _ _ ?_⟩
  exact .versioned (by decide) (@Tree.Reads.field _ _ _ _ (.uint16 5) .done)
    (@Tree.Reads.field _ _ _ _ (.bool true) .done)

end RadosGo
