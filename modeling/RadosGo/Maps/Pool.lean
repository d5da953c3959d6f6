import RadosGo.Library.GoMap
import RadosGo.Wire.Codec

namespace RadosGo.Maps

structure Limits where
  maxBytes : Nat
  maxMonitors : Nat
  maxAddresses : Nat
  maxLocations : Nat
  maxPools : Nat
  maxOSDs : Nat
  maxPGMappings : Nat
  maxCollectionEntries : Nat
  deriving DecidableEq, Repr

abbrev FSID := Bytes

structure UTime where
  seconds : Nat := 0
  nanoseconds : Nat := 0
  deriving DecidableEq, Repr

structure Interval where
  start : Nat
  length : Nat
  deriving DecidableEq, Repr

/-- The value of an option: the bits of a double are kept as they are. -/
inductive PoolOption where
  | string (value : Bytes)
  | integer (value : Int)
  | double (bits : Nat)
  deriving DecidableEq, Repr

structure PoolSnapshot where
  id : Nat
  name : Bytes
  timestamp : UTime
  deriving DecidableEq, Repr

def poolTypeReplicated : Nat := 1
def poolTypeErasure : Nat := 3
def poolFlagECOptimizations : Nat := 2 ^ 19

structure Pool where
  id : Int := 0
  name : Bytes := []
  poolType : Nat
  size : Nat
  minimumSize : Nat
  crushRule : Nat
  objectHash : Nat
  pgCount : Nat
  placementPGCount : Nat
  stripeWidth : Nat
  flags : Nat
  snapshotSequence : Nat
  snapshots : GoMap Nat PoolSnapshot
  erasureCodeProfile : Bytes
  nonprimaryShards : Nat × Nat
  applicationMetadata : GoMap Bytes (GoMap Bytes Bytes)
  options : GoMap Int PoolOption
  deriving DecidableEq

/-- The text of `%q` for a byte. -/
def quotedByte (byte : UInt8) : String :=
  if byte = 34 then "\\\"" else if byte = 92 then "\\\\"
  else if 32 ≤ byte ∧ byte < 127 then String.singleton (Char.ofNat byte.toNat)
  else "\\x" ++ String.ofList ((Nat.toDigits 16 (256 + byte.toNat)).drop 1)

def quoted (name : Bytes) : String := "\"" ++ String.join (name.map quotedByte) ++ "\""

section Decode

open Decoding

def malformed (detail : String) : GoError := GoError.errorf Sentinel.malformedMap detail

def unsupported (detail : String) : GoError := GoError.errorf Sentinel.unsupportedVersion detail

/-- A new entry of a map that is being read. -/
def addEntry {κ α : Type} [DecidableEq κ] (duplicate : κ → GoError) (entries : GoMap κ α) (entry : κ × α) :
    Except GoError (GoMap κ α) :=
  if entry.1 ∈ entries then .error (duplicate entry.1) else .ok (entries.insert entry.1 entry.2)

def decodeUTime : Decoding UTime := do return ⟨← uint32, ← uint32⟩

def boundedCount (maximum minimumBytes : Nat) : Decoding Nat := do
  let count ← uint32
  finish
  if count > maximum then throw (GoError.sentinel .wireLimitExceeded)
  if minimumBytes ≠ 0 ∧ count > (← remaining) / minimumBytes then throw (GoError.sentinel .wireMalformed)
  return count

/-- A list with its length in front. -/
def decodeList {α : Type} (maximum minimumBytes : Nat) (read : Decoding α) : Decoding (List α) := do
  let count ← boundedCount maximum minimumBytes
  let values ← readMany read count
  finish
  return values

/-- A map with its length in front. -/
def decodeEntries {κ α : Type} [DecidableEq κ] (maximum minimumBytes : Nat) (duplicate : κ → GoError)
    (read : Decoding (κ × α)) : Decoding (GoMap κ α) := do
  let count ← boundedCount maximum minimumBytes
  let entries ← readFold read (addEntry duplicate) count ∅
  finish
  return entries

def decodeStrings (maximum : Nat) : Decoding (List Bytes) := decodeList maximum 4 string

def decodeIntervals (maximum : Nat) : Decoding (List Interval) :=
  decodeList maximum 16 do return ⟨← uint64, ← uint64⟩

def consumeUint64Set (maximum : Nat) : Decoding Unit := do
  let _ ← decodeList maximum 8 uint64

def duplicateString (key : Bytes) : GoError := malformed ("duplicate string key " ++ quoted key)

def decodeStringMap (maximum : Nat) : Decoding (GoMap Bytes Bytes) :=
  decodeEntries maximum 8 duplicateString do return (← string, ← string)

def decodeNestedStringMap (maximum : Nat) : Decoding (GoMap Bytes (GoMap Bytes Bytes)) :=
  decodeEntries maximum 8 duplicateString do return (← string, ← decodeStringMap maximum)

def skipVersioned (localVersion : Nat) : Decoding Unit := do
  let _ ← versioned localVersion
  finish

/-- Seven more bits of a number, above those of the rounds before. -/
def addBits (result : UInt64) (index value : Nat) : UInt64 :=
  result ||| UInt64.ofNat value <<< UInt64.ofNat (7 * index)

def decodeVarint : Nat → Nat → UInt64 → Decoding UInt64
  | 0, _, _ => throw (GoError.sentinel .wireMalformed)
  | rounds + 1, index, result => do
    let value ← uint8
    finish
    if value &&& 0x80 = 0 then
      if index = 9 ∧ value > 1 then throw (GoError.sentinel .wireMalformed)
      return addBits result index value
    decodeVarint rounds (index + 1) (addBits result index (value &&& 0x7f))

def decodeUnsignedVarint : Decoding Nat := do return (← decodeVarint 10 0 0).toNat

variable (limits : Limits)

def decodePoolOption (version : Nat) : Decoding (Int × PoolOption) := do
  let key ← int32
  let optionType ← int32
  if optionType = 0 then return (key, .string (← string))
  else if optionType = 1 then
    return (key, .integer (← if version ≥ 2 then int64 else int32))
  else if optionType = 2 then return (key, .double (← uint64))
  else throw (unsupported s!"pool option type {optionType}")

def decodePoolOptions : Decoding (GoMap Int PoolOption) := do
  let (version, payload) ← versioned 2
  finish
  if version < 1 then throw (unsupported s!"pool options version {version}")
  within payload (decodeEntries limits.maxCollectionEntries 8 (fun key => malformed s!"duplicate pool option {key}")
    (decodePoolOption version))

def decodePoolSnapshot : Decoding (Nat × PoolSnapshot) := do
  let key ← uint64
  let (version, payload) ← versioned 2
  finish
  if version < 2 then throw (unsupported s!"pool snapshot version {version}")
  let snapshot ← within payload do
    let id ← uint64
    let timestamp ← decodeUTime
    let name ← string
    finish
    return ({ id, name, timestamp } : PoolSnapshot)
  return (key, snapshot)

/-- The snapshots read so far; a name may occur once only. -/
def addSnapshot (snapshots : GoMap Nat PoolSnapshot × Finset Bytes) (entry : Nat × PoolSnapshot) :
    Except GoError (GoMap Nat PoolSnapshot × Finset Bytes) :=
  let (key, snapshot) := entry
  if key ≠ snapshot.id then .error (malformed s!"pool snapshot key {key} != id {snapshot.id}")
  else if key ∈ snapshots.1 then .error (malformed s!"duplicate pool snapshot id {key}")
  else if snapshot.name ∈ snapshots.2
    then .error (malformed ("duplicate pool snapshot name " ++ quoted snapshot.name))
  else .ok (snapshots.1.insert key snapshot, insert snapshot.name snapshots.2)

def decodePoolSnapshots : Decoding (GoMap Nat PoolSnapshot) := do
  let count ← boundedCount limits.maxCollectionEntries 14
  let snapshots ← readFold decodePoolSnapshot addSnapshot count (∅, ∅)
  finish
  return snapshots.1

/-- Fields that are read and dropped. -/
def skip {α : Type} (count : Nat) (read : Decoding α) : Decoding Unit := do
  let _ ← readMany read count

def sinceVersion (first version : Nat) (read : Decoding Unit) : Decoding Unit := fieldSince first version read ()

/-- The fields of versions 8 to 11, none of which is kept. -/
def skipTiering (version : Nat) : Decoding Unit := do
  sinceVersion 8 version (skip 2 uint64)
  sinceVersion 9 version do
    consumeUint64Set limits.maxCollectionEntries
    skip 1 int64
    skip 1 uint8
    skip 2 int64
  sinceVersion 10 version do
    let _ ← decodeStringMap limits.maxCollectionEntries
  sinceVersion 11 version do
    skipVersioned 1
    skip 2 uint32

/-- The fields of versions 15 to 23, none of which is kept. -/
def skipCacheSettings (version : Nat) : Decoding Unit := do
  sinceVersion 15 version (skip 1 uint32)
  sinceVersion 16 version (skip 1 uint32)
  sinceVersion 17 version (skip 1 uint64)
  sinceVersion 19 version (skip 1 uint32)
  sinceVersion 20 version (skip 1 uint32)
  sinceVersion 21 version (skip 1 bool)
  sinceVersion 22 version (skip 1 bool)
  sinceVersion 23 version (skip 2 uint32)

/-- The fields of versions 27 to 31, none of which is kept. -/
def skipMergeSettings (version : Nat) : Decoding Unit := do
  sinceVersion 27 version (skip 1 decodeUTime)
  sinceVersion 28 version do
    skip 6 uint32
    skip 1 uint8
  sinceVersion 29 version (skipVersioned 1)
  if version = 30 then
    skip 3 uint32
    skip 1 int32
  sinceVersion 31 version do
    if ← bool then skip 4 uint32

def decodePoolPayload (version : Nat) : Decoding Pool := do
  let poolType ← uint8
  let size ← uint8
  let crushRule ← uint8
  let objectHash ← uint8
  let pgCount ← uint32
  let placementPGCount ← uint32
  skip 3 uint32
  let snapshotSequence ← uint64
  skip 1 uint32
  let snapshots ← decodePoolSnapshots limits
  let _ ← decodeIntervals limits.maxCollectionEntries
  skip 1 uint64
  let flags ← uint64
  skip 1 uint32
  let minimumSize ← fieldSince 7 version uint8 (size - size / 2)
  skipTiering limits version
  let stripeWidth ← fieldSince 12 version uint32 0
  sinceVersion 13 version do
    skip 2 uint64
    skip 4 uint32
  let erasureCodeProfile ← fieldSince 14 version string []
  skipCacheSettings version
  let options ← fieldSince 24 version (decodePoolOptions limits) ∅
  sinceVersion 25 version (skip 1 uint32)
  let applicationMetadata ← fieldSince 26 version (decodeNestedStringMap limits.maxCollectionEntries) ∅
  skipMergeSettings version
  let nonprimaryShards ← fieldSince 32 version (do return (← decodeUnsignedVarint, ← decodeUnsignedVarint)) (0, 0)
  finish
  return {
    poolType, size, minimumSize, crushRule, objectHash, pgCount, placementPGCount, stripeWidth, flags,
      snapshotSequence,
    snapshots, erasureCodeProfile, nonprimaryShards, applicationMetadata, options }

def decodePool : Decoding Pool := do
  let (version, payload) ← versioned 32
  finish
  if version < 5 then throw (unsupported s!"pool version {version}")
  within payload (decodePoolPayload limits version)

end Decode

end RadosGo.Maps
