import RadosGo.Maps.Pool
import RadosGo.Wire.Address
import RadosGo.Wire.Crc

namespace RadosGo.Maps

structure PG where
  pool : Nat
  seed : Nat
  preferred : Int
  deriving DecidableEq, Repr

structure OSDRemap where
  source : Int
  target : Int
  deriving DecidableEq, Repr

/-- A snapshot without the cache of its CRUSH map. -/
structure OSDMap where
  fsid : FSID
  epoch : Nat
  created : UTime
  modified : UTime
  pools : GoMap Int Pool
  nameToID : GoMap Bytes Int
  poolMax : Int
  flags : Nat
  maxOSD : Int
  osdState : List UInt32
  osdWeight : List Nat
  clientAddresses : List EntityAddrVec
  pgTemp : GoMap PG (List Int)
  primaryTemp : GoMap PG Int
  primaryAffinity : List Nat
  crushData : Bytes
  erasureCodeProfiles : GoMap Bytes (GoMap Bytes Bytes)
  pgUpmap : GoMap PG (List Int)
  pgUpmapItems : GoMap PG (List OSDRemap)
  crushVersion : Nat
  newRemovedSnapshots : GoMap Int (List Interval)
  newPurgedSnapshots : GoMap Int (List Interval)
  lastUpChange : UTime
  lastInChange : UTime
  pgUpmapPrimaries : GoMap PG Int
  crc : Nat := 0
  crcVerified : Bool := false
  appliedIncremental : Bool := false
  deriving DecidableEq

def defaultPrimaryAffinity : Nat := 0x10000

def osdStateExists : UInt32 := 1
def osdStateUp : UInt32 := 2
def osdStateDestroyed : UInt32 := 128
def osdStateStop : UInt32 := 4096

section Decode

open Decoding

variable (limits : Limits)

/-- An array of sixteen bytes, filled as far as there are bytes. -/
def copyFSID (data : Bytes) : FSID := (data ++ List.replicate 16 0).take 16

def decodePG : Decoding PG := do
  if (← uint8) ≠ 1 then throw (unsupported "unsupported pg identifier version")
  let pool ← uint64
  let seed ← uint32
  let preferred ← int32
  finish
  return ⟨pool, seed, preferred⟩

/-- An inner list ends without a check of the decoder. -/
def decodeInner {α : Type} (maximum minimumBytes : Nat) (read : Decoding α) : Decoding (List α) := do
  let count ← boundedCount maximum minimumBytes
  readMany read count

def duplicatePG (_ : PG) : GoError := malformed "duplicate pg mapping"

def decodePGVectorMap : Decoding (GoMap PG (List Int)) :=
  decodeEntries limits.maxPGMappings 21 duplicatePG do return (← decodePG, ← decodeInner limits.maxOSDs 4 int32)

def decodePGIntMap : Decoding (GoMap PG Int) :=
  decodeEntries limits.maxPGMappings 21 duplicatePG do return (← decodePG, ← int32)

def decodePGRemapItems : Decoding (GoMap PG (List OSDRemap)) :=
  decodeEntries limits.maxPGMappings 21 (fun _ => malformed "duplicate pg remap") do
    return (← decodePG, ← decodeInner limits.maxOSDs 8 do return ⟨← int32, ← int32⟩)

def decodePoolIntervalMap : Decoding (GoMap Int (List Interval)) :=
  decodeEntries limits.maxPools 12 (fun _ => malformed "duplicate pool interval set") do
    return (← int64, ← decodeIntervals limits.maxCollectionEntries)

def decodeUint32Vector : Decoding (List Nat) := decodeList limits.maxOSDs 4 uint32

def decodeAddressVector : Decoding (List EntityAddrVec) :=
  decodeList limits.maxOSDs 5 (decodeEntityAddrVec limits.maxAddresses)

/-- A pool with its number in front. -/
def decodeNumberedPool : Decoding (Int × Pool) := do
  let id ← int64
  let pool ← decodePool limits
  return (id, { pool with id })

def decodePools (duplicate : Int → GoError) : Decoding (GoMap Int Pool) := do
  let count ← boundedCount limits.maxPools 14
  readFold (decodeNumberedPool limits) (addEntry duplicate) count ∅

/-- The pools and the index of their names. -/
structure Names where
  pools : GoMap Int Pool
  nameToID : GoMap Bytes Int := ∅

def addName (names : Names) (entry : Int × Bytes) : Except GoError Names :=
  let (id, name) := entry
  match names.pools.lookup id with
  | none => .error (malformed s!"name for unknown pool {id}")
  | some pool =>
    if name ∈ names.nameToID then .error (malformed ("duplicate pool name " ++ quoted name))
    else .ok ⟨names.pools.insert id { pool with name }, names.nameToID.insert name id⟩

def decodeName : Decoding (Int × Bytes) := do return (← int64, ← string)

def decodeNames (pools : GoMap Int Pool) : Decoding Names := do
  let count ← boundedCount limits.maxPools 12
  let names ← readFold decodeName addName count { pools }
  if names.nameToID.keys.card ≠ names.pools.keys.card then throw (malformed "missing pool names")
  return names

/-- The part of a map in front of its pools. -/
structure Heading where
  fsid : FSID
  epoch : Nat
  created : UTime
  modified : UTime

def decodeHeading : Decoding Heading := do
  let fsid ← raw 16
  let epoch ← uint32
  let created ← decodeUTime
  let modified ← decodeUTime
  return ⟨copyFSID fsid, epoch, created, modified⟩

/-- The vectors with an entry for each OSD, and the mappings among them. -/
structure Vectors where
  poolMax : Int
  flags : Nat
  maxOSD : Int
  osdState : List Nat
  osdWeight : List Nat
  clientAddresses : List EntityAddrVec
  pgTemp : GoMap PG (List Int)
  primaryTemp : GoMap PG Int
  primaryAffinity : List Nat

def Vectors.Consistent (vectors : Vectors) (limits : Limits) : Prop :=
  0 ≤ vectors.maxOSD ∧ vectors.maxOSD ≤ limits.maxOSDs ∧ (vectors.osdState.length : Int) = vectors.maxOSD ∧
    (vectors.osdWeight.length : Int) = vectors.maxOSD ∧ (vectors.clientAddresses.length : Int) = vectors.maxOSD ∧
    (vectors.primaryAffinity.length = 0 ∨ (vectors.primaryAffinity.length : Int) = vectors.maxOSD)

instance Vectors.decidableConsistent (vectors : Vectors) (limits : Limits) : Decidable (vectors.Consistent limits) :=
  inferInstanceAs (Decidable (_ ∧ _))

def decodeVectors : Decoding Vectors := do
  let poolMax ← int32
  let flags ← uint32
  let maxOSD ← int32
  let osdState ← decodeUint32Vector limits
  let osdWeight ← decodeUint32Vector limits
  let clientAddresses ← decodeAddressVector limits
  let pgTemp ← decodePGVectorMap limits
  let primaryTemp ← decodePGIntMap limits
  let primaryAffinity ← decodeUint32Vector limits
  let vectors :=
    ⟨poolMax, flags, maxOSD, osdState, osdWeight, clientAddresses, pgTemp, primaryTemp, primaryAffinity⟩
  if ¬vectors.Consistent limits then throw (malformed s!"inconsistent osd vectors for max_osd {maxOSD}")
  return vectors

def decodeOSDMapClient : Decoding OSDMap := do
  let heading ← decodeHeading
  let pools ← decodePools limits fun id => malformed s!"duplicate pool id {id}"
  let names ← decodeNames limits pools
  let vectors ← decodeVectors limits
  let crushData ← bytes
  let erasureCodeProfiles ← decodeNestedStringMap limits.maxCollectionEntries
  let pgUpmap ← decodePGVectorMap limits
  let pgUpmapItems ← decodePGRemapItems limits
  let crushVersion ← uint32
  let newRemovedSnapshots ← decodePoolIntervalMap limits
  let newPurgedSnapshots ← decodePoolIntervalMap limits
  let lastUpChange ← decodeUTime
  let lastInChange ← decodeUTime
  let pgUpmapPrimaries ← decodePGIntMap limits
  finish
  return { heading, names, vectors with
    osdState := vectors.osdState.map UInt32.ofNat, crushData, erasureCodeProfiles, pgUpmap, pgUpmapItems,
      crushVersion,
    newRemovedSnapshots, newPurgedSnapshots, lastUpChange, lastInChange, pgUpmapPrimaries }

def validateOSDMapLimits : Except GoError Unit :=
  if limits.maxBytes = 0 ∨ limits.maxPools = 0 ∨ limits.maxOSDs = 0 ∨ limits.maxAddresses = 0 ∨
      limits.maxPGMappings = 0 ∨ limits.maxCollectionEntries = 0 then .error Sentinel.wireLimitExceeded
  else .ok ()

/-- The text of `%#08x`. -/
def hexadecimal8 (value : Nat) : String :=
  let digits := Nat.toDigits 16 value
  "0x" ++ String.ofList (List.replicate (6 - digits.length) '0' ++ digits)

/-- The wrapper of a map and the client part in it: the length of the wrapper, the client part and
what follows it. -/
def openWrapper (name : String) (clientLocal : Nat) : Decoding (Nat × Decoder × Decoder) := do
  let (wrapperVersion, wrapper) ← versioned 8
  finish
  if wrapperVersion < 8 then throw (unsupported s!"{name} wrapper version {wrapperVersion}")
  within wrapper do
    let (clientVersion, client) ← versioned clientLocal
    finish
    if clientVersion < clientLocal then throw (unsupported s!"{name} client version {clientVersion}")
    return (wrapper.data.length, client, ← get)

/-- The part of the wrapper behind the client part. The checksum covers everything but itself. -/
def closeWrapper {β : Type} (name : String) (trailer : Decoding β) (data : Bytes) (size : Nat) :
    Decoding (Nat × β) := do
  let _ ← versioned 12
  finish
  let crcOffset := 6 + (size - (← remaining))
  let crc ← uint32
  let rest ← trailer
  finish
  if crcOffset + 4 > data.length then throw (GoError.sentinel .wireMalformed)
  let actual := (crc32c (crc32c 0xffffffff (data.take crcOffset)) (data.drop (crcOffset + 4))).toNat
  if actual ≠ crc then throw (malformed (name ++ " crc got " ++ hexadecimal8 crc ++ " want " ++ hexadecimal8 actual))
  return (crc, rest)

/-- The end of the wrapper is the end of the input. -/
def endWrapper {β : Type} (name : String) (trailer : Decoding β) (data : Bytes) (size : Nat) (wrapper : Decoder) :
    Decoding (Nat × β) := do
  let closing ← within wrapper (closeWrapper name trailer data size)
  if (← remaining) ≠ 0 then throw (malformed s!"trailing {name} bytes")
  return closing

/-- The decoding of full maps and of incrementals, which differ in the client part and in what
follows the checksum. -/
def decodeWrapped {α β : Type} (name : String) (clientLocal : Nat) (body : Decoding α) (trailer : Decoding β)
    (data : Bytes) :
    Decoding (α × Nat × β) := do
  let (size, client, wrapper) ← openWrapper name clientLocal
  let value ← within client body
  let closing ← endWrapper name trailer data size wrapper
  return (value, closing)

def decodeOSDMap (data : Bytes) : Except GoError OSDMap := do
  validateOSDMapLimits limits
  let decoding := decodeWrapped "osdmap" 10 (decodeOSDMapClient limits) (pure ()) data
  let (osdMap, crc, _) ← (decoding.eval (newDecoder data limits.maxBytes)).1
  return { osdMap with crc, crcVerified := true }

end Decode

end RadosGo.Maps
