import RadosGo.Crush.Place
import RadosGo.Maps.OsdMap

namespace RadosGo.Maps

open Crush (indexed assigned)

structure OSDMapIncremental where
  fsid : FSID
  epoch : Nat
  modified : UTime
  newPoolMax : Int
  newFlags : Int
  fullMap : Bytes
  crushData : Bytes
  newMaxOSD : Int
  newPools : GoMap Int Pool
  newPoolNames : GoMap Int Bytes
  oldPools : List Int
  newUpClient : GoMap Int EntityAddrVec
  newState : GoMap Int Nat
  newWeight : GoMap Int Nat
  newPGTemp : GoMap PG (List Int)
  newPrimaryTemp : GoMap PG Int
  newPrimaryAffinity : GoMap Int Nat
  newErasureProfiles : GoMap Bytes (GoMap Bytes Bytes)
  oldErasureProfiles : List Bytes
  newPGUpmap : GoMap PG (List Int)
  oldPGUpmap : List PG
  newPGUpmapItems : GoMap PG (List OSDRemap)
  oldPGUpmapItems : List PG
  newRemovedSnapshots : GoMap Int (List Interval)
  newPurgedSnapshots : GoMap Int (List Interval)
  newLastUpChange : UTime
  newLastInChange : UTime
  newPGUpmapPrimaries : GoMap PG Int
  oldPGUpmapPrimaries : List PG
  incrementalCRC : Nat := 0
  fullCRC : Nat := 0
  deriving DecidableEq

section Decode

open Decoding

variable (limits : Limits)

/-- A list without duplicates. -/
def addMember {α : Type} [DecidableEq α] (duplicate : α → GoError) (members : List α) (member : α) :
    Except GoError (List α) :=
  if member ∈ members then .error (duplicate member) else .ok (members ++ [member])

def decodePGSet : Decoding (List PG) := do
  let count ← boundedCount limits.maxPGMappings 17
  let members ← readFold decodePG (addMember fun _ => malformed "duplicate pg set entry") count []
  finish
  return members

def decodeIntAddressMap : Decoding (GoMap Int EntityAddrVec) :=
  decodeEntries limits.maxOSDs 9 (fun osd => malformed s!"duplicate osd address {osd}") do
    return (← int32, ← decodeEntityAddrVec limits.maxAddresses)

def decodeIntUintMap : Decoding (GoMap Int Nat) :=
  decodeEntries limits.maxOSDs 8 (fun osd => malformed s!"duplicate osd value {osd}") do return (← int32, ← uint32)

def decodePoolNames : Decoding (GoMap Int Bytes) := do
  let count ← boundedCount limits.maxPools 12
  readFold decodeName (addEntry fun id => malformed s!"duplicate renamed pool {id}") count ∅

def decodeOldPools : Decoding (List Int) := do
  let count ← boundedCount limits.maxPools 8
  readFold int64 (addMember fun id => malformed s!"duplicate removed pool {id}") count []

def decodeIncrementalClient : Decoding OSDMapIncremental := do
  let fsid ← raw 16
  let epoch ← uint32
  let modified ← decodeUTime
  let newPoolMax ← int64
  let newFlags ← int32
  let fullMap ← bytes
  let crushData ← bytes
  let newMaxOSD ← int32
  if newMaxOSD > Int.bmod limits.maxOSDs (2 ^ 32) then throw (GoError.sentinel .wireLimitExceeded)
  let newPools ← decodePools limits fun id => malformed s!"duplicate new pool {id}"
  let newPoolNames ← decodePoolNames limits
  let oldPools ← decodeOldPools limits
  let newUpClient ← decodeIntAddressMap limits
  let newState ← decodeIntUintMap limits
  let newWeight ← decodeIntUintMap limits
  let newPGTemp ← decodePGVectorMap limits
  let newPrimaryTemp ← decodePGIntMap limits
  let newPrimaryAffinity ← decodeIntUintMap limits
  let newErasureProfiles ← decodeNestedStringMap limits.maxCollectionEntries
  let oldErasureProfiles ← decodeStrings limits.maxCollectionEntries
  let newPGUpmap ← decodePGVectorMap limits
  let oldPGUpmap ← decodePGSet limits
  let newPGUpmapItems ← decodePGRemapItems limits
  let oldPGUpmapItems ← decodePGSet limits
  let newRemovedSnapshots ← decodePoolIntervalMap limits
  let newPurgedSnapshots ← decodePoolIntervalMap limits
  let newLastUpChange ← decodeUTime
  let newLastInChange ← decodeUTime
  let newPGUpmapPrimaries ← decodePGIntMap limits
  let oldPGUpmapPrimaries ← decodePGSet limits
  finish
  return {
    fsid := copyFSID fsid, epoch, modified, newPoolMax, newFlags, fullMap, crushData, newMaxOSD, newPools,
      newPoolNames,
    oldPools, newUpClient, newState, newWeight, newPGTemp, newPrimaryTemp, newPrimaryAffinity, newErasureProfiles,
    oldErasureProfiles, newPGUpmap, oldPGUpmap, newPGUpmapItems, oldPGUpmapItems, newRemovedSnapshots,
    newPurgedSnapshots, newLastUpChange, newLastInChange, newPGUpmapPrimaries, oldPGUpmapPrimaries }

def decodeOSDMapIncremental (data : Bytes) : Except GoError OSDMapIncremental := do
  validateOSDMapLimits limits
  let decoding := decodeWrapped "incremental" 9 (decodeIncrementalClient limits) uint32 data
  let (incremental, incrementalCRC, fullCRC) ← (decoding.eval (newDecoder data limits.maxBytes)).1
  return { incremental with incrementalCRC, fullCRC }

end Decode

/-- The orders in which the loops over the maps of an incremental visit their entries, and the
order of the loop over the pools at the end. -/
structure Ranges where
  newPools : List (Int × Pool)
  newPoolNames : List (Int × Bytes)
  newWeight : List (Int × Nat)
  newPrimaryAffinity : List (Int × Nat)
  newState : List (Int × Nat)
  newUpClient : List (Int × EntityAddrVec)
  newPGTemp : List (PG × List Int)
  newPrimaryTemp : List (PG × Int)
  newErasureProfiles : List (Bytes × GoMap Bytes Bytes)
  newPGUpmap : List (PG × List Int)
  newPGUpmapItems : List (PG × List OSDRemap)
  newPGUpmapPrimaries : List (PG × Int)
  pools : GoMap Int Pool → List (Int × Pool)

/-- The orders are orders of the incremental's maps. -/
structure Ranges.Of (ranges : Ranges) (incremental : OSDMapIncremental) : Prop where
  newPools : incremental.newPools.Lists ranges.newPools
  newPoolNames : incremental.newPoolNames.Lists ranges.newPoolNames
  newWeight : incremental.newWeight.Lists ranges.newWeight
  newPrimaryAffinity : incremental.newPrimaryAffinity.Lists ranges.newPrimaryAffinity
  newState : incremental.newState.Lists ranges.newState
  newUpClient : incremental.newUpClient.Lists ranges.newUpClient
  newPGTemp : incremental.newPGTemp.Lists ranges.newPGTemp
  newPrimaryTemp : incremental.newPrimaryTemp.Lists ranges.newPrimaryTemp
  newErasureProfiles : incremental.newErasureProfiles.Lists ranges.newErasureProfiles
  newPGUpmap : incremental.newPGUpmap.Lists ranges.newPGUpmap
  newPGUpmapItems : incremental.newPGUpmapItems.Lists ranges.newPGUpmapItems
  newPGUpmapPrimaries : incremental.newPGUpmapPrimaries.Lists ranges.newPGUpmapPrimaries
  pools : ∀ m : GoMap Int Pool, m.Lists (ranges.pools m)

def failure {α : Type} (detail : String) : Except Fault α := .error (.err (malformed detail))

section Pools

/-- A new pool keeps the name of the pool it replaces. -/
def addPool (pools : GoMap Int Pool) (entry : Int × Pool) : GoMap Int Pool :=
  match pools.lookup entry.1 with
  | some old => pools.insert entry.1 { entry.2 with name := old.name }
  | none => pools.insert entry.1 entry.2

def renamePool (names : Names) (entry : Int × Bytes) : Except Fault Names :=
  let (id, name) := entry
  match names.pools.lookup id with
  | none => failure s!"rename for unknown pool {id}"
  | some pool =>
    if ∃ oldID ∈ names.nameToID.lookup name, oldID ≠ id then failure ("duplicate pool name " ++ quoted name)
    else .ok ⟨names.pools.insert id { pool with name }, (names.nameToID.erase pool.name).insert name id⟩

def removePool (names : Names) (id : Int) : Names :=
  match names.pools.lookup id with
  | none => names
  | some pool => ⟨names.pools.erase id, names.nameToID.erase pool.name⟩

def checkNames : List (Int × Pool) → Except Fault Unit
  | [] => .ok ()
  | (id, pool) :: pools => if pool.name = [] then failure s!"pool {id} has no name" else checkNames pools

end Pools

section Vectors

/-- The vectors that have an entry for each OSD. -/
structure OSDVectors where
  osdState : List UInt32
  osdWeight : List Nat
  primaryAffinity : List Nat
  clientAddresses : List EntityAddrVec

def resizeUint32s {α : Type} (values : List α) (fill : α) (size : Nat) : List α :=
  if values.length > size then values.take size else values ++ List.replicate (size - values.length) fill

def resizeOSDs (vectors : OSDVectors) (size : Nat) : OSDVectors where
  osdState := resizeUint32s vectors.osdState 0 size
  osdWeight := resizeUint32s vectors.osdWeight 0 size
  primaryAffinity :=
    if vectors.primaryAffinity.length ≠ 0 then
      (vectors.primaryAffinity ++
        List.replicate (size - vectors.primaryAffinity.length) defaultPrimaryAffinity).take size
    else vectors.primaryAffinity
  clientAddresses := resizeUint32s vectors.clientAddresses [] size

def validateOSD (vectors : OSDVectors) (osd : Int) : Except Fault Unit :=
  if osd < 0 ∨ osd ≥ vectors.osdState.length then failure s!"osd {osd} outside map size" else .ok ()

def applyWeight (vectors : OSDVectors) (entry : Int × Nat) : Except Fault OSDVectors := do
  let (osd, weight) := entry
  validateOSD vectors osd
  let osdWeight ← assigned vectors.osdWeight osd.toNat weight
  if weight = 0 then return { vectors with osdWeight }
  let state ← indexed vectors.osdState osd.toNat
  let osdState ← assigned vectors.osdState osd.toNat (state &&& ~~~12)
  return { vectors with osdWeight, osdState }

def createAffinity (vectors : OSDVectors) (maxOSD : Int) (changes : Nat) : OSDVectors :=
  if changes > 0 ∧ vectors.primaryAffinity.length = 0 then
    { vectors with primaryAffinity := List.replicate maxOSD.toNat defaultPrimaryAffinity }
  else vectors

def applyAffinity (vectors : OSDVectors) (entry : Int × Nat) : Except Fault OSDVectors := do
  let (osd, affinity) := entry
  validateOSD vectors osd
  let primaryAffinity ← assigned vectors.primaryAffinity osd.toNat affinity
  return { vectors with primaryAffinity }

/-- A change of zero takes an OSD down or up. -/
def stateChange (change : Nat) : UInt32 := if change = 0 then osdStateUp else UInt32.ofNat change

def applyState (vectors : OSDVectors) (entry : Int × Nat) : Except Fault OSDVectors := do
  let (osd, change) := entry
  validateOSD vectors osd
  let state ← indexed vectors.osdState osd.toNat
  if state &&& osdStateExists ≠ 0 ∧ stateChange change &&& osdStateExists ≠ 0 then
    let osdState ← assigned vectors.osdState osd.toNat 0
    let primaryAffinity := if osd.toNat < vectors.primaryAffinity.length
      then vectors.primaryAffinity.set osd.toNat defaultPrimaryAffinity else vectors.primaryAffinity
    let clientAddresses ← assigned vectors.clientAddresses osd.toNat []
    return { vectors with osdState, primaryAffinity, clientAddresses }
  else
    let osdState ← assigned vectors.osdState osd.toNat (state ^^^ stateChange change)
    return { vectors with osdState }

def applyAddresses (vectors : OSDVectors) (entry : Int × EntityAddrVec) : Except Fault OSDVectors := do
  let (osd, addresses) := entry
  validateOSD vectors osd
  let state ← indexed vectors.osdState osd.toNat
  let osdState ← assigned vectors.osdState osd.toNat ((state ||| osdStateExists ||| osdStateUp) &&& ~~~osdStateStop)
  let clientAddresses ← assigned vectors.clientAddresses osd.toNat addresses
  return { vectors with osdState, clientAddresses }

end Vectors

section Mappings

variable {κ α : Type} [DecidableEq κ]

def applyPGVector (emptyDeletes : Bool) (target : GoMap κ (List α)) (entry : κ × List α) : GoMap κ (List α) :=
  if emptyDeletes ∧ entry.2.length = 0 then target.erase entry.1 else target.insert entry.1 entry.2

def applyPGVectors (target : GoMap κ (List α)) (changes : List (κ × List α)) (emptyDeletes : Bool) :
    GoMap κ (List α) :=
  changes.foldl (applyPGVector emptyDeletes) target

def applyPGInt (deleted : Int) (target : GoMap κ Int) (entry : κ × Int) : GoMap κ Int :=
  if entry.2 = deleted then target.erase entry.1 else target.insert entry.1 entry.2

def applyPGInts (target : GoMap κ Int) (changes : List (κ × Int)) (deleted : Int) : GoMap κ Int :=
  changes.foldl (applyPGInt deleted) target

def insertAll (target : GoMap κ α) (entries : List (κ × α)) : GoMap κ α :=
  entries.foldl (fun target entry => target.insert entry.1 entry.2) target

def eraseAll (target : GoMap κ α) (keys : List κ) : GoMap κ α :=
  keys.foldl (fun target key => target.erase key) target

end Mappings

section Apply

variable (ranges : Ranges) (current : OSDMap) (incremental : OSDMapIncremental)

def applyPools : Except Fault Names := do
  let pools := ranges.newPools.foldl addPool current.pools
  let names ← ranges.newPoolNames.foldlM renamePool ⟨pools, current.nameToID⟩
  return incremental.oldPools.foldl removePool names

def nextMaxOSD : Int := if incremental.newMaxOSD ≥ 0 then incremental.newMaxOSD else current.maxOSD

def startVectors : OSDVectors :=
  let vectors := ⟨current.osdState, current.osdWeight, current.primaryAffinity, current.clientAddresses⟩
  if incremental.newMaxOSD ≥ 0 then resizeOSDs vectors incremental.newMaxOSD.toNat else vectors

def applyVectors : Except Fault OSDVectors := do
  let vectors := startVectors current incremental
  let vectors ← ranges.newWeight.foldlM applyWeight vectors
  let vectors := createAffinity vectors (nextMaxOSD current incremental) ranges.newPrimaryAffinity.length
  let vectors ← ranges.newPrimaryAffinity.foldlM applyAffinity vectors
  let vectors ← ranges.newState.foldlM applyState vectors
  ranges.newUpClient.foldlM applyAddresses vectors

/-- The part of `ApplyOSDMapIncremental` without a full map. -/
def applyChanges : Except Fault OSDMap := do
  let names ← applyPools ranges current incremental
  let vectors ← applyVectors ranges current incremental
  let next := { current with
    epoch := incremental.epoch
    modified := incremental.modified
    crc := incremental.fullCRC
    crcVerified := false
    appliedIncremental := true
    poolMax := if incremental.newPoolMax ≠ -1 then incremental.newPoolMax else current.poolMax
    flags := if incremental.newFlags ≥ 0 then incremental.newFlags.toNat else current.flags
    maxOSD := nextMaxOSD current incremental
    crushData := if incremental.crushData.length ≠ 0 then incremental.crushData else current.crushData
    crushVersion := if incremental.crushData.length ≠ 0 then (current.crushVersion + 1) % 2 ^ 32
      else current.crushVersion
    pools := names.pools
    nameToID := names.nameToID
    osdState := vectors.osdState
    osdWeight := vectors.osdWeight
    primaryAffinity := vectors.primaryAffinity
    clientAddresses := vectors.clientAddresses
    pgTemp := applyPGVectors current.pgTemp ranges.newPGTemp true
    primaryTemp := applyPGInts current.primaryTemp ranges.newPrimaryTemp (-1)
    erasureCodeProfiles :=
      insertAll (eraseAll current.erasureCodeProfiles incremental.oldErasureProfiles) ranges.newErasureProfiles
    pgUpmap := eraseAll (applyPGVectors current.pgUpmap ranges.newPGUpmap false) incremental.oldPGUpmap
    pgUpmapItems := eraseAll (insertAll current.pgUpmapItems ranges.newPGUpmapItems) incremental.oldPGUpmapItems
    newRemovedSnapshots := incremental.newRemovedSnapshots
    newPurgedSnapshots := incremental.newPurgedSnapshots
    lastUpChange := if incremental.newLastUpChange ≠ {} then incremental.newLastUpChange else current.lastUpChange
    lastInChange := if incremental.newLastInChange ≠ {} then incremental.newLastInChange else current.lastInChange
    pgUpmapPrimaries :=
      eraseAll (insertAll current.pgUpmapPrimaries ranges.newPGUpmapPrimaries) incremental.oldPGUpmapPrimaries }
  checkNames (ranges.pools next.pools)
  return next

/-- A full map inside an incremental replaces the current map. -/
def replaceMap (limits : Limits) : Except Fault OSDMap :=
  match decodeOSDMap limits incremental.fullMap with
  | .error err => .error (.err err)
  | .ok replacement =>
    if replacement.fsid ≠ current.fsid ∨ replacement.epoch ≠ incremental.epoch ∨ replacement.crc ≠ incremental.fullCRC
    then failure "replacement full map identity or crc mismatch"
    else .ok replacement

def applyOSDMapIncremental (limits : Limits) : Except Fault OSDMap :=
  if incremental.fsid ≠ current.fsid then failure "incremental fsid mismatch"
  else if incremental.epoch ≠ (current.epoch + 1) % 2 ^ 32 then
    failure s!"incremental epoch {incremental.epoch} after {current.epoch}"
  else if incremental.fullMap.length ≠ 0 then replaceMap current incremental limits
  else applyChanges ranges current incremental

end Apply

end RadosGo.Maps
