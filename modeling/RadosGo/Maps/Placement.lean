import RadosGo.Crush.PlacementMap
import RadosGo.Maps.OsdMap

namespace RadosGo.Maps

open Crush (PlacementMap indexed assigned)

def objectHashRJenkins : Nat := 2
def poolFlagHashPSPool : Nat := 1
def crushItemNone : Int := 0x7fffffff

def unplaceable (detail : String) : GoError := GoError.errorf Sentinel.unsupportedPlacement detail

/-- The decoding of `crushState.decode`, which is run once. -/
def decodeCrush (first second : GoMap Int Crush.Bucket → List Int) (data : Bytes) : Except GoError PlacementMap :=
  if data.length > maxUint32 then .error (unplaceable "CRUSH payload exceeds uint32 size")
  else
    let structuralLimit := max (data.length / 4) 1
    match Crush.decodePlacementMap first second data
        ⟨data.length, structuralLimit, structuralLimit, structuralLimit, structuralLimit⟩ with
    | .error err => .error (GoError.errorfText Sentinel.unsupportedPlacement err)
    | .ok placementMap => .ok placementMap

structure ObjectPlacement where
  rawHash : UInt32
  rawPG : PG
  pg : PG
  placementSeed : UInt32
  raw : List Int := []
  up : List Int := []
  upPrimary : Int := 0
  acting : List Int := []
  actingPrimary : Int := 0
  primaryShard : Nat := 0
  sharded : Bool := false
  deriving DecidableEq, Repr

namespace Pool

variable (pool : Pool)

/-- A flag of the pool is set. -/
def hasFlag (flag : Nat) : Bool := pool.flags &&& flag != 0

def isNonprimaryShard (shard : Nat) : Bool :=
  shard < 128 && (if shard < 64 then pool.nonprimaryShards.1 else pool.nonprimaryShards.2).testBit (shard % 64)

def validNonprimaryShards : Bool := ((List.range 128).drop pool.size).all fun shard => !pool.isNonprimaryShard shard

/-- The entries of the shards which satisfy a test. -/
def shards (source : List Int) (wanted : Nat → Bool) : List Int :=
  (source.zipIdx.filter fun entry => wanted entry.2).map Prod.fst

def pgTempPrimaryFirst (source : List Int) : List Int :=
  shards source (fun shard => !pool.isNonprimaryShard shard) ++ shards source pool.isNonprimaryShard

/-- The second loop of `pgTempUndoPrimaryFirst`. -/
def undoShards (source : List Int) : List Nat → Nat → Nat → Except Fault (List Int)
  | [], _, _ => .ok []
  | shard :: shards, primaryIndex, nonprimaryIndex => do
    if pool.isNonprimaryShard shard then
      let osd ← indexed source nonprimaryIndex
      return osd :: (← undoShards source shards primaryIndex (nonprimaryIndex + 1))
    else
      let osd ← indexed source primaryIndex
      return osd :: (← undoShards source shards (primaryIndex + 1) nonprimaryIndex)

def pgTempUndoPrimaryFirst (source : List Int) : Except Fault (List Int) :=
  let shards := List.range source.length
  pool.undoShards source shards 0 (source.length - shards.countP pool.isNonprimaryShard)

def pgTempUndoPrimaryFirstIndex (position : Nat) : Except Fault Nat := do
  let canonical := (List.range pool.size).map Int.ofNat
  return (← indexed (pool.pgTempPrimaryFirst canonical) position).toNat

end Pool

namespace OSDMap

variable (osdMap : OSDMap)

def mapRawHash (poolID : Int) (hash : UInt32) : Except GoError ObjectPlacement :=
  if poolID < 0 then .error (unplaceable s!"negative pool {poolID}")
  else
    match osdMap.pools.lookup poolID with
    | none => .error (unplaceable s!"pool {poolID} does not exist")
    | some pool =>
      if pool.objectHash ≠ objectHashRJenkins then .error (unplaceable s!"object hash {pool.objectHash}")
      else if !pool.hasFlag poolFlagHashPSPool then .error (unplaceable s!"pool {poolID} does not use HASHPSPOOL")
      else if pool.pgCount = 0 ∨ pool.placementPGCount = 0 ∨ pool.placementPGCount > pool.pgCount then
        .error (unplaceable s!"pool {poolID} has invalid PG geometry")
      else
        let raw : PG := ⟨poolID.toNat, hash.toNat, -1⟩
        let placementPG := stableMod hash (UInt32.ofNat pool.placementPGCount)
        .ok {
          rawHash := hash
          rawPG := raw
          pg := { raw with seed := (stableMod hash (UInt32.ofNat pool.pgCount)).toNat }
          placementSeed := hash32Pair placementPG (Crush.toUint32 poolID) }

def mapObject (poolID : Int) (object locator namespace_ : Bytes) : Except GoError ObjectPlacement :=
  osdMap.mapRawHash poolID (objectHash object locator namespace_)

/-- The weight of an OSD, unless it has none. -/
def weightOf (osd : Int) : Except Fault (Option Nat) :=
  if osd ≠ crushItemNone ∧ osd ≥ 0 ∧ osd < osdMap.osdWeight.length then
    return some (← indexed osdMap.osdWeight osd.toNat)
  else return none

def osdExists (osd : Int) : Except Fault Bool :=
  if osd ≥ 0 ∧ osd < osdMap.osdState.length then
    return (← indexed osdMap.osdState osd.toNat) &&& osdStateExists != 0
  else return false

def isUp (osd : Int) : Except Fault Bool := do
  if ← osdMap.osdExists osd then return (← indexed osdMap.osdState osd.toNat) &&& osdStateUp != 0
  else return false

/-- The loop over an explicit mapping that looks for an OSD of weight zero. -/
def allIn : List Int → Except Fault Bool
  | [] => return true
  | osd :: osds => do if (← osdMap.weightOf osd) = some 0 then return false else allIn osds

/-- The loop over the mapping that looks for the OSDs of a remapping. -/
def scanRemap (remap : OSDRemap) : List Int → Nat → Option Nat → Except Fault (Bool × Option Nat)
  | [], _, position => return (false, position)
  | osd :: osds, index, position => do
    if osd = remap.target then return (true, position)
    let targetOut := (← osdMap.weightOf remap.target) = some 0
    scanRemap remap osds (index + 1)
      (if osd = remap.source ∧ position = none ∧ ¬targetOut then some index else position)

def applyRemap (result : List Int) (remap : OSDRemap) : Except Fault (List Int) := do
  match ← osdMap.scanRemap remap result 0 none with
  | (false, some position) => assigned result position remap.target
  | _ => return result

/-- An OSD behind the first one changes places with it. -/
def swapPrimary (result : List Int) (primary : Int) : List Int :=
  match result with
  | [] => []
  | first :: others =>
    if primary ∈ others then primary :: others.set (others.idxOf primary) first else first :: others

def upmapItems (pg : PG) (source : List Int) : Except Fault (List Int) := do
  let result ← ((osdMap.pgUpmapItems.lookup pg).getD []).foldlM osdMap.applyRemap source
  match osdMap.pgUpmapPrimaries.lookup pg with
  | none => return result
  | some primary =>
    match ← osdMap.weightOf primary with
    | none => return result
    | some weight => return if weight ≠ 0 then swapPrimary result primary else result

def applyUpmap (pg : PG) (source : List Int) : Except Fault (List Int) := do
  match osdMap.pgUpmap.lookup pg with
  | none => osdMap.upmapItems pg source
  | some replacement => if ← osdMap.allIn replacement then osdMap.upmapItems pg replacement else return source

/-- The loop of `validatePlacementSet`, with the OSDs seen so far. -/
def validateSet (name : String) (allowDuplicates : Bool) : List Int → List Int → Except Fault Unit
  | [], _ => return ()
  | osd :: osds, seen => do
    if osd = crushItemNone then validateSet name allowDuplicates osds seen
    else
      if !(← osdMap.osdExists osd) then throw (.err (unplaceable s!"{name} references nonexistent osd.{osd}"))
      if osd ∈ seen ∧ !allowDuplicates then throw (.err (unplaceable s!"{name} contains duplicate osd.{osd}"))
      validateSet name allowDuplicates osds (osd :: seen)

def validatePlacementSet (name : String) (osds : List Int) (allowDuplicates : Bool) : Except Fault Unit :=
  osdMap.validateSet name allowDuplicates osds []

def validateItems : List OSDRemap → Except Fault Unit
  | [] => return ()
  | remap :: remaps => do
    if remap.target ≠ crushItemNone then
      if !(← osdMap.osdExists remap.target) then
        throw (.err (unplaceable s!"pg_upmap_items references nonexistent osd.{remap.target}"))
    validateItems remaps

def validateUpmap (pg : PG) : Except Fault Unit := do
  match osdMap.pgUpmap.lookup pg with
  | none => pure ()
  | some replacement => osdMap.validatePlacementSet "pg_upmap" replacement false
  osdMap.validateItems ((osdMap.pgUpmapItems.lookup pg).getD [])

def onlyUp : List Int → Except Fault (List Int)
  | [] => return []
  | osd :: osds => do if ← osdMap.isUp osd then return osd :: (← onlyUp osds) else onlyUp osds

def upOSDs (pool : Pool) (source : List Int) : Except Fault (List Int) :=
  if pool.poolType = poolTypeReplicated then osdMap.onlyUp source
  else source.mapM fun osd => do return if ← osdMap.isUp osd then osd else crushItemNone

def firstOSD : List Int → Int
  | [] => -1
  | osd :: osds => if osd ≠ crushItemNone then osd else firstOSD osds

/-- The loop that looks for the primary by its affinity. -/
def affinityPosition (seed : UInt32) : List Int → Nat → Option Nat → Except Fault (Option Nat)
  | [], _, position => return position
  | osd :: osds, index, position => do
    if osd = crushItemNone ∨ osd < 0 ∨ osd ≥ osdMap.primaryAffinity.length then
      affinityPosition seed osds (index + 1) position
    else
      let affinity ← indexed osdMap.primaryAffinity osd.toNat
      if affinity < defaultPrimaryAffinity ∧ (hash32Pair seed (Crush.toUint32 osd)).toNat / 2 ^ 16 ≥ affinity then
        affinityPosition seed osds (index + 1) (position.getD index)
      else return some index

/-- The OSDs and the primary afterwards. -/
def applyPrimaryAffinity (pool : Pool) (seed : UInt32) (osds : List Int) (primary : Int) :
    Except Fault (List Int × Int) := do
  if osdMap.primaryAffinity.length = 0 then return (osds, primary)
  match ← osdMap.affinityPosition seed osds 0 none with
  | none => return (osds, primary)
  | some position =>
    let primary ← indexed osds position
    if pool.poolType = poolTypeReplicated ∧ position > 0 then
      return (primary :: osds.take position ++ osds.drop (position + 1), primary)
    else return (osds, primary)

def tempMapping (pool : Pool) (pg : PG) : Except Fault (List Int × Int) := do
  let primary := (osdMap.primaryTemp.lookup pg).getD (-1)
  match osdMap.pgTemp.lookup pg with
  | none => return ([], primary)
  | some source =>
    osdMap.validatePlacementSet "pg_temp" source (pool.poolType == poolTypeErasure)
    let result ← osdMap.upOSDs pool source
    let primary := if primary = -1 then firstOSD result else primary
    if pool.poolType = poolTypeErasure ∧ pool.hasFlag poolFlagECOptimizations then
      if result.length ≠ pool.size ∨ !pool.validNonprimaryShards then
        throw (.err (unplaceable "invalid optimized EC pg_temp"))
      return (← pool.pgTempUndoPrimaryFirst result, primary)
    else return (result, primary)

/-- The shard of the primary in an erasure coded pool, if the primary is found. -/
def primaryShard (pool : Pool) (pg : PG) (acting : List Int) (actingPrimary : Int) : Except Fault (Option Nat) := do
  let optimized := pg ∈ osdMap.pgTemp ∧ pool.hasFlag poolFlagECOptimizations
  let primaryOrder := if optimized then pool.pgTempPrimaryFirst acting else acting
  if actingPrimary ∈ primaryOrder then
    let index := primaryOrder.idxOf actingPrimary
    let shard ← if optimized then pool.pgTempUndoPrimaryFirstIndex index else pure index
    if shard > 127 then throw (.err (unplaceable s!"primary shard {shard} exceeds wire range"))
    return some shard
  else return none

/-- The acting set: a temporary mapping, or the OSDs which are up. -/
def actingSet (pool : Pool) (pg : PG) (up : List Int) (upPrimary : Int) : Except Fault (List Int × Int) := do
  let (acting, actingPrimary) ← osdMap.tempMapping pool pg
  let (acting, actingPrimary) :=
    if acting.length = 0 then (up, if actingPrimary = -1 then upPrimary else actingPrimary)
    else (acting, actingPrimary)
  if actingPrimary ≠ -1 ∧ actingPrimary ∉ acting then
    throw (.err (unplaceable s!"temporary primary {actingPrimary} is not in the acting set"))
  return (acting, actingPrimary)

/-- What `placeMapped` does with the result of CRUSH. -/
def placeRaw (pool : Pool) (placement : ObjectPlacement) (raw : List Int) : Except Fault ObjectPlacement := do
  osdMap.validateUpmap placement.pg
  let mapped ← osdMap.applyUpmap placement.pg raw
  let up ← osdMap.upOSDs pool mapped
  let (up, upPrimary) ← osdMap.applyPrimaryAffinity pool placement.placementSeed up (firstOSD up)
  let (acting, actingPrimary) ← osdMap.actingSet pool placement.pg up upPrimary
  let placement := { placement with raw, up, upPrimary, acting, actingPrimary }
  if pool.poolType = poolTypeErasure then
    match ← osdMap.primaryShard pool placement.pg acting actingPrimary with
    | none => return placement
    | some shard => return { placement with primaryShard := shard, sharded := true }
  else return placement

/-- The decoded CRUSH map, or the error of its decoding, is a parameter. -/
def placeMapped (crush : Except GoError PlacementMap) (fuel : Nat) (poolID : Int) (placement : ObjectPlacement) :
    Option (Except Fault ObjectPlacement) :=
  match osdMap.pools.lookup poolID with
  | none => some (.error (.err (unplaceable "pool type 0")))
  | some pool =>
    if pool.poolType ≠ poolTypeReplicated ∧ pool.poolType ≠ poolTypeErasure then
      some (.error (.err (unplaceable s!"pool type {pool.poolType}")))
    else if pool.size = 0 then some (.error (.err (unplaceable s!"pool {poolID} has zero replicas")))
    else
      match crush with
      | .error err => some (.error (.err err))
      | .ok crushMap =>
        match crushMap.place fuel pool.crushRule placement.placementSeed pool.size osdMap.osdWeight with
        | none => none
        | some (.error (.err err)) => some (.error (.err (GoError.errorfText Sentinel.unsupportedPlacement err)))
        | some (.error (.panicked message)) => some (.error (.panicked message))
        | some (.ok raw) => some (osdMap.placeRaw pool placement raw)

def placeRawHash (crush : Except GoError PlacementMap) (fuel : Nat) (poolID : Int) (hash : UInt32) :
    Option (Except Fault ObjectPlacement) :=
  match osdMap.mapRawHash poolID hash with
  | .error err => some (.error (.err err))
  | .ok placement => osdMap.placeMapped crush fuel poolID placement

def placeObject (crush : Except GoError PlacementMap) (fuel : Nat) (poolID : Int)
    (object locator namespace_ : Bytes) : Option (Except Fault ObjectPlacement) :=
  match osdMap.mapObject poolID object locator namespace_ with
  | .error err => some (.error (.err err))
  | .ok placement => osdMap.placeMapped crush fuel poolID placement

end OSDMap

end RadosGo.Maps
