import RadosGo.Maps.Incremental
import RadosGo.Msgr.Message

namespace RadosGo

namespace Maps

structure OSDState where
  exists_ : Bool
  up : Bool
  in_ : Bool
  destroyed : Bool
  deriving DecidableEq, Repr

def OSDMap.state (osdMap : OSDMap) (id : Int) : Option OSDState :=
  if id < 0 then none
  else
    match osdMap.osdState[id.toNat]? with
    | none => none
    | some state => some {
        exists_ := state &&& osdStateExists != 0
        up := state &&& osdStateUp != 0
        in_ := osdMap.osdWeight.getD id.toNat 0 != 0
        destroyed := state &&& osdStateDestroyed != 0 }

end Maps

namespace Mon

open Maps Decoding

structure MessageLimits where
  maxBytes : Nat
  maxMaps : Nat

structure OSDMapBatch where
  fsid : FSID
  incrementals : GoMap Nat Bytes
  fullMaps : GoMap Nat Bytes
  trimLowerBound : Nat := 0
  newestMap : Nat := 0
  deriving DecidableEq

section Decode

def messageOSDMap : Nat := 41

def validateFrontMessage (message : Message) (messageType maxBytes : Nat) : Except GoError Unit :=
  if maxBytes = 0 ∨ message.front.length > maxBytes then .error Sentinel.wireLimitExceeded
  else if message.header.type ≠ messageType then
    .error (GoError.errorf Sentinel.wireMalformed s!"message type {message.header.type}, want {messageType}")
  else if message.middle.length ≠ 0 ∨ message.data.length ≠ 0 ∨
    message.lengths ≠ { front := message.front.length % 2 ^ 32 } then
    .error (GoError.errorf Sentinel.wireMalformed "monitor message segment lengths")
  else .ok ()

def finishExact (name : String) : Decoding Unit := do
  finish
  if (← remaining) ≠ 0 then throw (GoError.errorf Sentinel.wireMalformed ("trailing " ++ name ++ " bytes"))

def addMapBlob (values : GoMap Nat Bytes) (entry : Nat × Bytes) : Except GoError (GoMap Nat Bytes) :=
  if entry.1 ∈ values then .error (malformed s!"duplicate osdmap epoch {entry.1}")
  else .ok (values.insert entry.1 entry.2)

def decodeMapBlobs (maximum : Nat) : Decoding (GoMap Nat Bytes) := do
  let count ← uint32
  finish
  if count > maximum then throw (.sentinel .wireLimitExceeded)
  if count > (← remaining) / 8 then throw (.sentinel .wireMalformed)
  let values ← readFold (do return (← uint32, ← bytes)) addMapBlob count ∅
  finish
  return values

def decodeOSDMapFront (version maxMaps : Nat) : Decoding OSDMapBatch := do
  let fsid ← raw 16
  let incrementals ← decodeMapBlobs maxMaps
  let fullMaps ← decodeMapBlobs maxMaps
  let trimLowerBound ← uint32
  let newestMap ← uint32
  if version ≥ 4 then
    if (← uint32) ≠ 0 then throw (GoError.errorf Sentinel.unsupportedVersion "retired gap snapshot entries")
  finishExact "osdmap message"
  return { fsid, incrementals, fullMaps, trimLowerBound, newestMap }

def decodeOSDMapBatch (message : Message) (limits : MessageLimits) : Except GoError OSDMapBatch := do
  if limits.maxBytes = 0 ∨ limits.maxMaps = 0 then throw (.sentinel .wireLimitExceeded)
  validateFrontMessage message messageOSDMap limits.maxBytes
  if message.header.version < 3 ∨ message.header.compatVersion > 4 then
    throw (GoError.errorf Sentinel.unsupportedVersion
      s!"osdmap message version={message.header.version} compat={message.header.compatVersion}")
  ((decodeOSDMapFront message.header.version limits.maxMaps).eval (newDecoder message.front limits.maxBytes)).1

end Decode

/-- A map that `applyBatch` goes on to, and from which one. -/
inductive MapStep where
  | full (before : Option OSDMap) (after : OSDMap)
  | incremental (before after : OSDMap)

/-- The variables of `applyBatch`. The maps which it goes through are kept in `applied`, the last one first. -/
structure BatchState where
  current : Option OSDMap
  appliedFull : Bool := false
  invalidated : Finset Int := ∅
  applied : List MapStep := []

def sortedEpochs (blobs : GoMap Nat Bytes) : List Nat := blobs.keys.sort

/-- The OSDs below the size of either map. -/
def osdsOf (first second : OSDMap) : Finset Int :=
  (Finset.range (max first.maxOSD second.maxOSD).toNat).map Nat.castEmbedding

def stateTransitions (previous current : OSDMap) : Finset Int :=
  (osdsOf previous current).filter fun osd => previous.state osd ≠ current.state osd

def mapEpoch (osdMap : Option OSDMap) : Nat := osdMap.elim 0 OSDMap.epoch

def mapGap {α : Type} (detail : String) : Except Fault α := .error (.err (GoError.errorf Sentinel.mapGap detail))

def wrapped {α : Type} (text : String) (result : Except GoError α) : Except Fault α :=
  result.mapError fun err => .err (.wrap (text ++ ": " ++ err.text) err)

section Apply

variable (limits : Maps.Limits) (batch : OSDMapBatch)

/-- One round of the loop over the full maps. -/
def applyFull (s : BatchState) (epoch : Nat) : Except Fault BatchState :=
  if s.current.any fun current => decide (epoch ≤ current.epoch) then .ok s
  else do
    let decoded ← wrapped s!"decode full OSD map epoch {epoch}"
      (decodeOSDMap limits ((batch.fullMaps.lookup epoch).getD []))
    if decoded.epoch ≠ epoch ∨ decoded.fsid ≠ batch.fsid then failure "full map envelope identity mismatch"
    else .ok {
      current := some decoded
      appliedFull := true
      invalidated := s.invalidated ∪ s.current.elim ∅ fun current => osdsOf current decoded
      applied := .full s.current decoded :: s.applied }

/-- The application of one incremental. The orders in which it visits its maps are a parameter. -/
def applyBlob (orders : Nat → Ranges) (current : OSDMap) (epoch : Nat) : Except Fault OSDMap := do
  let incremental ← wrapped s!"decode incremental OSD map epoch {epoch}"
    (decodeOSDMapIncremental limits ((batch.incrementals.lookup epoch).getD []))
  if incremental.epoch ≠ epoch ∨ incremental.fsid ≠ batch.fsid then failure "incremental envelope identity mismatch"
  else applyOSDMapIncremental (orders epoch) current incremental limits

/-- One round of the loop over the incrementals. -/
def applyNext (orders : Nat → Ranges) (s : BatchState) (epoch : Nat) : Except Fault BatchState :=
  match s.current with
  | none => mapGap s!"received epoch {epoch}"
  | some current =>
    if epoch ≤ current.epoch then .ok s
    else if epoch ≠ (current.epoch + 1) % 2 ^ 32 then mapGap s!"received epoch {epoch}"
    else do
      let next ← applyBlob limits batch orders current epoch
      return { s with
        current := some next
        invalidated := s.invalidated ∪ stateTransitions current next
        applied := .incremental current next :: s.applied }

def checkBounds (s : BatchState) : Except Fault Unit :=
  if batch.newestMap ≠ 0 ∧ s.current.all fun current => decide (current.epoch < batch.newestMap) then
    mapGap s!"current epoch {mapEpoch s.current}, trim lower bound {batch.trimLowerBound}, newest {batch.newestMap}"
  else if batch.trimLowerBound ≠ 0 ∧ s.current.any fun current => decide (current.epoch < batch.trimLowerBound) then
    mapGap s!"current epoch {mapEpoch s.current} below trim lower bound {batch.trimLowerBound}"
  else .ok ()

/-- What `applyBatch` computes before it publishes anything. -/
def applyBatch (orders : Nat → Ranges) (previous : Option OSDMap) : Except Fault BatchState := do
  let s ← (sortedEpochs batch.fullMaps).foldlM (applyFull limits batch) { current := previous }
  let s ← (sortedEpochs batch.incrementals).foldlM (applyNext limits batch orders) s
  checkBounds batch s
  return s

end Apply

end Mon

end RadosGo
