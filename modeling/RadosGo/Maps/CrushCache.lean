import RadosGo.Library.System
import RadosGo.Maps.Names
import RadosGo.Maps.Placement
import RadosGo.Maps.Vectors

namespace RadosGo.Maps

open List

/-- The orders in which one decoding meets the buckets of a CRUSH map in its two loops over them. -/
structure BucketOrders where
  first : GoMap Int Crush.Bucket → List Int
  second : GoMap Int Crush.Bucket → List Int
  isFirst : ∀ buckets : GoMap Int Crush.Bucket, buckets.IsOrder (first buckets)
  isSecond : ∀ buckets : GoMap Int Crush.Bucket, buckets.IsOrder (second buckets)

def BucketOrders.decode (orders : BucketOrders) (data : Bytes) : Except GoError Crush.PlacementMap :=
  decodeCrush orders.first orders.second data

/-- The result stands for `once` with the fields that it writes. -/
structure CrushState where
  data : Bytes
  result : Option (Except GoError Crush.PlacementMap) := none

/-- A map with its pointer to a CRUSH state. -/
structure Snapshot where
  osdMap : OSDMap
  placementState : Option Nat
  placementInit : Bool := false

/-- All maps and CRUSH states there are. Pointers are positions. -/
structure SnapshotHeap where
  states : List CrushState := []
  maps : List Snapshot := []

namespace SnapshotHeap

variable (limits : Limits) (ranges : Ranges) (orders : BucketOrders) (fuel : Nat) (s : SnapshotHeap) (i : Nat)
  (snapshot : Snapshot) (incremental : OSDMapIncremental) (poolID : Int)

/-- The store with a new CRUSH state, and the pointer to it. -/
def newState (data : Bytes) : Nat × SnapshotHeap := (s.states.length, { s with states := s.states ++ [{ data }] })

def addMap (osdMap : OSDMap) (placementState : Option Nat) : SnapshotHeap :=
  { s with maps := s.maps ++ [{ osdMap, placementState }] }

def crushPlacementState : Option Nat × SnapshotHeap :=
  if snapshot.placementInit then (snapshot.placementState, s)
  else
    match snapshot.placementState with
    | some state => (some state, { s with maps := s.maps.set i { snapshot with placementInit := true } })
    | none =>
      let (state, s) := s.newState snapshot.osdMap.crushData
      (some state,
        { s with maps := s.maps.set i { snapshot with placementState := some state, placementInit := true } })

def nilPointer : Fault := .panicked "runtime error: invalid memory address or nil pointer dereference"

def decode (pointer : Option Nat) : Except Fault (Except GoError Crush.PlacementMap × SnapshotHeap) :=
  match pointer with
  | none => .error nilPointer
  | some p =>
    match s.states[p]? with
    | none => .error nilPointer
    | some state =>
      match state.result with
      | some result => .ok (result, s)
      | none =>
        let result := orders.decode state.data
        .ok (result, { s with states := s.states.set p { state with result := some result } })

/-- `DecodeOSDMap` creates the CRUSH state of the map. -/
def decodeMap (data : Bytes) : Except GoError Unit × SnapshotHeap :=
  match decodeOSDMap limits data with
  | .error err => (.error err, s)
  | .ok osdMap =>
    let (state, s) := s.newState osdMap.crushData
    (.ok (), s.addMap osdMap (some state))

/-- The incremental has come as far as `cloneOSDMapForIncremental`. -/
def Clones (current : OSDMap) (incremental : OSDMapIncremental) : Prop :=
  incremental.fsid = current.fsid ∧ incremental.epoch = (current.epoch + 1) % 2 ^ 32 ∧ incremental.fullMap.length = 0

instance decidableClones (current : OSDMap) : Decidable (Clones current incremental) :=
  inferInstanceAs (Decidable (_ ∧ _ ∧ _))

/-- The CRUSH state is shared with the map before, unless the incremental brings other bytes. -/
def nextState (state : Option Nat) : Option Nat × SnapshotHeap :=
  if incremental.crushData.length ≠ 0 ∧ snapshot.osdMap.crushData ≠ incremental.crushData then
    let (state, s) := s.newState incremental.crushData
    (some state, s)
  else (state, s)

def applyIncremental : Except Fault Unit × SnapshotHeap :=
  if Clones snapshot.osdMap incremental then
    let (state, s) := s.crushPlacementState i snapshot
    let (state, s) := s.nextState snapshot incremental state
    match applyOSDMapIncremental ranges snapshot.osdMap incremental limits with
    | .error err => (.error err, s)
    | .ok next => (.ok (), s.addMap next state)
  else
    match applyOSDMapIncremental ranges snapshot.osdMap incremental limits with
    | .error err => (.error err, s)
    | .ok next =>
      let (state, s) := s.newState next.crushData
      (.ok (), s.addMap next (some state))

def placeMapped (placement : ObjectPlacement) : Option (Except Fault ObjectPlacement) × SnapshotHeap :=
  match snapshot.osdMap.pools.lookup poolID with
  | none => (some (.error (.err (unplaceable "pool type 0"))), s)
  | some pool =>
    if pool.poolType ≠ poolTypeReplicated ∧ pool.poolType ≠ poolTypeErasure then
      (some (.error (.err (unplaceable s!"pool type {pool.poolType}"))), s)
    else if pool.size = 0 then (some (.error (.err (unplaceable s!"pool {poolID} has zero replicas"))), s)
    else
      let (state, s) := s.crushPlacementState i snapshot
      match s.decode orders state with
      | .error fault => (some (.error fault), s)
      | .ok (crush, s) => (snapshot.osdMap.placeMapped crush fuel poolID placement, s)

def placeObject (object locator namespace_ : Bytes) : Option (Except Fault ObjectPlacement) × SnapshotHeap :=
  match snapshot.osdMap.mapObject poolID object locator namespace_ with
  | .error err => (some (.error (.err err)), s)
  | .ok placement => s.placeMapped orders fuel i snapshot poolID placement

def placeRawHash (hash : UInt32) : Option (Except Fault ObjectPlacement) × SnapshotHeap :=
  match snapshot.osdMap.mapRawHash poolID hash with
  | .error err => (some (.error (.err err)), s)
  | .ok placement => s.placeMapped orders fuel i snapshot poolID placement

end SnapshotHeap

/-- The calls that are made for the maps; a map is named by its position. -/
inductive SnapshotCall where
  | decodeMap (data : Bytes)
  | applyIncremental (i : Nat) (incremental : OSDMapIncremental) (ranges : Ranges)
  | placeObject (i : Nat) (poolID : Int) (object locator namespace_ : Bytes) (orders : BucketOrders) (fuel : Nat)
  | placeRawHash (i : Nat) (poolID : Int) (hash : UInt32) (orders : BucketOrders) (fuel : Nat)

/-- What is decoded is representable, and loops meet the entries of their maps. -/
def SnapshotCall.Fits : SnapshotCall → Prop
  | .applyIncremental _ incremental ranges => incremental.Representable ∧ ranges.Of incremental
  | _ => True

namespace SnapshotHeap

variable {limits : Limits} {s t : SnapshotHeap} {i : Nat} {snapshot : Snapshot}

inductive Step (limits : Limits) (s : SnapshotHeap) : SnapshotCall → SnapshotHeap → Prop where
  | decodeMap (data : Bytes) : Step limits s (.decodeMap data) (s.decodeMap limits data).2
  | applyIncremental {i : Nat} {snapshot : Snapshot} (is : s.maps[i]? = some snapshot)
      (incremental : OSDMapIncremental)
      (ranges : Ranges) : Step limits s (.applyIncremental i incremental ranges)
        (s.applyIncremental limits ranges i snapshot incremental).2
  | placeObject {i : Nat} {snapshot : Snapshot} (is : s.maps[i]? = some snapshot) (poolID : Int)
      (object locator namespace_ : Bytes) (orders : BucketOrders) (fuel : Nat) :
      Step limits s (.placeObject i poolID object locator namespace_ orders fuel)
        (s.placeObject orders fuel i snapshot poolID object locator namespace_).2
  | placeRawHash {i : Nat} {snapshot : Snapshot} (is : s.maps[i]? = some snapshot) (poolID : Int) (hash : UInt32)
      (orders : BucketOrders) (fuel : Nat) : Step limits s (.placeRawHash i poolID hash orders fuel)
        (s.placeRawHash orders fuel i snapshot poolID hash).2

def system (limits : Limits) : System SnapshotHeap SnapshotCall where
  start s := s = {}
  step := Step limits

/-- The CRUSH state that the pointer leads to holds the bytes. -/
def Points (s : SnapshotHeap) (pointer : Option Nat) (data : Bytes) : Prop :=
  ∃ p state, pointer = some p ∧ s.states[p]? = some state ∧ state.data = data

/-- The maps lead to states with their own bytes, and the states hold what a decoding of their bytes gives. -/
structure Coherent (limits : Limits) (s : SnapshotHeap) : Prop where
  points : ∀ snapshot ∈ s.maps, s.Points snapshot.placementState snapshot.osdMap.crushData
  decoded : ∀ state ∈ s.states, ∀ result, state.result = some result →
    ∃ orders : BucketOrders, result = orders.decode state.data
  chain : ∀ snapshot ∈ s.maps, Chain limits snapshot.osdMap

variable {pointer : Option Nat} {data : Bytes} {ranges : Ranges} {incremental : OSDMapIncremental}

theorem points_newState (points : s.Points pointer data) (other : Bytes) :
    (s.newState other).2.Points pointer data := by
  obtain ⟨p, state, rfl, found, same⟩ := points
  have bound := (List.getElem?_eq_some_iff.mp found).1
  exact ⟨p, state, rfl, (getElem?_append_left bound).trans found, same⟩

theorem newState_points (data : Bytes) : (s.newState data).2.Points (some (s.newState data).1) data :=
  ⟨_, { data }, rfl, getElem?_concat_length, rfl⟩

namespace Coherent

variable (coherent : Coherent limits s)
include coherent

theorem newState (data : Bytes) : Coherent limits (s.newState data).2 where
  points snapshot member := points_newState (coherent.points snapshot member) data
  decoded state member result done := by
    rcases mem_append.mp member with old | new
    · exact coherent.decoded state old result done
    · cases mem_singleton.mp new
      cases done
  chain := coherent.chain

theorem addMap {osdMap : OSDMap} (chain : Chain limits osdMap) {pointer : Option Nat}
    (points : s.Points pointer osdMap.crushData) : Coherent limits (s.addMap osdMap pointer) where
  points := forall_mem_append.mpr ⟨coherent.points, forall_mem_singleton.mpr points⟩
  decoded := coherent.decoded
  chain := forall_mem_append.mpr ⟨coherent.chain, forall_mem_singleton.mpr chain⟩

theorem setMap {changed : Snapshot} (member : snapshot ∈ s.maps) (same : changed.osdMap = snapshot.osdMap)
    (points : s.Points changed.placementState snapshot.osdMap.crushData) :
    Coherent limits { s with maps := s.maps.set i changed } where
  points other found := by
    rcases mem_or_eq_of_mem_set found with old | rfl
    · exact coherent.points other old
    · rw [same]
      exact points
  decoded := coherent.decoded
  chain other found := by
    rcases mem_or_eq_of_mem_set found with old | rfl
    · exact coherent.chain other old
    · rw [same]
      exact coherent.chain snapshot member

/-- The state that a map asks for has its bytes, whether it was there or is made now. -/
theorem crushPlacementState (member : snapshot ∈ s.maps) :
    Coherent limits (s.crushPlacementState i snapshot).2 ∧
      (s.crushPlacementState i snapshot).2.Points (s.crushPlacementState i snapshot).1 snapshot.osdMap.crushData := by
  have points := coherent.points snapshot member
  unfold SnapshotHeap.crushPlacementState
  split
  · exact ⟨coherent, points⟩
  · split
    · next state is =>
      rw [is] at points
      exact ⟨coherent.setMap member rfl (is ▸ points), points⟩
    · next none =>
      have made := newState_points (s := s) snapshot.osdMap.crushData
      exact ⟨(coherent.newState _).setMap member rfl made, made⟩

theorem nextState (incremental : OSDMapIncremental) {pointer : Option Nat}
    (points : s.Points pointer snapshot.osdMap.crushData) :
    Coherent limits (s.nextState snapshot incremental pointer).2 ∧
      (s.nextState snapshot incremental pointer).2.Points (s.nextState snapshot incremental pointer).1
        (if incremental.crushData.length ≠ 0 then incremental.crushData else snapshot.osdMap.crushData) := by
  unfold SnapshotHeap.nextState
  split
  · next changed =>
    rw [if_pos changed.1]
    exact ⟨coherent.newState _, newState_points _⟩
  · next same =>
    refine ⟨coherent, ?_⟩
    split
    · next some =>
      rw [not_and, not_not] at same
      rw [← same some]
      exact points
    · exact points

theorem decodeMap (data : Bytes) : Coherent limits (s.decodeMap limits data).2 := by
  unfold SnapshotHeap.decodeMap
  split
  · exact coherent
  · next osdMap decoded => exact (coherent.newState _).addMap (.full decoded) (newState_points _)

end Coherent

/-- The CRUSH bytes of the next map, if it is made from a clone. -/
theorem crushData_of_clones {current next : OSDMap} (clones : Clones current incremental)
    (applied : applyOSDMapIncremental ranges current incremental limits = .ok next) :
    next.crushData = if incremental.crushData.length ≠ 0 then incremental.crushData else current.crushData := by
  obtain ⟨fsid, epoch, noFullMap⟩ := clones
  rw [applyOSDMapIncremental, if_neg (not_not.mpr fsid), if_neg (not_not.mpr epoch),
    if_neg (not_not.mpr noFullMap)] at applied
  obtain ⟨names, -, applied⟩ := except_bind_ok applied
  obtain ⟨vectors, -, applied⟩ := except_bind_ok applied
  obtain ⟨-, -, applied⟩ := except_bind_ok applied
  cases applied
  rfl

theorem Coherent.applyIncremental (coherent : Coherent limits s) (member : snapshot ∈ s.maps)
    (representable : incremental.Representable) (order : ranges.Of incremental) :
    Coherent limits (s.applyIncremental limits ranges i snapshot incremental).2 := by
  have chain {next : OSDMap} (applied : applyOSDMapIncremental ranges snapshot.osdMap incremental limits = .ok next) :
      Chain limits next := .next (coherent.chain snapshot member) representable order applied
  unfold SnapshotHeap.applyIncremental
  split
  · next clones =>
    obtain ⟨cloned, points⟩ := coherent.crushPlacementState (i := i) member
    obtain ⟨prepared, points⟩ := cloned.nextState incremental points
    dsimp only
    split
    · exact prepared
    · next next applied =>
      rw [← crushData_of_clones clones applied] at points
      exact prepared.addMap (chain applied) points
  · split
    · exact coherent
    · next next applied => exact (coherent.newState _).addMap (chain applied) (newState_points _)

/-- A state is decoded when it is first asked for; the result is that of a decoding of the bytes at any time. -/
theorem Coherent.decode (coherent : Coherent limits s) (orders : BucketOrders) (points : s.Points pointer data) :
    ∃ crush t, s.decode orders pointer = .ok (crush, t) ∧ Coherent limits t ∧
      ∃ orders' : BucketOrders, crush = orders'.decode data := by
  obtain ⟨p, state, rfl, found, rfl⟩ := points
  have member := mem_of_getElem? found
  unfold SnapshotHeap.decode
  dsimp only
  rw [found]
  dsimp only
  cases done : state.result with
  | some result => exact ⟨result, s, rfl, coherent, coherent.decoded state member result done⟩
  | none =>
    refine ⟨_, _, rfl, ⟨fun snapshot is => ?_, fun other is result ran => ?_, coherent.chain⟩, orders, rfl⟩
    · obtain ⟨q, other, isPointer, found', same⟩ := coherent.points snapshot is
      rcases eq_or_ne p q with rfl | different
      · cases found.symm.trans found'
        exact ⟨p, _, isPointer, getElem?_set_self (List.getElem?_eq_some_iff.mp found).1, same⟩
      · exact ⟨q, other, isPointer, (getElem?_set_ne different).trans found', same⟩
    · rcases mem_or_eq_of_mem_set is with old | rfl
      · exact coherent.decoded other old result ran
      · exact ⟨orders, (Option.some.inj ran).symm⟩

theorem Coherent.placeMapped (coherent : Coherent limits s) (member : snapshot ∈ s.maps) (orders : BucketOrders)
    (fuel : Nat) (poolID : Int) (placement : ObjectPlacement) :
    Coherent limits (s.placeMapped orders fuel i snapshot poolID placement).2 ∧ ∃ orders' : BucketOrders,
      (s.placeMapped orders fuel i snapshot poolID placement).1 =
        snapshot.osdMap.placeMapped (orders'.decode snapshot.osdMap.crushData) fuel poolID placement := by
  unfold SnapshotHeap.placeMapped
  cases found : snapshot.osdMap.pools.lookup poolID with
  | none => exact ⟨coherent, orders, by rw [OSDMap.placeMapped, found]⟩
  | some pool =>
    dsimp only
    split
    · next type => exact ⟨coherent, orders, by rw [OSDMap.placeMapped, found]; exact (if_pos type).symm⟩
    · next type =>
      split
      · next size =>
        refine ⟨coherent, orders, ?_⟩
        rw [OSDMap.placeMapped, found]
        exact ((if_neg type).trans (if_pos size)).symm
      · obtain ⟨asked, points⟩ := coherent.crushPlacementState (i := i) member
        obtain ⟨crush, t, ran, coherent', orders', rfl⟩ := asked.decode orders points
        rw [ran]
        exact ⟨coherent', orders', rfl⟩

end SnapshotHeap

/-- The result of a placement is the one that a decoding of the bytes for this call alone gives; an error of the
decoding is one that such a decoding gives in some orders of its loops. -/
structure Fresh (data : Bytes) (place : Except GoError Crush.PlacementMap → Option (Except Fault ObjectPlacement))
    (result : Option (Except Fault ObjectPlacement)) : Prop where
  decoded : ∀ (orders : BucketOrders) crush, orders.decode data = .ok crush → result = place (.ok crush)
  refused : ∀ (orders : BucketOrders) err, orders.decode data = .error err →
    ∃ (orders' : BucketOrders) (err' : GoError), orders'.decode data = .error err' ∧ result = place (.error err')

theorem BucketOrders.decode_ok {orders : BucketOrders} {data : Bytes} {crush : Crush.PlacementMap}
    (decoded : orders.decode data = .ok crush) (orders' : BucketOrders) : orders'.decode data = .ok crush := by
  unfold decode decodeCrush at decoded ⊢
  split at decoded
  · cases decoded
  · next small =>
    rw [if_neg small]
    dsimp only at decoded ⊢
    split at decoded
    · cases decoded
    · next placementMap read =>
      obtain ⟨m, isMap, made⟩ := except_bind_ok read
      cases made
      have again := (Crush.CrushMap.decodeMap_iff (orders'.isFirst _) (orders'.isSecond _)).mpr
        ((Crush.CrushMap.decodeMap_iff (orders.isFirst _) (orders.isSecond _)).mp isMap)
      rw [Crush.decodePlacementMap, again]
      exact decoded

theorem fresh_of_decode {data : Bytes}
    {place : Except GoError Crush.PlacementMap → Option (Except Fault ObjectPlacement)}
    {result : Option (Except Fault ObjectPlacement)}
    (is : ∃ orders : BucketOrders, result = place (orders.decode data)) : Fresh data place result := by
  obtain ⟨orders, rfl⟩ := is
  refine ⟨fun orders' crush decoded => by rw [orders'.decode_ok decoded orders], fun orders' err refused => ?_⟩
  cases outcome : orders.decode data with
  | ok crush =>
    rw [orders.decode_ok outcome orders'] at refused
    cases refused
  | error err' => exact ⟨orders, err', outcome, rfl⟩

namespace SnapshotHeap

variable {limits : Limits} {s t : SnapshotHeap} {i : Nat} {snapshot : Snapshot}

theorem Coherent.placeObject (coherent : Coherent limits s) (member : snapshot ∈ s.maps) (orders : BucketOrders)
    (fuel : Nat) (poolID : Int) (object locator namespace_ : Bytes) :
    Coherent limits (s.placeObject orders fuel i snapshot poolID object locator namespace_).2 ∧
      Fresh snapshot.osdMap.crushData (snapshot.osdMap.placeObject · fuel poolID object locator namespace_)
        (s.placeObject orders fuel i snapshot poolID object locator namespace_).1 := by
  unfold SnapshotHeap.placeObject OSDMap.placeObject
  cases snapshot.osdMap.mapObject poolID object locator namespace_ with
  | error err => exact ⟨coherent, fresh_of_decode ⟨orders, rfl⟩⟩
  | ok placement => exact (coherent.placeMapped member orders fuel poolID placement).imp_right fresh_of_decode

theorem Coherent.placeRawHash (coherent : Coherent limits s) (member : snapshot ∈ s.maps) (orders : BucketOrders)
    (fuel : Nat) (poolID : Int) (hash : UInt32) :
    Coherent limits (s.placeRawHash orders fuel i snapshot poolID hash).2 ∧
      Fresh snapshot.osdMap.crushData (snapshot.osdMap.placeRawHash · fuel poolID hash)
        (s.placeRawHash orders fuel i snapshot poolID hash).1 := by
  unfold SnapshotHeap.placeRawHash OSDMap.placeRawHash
  cases snapshot.osdMap.mapRawHash poolID hash with
  | error err => exact ⟨coherent, fresh_of_decode ⟨orders, rfl⟩⟩
  | ok placement => exact (coherent.placeMapped member orders fuel poolID placement).imp_right fresh_of_decode

theorem Coherent.step {call : SnapshotCall} (coherent : Coherent limits s) (fits : call.Fits)
    (step : Step limits s call t) : Coherent limits t := by
  cases step with
  | decodeMap data => exact coherent.decodeMap data
  | applyIncremental is incremental ranges => exact coherent.applyIncremental (mem_of_getElem? is) fits.1 fits.2
  | placeObject is => exact (coherent.placeObject (mem_of_getElem? is) ..).1
  | placeRawHash is => exact (coherent.placeRawHash (mem_of_getElem? is) ..).1

/-- In every run of decodings, applications and placements the CRUSH state of a map has the bytes of the map, and the
placements of the map are those of its bytes. -/
theorem placements_fresh (reach : (system limits).Reaches (fun _ call => call.Fits) s)
    (is : s.maps[i]? = some snapshot) :
    Chain limits snapshot.osdMap ∧ s.Points snapshot.placementState snapshot.osdMap.crushData ∧
      ∀ (orders : BucketOrders) fuel poolID,
        (∀ object locator namespace_, Fresh snapshot.osdMap.crushData
          (snapshot.osdMap.placeObject · fuel poolID object locator namespace_)
          (s.placeObject orders fuel i snapshot poolID object locator namespace_).1) ∧
        ∀ hash, Fresh snapshot.osdMap.crushData (snapshot.osdMap.placeRawHash · fuel poolID hash)
          (s.placeRawHash orders fuel i snapshot poolID hash).1 := by
  have coherent : Coherent limits s := by
    refine reach.invariant (Coherent limits) ?_ fun s call t coherent step fits => coherent.step fits step
    rintro s rfl
    exact ⟨by simp, by simp, by simp⟩
  have member := mem_of_getElem? is
  refine ⟨coherent.chain snapshot member, coherent.points snapshot member, fun orders fuel poolID => ⟨?_, ?_⟩⟩
  · intro object locator namespace_
    exact (coherent.placeObject member orders fuel poolID object locator namespace_).2
  · intro hash
    exact (coherent.placeRawHash member orders fuel poolID hash).2

/-- Both maps share the CRUSH state that the placement with the first one decoded. -/
theorem placements_fresh_nameChain : ∃ s : SnapshotHeap, (system sampleLimits).Reaches (fun _ call => call.Fits) s ∧
    s.maps = [⟨twoPoolsMap, some 0, true⟩, ⟨nameChainMap, some 0, true⟩] ∧ s.Points (some 0) nameChainMap.crushData ∧
    ∀ (orders : BucketOrders) hash, Fresh nameChainMap.crushData (nameChainMap.placeRawHash · 100 1 hash)
      (s.placeRawHash orders 100 1 ⟨nameChainMap, some 0, true⟩ 1 hash).1 := by
  obtain ⟨ranges, order, applied⟩ := nameChain_applied
  let orders : BucketOrders := ⟨GoMap.anyOrder, GoMap.anyOrder, GoMap.isOrder_anyOrder, GoMap.isOrder_anyOrder⟩
  let state : CrushState := ⟨twoPoolsMap.crushData, some (orders.decode twoPoolsMap.crushData)⟩
  have decoded : decodeMap sampleLimits {} twoPoolsPayload =
      (.ok (), ⟨[{ data := twoPoolsMap.crushData }], [⟨twoPoolsMap, some 0, false⟩]⟩) := by
    rw [decodeMap, twoPools_decoded]
    rfl
  have shared : applyIncremental sampleLimits ranges ⟨[state], [⟨twoPoolsMap, some 0, true⟩]⟩ 0
    ⟨twoPoolsMap, some 0, true⟩
      nameChainIncremental = (.ok (), ⟨[state], [⟨twoPoolsMap, some 0, true⟩, ⟨nameChainMap, some 0, false⟩]⟩) := by
    rw [applyIncremental, if_pos ⟨rfl, rfl, rfl⟩, applied]
    rfl
  have first : (system sampleLimits).Reaches (fun _ call => call.Fits)
    (decodeMap sampleLimits {} twoPoolsPayload).2 :=
    .next (.start rfl) (.decodeMap twoPoolsPayload) trivial
  rw [decoded] at first
  have second := first.next (Step.placeRawHash (i := 0) rfl 1 0 orders 100) trivial
  change (system sampleLimits).Reaches _ ⟨[state], [⟨twoPoolsMap, some 0, true⟩]⟩ at second
  have third := second.next (Step.applyIncremental (i := 0) rfl nameChainIncremental ranges) ⟨⟨by decide⟩, order⟩
  rw [shared] at third
  have reach := third.next (Step.placeRawHash (i := 1) rfl 1 0 orders 100) trivial
  obtain ⟨-, points, fresh⟩ := placements_fresh (i := 1) reach rfl
  exact ⟨_, reach, rfl, points, fun orders hash => (fresh orders 100 1).2 hash⟩

end SnapshotHeap

end RadosGo.Maps
