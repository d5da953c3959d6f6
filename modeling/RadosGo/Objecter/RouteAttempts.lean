import RadosGo.Library.System
import RadosGo.Maps.Placement
import RadosGo.Mgr.Command
import RadosGo.Objecter.Request

namespace RadosGo

/-- The endpoint itself; its text is not needed, as texts are only compared. -/
def selectAddress (addresses : List EntityAddr) : Option Endpoint :=
  (selectEntityAddress addresses).bind EntityAddr.addrPort

def sameRelevantRoute (left right : Route) : Bool :=
  if left.primary ≠ right.primary ∨ left.pg ≠ right.pg ∨ left.shard ≠ right.shard ∨
    left.sharded ≠ right.sharded then false
  else
    match selectAddress left.addresses, selectAddress right.addresses with
    | some left, some right => left == right
    | _, _ => false

theorem sameRelevantRoute_self {route : Route} (found : (selectAddress route.addresses).isSome = true) :
    sameRelevantRoute route route = true := by
  obtain ⟨endpoint, isEndpoint⟩ := Option.isSome_iff_exists.mp found
  simp [sameRelevantRoute, isEndpoint]

def Maps.OSDMap.osdClientAddresses (osdMap : Maps.OSDMap) (id : Int) : Option (List EntityAddr) :=
  if id < 0 then none
  else
    match osdMap.clientAddresses[id.toNat]? with
    | none | some [] => none
    | some addresses => some addresses

/-- What a router computes from one map for the target of a call, with its checks. -/
abbrev Placing := Maps.OSDMap → Except GoError Maps.ObjectPlacement

/-- `Route`, `RouteRawHash` and `RoutePG` of `mapRouter`, which differ in `place`. -/
def mapRouter (place : Placing) : Option Maps.OSDMap → Except GoError Route
  | none => .error Sentinel.noPrimary
  | some osdMap => do
    let placement ← place osdMap
    match osdMap.osdClientAddresses placement.actingPrimary with
    | none => .error Sentinel.noPrimary
    | some addresses => .ok {
        epoch := osdMap.epoch
        pg := ⟨placement.pg.pool, placement.pg.seed, placement.pg.preferred⟩
        rawHash := placement.rawHash
        primary := placement.actingPrimary
        shard := placement.primaryShard
        sharded := placement.sharded
        addresses }

theorem mapRouter_ok {place : Placing} {current : Option Maps.OSDMap} {route : Route}
    (routed : mapRouter place current = .ok route) :
    ∃ osdMap, current = some osdMap ∧ route.epoch = osdMap.epoch := by
  cases current with
  | none => cases routed
  | some osdMap =>
    obtain ⟨placement, -, found⟩ := except_bind_ok routed
    split at found
    · cases found
    · cases found
      exact ⟨osdMap, rfl, rfl⟩

structure RoutedAttempt where
  route : Route
  place : Placing
  remapped : Bool := false
  canceled : Bool := false

def RoutedAttempt.remap (attempt : RoutedAttempt) : RoutedAttempt :=
  if attempt.remapped then attempt else { attempt with remapped := true, canceled := true }

/-- A call that routes once, from `waitForRoute` to the function that `beginRoutedAttempt` returns. -/
inductive AttemptCall where
  | idle
  | routed (route : Route) (place : Placing)
  | registered (id : UInt64)
  | comparing (id : UInt64)
  | remapping (id : UInt64)
  | begun (id : UInt64)
  | untracked
  | ended (remapped : Bool)
  | failed (err : GoError)

/-- Where `watchOSDMaps` stands. -/
inductive MapWatch where
  | starting
  | waiting (after : Nat)
  | woken (after : Nat)
  | invalidating (epoch : Nat)
  | judging (epoch : Nat) (attempts : GoMap UInt64 Nat)
  | remapping (epoch : Nat) (id : UInt64) (attempt : Nat) (attempts : GoMap UInt64 Nat)
  | ended

/-- The routed attempts of a client. An attempt has the number of its call; `published` has all maps there were. -/
structure RouteAttempts where
  current : Option Maps.OSDMap := none
  published : List Maps.OSDMap := []
  closed : Bool := false
  routeAttempts : Option (GoMap UInt64 Nat) := some ∅
  nextRouteAttempt : UInt64 := 0
  attempt : Nat → Option RoutedAttempt := fun _ => none
  calls : Nat → AttemptCall := fun _ => .idle
  watcher : MapWatch := .starting

namespace RouteAttempts

def maxTrackedRouteAttempts : Nat := 4096

inductive Action where
  | publishes (osdMap : Maps.OSDMap)
  | routes (call : Nat) (place : Placing)
  | begins (call : Nat)
  | loads (call : Nat)
  | resolves (call : Nat)
  | remaps (call : Nat)
  | finishes (call : Nat)
  | closes
  | watchStarts
  | wakes
  | watchLoads
  | snapshots
  | judges (id : UInt64)
  | watchRemaps
  | passEnds
  | watchEnds

variable (s : RouteAttempts)

def newest : Nat := s.current.elim 0 Maps.OSDMap.epoch

def setCall (call : Nat) (phase : AttemptCall) : RouteAttempts :=
  { s with calls := Function.update s.calls call phase }

def setAttempt (call : Nat) (attempt : RoutedAttempt) : RouteAttempts :=
  { s with attempt := Function.update s.attempt call (some attempt) }

def Registered (id : UInt64) (call : Nat) : Prop := s.routeAttempts.bind (·.lookup id) = some call

instance decidableRegistered (id : UInt64) (call : Nat) : Decidable (s.Registered id call) :=
  inferInstanceAs (Decidable (_ = _))

/-- The loop that looks for an identifier which is not zero and not used. -/
def freeID (attempts : GoMap UInt64 Nat) : Nat → UInt64 → UInt64
  | 0, next => next
  | fuel + 1, next => if next = 0 ∨ next ∈ attempts then freeID attempts fuel (next + 1) else next

theorem freeID_used {attempts : GoMap UInt64 Nat} {fuel : Nat} {next : UInt64}
    (used : freeID attempts fuel next = 0 ∨ freeID attempts fuel next ∈ attempts) :
    ∀ k ≤ fuel, next + UInt64.ofNat k = 0 ∨ next + UInt64.ofNat k ∈ attempts := by
  induction fuel generalizing next with
  | zero =>
    intro k bound
    obtain rfl := Nat.le_zero.mp bound
    simpa [freeID] using used
  | succ fuel ih =>
    rw [freeID] at used
    split at used
    · next here =>
      intro k bound
      cases k with
      | zero => simpa using here
      | succ k =>
        have sum : UInt64.ofNat (k + 1) = 1 + UInt64.ofNat k := by
          rw [add_comm k, UInt64.ofNat_add]
          rfl
        rw [sum, ← add_assoc]
        exact ih used k (by omega)
    · next free => exact absurd used free

/-- The loop ends before it comes back to where it has begun, as there are fewer attempts than identifiers. -/
theorem freeID_free (attempts : GoMap UInt64 Nat) (few : attempts.keys.card < maxTrackedRouteAttempts)
    (next : UInt64) :
    freeID attempts (attempts.keys.card + 1) next ≠ 0 ∧ freeID attempts (attempts.keys.card + 1) next ∉ attempts := by
  by_contra used
  rw [not_and_or, not_not, not_not] at used
  have all := freeID_used used
  have fewer : (insert 0 attempts.keys).card < (Finset.range (attempts.keys.card + 2)).card := by
    have atMost := Finset.card_insert_le 0 attempts.keys
    rw [Finset.card_range]
    omega
  obtain ⟨i, inRange, j, inRange', different, same⟩ := Finset.exists_ne_map_eq_of_card_lt_of_maps_to
    (f := fun k => next + UInt64.ofNat k) fewer fun k bound => by
      simpa [Finmap.mem_keys] using all k (Nat.le_of_lt_succ (Finset.mem_range.mp bound))
  rw [Finset.mem_range] at inRange inRange'
  rw [maxTrackedRouteAttempts] at few
  have sameNumber := congrArg UInt64.toNat (add_left_cancel same)
  rw [UInt64.toNat_ofNat_of_lt' (by simp [UInt64.size]; omega),
    UInt64.toNat_ofNat_of_lt' (by simp [UInt64.size]; omega)] at sameNumber
  exact different sameNumber

/-- From the largest identifier on, which is used as 1 is, the loop passes 0. -/
theorem freeID_free_wraps :
    let attempts : GoMap UInt64 Nat := (Finmap.singleton 1 0).insert 18446744073709551615 1
    freeID attempts (attempts.keys.card + 1) 18446744073709551615 = 2 ∧
      freeID attempts (attempts.keys.card + 1) 18446744073709551615 ∉ attempts := by
  intro attempts
  exact ⟨by decide, (freeID_free attempts (by decide) 18446744073709551615).2⟩

def register (call : Nat) (route : Route) (place : Placing) (attempts : GoMap UInt64 Nat) : RouteAttempts :=
  let id := freeID attempts (attempts.keys.card + 1) (s.nextRouteAttempt + 1)
  ({ s with nextRouteAttempt := id, routeAttempts := some (attempts.insert id call) }.setAttempt call
    { route, place }).setCall call (.registered id)

/-- The first locked part of `beginRoutedAttempt`. -/
def beginRoutedAttempt (call : Nat) (route : Route) (place : Placing) : RouteAttempts :=
  if s.closed then s.setCall call (.failed Sentinel.objecterClosed)
  else
    match s.routeAttempts with
    | none => s.setCall call .untracked
    | some attempts =>
      if maxTrackedRouteAttempts ≤ attempts.keys.card then s.setCall call (.failed Sentinel.queueSaturated)
      else s.register call route place attempts

/-- Whether the route of an attempt is still the one of the current map. -/
def stillRoutes (attempt : RoutedAttempt) : Bool :=
  match mapRouter attempt.place s.current with
  | .ok updated => sameRelevantRoute attempt.route updated
  | .error _ => false

def remapAttempt (id : UInt64) (call : Nat) : RouteAttempts :=
  match s.attempt call with
  | none => s
  | some attempt => if s.Registered id call then s.setAttempt call attempt.remap else s

def unregister (id : UInt64) (call : Nat) (attempts : GoMap UInt64 Nat) : GoMap UInt64 Nat :=
  if attempts.lookup id = some call then attempts.erase id else attempts

/-- The function which `beginRoutedAttempt` returns. -/
def finish (call : Nat) (id : UInt64) (attempt : RoutedAttempt) : RouteAttempts :=
  ({ s with routeAttempts := s.routeAttempts.map (unregister id call) }.setAttempt call
    { attempt with canceled := true }).setCall call (.ended attempt.remapped)

/-- What `Close` does with the attempts. -/
def close : RouteAttempts :=
  { s with
    closed := true
    routeAttempts := none
    attempt := fun call => (s.attempt call).map fun attempt =>
      if s.routeAttempts.any fun attempts => decide (∃ id ∈ attempts.keys, attempts.lookup id = some call) then
        { attempt with canceled := true }
      else attempt }

/-- One atomic action, if it is possible. -/
def step : Action → Option RouteAttempts
  | .publishes osdMap =>
    if s.current.all fun current => decide (current.epoch < osdMap.epoch) then
      some { s with current := some osdMap, published := osdMap :: s.published }
    else none
  | .routes call place =>
    match s.calls call with
    | .idle =>
      match mapRouter place s.current with
      | .error err => some (s.setCall call (.failed err))
      | .ok route =>
        -- getSessionContext comes first, and its sessionTarget needs an address.
        if (selectAddress route.addresses).isSome then some (s.setCall call (.routed route place))
        else some (s.setCall call (.failed Sentinel.noPrimary))
    | _ => none
  | .begins call =>
    match s.calls call with
    | .routed route place => some (s.beginRoutedAttempt call route place)
    | _ => none
  | .loads call =>
    match s.calls call, s.attempt call with
    | .registered id, some attempt =>
      if attempt.route.epoch < s.newest then some (s.setCall call (.comparing id))
      else some (s.setCall call (.begun id))
    | _, _ => none
  | .resolves call =>
    match s.calls call, s.attempt call with
    | .comparing id, some attempt =>
      if s.stillRoutes attempt then some (s.setCall call (.begun id)) else some (s.setCall call (.remapping id))
    | _, _ => none
  | .remaps call =>
    match s.calls call with
    | .remapping id => some ((s.remapAttempt id call).setCall call (.begun id))
    | _ => none
  | .finishes call =>
    match s.calls call, s.attempt call with
    | .begun id, some attempt => some (s.finish call id attempt)
    | _, _ => none
  | .closes => if s.closed then none else some s.close
  | .watchStarts =>
    match s.watcher with
    | .starting => some { s with watcher :=
        match s.current with
        | none => .waiting 0
        | some current => .invalidating current.epoch }
    | _ => none
  | .wakes =>
    match s.watcher with
    | .waiting after => if after < s.newest then some { s with watcher := .woken after } else none
    | _ => none
  | .watchLoads =>
    match s.watcher with
    | .woken after => some { s with watcher :=
        if s.newest ≤ after then .waiting after else .invalidating s.newest }
    | _ => none
  | .snapshots =>
    match s.watcher with
    | .invalidating epoch => some { s with watcher := .judging epoch (s.routeAttempts.getD ∅) }
    | _ => none
  | .judges id =>
    match s.watcher with
    | .judging epoch attempts =>
      match attempts.lookup id with
      | none => none
      | some call =>
        match s.attempt call with
        | none => none
        | some attempt =>
          if s.stillRoutes attempt then some { s with watcher := .judging epoch (attempts.erase id) }
          else some { s with watcher := .remapping epoch id call (attempts.erase id) }
    | _ => none
  | .watchRemaps =>
    match s.watcher with
    | .remapping epoch id call attempts => some { s.remapAttempt id call with watcher := .judging epoch attempts }
    | _ => none
  | .passEnds =>
    match s.watcher with
    | .judging epoch attempts => if attempts = ∅ then some { s with watcher := .waiting epoch } else none
    | _ => none
  | .watchEnds =>
    match s.watcher with
    | .waiting _ => some { s with watcher := .ended }
    | _ => none

/-- The runs of a new client, whose maps can be waited for or not. -/
def interleavings : System RouteAttempts Action where
  start s := ∃ current : Option Maps.OSDMap, s = { current, published := current.toList } ∨
    s = { current, published := current.toList, routeAttempts := none, watcher := .ended }
  step s action s' := s.step action = some s'

end RouteAttempts

end RadosGo
