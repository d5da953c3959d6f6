import RadosGo.Maps.Decoded
import RadosGo.Objecter.RouteAttempts

namespace RadosGo

/-- The epoch which the watcher processes or has processed. -/
def MapWatch.epoch : MapWatch → Nat
  | .starting | .ended => 0
  | .waiting epoch | .woken epoch | .invalidating epoch | .judging epoch _ | .remapping epoch _ _ _ => epoch

/-- An attempt agrees with the map that the watcher has processed, or is one of those which it has still to look at.
-/
def MapWatch.Covers (agrees : Nat → Prop) (id : UInt64) (call : Nat) : MapWatch → Prop
  | .starting | .invalidating _ | .ended => True
  | .waiting epoch | .woken epoch => agrees epoch
  | .judging epoch attempts => attempts.lookup id = some call ∨ agrees epoch
  | .remapping epoch id' call' attempts => id' = id ∧ call' = call ∨ attempts.lookup id = some call ∨ agrees epoch

variable {watcher : MapWatch}

theorem MapWatch.Covers.mono {first second : Nat → Prop} (more : ∀ epoch, first epoch → second epoch)
    {id : UInt64} {call : Nat} (covers : watcher.Covers first id call) : watcher.Covers second id call := by
  cases watcher with
  | starting | invalidating _ | ended => trivial
  | waiting epoch | woken epoch => exact more epoch covers
  | judging epoch attempts => exact covers.imp_right (more epoch)
  | remapping epoch id' call' attempts => exact covers.imp_right (Or.imp_right (more epoch))

theorem MapWatch.covers_of_epoch {agrees : Nat → Prop} (id : UInt64) (call : Nat)
    (now : agrees watcher.epoch) : watcher.Covers agrees id call := by
  cases watcher with
  | starting | invalidating _ | ended => trivial
  | waiting epoch | woken epoch => exact now
  | judging epoch attempts => exact .inr now
  | remapping epoch id' call' attempts => exact .inr (.inr now)

variable {attempts : GoMap UInt64 Nat} {epoch : Nat}

/-- The watcher takes an attempt out of those which it has still to look at. -/
theorem MapWatch.Covers.take {agrees : Nat → Prop} {id id' : UInt64} {call call' : Nat}
    (found : attempts.lookup id = some call) (covers : (MapWatch.judging epoch attempts).Covers agrees id' call') :
    (MapWatch.remapping epoch id call (attempts.erase id)).Covers agrees id' call' := by
  rcases covers with found' | now
  · by_cases sameID : id' = id
    · rw [sameID, found] at found'
      exact .inl ⟨sameID.symm, Option.some.inj found'⟩
    · exact .inr (.inl (GoMap.lookup_erase_iff.mpr ⟨sameID, found'⟩))
  · exact .inr (.inr now)

namespace RouteAttempts

variable {s : RouteAttempts} {call : Nat} {id : UInt64} {attempt : RoutedAttempt}

/-- A route that was resolved from a published map, with an address to connect to. -/
def Came (s : RouteAttempts) (route : Route) (place : Placing) : Prop :=
  (selectAddress route.addresses).isSome = true ∧ ∃ osdMap ∈ s.published, mapRouter place (some osdMap) = .ok route

/-- A map of at least this epoch gives the route of the attempt. -/
def Agrees (s : RouteAttempts) (epoch : Nat) (attempt : RoutedAttempt) : Prop :=
  ∃ osdMap ∈ s.published, epoch ≤ osdMap.epoch ∧
    ∃ updated, mapRouter attempt.place (some osdMap) = .ok updated ∧ sameRelevantRoute attempt.route updated = true

structure Routed (s : RouteAttempts) : Prop where
  current : ∀ osdMap, s.current = some osdMap → osdMap ∈ s.published
  reached : s.watcher.epoch ≤ s.newest
  routed : ∀ call route place, s.calls call = .routed route place → s.Came route place
  came : ∀ call attempt, s.attempt call = some attempt →
    s.Came attempt.route attempt.place ∧ (attempt.remapped = true → attempt.canceled = true)
  covered : ∀ call id attempt, s.calls call = .begun id → s.Registered id call → s.attempt call = some attempt →
    attempt.remapped = false → s.watcher.Covers (s.Agrees · attempt) id call

theorem Agrees.mono {first second : Nat} (agrees : s.Agrees second attempt) (below : first ≤ second) :
    s.Agrees first attempt := by
  obtain ⟨osdMap, isPublished, reaches, updated, routed, same⟩ := agrees
  exact ⟨osdMap, isPublished, below.trans reaches, updated, routed, same⟩

theorem calls_setCall {phase : AttemptCall} {other : Nat} :
    (s.setCall call phase).calls other = if other = call then phase else s.calls other :=
  Function.update_apply _ _ _ _

theorem attempt_setAttempt {next : RoutedAttempt} {other : Nat} :
    (s.setAttempt call next).attempt other = if other = call then some next else s.attempt other :=
  Function.update_apply _ _ _ _

theorem RoutedAttempt.remap_remapped : attempt.remap.remapped = true := by
  unfold RoutedAttempt.remap
  split
  · next isRemapped => exact isRemapped
  · rfl

/-- An attempt in the table is marked by `remapAttempt`. -/
theorem remapped_of_remapAttempt (registered : (s.remapAttempt id call).Registered id call)
    (is : (s.remapAttempt id call).attempt call = some attempt) : attempt.remapped = true := by
  unfold remapAttempt at registered is
  split at is
  · next missing =>
    rw [missing] at is
    cases is
  · next before isBefore =>
    rw [isBefore] at registered
    dsimp only at registered
    split at is
    · rw [attempt_setAttempt, if_pos rfl] at is
      cases is
      exact RoutedAttempt.remap_remapped
    · next unregistered =>
      rw [if_neg unregistered] at registered
      exact absurd registered unregistered

theorem watcher_remapAttempt : (s.remapAttempt id call).watcher = s.watcher := by
  unfold remapAttempt
  split
  · rfl
  · split <;> rfl

theorem newest_remapAttempt : (s.remapAttempt id call).newest = s.newest := by
  unfold remapAttempt
  split
  · rfl
  · split <;> rfl

namespace Routed

variable (inv : s.Routed)
include inv

theorem agrees_of_stillRoutes (same : s.stillRoutes attempt = true) : s.Agrees s.newest attempt := by
  unfold stillRoutes at same
  split at same
  · next updated routed =>
    obtain ⟨osdMap, isCurrent, -⟩ := mapRouter_ok routed
    rw [isCurrent] at routed
    refine ⟨osdMap, inv.current osdMap isCurrent, ?_, updated, routed, same⟩
    rw [newest, isCurrent]
    exact le_rfl
  · cases same

/-- A route agrees with the map that it was resolved from. -/
theorem agrees_route (is : s.attempt call = some attempt) : s.Agrees attempt.route.epoch attempt := by
  obtain ⟨⟨hasAddress, osdMap, isPublished, routed⟩, -⟩ := inv.came call attempt is
  obtain ⟨_, same, epoch⟩ := mapRouter_ok routed
  cases same
  exact ⟨osdMap, isPublished, epoch.le, attempt.route, routed, sameRelevantRoute_self hasAddress⟩

theorem reached_of (is : s.watcher = watcher) : watcher.epoch ≤ s.newest := is ▸ inv.reached

theorem covers_of_newest (id : UInt64) (call : Nat) (agrees : s.Agrees s.newest attempt) :
    s.watcher.Covers (s.Agrees · attempt) id call :=
  MapWatch.covers_of_epoch id call (agrees.mono inv.reached)

theorem setCall {phase : AttemptCall} (routed : ∀ route place, phase = .routed route place → s.Came route place)
    (begun : ∀ id attempt, phase = .begun id → s.Registered id call → s.attempt call = some attempt →
      attempt.remapped = false → s.watcher.Covers (s.Agrees · attempt) id call) : (s.setCall call phase).Routed := by
  refine { inv with routed := ?_, covered := ?_ }
  · intro other route place isRouted
    rw [calls_setCall] at isRouted
    split at isRouted
    · exact routed route place isRouted
    · exact inv.routed other route place isRouted
  · intro other id attempt isBegun registered is notRemapped
    rw [calls_setCall] at isBegun
    split at isBegun
    · next same => exact same ▸ begun id attempt isBegun (same ▸ registered) (same ▸ is) notRemapped
    · exact inv.covered other id attempt isBegun registered is notRemapped

theorem publish (osdMap : Maps.OSDMap) (newer : s.current.all fun current => decide (current.epoch < osdMap.epoch)) :
    { s with current := some osdMap, published := osdMap :: s.published }.Routed := by
  have grows : s.newest ≤ osdMap.epoch := by
    rw [newest]
    cases isCurrent : s.current with
    | none => exact Nat.zero_le _
    | some current =>
      rw [isCurrent, Option.all_some, decide_eq_true_eq] at newer
      exact newer.le
  have cameStill {route : Route} {place : Placing} (came : s.Came route place) :
      { s with current := some osdMap, published := osdMap :: s.published }.Came route place := by
    obtain ⟨hasAddress, source, isPublished, routed⟩ := came
    exact ⟨hasAddress, source, List.mem_cons_of_mem _ isPublished, routed⟩
  have agreesStill {epoch : Nat} {attempt : RoutedAttempt} (agrees : s.Agrees epoch attempt) :
      { s with current := some osdMap, published := osdMap :: s.published }.Agrees epoch attempt := by
    obtain ⟨source, isPublished, rest⟩ := agrees
    exact ⟨source, List.mem_cons_of_mem _ isPublished, rest⟩
  refine ⟨?_, inv.reached.trans grows, ?_, ?_, ?_⟩
  · intro other same
    cases same
    exact List.mem_cons_self
  · exact fun call route place isRouted => cameStill (inv.routed call route place isRouted)
  · intro call attempt is
    obtain ⟨came, canceled⟩ := inv.came call attempt is
    exact ⟨cameStill came, canceled⟩
  · intro call id attempt isBegun registered is notRemapped
    exact (inv.covered call id attempt isBegun registered is notRemapped).mono fun _ => agreesStill

theorem setAttempt (next : RoutedAttempt) (came : s.Came next.route next.place)
    (canceled : next.remapped = true → next.canceled = true)
    (covered : ∀ id, s.calls call = .begun id → s.Registered id call → next.remapped = false →
      s.watcher.Covers (s.Agrees · next) id call) : (s.setAttempt call next).Routed := by
  refine { inv with came := ?_, covered := ?_ }
  · intro other attempt is
    rw [attempt_setAttempt] at is
    split at is
    · cases is
      exact ⟨came, canceled⟩
    · exact inv.came other attempt is
  · intro other id attempt isBegun registered is notRemapped
    rw [attempt_setAttempt] at is
    split at is
    · next same =>
      cases is
      subst same
      exact covered id isBegun registered notRemapped
    · exact inv.covered other id attempt isBegun registered is notRemapped

/-- No call that has begun comes to the table. -/
theorem setTable (nextRouteAttempt : UInt64) (routeAttempts : Option (GoMap UInt64 Nat))
    (fewer : ∀ call id, routeAttempts.bind (·.lookup id) = some call → s.Registered id call ∨
      ∀ id, s.calls call ≠ .begun id) :
    { s with nextRouteAttempt, routeAttempts }.Routed := by
  refine { inv with covered := fun call id attempt isBegun registered is notRemapped => ?_ }
  rcases fewer call id registered with before | notBegun
  · exact inv.covered call id attempt isBegun before is notRemapped
  · exact absurd isBegun (notBegun id)

theorem setWatcher {before after : MapWatch} (watcher : s.watcher = before) (reached : after.epoch ≤ s.newest)
    (covered : ∀ call id attempt, s.calls call = .begun id → s.Registered id call → s.attempt call = some attempt →
      attempt.remapped = false → before.Covers (s.Agrees · attempt) id call →
        after.Covers (s.Agrees · attempt) id call) :
    { s with watcher := after }.Routed := by
  refine { inv with reached, covered := fun call id attempt isBegun registered is notRemapped => ?_ }
  refine covered call id attempt isBegun registered is notRemapped ?_
  rw [← watcher]
  exact inv.covered call id attempt isBegun registered is notRemapped

variable {place : Placing} {route : Route}

theorem register (isRouted : s.calls call = .routed route place) (attempts : GoMap UInt64 Nat)
    (table : s.routeAttempts = some attempts) : (s.register call route place attempts).Routed := by
  have entered : { s with
      nextRouteAttempt := freeID attempts (attempts.keys.card + 1) (s.nextRouteAttempt + 1)
      routeAttempts := some (attempts.insert (freeID attempts (attempts.keys.card + 1) (s.nextRouteAttempt + 1)) call)
        }.Routed := by
    refine inv.setTable _ _ fun other id found => ?_
    rcases GoMap.lookup_insert_iff.mp found with ⟨-, same⟩ | ⟨-, found⟩
    · right
      rw [← same, isRouted]
      simp
    · left
      rw [Registered, table]
      exact found
  refine (entered.setAttempt { route, place } (inv.routed call route place isRouted) (by simp) ?_).setCall
    (by simp) (by simp)
  intro id isBegun
  rw [isRouted] at isBegun
  cases isBegun

theorem remapAttempt (id : UInt64) (call : Nat) : (s.remapAttempt id call).Routed := by
  unfold RouteAttempts.remapAttempt
  split
  · exact inv
  · next attempt is =>
    obtain ⟨came, canceled⟩ := inv.came call attempt is
    split
    · refine inv.setAttempt attempt.remap ?_ ?_ fun id _ _ notRemapped => ?_
      · unfold RoutedAttempt.remap
        split <;> exact came
      · unfold RoutedAttempt.remap
        split
        · exact canceled
        · exact fun _ => rfl
      · rw [RoutedAttempt.remap_remapped] at notRemapped
        cases notRemapped
    · exact inv

theorem finish (id : UInt64) (is : s.attempt call = some attempt) : (s.finish call id attempt).Routed := by
  obtain ⟨came, -⟩ := inv.came call attempt is
  have left : { s with routeAttempts := s.routeAttempts.map (unregister id call) }.Routed := by
    refine inv.setTable s.nextRouteAttempt _ fun other id' found => .inl ?_
    rw [Registered]
    cases table : s.routeAttempts with
    | none =>
      rw [table] at found
      cases found
    | some attempts =>
      rw [table] at found
      replace found : (unregister id call attempts).lookup id' = some other := found
      unfold unregister at found
      split at found
      · exact (GoMap.lookup_erase_iff.mp found).2
      · exact found
  refine (left.setAttempt { attempt with canceled := true } came (fun _ => rfl) ?_).setCall (by simp) (by simp)
  intro id' isBegun registered notRemapped
  exact left.covered call id' attempt isBegun registered is notRemapped

theorem close : s.close.Routed := by
  refine ⟨inv.current, inv.reached, inv.routed, ?_, ?_⟩
  · intro call attempt is
    obtain ⟨before, isBefore, rfl⟩ := Option.map_eq_some_iff.mp is
    obtain ⟨came, canceled⟩ := inv.came call before isBefore
    split
    · exact ⟨came, fun _ => rfl⟩
    · exact ⟨came, canceled⟩
  · intro call id attempt _ registered
    cases registered

theorem resolve (routed : mapRouter place s.current = .ok route)
    (hasAddress : (selectAddress route.addresses).isSome = true) : (s.setCall call (.routed route place)).Routed := by
  refine inv.setCall (fun _ _ same => ?_) (by simp)
  cases same
  obtain ⟨osdMap, isCurrent, -⟩ := mapRouter_ok routed
  rw [isCurrent] at routed
  exact ⟨hasAddress, osdMap, inv.current osdMap isCurrent, routed⟩

theorem beginRoutedAttempt (isRouted : s.calls call = .routed route place) :
    (s.beginRoutedAttempt call route place).Routed := by
  fun_cases s.beginRoutedAttempt call route place
  case case4 attempts table _ => exact inv.register isRouted attempts table
  all_goals exact inv.setCall (by simp) (by simp)

/-- A call goes on with a route that it has compared with the newest map. -/
theorem begin (is : s.attempt call = some attempt) (agrees : s.Agrees s.newest attempt) :
    (s.setCall call (.begun id)).Routed := by
  refine inv.setCall (by simp) fun _ _ _ _ same _ => ?_
  cases is.symm.trans same
  exact inv.covers_of_newest _ _ agrees

theorem remap : ((s.remapAttempt id call).setCall call (.begun id)).Routed := by
  refine (inv.remapAttempt id call).setCall (by simp) fun id' attempt same registered is notRemapped => ?_
  cases same
  rw [remapped_of_remapAttempt registered is] at notRemapped
  cases notRemapped

theorem watchStart (watcher : s.watcher = .starting) : { s with watcher :=
    match s.current with
    | none => .waiting 0
    | some current => .invalidating current.epoch }.Routed := by
  split
  · refine inv.setWatcher watcher (Nat.zero_le _) fun _ _ _ _ _ is _ _ => ?_
    exact (inv.agrees_route is).mono (Nat.zero_le _)
  · next current isCurrent =>
    refine inv.setWatcher watcher ?_ fun _ _ _ _ _ _ _ _ => trivial
    rw [newest, isCurrent]
    exact le_rfl

theorem snapshot (watcher : s.watcher = .invalidating epoch) :
    { s with watcher := .judging epoch (s.routeAttempts.getD ∅) }.Routed := by
  refine inv.setWatcher watcher (inv.reached_of watcher :) fun call id _ _ registered _ _ _ => .inl ?_
  obtain ⟨attempts, table, found⟩ := Option.bind_eq_some_iff.mp registered
  rw [table]
  exact found

theorem judge (watcher : s.watcher = .judging epoch attempts)
    (found : attempts.lookup id = some call) (is : s.attempt call = some attempt)
    (same : s.stillRoutes attempt = true) : { s with watcher := .judging epoch (attempts.erase id) }.Routed := by
  have reached : epoch ≤ s.newest := inv.reached_of watcher
  refine inv.setWatcher watcher reached fun call' id' attempt' _ _ is' _ covers => ?_
  rcases covers.take found with ⟨-, rfl⟩ | others
  · cases is.symm.trans is'
    exact .inr ((inv.agrees_of_stillRoutes same).mono reached)
  · exact others

theorem watchRemap (watcher : s.watcher = .remapping epoch id call attempts) :
    { s.remapAttempt id call with watcher := .judging epoch attempts }.Routed := by
  refine (inv.remapAttempt id call).setWatcher (watcher_remapAttempt.trans watcher) ?_
    fun call' id' attempt _ registered is notRemapped covers => covers.resolve_left ?_
  · rw [newest_remapAttempt]
    exact (inv.reached_of watcher :)
  · rintro ⟨rfl, rfl⟩
    rw [remapped_of_remapAttempt registered is] at notRemapped
    cases notRemapped

end Routed

/-- Every step of the calls, the watcher and the maps. -/
theorem Routed.step (inv : s.Routed) {t : RouteAttempts} {action : Action} (steps : s.step action = some t) :
    t.Routed := by
  revert steps
  fun_cases s.step action
  all_goals rintro ⟨⟩
  · next newer => exact inv.publish _ newer
  · exact inv.setCall (by simp) (by simp)
  · next routed hasAddress => exact inv.resolve routed hasAddress
  · exact inv.setCall (by simp) (by simp)
  · next isRouted => exact inv.beginRoutedAttempt isRouted
  · exact inv.setCall (by simp) (by simp)
  · next is _ recent => exact inv.begin is ((inv.agrees_route is).mono (Nat.le_of_not_lt recent))
  · next is _ same => exact inv.begin is (inv.agrees_of_stillRoutes same)
  · exact inv.setCall (by simp) (by simp)
  · exact inv.remap
  · next is _ => exact inv.finish _ is
  · exact inv.close
  · next watcher => exact inv.watchStart watcher
  · next watcher later => exact inv.setWatcher watcher later.le fun _ _ _ _ _ _ _ covers => covers
  · next watcher =>
    split
    · exact inv.setWatcher watcher (inv.reached_of watcher :) fun _ _ _ _ _ _ _ covers => covers
    · exact inv.setWatcher watcher le_rfl fun _ _ _ _ _ _ _ _ => trivial
  · next watcher => exact inv.snapshot watcher
  · next watcher _ found _ is same => exact inv.judge watcher found is same
  · next watcher _ found _ _ _ =>
    exact inv.setWatcher watcher (inv.reached_of watcher :) fun _ _ _ _ _ _ _ covers => covers.take found
  · next watcher => exact inv.watchRemap watcher
  · next watcher =>
    exact inv.setWatcher watcher (inv.reached_of watcher :) fun _ _ _ _ _ _ _ covers => covers.resolve_left (by simp)
  · next watcher => exact inv.setWatcher watcher (Nat.zero_le _) fun _ _ _ _ _ _ _ _ => trivial

theorem routed_of_start (starts : interleavings.start s) : s.Routed := by
  obtain ⟨current, rfl | rfl⟩ := starts
  · exact ⟨fun osdMap isCurrent => Option.mem_toList.mpr isCurrent, Nat.zero_le _, by simp, by simp, by simp⟩
  · exact ⟨fun osdMap isCurrent => Option.mem_toList.mpr isCurrent, Nat.zero_le _, by simp, by simp, by simp⟩

/-- In every interleaving, when the map watcher waits after it has processed an epoch, every attempt that has begun
and is in the table has the route which a map of at least that epoch gives, or is marked and canceled. -/
theorem attempts_agree (reach : interleavings.Reaches (fun _ _ => True) s) (waits : s.watcher = .waiting epoch)
    (isBegun : s.calls call = .begun id) (registered : s.Registered id call) (is : s.attempt call = some attempt) :
    (attempt.remapped = false → ∃ osdMap ∈ s.published, epoch ≤ osdMap.epoch ∧
      ∃ updated, mapRouter attempt.place (some osdMap) = .ok updated ∧
        sameRelevantRoute attempt.route updated = true) ∧
    (attempt.remapped = true → attempt.canceled = true) := by
  have inv := reach.invariant Routed (fun _ => routed_of_start) fun _ _ _ inv steps _ => inv.step steps
  refine ⟨fun notRemapped => ?_, (inv.came call attempt is).2⟩
  have covers := inv.covered call id attempt isBegun registered is notRemapped
  rwa [waits] at covers

/-- A map with an address for the first OSD. -/
def addressedMap (epoch : Nat) : Maps.OSDMap :=
  { Maps.twoPoolsMap with epoch, clientAddresses := [[⟨2, 0, 2, 26 :: 144 :: List.replicate 12 0⟩], []] }

def onlyOSD : Placing := fun _ => .ok { rawHash := 7, rawPG := ⟨1, 7, -1⟩, pg := ⟨1, 0, -1⟩, placementSeed := 0 }

/-- An attempt begins, and the watcher processes a new map. -/
def newMap : List Action :=
  [.watchStarts, .snapshots, .passEnds, .routes 0 onlyOSD, .begins 0, .loads 0, .publishes (addressedMap 2), .wakes,
    .watchLoads, .snapshots, .judges 1, .passEnds]

def firstMap : RouteAttempts := { current := some (addressedMap 1), published := [addressedMap 1] }

def afterNewMap : RouteAttempts := newMap.foldl (fun s action => (s.step action).getD s) firstMap

theorem newMap_reached : interleavings.Reaches (fun _ _ => True) afterNewMap := by
  have starts : interleavings.start firstMap := ⟨some (addressedMap 1), .inl rfl⟩
  refine (System.Reaches.start starts).follow ?_
  exact ⟨rfl, trivial, rfl, trivial, rfl, trivial, rfl, trivial, rfl, trivial, rfl, trivial, rfl, trivial, rfl,
    trivial, rfl, trivial, rfl, trivial, rfl, trivial, rfl, trivial, trivial⟩

theorem attempts_agree_newMap : ∃ attempt, afterNewMap.attempt 0 = some attempt ∧ attempt.remapped = false ∧
    ∃ osdMap ∈ afterNewMap.published, 2 ≤ osdMap.epoch ∧
      ∃ updated, mapRouter attempt.place (some osdMap) = .ok updated ∧
        sameRelevantRoute attempt.route updated = true := by
  have waits : afterNewMap.watcher = .waiting 2 := rfl
  have isBegun : afterNewMap.calls 0 = .begun 1 := rfl
  have registered : afterNewMap.Registered 1 0 := rfl
  exact ⟨_, rfl, rfl, (attempts_agree newMap_reached waits isBegun registered rfl).1 rfl⟩

end RouteAttempts

end RadosGo
