import RadosGo.Crush.Replicated

namespace RadosGo.Crush

open List

namespace Placement

variable {executor : Placement} {call : Indep} {leaf : IndepLeafChooser}

/-- Slots which are empty or hold devices, each device once. -/
structure Slots (executor : Placement) (seed : UInt32) (root : Int) (size : Nat) (slots : List Int) : Prop where
  length_eq : slots.length = size
  devices : ∀ item ∈ slots, item = itemNone ∨ executor.Device seed root item
  once : ∀ (i j : Nat) (item : Int), slots[i]? = some item → slots[j]? = some item → item ≠ itemNone → i = j

variable {seed : UInt32} {root item tries : Int} {size fuel : Nat} {slots output : List Int} {current bucket : Bucket}
  {state : IndepState}

theorem Slots.place (filled : executor.Slots seed root size slots) (fresh : item ∉ slots)
    (device : executor.Device seed root item) (position : Nat) :
    executor.Slots seed root size (slots.set position item) := by
  refine ⟨by rw [length_set, filled.length_eq], fun other member => ?_, fun i j other first second some => ?_⟩
  · rcases mem_or_eq_of_mem_set member with old | rfl
    · exact filled.devices other old
    · exact .inr device
  · rw [getElem?_set] at first second
    split at first <;> split at second
    · omega
    · split at first
      · cases first
        exact absurd (mem_of_getElem? second) fresh
      · cases first
    · split at second
      · cases second
        exact absurd (mem_of_getElem? first) fresh
      · cases second
    · exact filled.once i j other first second some

/-- The end of a descent: a new device, or nothing. -/
def Found (executor : Placement) (seed : UInt32) (root : Int) (output : List Int) : Slot → Prop
  | .placed item _ => item ∉ output ∧ executor.Device seed root item
  | _ => True

theorem settleIndep_flat (leaf : IndepLeafChooser) (flat : call.recurseToLeaf = false)
    (under : executor.crush.BucketUnder root current)
    (whole : (output.take call.end_).drop call.outputPosition = output) (leaves : Option (List Int))
    (position r : Nat)
    (member : item ∈ current.items) (small : item < executor.crush.maxDevices) (child : Option Bucket) :
    Gives (executor.settleIndep leaf call output leaves position r item 0 child)
      (executor.Found call.seed root output) := by
  rw [settleIndep, whole]
  split
  · exact gives_pure trivial
  · next fresh =>
    have noLeaf : Gives (indepLeaf leaf call leaves position r item child) ((true, leaves) = ·) := by
      rw [indepLeaf, flat]
      exact gives_pure rfl
    refine noLeaf.bind ?_
    rintro _ rfl
    dsimp only
    split
    · exact gives_pure trivial
    · next accepted =>
      have inside : executor.isOut item call.seed = false := by simpa using accepted
      exact gives_pure ⟨fresh, nonneg_of_inside inside, small, inside, under.item member⟩

variable (acceptable : executor.crush.Acceptable) {rank : Int → Nat}
  (lowers : ∀ id child, executor.crush.Contains id child → rank child < rank id)

include acceptable lowers

/-- A descent has at most as many rounds as the rank of its bucket. -/
theorem descend_gives (flat : call.recurseToLeaf = false) (devices : call.targetType = 0)
    (whole : (output.take call.end_).drop call.outputPosition = output) (leaves : Option (List Int))
    (position r : Nat) (under : executor.crush.BucketUnder root current) (enough : rank current.id < fuel) :
    Gives (executor.descend leaf call output leaves position r fuel current)
      (executor.Found call.seed root output) := by
  induction fuel generalizing current with
  | zero => omega
  | succ fuel ih =>
    rw [descend]
    by_cases empty : current.items.length = 0
    · rw [if_pos empty]
      exact gives_pure trivial
    · obtain ⟨item, ok, member⟩ := straw2Choose_ok current call.seed r empty
        (acceptable.identified _ _ under.found).2.2
      rw [if_neg empty]
      refine (gives_lift ok (rfl : item = item)).bind ?_
      rintro _ rfl
      split
      · exact gives_pure trivial
      · next small =>
        have settled := settleIndep_flat leaf flat under whole leaves position r member (by omega)
        split
        · rw [if_neg (not_not.mpr devices)]
          exact settled none
        · split
          · exact gives_pure trivial
          · next negative child found =>
            have own := (acceptable.identified _ _ found).2.1
            have contains : executor.crush.Contains current.id child.id := by
              rw [own]
              exact under.contains member (by omega)
            have lower := lowers _ _ contains
            split
            · exact ih ⟨acceptable.lookup found, own ▸ under.item member⟩ (by omega)
            · next target =>
              rw [not_not.mp target, devices]
              exact settled (some child)

theorem fillPosition_gives (flat : call.recurseToLeaf = false) (devices : call.targetType = 0)
    (start : call.outputPosition = 0) (finish : call.end_ = size) (under : executor.crush.BucketUnder root bucket)
    (enough : rank bucket.id < fuel) (failure : Nat) {position : Nat} (within : position < size)
    (slots : executor.Slots call.seed root size state.output) :
    Gives (executor.fillPosition leaf call fuel bucket failure position state)
      fun after => executor.Slots call.seed root size after.output := by
  have within' : position < state.output.length := slots.length_eq.symm ▸ within
  obtain ⟨slot, read, -⟩ := indexed_ok within'
  rw [fillPosition]
  refine (gives_lift read (rfl : slot = slot)).bind ?_
  rintro _ rfl
  split
  · exact gives_pure slots
  · have whole : (state.output.take call.end_).drop call.outputPosition = state.output := by
      rw [start, finish, ← slots.length_eq, take_length, drop_zero]
    refine (descend_gives acceptable lowers flat devices whole _ _ _ under enough).bind ?_
    rintro slot found
    match slot, found with
    | .hole leaves, _ => exact gives_pure slots
    | .dead, _ => exact gives_pure slots
    | .placed item leaves, ⟨fresh, device⟩ =>
      refine (gives_lift (assigned_ok within') rfl).bind ?_
      rintro _ rfl
      exact gives_pure (slots.place fresh device position)

theorem fillRounds_gives (flat : call.recurseToLeaf = false) (devices : call.targetType = 0)
    (start : call.outputPosition = 0) (finish : call.end_ = size) (under : executor.crush.BucketUnder root bucket)
    (enough : rank bucket.id < fuel) (rounds failure : Nat)
    (slots : executor.Slots call.seed root size state.output) :
    Gives (executor.fillRounds leaf call fuel bucket rounds failure state)
      fun after => executor.Slots call.seed root size after.output := by
  have filled : ∀ positions state, (∀ position ∈ positions, position < size) →
    executor.Slots call.seed root size state.output →
      ∀ failure, Gives (executor.fillPositions leaf call fuel bucket failure positions state)
        fun after => executor.Slots call.seed root size after.output := by
    intro positions
    induction positions with
    | nil => exact fun state _ slots _ => gives_pure slots
    | cons position positions ih =>
      intro state within slots failure
      refine (fillPosition_gives acceptable lowers flat devices start finish under enough failure
        (within position mem_cons_self) slots).bind fun after slots => ?_
      exact ih after (fun other member => within other (mem_cons_of_mem _ member)) slots failure
  induction rounds generalizing failure state with
  | zero => exact gives_pure slots
  | succ rounds ih =>
    rw [fillRounds]
    split
    · exact gives_pure slots
    · refine (filled _ state (fun position member => ?_) slots failure).bind fun after slots => ih (failure + 1) slots
      rw [finish] at member
      exact mem_range.mp (mem_of_mem_drop member)

omit acceptable lowers in
theorem emptySlots_ok (values : List Int) (positions : List Nat)
    (within : ∀ position ∈ positions, position < values.length) :
    ∃ emptied, emptySlots values positions = .ok emptied ∧ emptied.length = values.length ∧
      ∀ position item, emptied[position]? = some item →
        item = itemNone ∨ (position ∉ positions ∧ values[position]? = some item) := by
  induction positions generalizing values with
  | nil => exact ⟨values, rfl, rfl, fun _ _ read => .inr ⟨not_mem_nil, read⟩⟩
  | cons first positions ih =>
    obtain ⟨emptied, clears, length, entries⟩ := ih (values.set first itemNone) fun position member => by
      rw [length_set]
      exact within position (mem_cons_of_mem _ member)
    refine ⟨emptied, ?_, by rw [length, length_set], fun position item read => ?_⟩
    · rw [emptySlots, except_bind_eq (assigned_ok (within first mem_cons_self))]
      exact clears
    · rcases entries position item read with none | ⟨other, kept⟩
      · exact .inl none
      · rw [getElem?_set] at kept
        split at kept
        · split at kept
          · exact .inl (Option.some.inj kept).symm
          · cases kept
        · next different => exact .inr ⟨by simp [Ne.symm different, other], kept⟩

omit acceptable lowers in
theorem slots_empty (length : slots.length = size) (empty : ∀ item ∈ slots, item = itemNone) :
    executor.Slots seed root size slots :=
  ⟨length, fun item member => .inl (empty item member),
    fun _ _ item read _ some => absurd (empty item (mem_of_getElem? read)) some⟩

/-- Devices are chosen for all slots, none of them twice. -/
theorem chooseIndep_gives (call : Indep) (flat : call.recurseToLeaf = false) (devices : call.targetType = 0)
    {leaves : List Int} (start : call.outputPosition = 0) (finish : call.end_ = output.length)
    (same : leaves.length = output.length) (under : executor.crush.BucketUnder root bucket)
    (enough : rank bucket.id < fuel) : Gives (executor.chooseIndep fuel call bucket output (some leaves))
      fun after => executor.Slots call.seed root output.length after.output := by
  have positions : (range call.end_).drop call.outputPosition = range output.length := by
    rw [start, finish, drop_zero]
  obtain ⟨emptied, clears, length, entries⟩ := emptySlots_ok output (range output.length)
    fun position => mem_range.mp
  obtain ⟨emptied', clears', -⟩ := emptySlots_ok leaves (range output.length)
    fun position member => same ▸ mem_range.mp member
  have clearsLeaves : emptyLeaves (some leaves) (range output.length) = .ok (some emptied') := by
    rw [emptyLeaves, except_bind_eq clears']
    rfl
  have empty : ∀ item ∈ emptied, item = itemNone := by
    intro item member
    obtain ⟨position, read⟩ := mem_iff_getElem?.mp member
    rcases entries position item read with none | ⟨outside, kept⟩
    · exact none
    · obtain ⟨within, -⟩ := List.getElem?_eq_some_iff.mp kept
      exact absurd (mem_range.mpr within) outside
  rw [chooseIndep, chooseIndepWith, positions]
  refine (gives_lift clears (rfl : emptied = emptied)).bind ?_
  rintro _ rfl
  refine (gives_lift clearsLeaves rfl).bind ?_
  rintro _ rfl
  exact fillRounds_gives acceptable lowers flat devices start finish under enough _ _ (slots_empty length empty)

omit acceptable lowers in
theorem ruleStep_tries (positive : 0 < tries) (state : RuleState) :
    executor.ruleStep fuel seed size ⟨ruleSetChooseTries, tries, 0⟩ state =
      pure { state with chooseTries := tries.toNat } := by
  rw [ruleStep, if_pos rfl, if_pos positive]

omit acceptable lowers in
theorem ruleStep_leafTries (positive : 0 < tries) (state : RuleState) :
    executor.ruleStep fuel seed size ⟨ruleSetChooseleafTries, tries, 0⟩ state =
      pure { state with chooseleafTries := tries.toNat } := by
  rw [ruleStep, if_neg (show ruleSetChooseleafTries ≠ ruleSetChooseTries by decide), if_pos rfl, if_pos positive]

end Placement

namespace CrushMap

variable {m : CrushMap}

theorem takeIndex_erasure {rule : Rule} {index : Nat} (type : rule.type = ruleTypeErasure)
    (ok : m.takeIndex rule = .ok index) :
    ∃ take emit, rule.steps = [⟨ruleSetChooseleafTries, 5, 0⟩, ⟨ruleSetChooseTries, 100, 0⟩, take,
      ⟨ruleChooseIndep, 0, 0⟩, emit] ∧
      index = 2 ∧ take.operation = ruleTake ∧ emit.operation = ruleEmit := by
  rw [takeIndex, if_neg (by rw [type]; decide)] at ok
  split at ok
  · next leafTries tries take choose emit steps =>
    split at ok
    · cases ok
    · next framed =>
      push Not at framed
      obtain ⟨rfl, rfl, isTake, rfl, isEmit⟩ := framed
      cases ok
      exact ⟨take, emit, steps, rfl, isTake, isEmit⟩
  · cases ok

end CrushMap

namespace Placement

variable {fuel size : Nat}

/-- A certified erasure rule fills its slots. -/
theorem rule_erasure (executor : Placement) (seed : UInt32) (acceptable : executor.crush.Acceptable) {rule : Rule}
    (type : rule.type = ruleTypeErasure) (certified : executor.crush.validateCertifiedRule rule = .ok ())
    (positive : 0 < size) (enough : maxCertifiedDepth ≤ fuel) :
    ∃ take, rule.steps[2]? = some take ∧ take.operation = ruleTake ∧
      Gives (executor.rule fuel seed size rule) (executor.Slots seed take.argument1 size) := by
  obtain ⟨index, steps, tuned⟩ := CrushMap.validateCertifiedRule_ok certified
  obtain ⟨take, emit, steps_eq, rfl, isTake, isEmit⟩ := CrushMap.takeIndex_erasure type steps
  refine ⟨take, by rw [steps_eq]; rfl, isTake, ?_⟩
  replace tuned : executor.crush.Tuned take.argument1 := by simpa [steps_eq] using tuned
  obtain ⟨bucket, found⟩ := Finmap.mem_iff.mp tuned.root_mem
  obtain ⟨rank, low, lowers⟩ := exists_rank acceptable.bounded
  have negative := (acceptable.identified _ _ found).1
  have under : executor.crush.BucketUnder take.argument1 bucket :=
    ⟨acceptable.lookup found, (acceptable.identified _ _ found).2.1 ▸ .refl⟩
  have slots : (replicate size (0 : Int)).length = size := length_replicate
  rw [Placement.rule, steps_eq, ruleSteps, ruleStep_leafTries (by decide), pure_bind, ruleSteps,
    ruleStep_tries (by decide), pure_bind, ruleSteps,
    ruleStep_take isTake negative tuned.root_mem (by simpa using positive), pure_bind, ruleSteps]
  have chosen : Gives (executor.ruleStep fuel seed size ⟨ruleChooseIndep, 0, 0⟩
      { working := (replicate size (0 : Int)).set 0 take.argument1, output := replicate size 0,
        leaves := replicate size 0, workingSize := 1, chooseTries := 100, chooseleafTries := 5 })
      fun state => state.result = [] ∧ state.workingSize = size ∧
        executor.Slots seed take.argument1 size state.working := by
    refine ruleStep_choose (.inr (.inr rfl)) (working_root _ positive) rfl ?_
    rw [chooseFrom, found]
    simp only [le_refl, if_true, zero_add, Nat.sub_zero, Int.toNat_natCast, Nat.min_self]
    rw [if_neg (by omega)]
    refine (chooseIndep_gives acceptable lowers
      ⟨seed, size, 0, 0, size, 100, 5, false, 0⟩ rfl rfl rfl slots.symm rfl under
      ((low bucket.id).trans_le enough)).bind fun after filled => ?_
    exact gives_pure ⟨rfl, rfl, slots ▸ filled⟩
  refine (chosen.bind ?_).bind fun state slots => gives_pure slots
  rintro state ⟨none, all, slots⟩
  rw [ruleSteps, ruleStep_emit isEmit, pure_bind, ruleSteps, none, all, length_nil, Nat.sub_zero, Nat.min_self,
    ← slots.length_eq, take_length, slots.length_eq]
  exact gives_pure slots

end Placement

namespace CrushMap

variable {m : CrushMap}

/-- A certified erasure rule of a decoded map always ends, and fills its slots with distinct devices. -/
theorem place_erasure {first second : GoMap Int Bucket → List Int} {data : Bytes} {limits : DecodeLimits}
    (decoded : decodeMap first second data limits = .ok m) (firstOrder : m.buckets.IsOrder (first m.buckets))
    (secondOrder : m.buckets.IsOrder (second m.buckets)) (ruleID : Nat) {rule : Rule}
    (found : m.rules.lookup ruleID = some rule) (type : rule.type = ruleTypeErasure)
    (certified : m.validateCertifiedRule rule = .ok ()) {first' second' : List Int}
    (firstOrder' : m.buckets.IsOrder first')
    (secondOrder' : m.buckets.IsOrder second') (seed : UInt32) (replicas : Nat) (positive : 1 ≤ replicas)
    (few : replicas ≤ 64) (weights : List Nat) :
    ∃ take slots, rule.steps[2]? = some take ∧ take.operation = ruleTake ∧
      (∀ fuel ≥ maxCertifiedDepth, m.place first' second' fuel ruleID seed replicas weights = some (.ok slots)) ∧
      slots.length = replicas ∧
      (∀ item ∈ slots, item = itemNone ∨
        (0 ≤ item ∧ item < m.maxDevices ∧ (Placement.mk m weights).isOut item seed = false ∧
        (∃ weight, weights[item.toNat]? = some weight ∧ weight ≠ 0) ∧ m.Under take.argument1 item)) ∧
      ∀ (i j : Nat) (item : Int), slots[i]? = some item → slots[j]? = some item → item ≠ itemNone → i = j := by
  have acceptable := decodeMap_acceptable decoded firstOrder secondOrder
  obtain ⟨take, step, isTake, gives⟩ := Placement.rule_erasure ⟨m, weights⟩ seed acceptable type certified positive
    (Nat.le_refl _)
  obtain ⟨slots, filled, run⟩ := placeRule_gives gives
  refine ⟨take, slots, step, isTake, fun fuel more => ?_, filled.length_eq, fun item member => ?_, filled.once⟩
  · rw [place_certified acceptable firstOrder' secondOrder' found (.inr type) certified positive few]
    exact run fuel more
  · refine (filled.devices item member).imp_right fun device => ?_
    exact ⟨device.nonneg, device.small, device.inside, device.weight, device.under⟩

theorem place_erasure_twoHosts : ∃ slots,
    (∀ fuel ≥ maxCertifiedDepth,
      twoHostsMap.place [-1, -2, -3] [-1, -2, -3] fuel 1 7 (3 : Nat) [0x10000, 0x10000] = some (.ok slots)) ∧
      slots.length = 3 ∧ ∀ item ∈ slots, item = itemNone ∨ (0 ≤ item ∧ item < 2) := by
  obtain ⟨take, slots, -, -, run, length, devices, -⟩ := place_erasure twoHosts_decoded twoHosts_order.1
    twoHosts_order.2 1 rfl rfl (by decide +kernel) twoHosts_order.1 twoHosts_order.1 7 3 (by decide) (by decide)
    [0x10000, 0x10000]
  exact ⟨slots, run, length, fun item member => (devices item member).imp_right fun device => ⟨device.1, device.2.1⟩⟩

end CrushMap

end RadosGo.Crush
