import RadosGo.Crush.ChooseLeaf
import RadosGo.Crush.Fuel
import RadosGo.Wire.Crc

namespace RadosGo.Crush

/-- The rounds which suffice for the inner loops of a certified rule. -/
def enoughFuel : Nat := 52 * maxCertifiedDepth

namespace CrushMap

variable {m : CrushMap}

/-- What the certification of a rule guarantees about the map and the TAKE step. -/
structure Tuned (m : CrushMap) (root : Int) : Prop where
  root_mem : root ∈ m.buckets
  localTries : m.chooseLocalTries = 0
  fallbackTries : m.chooseLocalFallbackTries = 0
  totalTries : m.chooseTotalTries = 50
  descendOnce : m.chooseleafDescendOnce = 1
  varyR : m.chooseleafVaryR = 1
  stable : m.chooseleafStable = 1

theorem validateCertifiedRule_ok {rule : Rule} (certified : m.validateCertifiedRule rule = .ok ()) :
    ∃ index, m.takeIndex rule = .ok index ∧ m.Tuned (((rule.steps[index]?).map RuleStep.argument1).getD 0) := by
  obtain ⟨index, steps, rest⟩ := except_bind_ok certified
  refine ⟨index, steps, ?_⟩
  dsimp only at rest
  split at rest
  · cases rest
  · next present =>
    split at rest
    · cases rest
    · split at rest
      · cases rest
      · next tuned =>
        push Not at tuned present
        obtain ⟨h₁, h₂, h₃, h₄, h₅, h₆⟩ := tuned
        exact ⟨present, h₁, h₂, h₃, h₄, h₅, h₆⟩

/-- The choose step of a certified replicated rule. -/
def ReplicatedChoose (choose : RuleStep) : Prop :=
  choose = ⟨ruleChooseFirstN, 0, 0⟩ ∨
    (choose.operation = ruleChooseleafFirstN ∧ choose.argument1 = 0 ∧ 0 < choose.argument2)

theorem ReplicatedChoose.operation {choose : RuleStep} (replicated : ReplicatedChoose choose) :
    choose.operation = ruleChooseFirstN ∨ choose.operation = ruleChooseleafFirstN ∨
      choose.operation = ruleChooseIndep := by
  rcases replicated with rfl | ⟨op, -⟩
  · exact .inl rfl
  · exact .inr (.inl op)

theorem takeIndex_replicated {rule : Rule} {index : Nat} (type : rule.type = ruleTypeReplicated)
    (ok : m.takeIndex rule = .ok index) :
    ∃ take choose, rule.steps = [take, choose, ⟨ruleEmit, 0, 0⟩] ∧ index = 0 ∧ take.operation = ruleTake ∧
      ReplicatedChoose choose := by
  rw [takeIndex, if_pos type] at ok
  split at ok
  · next take choose emit steps =>
    split at ok
    · cases ok
    · next framed =>
      push Not at framed
      split at ok
      · next flat =>
        cases ok
        exact ⟨take, choose, by rw [steps, framed.2], rfl, framed.1, .inl flat⟩
      · split at ok
        · cases ok
        · next leafy =>
          cases ok
          push Not at leafy
          exact ⟨take, choose, by rw [steps, framed.2], rfl, framed.1, .inr ⟨leafy.1, leafy.2.1, leafy.2.2.1⟩⟩
  · cases ok

end CrushMap

namespace Placement

variable {executor : Placement} {fuel : Nat} {seed : UInt32} {size : Nat} {state : RuleState} {step : RuleStep}

theorem ruleStep_take (take : step.operation = ruleTake) (negative : step.argument1 < 0)
    (present : step.argument1 ∈ executor.crush.buckets) (room : 0 < state.working.length) :
    executor.ruleStep fuel seed size step state =
      pure { state with working := state.working.set 0 step.argument1, workingSize := 1 } := by
  have valid : executor.validTake step.argument1 = true := by
    rw [validTake, if_neg (by omega)]
    exact decide_eq_true present
  rw [ruleStep, take, if_neg (by decide), if_neg (by decide), if_pos rfl, if_pos valid, assigned_ok room]
  rfl

variable {root : Int}

/-- The step that chooses, from a working set with the root alone. -/
theorem ruleStep_choose {property : RuleState → Prop}
    (choose : step.operation = ruleChooseFirstN ∨ step.operation = ruleChooseleafFirstN ∨
      step.operation = ruleChooseIndep)
    (working : state.working.take state.workingSize = [root]) (one : state.workingSize = 1)
    (chooses : Gives (executor.chooseFrom fuel seed size step root 0 state) fun result => property
      { result.2 with
        working := if step.operation = ruleChooseleafFirstN
          then result.2.leaves.take result.1 ++ result.2.output.drop result.1 else result.2.output
        output := result.2.working
        workingSize := result.1 }) :
    Gives (executor.ruleStep fuel seed size step state) property := by
  have other : step.operation ≠ ruleSetChooseTries ∧ step.operation ≠ ruleSetChooseleafTries ∧
      step.operation ≠ ruleTake := by
    rcases choose with op | op | op <;> rw [op] <;> decide
  rw [ruleStep, if_neg other.1, if_neg other.2.1, if_neg other.2.2, if_pos choose, if_neg (by omega), working,
    chooseFromAll]
  obtain ⟨result, eq, holds⟩ := chooses
  rw [eq]
  exact ⟨_, rfl, holds⟩

theorem ruleStep_emit (emit : step.operation = ruleEmit) (state : RuleState) :
    executor.ruleStep fuel seed size step state = pure { state with
      result := state.result ++ state.working.take (min (size - state.result.length) state.workingSize)
      workingSize := 0 } := by
  rw [ruleStep, emit, if_neg (by decide), if_neg (by decide), if_neg (by decide), if_neg (by decide), if_pos rfl]

/-- What a certified replicated rule returns. -/
structure Replicas (executor : Placement) (seed : UInt32) (root : Int) (choose : RuleStep) (size : Nat)
    (result : List Int) : Prop where
  few : result.length ≤ size
  nodup : result.Nodup
  devices : ∀ item ∈ result, executor.Device seed root item
  apart : choose.operation = ruleChooseleafFirstN → ∃ domains : List Int, domains.Nodup ∧
    List.Forall₂ (fun domain device => executor.Domain choose.argument2 root domain ∧
      executor.crush.Under domain device)
      domains result

/-- The call of `chooseFirstN` for a certified replicated rule. -/
def replicatedCall (seed : UInt32) (size : Nat) (choose : RuleStep) : FirstN :=
  ⟨seed, size, choose.argument2, 51, 1, 0, 0, choose.operation == ruleChooseleafFirstN, 1, true, 0⟩

theorem chooseFrom_replicated (tuned : executor.crush.Tuned root) {choose : RuleStep}
    (replicated : CrushMap.ReplicatedChoose choose) (positive : 0 < size) {bucket : Bucket}
    (found : executor.crush.buckets.lookup root = some bucket) (tries : state.chooseTries = 51) :
    executor.chooseFrom fuel seed size choose root 0 state = (do
      let (chosen, output, leaves) ←
        executor.chooseFirstN fuel (replicatedCall seed size choose) bucket state.output 0 size state.leaves
      return (chosen, { state with output, leaves })) := by
  have zero : choose.argument1 = 0 := by
    rcases replicated with rfl | ⟨-, zero, -⟩
    · rfl
    · exact zero
  have notIndep : choose.operation ≠ ruleChooseIndep := by
    rcases replicated with rfl | ⟨op, -⟩
    · decide
    · rw [op]; decide
  rw [chooseFrom, zero, tuned.localTries, tuned.fallbackTries, tuned.descendOnce, tuned.varyR, tuned.stable,
    found, tries]
  simp only [le_refl, if_true, zero_add, notIndep, if_false]
  rw [if_neg (by omega)]
  simp [replicatedCall]

theorem Device.below {root domain item : Int} (device : executor.Device seed domain item)
    (under : executor.crush.Under root domain) : executor.Device seed root item :=
  ⟨device.nonneg, device.small, device.inside, under.trans device.under⟩

theorem Spread.device {call : FirstN} {root item : Int} {output leaves : List Int} {position : Nat}
    (spread : executor.Spread call root size output leaves position) (member : item ∈ leaves.take position) :
    executor.Device call.seed root item := by
  have below := spread.below
  generalize output.take position = domains, leaves.take position = devices at below member
  induction below with
  | nil => cases member
  | cons both _ ih =>
    rcases List.mem_cons.mp member with rfl | rest
    · exact both.2.below both.1.under
    · exact ih rest

theorem chooseFirstN_replicated (acceptable : executor.crush.Acceptable) {choose : RuleStep}
    (replicated : CrushMap.ReplicatedChoose choose) (enough : enoughFuel ≤ fuel) {bucket : Bucket}
    (found : executor.crush.buckets.lookup root = some bucket) {output leaves : List Int}
    (length : output.length = size) (length' : leaves.length = size) :
    Gives (executor.chooseFirstN fuel (replicatedCall seed size choose) bucket output 0 size leaves) fun result =>
      result.1 ≤ size ∧ executor.Replicas seed root choose size
        ((if choose.operation = ruleChooseleafFirstN then result.2.2.take result.1 ++ result.2.1.drop result.1
          else result.2.1).take result.1) := by
  obtain ⟨rank, low, lowers⟩ := exists_rank acceptable.bounded
  have under : executor.crush.BucketUnder root bucket :=
    ⟨acceptable.lookup found, (acceptable.identified _ _ found).2.1 ▸ .refl⟩
  have fuel51 : 51 * maxCertifiedDepth + maxCertifiedDepth ≤ fuel := Nat.le_trans (by decide) enough
  have fuel1 : 1 * maxCertifiedDepth + maxCertifiedDepth ≤ fuel := Nat.le_trans (by decide) enough
  subst length
  rcases replicated with rfl | ⟨op, -, typed⟩
  · refine (chooseFlat_gives acceptable low lowers
      (replicatedCall seed output.length ⟨ruleChooseFirstN, 0, 0⟩) rfl rfl
      rfl rfl fuel51 under (Nat.zero_add _) leaves).mono ?_
    rintro ⟨position, current, after⟩ ⟨filled, -, -⟩
    obtain ⟨added, entries, nodup, devices⟩ := filled.entries
    rw [List.take_zero, List.nil_append] at entries
    rw [if_neg (by decide)]
    refine ⟨filled.within, (List.length_take_le _ _).trans filled.within, ?_, ?_, fun leafy =>
      absurd leafy (by decide)⟩
    · exact entries ▸ nodup
    · exact entries ▸ fun item member => (devices item member).2
  · have leafy : (replicatedCall seed output.length choose).recurseToLeaf = true := by simp [replicatedCall, op]
    refine (chooseLeaves_gives acceptable low lowers rfl rfl rfl leafy typed.ne' fuel1 fuel51 under length').mono ?_
    rintro ⟨position, current, after⟩ spread
    have within := spread.within
    have taken : (after.take position ++ current.drop position).take position = after.take position :=
      List.take_left' (by rw [List.length_take, spread.leaves_length]; exact Nat.min_eq_left within)
    rw [if_pos op, taken]
    refine ⟨within, (List.length_take_le _ _).trans within, spread.nodup, fun _ => spread.device, fun _ => ?_⟩
    exact ⟨current.take position, spread.apart, spread.below.imp fun _ _ both => ⟨both.1, both.2.under⟩⟩

/-- After its take step a rule works on the root alone. -/
theorem working_root (root : Int) (positive : 0 < size) :
    ((List.replicate size (0 : Int)).set 0 root).take 1 = [root] := by
  obtain ⟨rest, rfl⟩ := Nat.exists_eq_succ_of_ne_zero positive.ne'
  rfl

/-- A certified replicated rule returns replicas. -/
theorem rule_replicated (executor : Placement) (seed : UInt32) (acceptable : executor.crush.Acceptable) {rule : Rule}
    (type : rule.type = ruleTypeReplicated)
    (certified : executor.crush.validateCertifiedRule rule = .ok ()) (positive : 0 < size)
    (enough : enoughFuel ≤ fuel) :
    ∃ take choose, rule.steps = [take, choose, ⟨ruleEmit, 0, 0⟩] ∧
      Gives (executor.rule fuel seed size rule) (executor.Replicas seed take.argument1 choose size) := by
  obtain ⟨index, steps, tuned⟩ := CrushMap.validateCertifiedRule_ok certified
  obtain ⟨take, choose, steps_eq, rfl, isTake, replicated⟩ := CrushMap.takeIndex_replicated type steps
  refine ⟨take, choose, steps_eq, ?_⟩
  replace tuned : executor.crush.Tuned take.argument1 := by simpa [steps_eq] using tuned
  obtain ⟨bucket, found⟩ := Finmap.mem_iff.mp tuned.root_mem
  have negative := (acceptable.identified _ _ found).1
  rw [Placement.rule, steps_eq, ruleSteps, ruleStep_take isTake negative tuned.root_mem (by simpa using positive),
    pure_bind, ruleSteps]
  have slots : (List.replicate size (0 : Int)).length = size := List.length_replicate
  have chosen : Gives (executor.ruleStep fuel seed size choose
      { working := (List.replicate size (0 : Int)).set 0 take.argument1, output := List.replicate size 0,
        leaves := List.replicate size 0, workingSize := 1, chooseTries := executor.crush.chooseTotalTries + 1 })
      fun state => state.result = [] ∧ state.workingSize ≤ size ∧
        executor.Replicas seed take.argument1 choose size (state.working.take state.workingSize) := by
    refine ruleStep_choose replicated.operation (working_root _ positive) rfl ?_
    rw [chooseFrom_replicated tuned replicated positive found (by rw [tuned.totalTries])]
    refine (chooseFirstN_replicated acceptable replicated enough found slots slots).bind ?_
    rintro ⟨position, output, leaves⟩ ⟨within, replicas⟩
    exact gives_pure ⟨rfl, within, replicas⟩
  refine (chosen.bind ?_).bind fun state replicas => gives_pure replicas
  rintro state ⟨none, within, replicas⟩
  rw [ruleSteps, ruleStep_emit rfl, pure_bind, ruleSteps, none, List.length_nil, Nat.sub_zero,
    Nat.min_eq_right within]
  exact gives_pure replicas

end Placement

namespace CrushMap

variable {m : CrushMap} {first second : GoMap Int Bucket → List Int} {limits : DecodeLimits} {data : Bytes}

/-- The orders of the loops over the buckets do not matter for what is decoded. -/
theorem decodeMap_iff
    (firstOrder : m.buckets.IsOrder (first m.buckets)) (secondOrder : m.buckets.IsOrder (second m.buckets)) :
    decodeMap first second data limits = .ok m ↔
      (limits.maxBytes ≠ 0 ∧ limits.maxBuckets ≠ 0 ∧ limits.maxRules ≠ 0 ∧ limits.maxItems ≠ 0 ∧
        limits.maxNames ≠ 0) ∧
        ((decodePayload limits).eval (newDecoder data limits.maxBytes)).1 = .ok m ∧ m.Acceptable := by
  rw [decodeMap]
  constructor
  · intro decoded
    split at decoded
    · cases decoded
    · next positive =>
      obtain ⟨result, read, decoded⟩ := except_bind_ok decoded
      obtain ⟨⟨⟩, valid, returned⟩ := except_bind_ok decoded
      cases returned
      exact ⟨by tauto, read, (validateGraph_iff firstOrder secondOrder).mp valid⟩
  · rintro ⟨positive, read, acceptable⟩
    rw [if_neg (by tauto), except_bind_eq read,
      except_bind_eq ((validateGraph_iff firstOrder secondOrder).mpr acceptable)]
    rfl

theorem decodeMap_acceptable
    (decoded : decodeMap first second data limits = .ok m) (firstOrder : m.buckets.IsOrder (first m.buckets))
    (secondOrder : m.buckets.IsOrder (second m.buckets)) : m.Acceptable :=
  ((decodeMap_iff firstOrder secondOrder).mp decoded).2.2

/-- `Place` runs a certified rule of an acceptable map. -/
theorem place_certified (acceptable : m.Acceptable) {first second : List Int} (firstOrder : m.buckets.IsOrder first)
    (secondOrder : m.buckets.IsOrder second) {ruleID : Nat} {rule : Rule} (found : m.rules.lookup ruleID = some rule)
    (type : rule.type = ruleTypeReplicated ∨ rule.type = ruleTypeErasure)
    (certified : m.validateCertifiedRule rule = .ok ())
    {replicas : Nat} (positive : 0 < replicas) (few : replicas ≤ maxCertifiedReplicas) (fuel : Nat) (seed : UInt32)
    (weights : List Nat) :
    m.place first second fuel ruleID seed replicas weights = m.placeRule fuel rule seed replicas weights := by
  have certifies : m.certify first second ruleID replicas = .ok rule := by
    rw [certify, if_neg (by omega), found]
    dsimp only
    rw [if_neg (by tauto), except_bind_eq certified, (validateGraph_iff firstOrder secondOrder).mpr acceptable]
    rfl
  rw [place, certifies]
  rfl

theorem placeRule_gives {property : List Int → Prop} {rule : Rule} {seed : UInt32} {replicas : Nat}
    {weights : List Nat}
    {enough : Nat} (gives : Gives (Placement.rule ⟨m, weights⟩ enough seed replicas rule) property) :
    ∃ result, property result ∧ ∀ fuel ≥ enough, m.placeRule fuel rule seed replicas weights = some (.ok result) := by
  obtain ⟨result, run, holds⟩ := gives
  have ended : m.placeRule enough rule seed replicas weights = some (.ok result) := by
    change (Prod.fst <$> Placement.rule ⟨m, weights⟩ enough seed replicas rule fun _ => none).run = _
    rw [run]
    rfl
  refine ⟨result, holds, fun fuel more => ?_⟩
  rcases placeRule_agrees more rule seed replicas weights with out | same
  · rw [ended] at out
    cases out
  · rw [← same, ended]

/-- A certified replicated rule of a decoded map always ends, and places distinct devices. -/
theorem place_replicated
    (decoded : decodeMap first second data limits = .ok m) (firstOrder : m.buckets.IsOrder (first m.buckets))
    (secondOrder : m.buckets.IsOrder (second m.buckets)) (ruleID : Nat) {rule : Rule}
    (found : m.rules.lookup ruleID = some rule) (type : rule.type = ruleTypeReplicated)
    (certified : m.validateCertifiedRule rule = .ok ()) {first' second' : List Int}
    (firstOrder' : m.buckets.IsOrder first')
    (secondOrder' : m.buckets.IsOrder second') (seed : UInt32) (replicas : Nat) (positive : 1 ≤ replicas)
    (few : replicas ≤ 64) (weights : List Nat) :
    ∃ take choose result, rule.steps = [take, choose, ⟨ruleEmit, 0, 0⟩] ∧
      (∀ fuel ≥ enoughFuel, m.place first' second' fuel ruleID seed replicas weights = some (.ok result)) ∧
      result.length ≤ replicas ∧ result.Nodup ∧
      (∀ item ∈ result, 0 ≤ item ∧ item < m.maxDevices ∧ (Placement.mk m weights).isOut item seed = false ∧
        (∃ weight, weights[item.toNat]? = some weight ∧ weight ≠ 0) ∧ m.Under take.argument1 item) ∧
      (choose.operation = ruleChooseleafFirstN → ∃ domains : List Int, domains.Nodup ∧
        List.Forall₂ (fun domain device =>
          (∃ bucket, m.buckets.lookup domain = some bucket ∧ (bucket.type : Int) = choose.argument2) ∧
            m.Under take.argument1 domain ∧ m.Under domain device) domains result) := by
  have acceptable := decodeMap_acceptable decoded firstOrder secondOrder
  obtain ⟨take, choose, steps, gives⟩ :=
    Placement.rule_replicated ⟨m, weights⟩ seed acceptable type certified positive
    (Nat.le_refl _)
  obtain ⟨result, replicas_of, run⟩ := placeRule_gives gives
  refine ⟨take, choose, result, steps, fun fuel more => ?_, replicas_of.few, replicas_of.nodup,
    fun item member => ?_, ?_⟩
  · rw [place_certified acceptable firstOrder' secondOrder' found (.inl type) certified positive few]
    exact run fuel more
  · have device := replicas_of.devices item member
    exact ⟨device.nonneg, device.small, device.inside, device.weight, device.under⟩
  · intro leafy
    obtain ⟨domains, apart, below⟩ := replicas_of.apart leafy
    exact ⟨domains, apart, below.imp fun _ _ both => ⟨both.1.bucket, both.1.under, both.2⟩⟩

/-- A payload: two hosts with a device each below a root, a replicated rule and an erasure rule. -/
def twoHosts : Bytes :=
  words [0x10000, 3, 2, 2, 5, 0xffffffff, 0x50002, 0x20000, 2, 0xfffffffe, 0xfffffffd, 0x10000, 0x10000, 5,
    0xfffffffe, 0x50001, 0x10000, 1, 0, 0x10000, 5, 0xfffffffd, 0x50001, 0x10000, 1, 1, 0x10000, 1, 3, 0xa010100, 1,
    0xffffffff, 0, 6, 0, 1, 4, 0, 0, 1, 5, 0xa010301, 9, 5, 0, 8, 100, 0, 1, 0xffffffff, 0, 3, 0, 0, 4, 0, 0, 0, 0, 0,
    0, 0, 50, 1] ++
  [1, 1, 54, 0, 0, 0, 1]

def twoHostsMap : CrushMap where
  maxDevices := 2
  buckets := Finmap.insert (-3) ⟨-3, 1, 0x10000, [1], [0x10000]⟩ (Finmap.insert (-2) ⟨-2, 1, 0x10000, [0], [0x10000]⟩
    (Finmap.singleton (-1) ⟨-1, 2, 0x20000, [-2, -3], [0x10000, 0x10000]⟩))
  rules := Finmap.insert 1 ⟨3, 1, 10, [⟨9, 5, 0⟩, ⟨8, 100, 0⟩, ⟨1, -1, 0⟩, ⟨3, 0, 0⟩, ⟨4, 0, 0⟩]⟩
    (Finmap.singleton 0 ⟨1, 1, 10, [⟨1, -1, 0⟩, ⟨6, 0, 1⟩, ⟨4, 0, 0⟩]⟩)
  chooseLocalTries := 0
  chooseLocalFallbackTries := 0
  chooseTotalTries := 50
  chooseleafDescendOnce := 1
  chooseleafVaryR := 1
  strawCalcVersion := 1
  allowedBucketAlgorithms := 54
  chooseleafStable := 1

theorem twoHosts_decoded :
    decodeMap (fun _ => [-1, -2, -3]) (fun _ => [-3, -2, -1]) twoHosts ⟨1000, 10, 10, 10, 10⟩ = .ok twoHostsMap := by
  decide +kernel

theorem twoHosts_order : twoHostsMap.buckets.IsOrder [-1, -2, -3] ∧ twoHostsMap.buckets.IsOrder [-3, -2, -1] := by
  constructor
  · exact ⟨by decide, by simp [twoHostsMap]; omega⟩
  · exact ⟨by decide, by simp [twoHostsMap]⟩

theorem place_replicated_twoHosts : ∃ result,
    (∀ fuel ≥ enoughFuel,
      twoHostsMap.place [-1, -2, -3] [-1, -2, -3] fuel 0 7 (2 : Nat) [0x10000, 0x10000] = some (.ok result)) ∧
      result.length ≤ 2 ∧ result.Nodup ∧ ∀ item ∈ result, 0 ≤ item ∧ item < 2 := by
  obtain ⟨take, choose, result, -, run, few, nodup, devices, -⟩ := place_replicated twoHosts_decoded twoHosts_order.1
    twoHosts_order.2 0 rfl rfl (by decide +kernel) twoHosts_order.1 twoHosts_order.1 7 2 (by decide) (by decide)
    [0x10000, 0x10000]
  exact ⟨result, run, few, nodup, fun item member => ⟨(devices item member).1, (devices item member).2.1⟩⟩

end CrushMap

end RadosGo.Crush
