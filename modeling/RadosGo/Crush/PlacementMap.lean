import RadosGo.Crush.Erasure
import RadosGo.Library.Distinct

namespace RadosGo.Crush

/-- A decoded map whose rules have been certified. -/
structure PlacementMap where
  crushMap : CrushMap
  ruleErrors : Nat → Option GoError

/-- The error that is kept for a rule. -/
def CrushMap.ruleError (crushMap : CrushMap) (ruleID : Nat) : Option GoError :=
  match crushMap.rules.lookup ruleID with
  | none => none
  | some rule =>
    if rule.type ≠ ruleTypeReplicated ∧ rule.type ≠ ruleTypeErasure then
      some (GoError.errorf Sentinel.placement s!"rule {ruleID} type {rule.type}")
    else
      match crushMap.validateCertifiedRule rule with
      | .error err => some err
      | .ok () => none

def decodePlacementMap (first second : GoMap Int Bucket → List Int) (data : Bytes) (limits : DecodeLimits) :
    Except GoError PlacementMap := do
  let decoded ← decodeMap first second data limits
  return ⟨decoded, decoded.ruleError⟩

def PlacementMap.place (placementMap : PlacementMap) (fuel ruleID : Nat) (seed : UInt32) (replicas : Int)
    (osdWeights : List Nat) : Option (Except Fault (List Int)) :=
  if replicas ≤ 0 ∨ replicas > maxCertifiedReplicas then some (.error (.err Sentinel.placement))
  else
    match placementMap.crushMap.rules.lookup ruleID with
    | none => some (.error (.err (GoError.errorf Sentinel.placement s!"rule {ruleID} does not exist")))
    | some rule =>
      match placementMap.ruleErrors ruleID with
      | some err => some (.error (.err err))
      | none => placementMap.crushMap.placeRule fuel rule seed replicas.toNat osdWeights

namespace Placement

theorem Slots.distinct {executor : Placement} {seed : UInt32} {root : Int} {size : Nat} {slots : List Int}
    (filled : executor.Slots seed root size slots) : Distinct itemNone slots := by
  refine List.pairwise_iff_getElem.mpr fun i j first second less full same => ?_
  have equal := filled.once i j _ (List.getElem?_eq_getElem first) (same ▸ List.getElem?_eq_getElem second) full
  omega

end Placement

namespace CrushMap

variable {m : CrushMap}

variable {rule : Rule} {replicas : Nat}

theorem ruleError_none {ruleID : Nat} (found : m.rules.lookup ruleID = some rule)
    (certified : m.ruleError ruleID = none) :
    (rule.type = ruleTypeReplicated ∨ rule.type = ruleTypeErasure) ∧ m.validateCertifiedRule rule = .ok () := by
  rw [ruleError, found] at certified
  dsimp only at certified
  split at certified
  · cases certified
  · next type =>
    refine ⟨by tauto, ?_⟩
    cases valid : m.validateCertifiedRule rule with
    | error err => simp [valid] at certified
    | ok => rfl

/-- A certified rule ends, with a result that has no device twice. -/
theorem placeRule_ends (acceptable : m.Acceptable)
    (type : rule.type = ruleTypeReplicated ∨ rule.type = ruleTypeErasure)
    (certified : m.validateCertifiedRule rule = .ok ()) (seed : UInt32) (positive : 0 < replicas)
    (weights : List Nat) :
    ∃ raw, Distinct itemNone raw ∧
      ∀ fuel ≥ enoughFuel, m.placeRule fuel rule seed replicas weights = some (.ok raw) := by
  have gives : Gives (Placement.rule ⟨m, weights⟩ enoughFuel seed replicas rule) (Distinct itemNone) := by
    rcases type with type | type
    · obtain ⟨take, choose, -, gives⟩ :=
        Placement.rule_replicated ⟨m, weights⟩ seed acceptable type certified positive
        (Nat.le_refl _)
      exact gives.mono fun _ replicas => Distinct.of_nodup replicas.nodup
    · obtain ⟨take, -, -, gives⟩ := Placement.rule_erasure ⟨m, weights⟩ seed acceptable type certified positive
        (show maxCertifiedDepth ≤ enoughFuel by decide)
      exact gives.mono fun _ slots => slots.distinct
  exact placeRule_gives gives

theorem placeRule_distinct (acceptable : m.Acceptable)
    (type : rule.type = ruleTypeReplicated ∨ rule.type = ruleTypeErasure)
    (certified : m.validateCertifiedRule rule = .ok ()) (seed : UInt32) (positive : 0 < replicas) (weights : List Nat)
    {fuel : Nat} {result : Except Fault (List Int)}
    (run : m.placeRule fuel rule seed replicas weights = some result) :
    ∃ raw, result = .ok raw ∧ Distinct itemNone raw := by
  obtain ⟨raw, distinct, enough⟩ := placeRule_ends acceptable type certified seed positive weights
  rcases placeRule_agrees (Nat.le_max_left fuel enoughFuel) rule seed replicas weights with out | same
  · rw [out] at run
    cases run
  · rw [same, enough _ (Nat.le_max_right ..)] at run
    exact ⟨raw, (Option.some.inj run).symm, distinct⟩

end CrushMap

variable {first second : GoMap Int Bucket → List Int} {data : Bytes} {limits : DecodeLimits}
    {placementMap : PlacementMap}

/-- What a placement map returns has no device twice, and is never a panic. -/
theorem PlacementMap.place_distinct (decoded : decodePlacementMap first second data limits = .ok placementMap)
    (firstOrder : ∀ buckets : GoMap Int Bucket, buckets.IsOrder (first buckets))
    (secondOrder : ∀ buckets : GoMap Int Bucket, buckets.IsOrder (second buckets)) {fuel ruleID : Nat} {seed : UInt32}
    {replicas : Int} {weights : List Nat} {result : Except Fault (List Int)}
    (run : placementMap.place fuel ruleID seed replicas weights = some result) :
    (∃ raw, result = .ok raw ∧ Distinct itemNone raw) ∨ ∃ err, result = .error (.err err) := by
  obtain ⟨crushMap, read, returned⟩ := except_bind_ok decoded
  cases returned
  have acceptable := CrushMap.decodeMap_acceptable read (firstOrder _) (secondOrder _)
  rw [place] at run
  split at run
  · exact .inr ⟨_, (Option.some.inj run).symm⟩
  · next few =>
    dsimp only at run
    split at run
    · exact .inr ⟨_, (Option.some.inj run).symm⟩
    · next rule found =>
      split at run
      · exact .inr ⟨_, (Option.some.inj run).symm⟩
      · next none =>
        obtain ⟨type, certified⟩ := CrushMap.ruleError_none found none
        exact .inl (CrushMap.placeRule_distinct acceptable type certified seed (by omega) weights run)

section Agreement

/-- `DecodePlacementMap` and its `Place`. -/
def placeCertified (first second : GoMap Int Bucket → List Int) (data : Bytes) (limits : DecodeLimits)
    (fuel ruleID : Nat) (seed : UInt32) (replicas : Int) (osdWeights : List Nat) : Option (Except Fault (List Int)) :=
  match decodePlacementMap first second data limits with
  | .error err => some (.error (.err err))
  | .ok placementMap => placementMap.place fuel ruleID seed replicas osdWeights

/-- `DecodeMap` and its `Place`. Each of them goes over the buckets in its own orders. -/
def placeChecked (first second third fourth : GoMap Int Bucket → List Int) (data : Bytes) (limits : DecodeLimits)
    (fuel ruleID : Nat) (seed : UInt32) (replicas : Int) (osdWeights : List Nat) : Option (Except Fault (List Int)) :=
  match decodeMap first second data limits with
  | .error err => some (.error (.err err))
  | .ok crushMap =>
    crushMap.place (third crushMap.buckets) (fourth crushMap.buckets) fuel ruleID seed replicas osdWeights

/-- Both succeed with the same result, or both fail. -/
def Agree (certified checked : Option (Except Fault (List Int))) : Prop :=
  (∃ result, certified = some (.ok result) ∧ checked = some (.ok result)) ∨
    ∃ err err', certified = some (.error (.err err)) ∧ checked = some (.error (.err err'))

variable {third fourth : List Int} {m : CrushMap}

theorem CrushMap.agree_place (acceptable : m.Acceptable) (thirdOrder : m.buckets.IsOrder third)
    (fourthOrder : m.buckets.IsOrder fourth) {fuel : Nat} (enough : enoughFuel ≤ fuel) (ruleID : Nat) (seed : UInt32)
    (replicas : Int) (weights : List Nat) :
    Agree (PlacementMap.place ⟨m, m.ruleError⟩ fuel ruleID seed replicas weights)
      (m.place third fourth fuel ruleID seed replicas weights) := by
  have fails {err : GoError} (failed : m.certify third fourth ruleID replicas = .error err) :
      m.place third fourth fuel ruleID seed replicas weights = some (.error (.err err)) := by
    rw [place, failed]
  rw [PlacementMap.place]
  split
  · next bad => exact .inr ⟨_, _, rfl, fails (by rw [certify, if_pos bad]; rfl)⟩
  · next few =>
    dsimp only
    split
    · next missing => exact .inr ⟨_, _, rfl, fails (by rw [certify, if_neg few, missing]; rfl)⟩
    · next rule found =>
      split
      · next err kept =>
        -- The error that was kept is the one that the check finds again.
        refine .inr ⟨_, err, rfl, fails ?_⟩
        rw [ruleError, found] at kept
        rw [certify, if_neg few, found]
        dsimp only at kept ⊢
        split at kept
        · next type =>
          rw [if_pos type, ← Option.some.inj kept]
          rfl
        · next type =>
          cases valid : m.validateCertifiedRule rule with
          | ok =>
            rw [valid] at kept
            cases kept
          | error found =>
            rw [valid] at kept
            rw [if_neg type, ← Option.some.inj kept]
            rfl
      · next none =>
        obtain ⟨type, certified⟩ := ruleError_none found none
        have positive : (replicas.toNat : Int) = replicas := by omega
        obtain ⟨raw, -, ends⟩ := placeRule_ends acceptable type certified seed
          (show 0 < replicas.toNat by omega) weights
        have same := place_certified acceptable thirdOrder fourthOrder found type certified
          (show 0 < replicas.toNat by omega) (show replicas.toNat ≤ maxCertifiedReplicas by omega) fuel seed weights
        rw [positive] at same
        exact .inl ⟨raw, ends fuel enough, same.trans (ends fuel enough)⟩

/-- The certification of the rules at decode time changes neither which placements are accepted nor what they return.
-/
theorem placeCertified_agrees {first second first' second' third fourth : GoMap Int Bucket → List Int}
    (orders : ∀ order ∈ [first, second, first', second', third, fourth], ∀ buckets : GoMap Int Bucket,
      buckets.IsOrder (order buckets)) (data : Bytes) (limits : DecodeLimits) {fuel : Nat}
        (enough : enoughFuel ≤ fuel)
    (ruleID : Nat) (seed : UInt32) (replicas : Int) (weights : List Nat) :
    Agree (placeCertified first second data limits fuel ruleID seed replicas weights)
      (placeChecked first' second' third fourth data limits fuel ruleID seed replicas weights) := by
  simp only [List.forall_mem_cons] at orders
  obtain ⟨firstOrder, secondOrder, firstOrder', secondOrder', thirdOrder, fourthOrder, -⟩ := orders
  have same (m : CrushMap) : decodeMap first second data limits = .ok m ↔
    decodeMap first' second' data limits = .ok m := by
    rw [CrushMap.decodeMap_iff (firstOrder _) (secondOrder _),
      CrushMap.decodeMap_iff (firstOrder' _) (secondOrder' _)]
  rw [placeCertified, placeChecked, decodePlacementMap]
  cases decoded : decodeMap first second data limits with
  | ok m =>
    rw [(same m).mp decoded]
    exact CrushMap.agree_place (CrushMap.decodeMap_acceptable decoded (firstOrder _) (secondOrder _)) (thirdOrder _)
      (fourthOrder _) enough ruleID seed replicas weights
  | error err =>
    cases decoded' : decodeMap first' second' data limits with
    | ok m =>
      rw [(same m).mpr decoded'] at decoded
      cases decoded
    | error err' => exact .inr ⟨err, err', rfl, rfl⟩

theorem placeCertified_agrees_twoHosts :
    Agree (placeCertified GoMap.anyOrder GoMap.anyOrder CrushMap.twoHosts ⟨1000, 10, 10, 10, 10⟩ enoughFuel 0 7 2
      [0x10000, 0x10000])
      (placeChecked GoMap.anyOrder GoMap.anyOrder GoMap.anyOrder GoMap.anyOrder CrushMap.twoHosts
        ⟨1000, 10, 10, 10, 10⟩ enoughFuel 0 7 2 [0x10000, 0x10000]) :=
  placeCertified_agrees (by simp [GoMap.isOrder_anyOrder]) _ _ (Nat.le_refl _) _ _ _ _

end Agreement

end RadosGo.Crush
