import RadosGo.Crush.Choose

namespace RadosGo.Crush.Placement

variable {executor : Placement} {call : FirstN} (acceptable : executor.crush.Acceptable) {rank : Int → Nat}
  (low : ∀ id, rank id < maxCertifiedDepth)
  (lowers : ∀ id child, executor.crush.Contains id child → rank child < rank id)

include acceptable low lowers

variable {fuel outputPosition count : Nat} {item : Int}

/-- The recursive call finds a new device below a bucket, or nothing. -/
theorem leafFirstN_gives (noLocal : call.localRetries = 0) (noFallback : call.localFallbackRetries = 0)
    (stable : call.stable = true) (enough : call.recurseTries * maxCertifiedDepth + maxCertifiedDepth ≤ fuel)
    {child : Bucket} (found : executor.crush.buckets.lookup child.id = some child) (subR : Nat) {leaves : List Int}
    (room : outputPosition + count = leaves.length) :
    Gives (executor.leafFirstN fuel call child subR leaves outputPosition count) fun result =>
      executor.Filled call.seed child.id (leaves.take outputPosition) leaves.length result.2 result.1 ∧
        outputPosition ≤ result.1 ∧ result.1 ≤ outputPosition + 1 := by
  rw [leafFirstN]
  let inner := { call with
    replicas := if call.stable then 1 else outputPosition + 1, targetType := 0, tries := call.recurseTries,
    recurseTries := 0, recurseToLeaf := false, parentR := subR }
  refine (chooseFlat_gives acceptable low lowers inner noLocal noFallback rfl rfl enough ⟨found, .refl⟩ room
    []).bind ?_
  rintro ⟨chosen, current, _⟩ ⟨filled, least, most⟩
  simp only [inner, stable, if_true] at most
  exact gives_pure ⟨filled, least, most⟩

/-- The leaves beyond the position may have changed. -/
structure Prefixed (size position : Nat) (chosen leaves : List Int) : Prop where
  length_eq : leaves.length = size
  prefix_eq : leaves.take position = chosen

/-- A failure domain below the root. -/
structure Domain (executor : Placement) (targetType root domain : Int) : Prop where
  bucket : ∃ bucket, executor.crush.buckets.lookup domain = some bucket ∧ (bucket.type : Int) = targetType
  under : executor.crush.Under root domain

/-- The drawn domain is chosen with a leaf below it. -/
def WithLeaf (executor : Placement) (call : FirstN) (root : Int) (size position : Nat) (domains chosen : List Int)
    (item : Int) (leaves : List Int) : Prop :=
  item ∉ domains ∧ executor.Domain call.targetType root item ∧
    ∃ device, Prefixed size (position + 1) (chosen ++ [device]) leaves ∧ device ∉ chosen ∧
      executor.Device call.seed item device

variable {root : Int}

theorem settle_leaf (noLocal : call.localRetries = 0) (noFallback : call.localFallbackRetries = 0)
    (stable : call.stable = true) (leafy : call.recurseToLeaf = true) (domain : call.targetType ≠ 0)
    (enough : call.recurseTries * maxCertifiedDepth + maxCertifiedDepth ≤ fuel) {current : Bucket}
    (under : executor.crush.BucketUnder root current) {output leaves chosen : List Int} {size : Nat}
    (within : outputPosition ≤ output.length) (kept : Prefixed size outputPosition chosen leaves)
    (room : outputPosition + count = size) (r : Nat) {itemType : Int} {child : Option Bucket}
    (member : item ∈ current.items) (wanted : executor.Wanted call item itemType child) :
    Gives (executor.settle (executor.leafFirstN fuel call) call output leaves outputPosition count r item
      itemType child)
      (executor.Ends root current (Prefixed size outputPosition chosen)
        (executor.WithLeaf call root size outputPosition (output.take outputPosition) chosen)) := by
  obtain ⟨bucket, rfl⟩ : ∃ bucket, child = some bucket := by
    cases child with
    | none => exact absurd (wanted.type_eq.symm.trans (wanted.device rfl).2.2) domain
    | some bucket => exact ⟨bucket, rfl⟩
  obtain ⟨found, typed, negative⟩ := wanted.bucket bucket rfl
  have own : bucket.id = item := (acceptable.identified _ _ found).2.1
  rw [settle]
  refine (gives_lift (collides_ok within item) rfl).bind ?_
  rintro _ rfl
  split
  · exact gives_pure kept
  · next fresh =>
    have leaf : Gives (chooseLeaf (executor.leafFirstN fuel call) call leaves outputPosition count r item
      (some bucket))
        fun result => (result.1 = true → Prefixed size outputPosition chosen result.2) ∧
          (result.1 = false → ∃ device, Prefixed size (outputPosition + 1) (chosen ++ [device]) result.2 ∧
            device ∉ chosen ∧ executor.Device call.seed item device) := by
      unfold chooseLeaf
      rw [leafy]
      refine (leafFirstN_gives acceptable low lowers noLocal noFallback stable enough (acceptable.lookup found) _
        (kept.length_eq.symm ▸ room)).bind ?_
      rintro ⟨position, after⟩ ⟨filled, least, most⟩
      obtain ⟨added, entries, -, devices⟩ := filled.entries
      rw [kept.prefix_eq] at entries devices
      have size_eq : after.length = size := filled.length_eq.trans kept.length_eq
      have room' : position ≤ size := kept.length_eq ▸ filled.within
      have length := congrArg List.length entries
      rw [List.length_take, List.length_append, ← kept.prefix_eq, List.length_take, kept.length_eq, size_eq] at length
      refine gives_pure ⟨fun stays => ?_, fun moves => ?_⟩
      · obtain rfl : position = outputPosition := by
          have less := of_decide_eq_true stays
          omega
        obtain rfl : added = [] := List.eq_nil_of_length_eq_zero (by omega)
        exact ⟨size_eq, by rw [entries, List.append_nil]⟩
      · obtain rfl : position = outputPosition + 1 := by
          have more := of_decide_eq_false moves
          omega
        obtain ⟨device, rfl⟩ : ∃ device, added = [device] := List.length_eq_one_iff.mp (by omega)
        obtain ⟨fresh, device'⟩ := devices device List.mem_cons_self
        exact ⟨device, ⟨size_eq, entries⟩, fresh, own ▸ device'⟩
    refine leaf.bind ?_
    rintro ⟨reject, after⟩ ⟨rejected, accepted⟩
    dsimp only
    split
    · next failed =>
      have typed' : itemType ≠ 0 := wanted.type_eq ▸ domain
      exact gives_pure (rejected (by simpa [typed'] using failed))
    · next succeeded =>
      exact gives_pure ⟨by simpa using fresh, ⟨⟨bucket, found, typed ▸ wanted.type_eq⟩, under.item member⟩,
        accepted (by simpa using fun reject => succeeded (.inl reject))⟩

/-- The first entries of the output are failure domains, those of the leaves a device below each. -/
structure Spread (executor : Placement) (call : FirstN) (root : Int) (size : Nat) (output leaves : List Int)
    (position : Nat) : Prop where
  output_length : output.length = size
  leaves_length : leaves.length = size
  within : position ≤ size
  apart : (output.take position).Nodup
  nodup : (leaves.take position).Nodup
  below : List.Forall₂ (fun domain device => executor.Domain call.targetType root domain ∧
    executor.Device call.seed domain device) (output.take position) (leaves.take position)

omit acceptable low lowers in
theorem Spread.add {size position : Nat} {output leaves after : List Int}
    (spread : executor.Spread call root size output leaves position) (room : position < size)
    (chosen : executor.WithLeaf call root size position (output.take position) (leaves.take position) item after) :
    executor.Spread call root size (output.set position item) after (position + 1) := by
  obtain ⟨fresh, domain, device, kept, fresh', leaf⟩ := chosen
  have entries := take_set_succ (spread.output_length.symm ▸ room) item
  refine ⟨by rw [List.length_set, spread.output_length], kept.length_eq, room, ?_, ?_, ?_⟩
  · rw [entries, ← List.concat_eq_append]
    exact spread.apart.concat fresh
  · rw [kept.prefix_eq, ← List.concat_eq_append]
    exact spread.nodup.concat fresh'
  · rw [entries, kept.prefix_eq]
    exact List.rel_append spread.below (.cons ⟨domain, leaf⟩ .nil)

/-- Domains are chosen below a bucket, each with a device below it. -/
theorem chooseLeaves_gives (noLocal : call.localRetries = 0) (noFallback : call.localFallbackRetries = 0)
    (stable : call.stable = true) (leafy : call.recurseToLeaf = true) (domain : call.targetType ≠ 0)
    (enough : call.recurseTries * maxCertifiedDepth + maxCertifiedDepth ≤ fuel)
    (enough' : call.tries * maxCertifiedDepth + maxCertifiedDepth ≤ fuel) {bucket : Bucket}
    (under : executor.crush.BucketUnder root bucket) {output leaves : List Int}
    (same : leaves.length = output.length) :
    Gives (executor.chooseFirstN fuel call bucket output 0 output.length leaves) fun result =>
      executor.Spread call root output.length result.2.1 result.2.2 result.1 := by
  rw [chooseFirstN, chooseFirstNWith]
  have inv : executor.Spread call root output.length output leaves 0 :=
    ⟨rfl, same, Nat.zero_le _, by simp, by simp, by simp⟩
  refine (chooseReplicas_gives (executor.Spread call root output.length) ?_ _ _ inv (Nat.zero_add _)).mono
    fun _ result => result.1
  intro current leaves position left replica spread positive size
  have first := low bucket.id
  refine (search_gives acceptable noLocal noFallback low lowers under
    (fun inner leaves r item itemType child innerUnder kept member wanted =>
      settle_leaf acceptable low lowers noLocal noFallback stable leafy domain enough innerUnder
        (spread.output_length ▸ spread.within) kept size r member wanted)
    under ⟨spread.leaves_length, rfl⟩ 0 0 ?_).mono ?_
  · have rounds : (call.tries - 1 - 0) * maxCertifiedDepth ≤ call.tries * maxCertifiedDepth :=
      Nat.mul_le_mul_right _ (by omega)
    omega
  · rintro ⟨found, after⟩ result
    cases found with
    | none => exact ⟨spread.output_length, result.length_eq, spread.within, spread.apart,
        result.prefix_eq ▸ spread.nodup, result.prefix_eq ▸ spread.below⟩
    | some item => exact ⟨by rw [spread.output_length]; omega, spread.add (by omega) result⟩

end RadosGo.Crush.Placement
