import RadosGo.Crush.Graph
import RadosGo.Crush.Place
import RadosGo.Library.Gives

namespace RadosGo.Crush

theorem gives_lift {α : Type} {x : Except Fault α} {property : α → Prop} {a : α} (ok : x = .ok a)
    (holds : property a) : Gives (liftM x : Exec α) property := by
  subst ok
  exact ⟨a, rfl, holds⟩

section Straw2

variable (bucket : Bucket) (seed : UInt32) (replica : Nat)

/-- What is drawn with a weight at a place whose item is so far from the highest draw. -/
def drawn (distance weight : Nat) : Int := if weight = 0 then minInt64 else -((distance / weight : Nat) : Int)

/-- The draw of a place depends on its weight and on a number that its item gives. -/
theorem draw_eq {index : Nat} (within : index < bucket.items.length) : ∃ distance : Nat, distance ≤ 2 ^ 48 ∧
    ∀ weight, draw bucket seed replica index weight = .ok (drawn distance weight) := by
  obtain ⟨item, read, -⟩ := indexed_ok within
  have small : (hash32Triple seed (toUint32 item) (UInt32.ofNat replica) &&& 0xffff).toNat < 2 ^ 16 := by
    rw [UInt32.toNat_and]
    exact Nat.and_lt_two_pow _ (by decide)
  obtain ⟨logarithm, le, known⟩ := crushLn_le small
  refine ⟨2 ^ 48 - logarithm, Nat.sub_le .., fun weight => ?_⟩
  rw [draw, drawn]
  by_cases zero : weight = 0
  · rw [if_pos zero, if_pos zero]
    rfl
  · have same : (logarithm : Int) - 2 ^ 48 = -((2 ^ 48 - logarithm : Nat) : Int) := by omega
    rw [if_neg zero, if_neg zero, except_bind_eq read, except_bind_eq known, same, Int.natCast_div,
      ← Int.tdiv_eq_ediv_of_nonneg (Int.natCast_nonneg _), ← Int.neg_tdiv]
    rfl

theorem draw_ok {index : Nat} (weight : Nat) (within : index < bucket.items.length) :
    ∃ drawn, draw bucket seed replica index weight = .ok drawn := by
  obtain ⟨distance, -, draws⟩ := draw_eq bucket seed replica within
  exact ⟨_, draws weight⟩

theorem highest_ok (weights : List Nat) {index high : Nat} (highDraw : Int)
    (lengths : index + weights.length ≤ bucket.items.length) (within : high < bucket.items.length) :
    ∃ place, highest bucket seed replica weights index high highDraw = .ok place ∧ place < bucket.items.length := by
  induction weights generalizing index high highDraw with
  | nil => exact ⟨high, rfl, within⟩
  | cons weight weights ih =>
    rw [List.length_cons] at lengths
    obtain ⟨drawn, ok⟩ := draw_ok bucket seed replica weight (show index < bucket.items.length by omega)
    rw [highest, except_bind_eq ok]
    split
    · exact ih drawn (by omega) (by omega)
    · exact ih highDraw (by omega) within

/-- A bucket with items always yields one of them. -/
theorem straw2Choose_ok (nonempty : bucket.items.length ≠ 0)
    (lengths : bucket.items.length = bucket.itemWeights.length) :
    ∃ item, straw2Choose bucket seed replica = .ok item ∧ item ∈ bucket.items := by
  obtain ⟨place, ok, within⟩ := highest_ok bucket seed replica bucket.itemWeights 0
    (show 0 + bucket.itemWeights.length ≤ bucket.items.length by omega) (Nat.pos_of_ne_zero nonempty)
  obtain ⟨item, read, found⟩ := indexed_ok within
  refine ⟨item, ?_, List.mem_of_getElem? found⟩
  rw [straw2Choose, except_bind_eq ok]
  exact read

end Straw2

namespace CrushMap

variable {m : CrushMap}

/-- The item is reached from the root through items of buckets. -/
def Under (m : CrushMap) : Int → Int → Prop := Relation.ReflTransGen fun id item => item ∈ m.itemsOf id

/-- A bucket of the map, reached from the root. -/
structure BucketUnder (m : CrushMap) (root : Int) (bucket : Bucket) : Prop where
  found : m.buckets.lookup bucket.id = some bucket
  under : m.Under root bucket.id

theorem BucketUnder.item {root item : Int} {bucket : Bucket} (under : m.BucketUnder root bucket)
    (member : item ∈ bucket.items) : m.Under root item :=
  under.under.tail (by rwa [itemsOf_eq under.found])

theorem BucketUnder.contains {root item : Int} {bucket : Bucket} (under : m.BucketUnder root bucket)
    (member : item ∈ bucket.items) (negative : item < 0) : m.Contains bucket.id item :=
  ⟨by rwa [itemsOf_eq under.found], negative⟩

theorem Acceptable.lookup (acceptable : m.Acceptable) {id : Int} {bucket : Bucket}
    (found : m.buckets.lookup id = some bucket) : m.buckets.lookup bucket.id = some bucket := by
  rw [(acceptable.identified id bucket found).2.1, found]

end CrushMap

namespace Placement

variable {executor : Placement}

/-- A device which a call may choose below a root. -/
structure Device (executor : Placement) (seed : UInt32) (root item : Int) : Prop where
  nonneg : 0 ≤ item
  small : item < executor.crush.maxDevices
  inside : executor.isOut item seed = false
  under : executor.crush.Under root item

theorem nonneg_of_inside {seed : UInt32} {item : Int} (inside : executor.isOut item seed = false) : 0 ≤ item := by
  by_contra negative
  simp [isOut, Int.not_le.mp negative] at inside

theorem Device.weight {seed : UInt32} {root item : Int} (device : executor.Device seed root item) :
    ∃ weight, executor.weights[item.toNat]? = some weight ∧ weight ≠ 0 := by
  have inside := device.inside
  rw [isOut, if_neg (Int.not_lt.mpr device.nonneg)] at inside
  cases found : executor.weights[item.toNat]? with
  | none => simp [found] at inside
  | some weight =>
    refine ⟨weight, rfl, ?_⟩
    rintro rfl
    simp [found] at inside

variable {output : List Int}

theorem collides_ok {position : Nat} (within : position ≤ output.length) (item : Int) :
    collides output position item = .ok (decide (item ∈ output.take position)) := by
  rw [collides, if_pos within]
  by_cases member : item ∈ output.take position
  · rw [if_pos member, decide_eq_true member]
  · rw [if_neg member, decide_eq_false member]

section ChooseFirstN

variable {leaf : LeafChooser} {call : FirstN}

/-- The type of an item is the wanted one: a device has type zero. -/
structure Wanted (executor : Placement) (call : FirstN) (item itemType : Int) (child : Option Bucket) : Prop where
  type_eq : itemType = call.targetType
  device : child = none → 0 ≤ item ∧ item < executor.crush.maxDevices ∧ itemType = 0
  bucket : ∀ bucket, child = some bucket →
    executor.crush.buckets.lookup item = some bucket ∧ itemType = bucket.type ∧ item < 0

/-- How a round ends, if a bucket is left to go on with or the item was settled. -/
def Ends (executor : Placement) (root : Int) (current : Bucket) (failed : List Int → Prop)
    (chosen : Int → List Int → Prop) : Attempt → Prop
  | .descend child => executor.crush.BucketUnder root child ∧ executor.crush.Contains current.id child.id
  | .skip => True
  | .failed _ leaves => failed leaves
  | .chosen item leaves => chosen item leaves

variable {current bucket : Bucket} {leaves : List Int} {outputPosition count fuel : Nat} {failed : List Int → Prop}
  {chosen : Int → List Int → Prop} {root : Int}

/-- A round of the innermost loop, given what it does once an item has been drawn. -/
theorem attempt_gives (acceptable : executor.crush.Acceptable) (noFallback : call.localFallbackRetries = 0)
    (under : executor.crush.BucketUnder root current) {r : Nat} (kept : failed leaves)
    (settles : ∀ item itemType child, item ∈ current.items → executor.Wanted call item itemType child →
      Gives (executor.settle leaf call output leaves outputPosition count r item itemType child)
      (executor.Ends root current failed chosen))
    (localFailures : Nat) :
    Gives (executor.attempt leaf call output leaves outputPosition count current r localFailures)
      (executor.Ends root current failed chosen) := by
  rw [attempt]
  by_cases empty : current.items.length = 0
  · rw [if_pos empty]
    exact gives_pure kept
  · obtain ⟨item, ok, member⟩ := straw2Choose_ok current call.seed r empty
      (acceptable.identified _ _ under.found).2.2
    have drawn : Gives (chooseItem call current r localFailures) (item = ·) := by
      rw [chooseItem, if_neg (by omega)]
      exact gives_lift ok rfl
    rw [if_neg empty]
    refine drawn.bind ?_
    rintro _ rfl
    split
    · exact gives_pure trivial
    · next small =>
      split
      · next nonneg =>
        split
        · exact gives_pure trivial
        · next target =>
          exact settles item 0 none member ⟨(not_not.mp target).symm, fun _ => ⟨nonneg, by omega, rfl⟩, by simp⟩
      · next negative =>
        split
        · exact gives_pure trivial
        · next child found =>
          split
          · exact gives_pure ⟨⟨acceptable.lookup found, by
              rw [(acceptable.identified _ _ found).2.1]
              exact under.item member⟩, by
              rw [(acceptable.identified _ _ found).2.1]
              exact under.contains member (by omega)⟩
          · next target =>
            refine settles item child.type (some child) member ⟨not_not.mp target, by simp, ?_⟩
            rintro _ ⟨⟩
            exact ⟨found, rfl, by omega⟩

/-- The inner loops end: a descent has at most as many rounds as the rank of its bucket,
and there are at most `tries` descents. -/
theorem search_gives (acceptable : executor.crush.Acceptable) (noLocal : call.localRetries = 0)
    (noFallback : call.localFallbackRetries = 0) {rank : Int → Nat} (low : ∀ id, rank id < maxCertifiedDepth)
    (lowers : ∀ id child, executor.crush.Contains id child → rank child < rank id)
    (start : executor.crush.BucketUnder root bucket) {replica : Nat}
    (settles : ∀ current leaves r item itemType child, executor.crush.BucketUnder root current → failed leaves →
      item ∈ current.items → executor.Wanted call item itemType child →
      Gives (executor.settle leaf call output leaves outputPosition count r item itemType child)
      (executor.Ends root current failed chosen))
    (under : executor.crush.BucketUnder root current) (kept : failed leaves) (totalFailures localFailures : Nat)
    (enough : rank current.id + (call.tries - 1 - totalFailures) * maxCertifiedDepth < fuel) :
    Gives (executor.search leaf call bucket output outputPosition count replica fuel current totalFailures
      localFailures leaves) fun result => match result with
        | (none, leaves) => failed leaves
        | (some item, leaves) => chosen item leaves := by
  induction fuel generalizing current leaves totalFailures localFailures with
  | zero => omega
  | succ fuel ih =>
    rw [search]
    refine (attempt_gives acceptable noFallback under kept
      (fun item itemType child => settles current leaves _ item itemType child under kept) localFailures).bind ?_
    intro attempt ends
    match attempt, ends with
    | .descend child, ⟨child_under, contains⟩ =>
      have lower := lowers _ _ contains
      exact ih child_under kept totalFailures localFailures (by omega)
    | .skip, _ => exact gives_pure kept
    | .chosen item leaves, done => exact gives_pure done
    | .failed collide leaves, kept =>
      simp only [noLocal, noFallback]
      rw [if_neg (by omega)]
      split
      · next more =>
        have first := low bucket.id
        have rounds : call.tries - 1 - totalFailures = call.tries - 1 - (totalFailures + 1) + 1 := by omega
        rw [rounds, Nat.succ_mul] at enough
        exact ih start kept (totalFailures + 1) 0 (by omega)
      · exact gives_pure kept

/-- The outer loop keeps what its inner loops keep. -/
theorem chooseReplicas_gives {size : Nat} (Inv : List Int → List Int → Nat → Prop)
    (searches : ∀ output leaves outputPosition count replica, Inv output leaves outputPosition → 0 < count →
      outputPosition + count = size →
      Gives (executor.search leaf call bucket output outputPosition count replica fuel bucket 0 0 leaves)
        fun result => match result with
        | (none, leaves) => Inv output leaves outputPosition
        | (some item, leaves) =>
          outputPosition < output.length ∧ Inv (output.set outputPosition item) leaves (outputPosition + 1))
    (rounds replica : Nat) (inv : Inv output leaves outputPosition) (room : outputPosition + count = size) :
    Gives (executor.chooseReplicas leaf call fuel bucket rounds replica output leaves outputPosition count)
      fun result => Inv result.2.1 result.2.2 result.1 ∧ outputPosition ≤ result.1 ∧
        result.1 ≤ outputPosition + rounds ∧
        result.1 ≤ size := by
  induction rounds generalizing replica output leaves outputPosition count with
  | zero => exact gives_pure ⟨inv, Nat.le_refl _, Nat.le_refl _, by omega⟩
  | succ rounds ih =>
    rw [chooseReplicas]
    split
    · exact gives_pure ⟨inv, Nat.le_refl _, by omega, by omega⟩
    · next positive =>
      refine (searches output leaves outputPosition count replica inv (by omega) room).bind ?_
      rintro ⟨found, leaves⟩ after
      cases found with
      | none =>
        refine (ih (replica + 1) after room).mono ?_
        rintro _ ⟨inv, low, high, room⟩
        exact ⟨inv, low, by omega, room⟩
      | some item =>
        have write : Gives (liftM (assigned output outputPosition item) : Exec _)
          (output.set outputPosition item = ·) :=
          gives_lift (assigned_ok after.1) rfl
        refine write.bind ?_
        rintro _ rfl
        refine (ih (replica + 1) after.2 (by omega)).mono ?_
        rintro _ ⟨inv, low, high, room⟩
        exact ⟨inv, by omega, by omega, room⟩

theorem take_set_succ {values : List Int} {position : Nat} (within : position < values.length) (value : Int) :
    (values.set position value).take (position + 1) = values.take position ++ [value] := by
  rw [List.take_add_one, List.take_set_of_le (Nat.le_refl _), List.getElem?_set_self within]
  rfl

/-- Without a leaf to look for, the drawn device is chosen unless it collides or is out. -/
theorem settle_flat (flat : call.recurseToLeaf = false) (devices : call.targetType = 0)
    (under : executor.crush.BucketUnder root current) (within : outputPosition ≤ output.length)
    (leaves : List Int) (count r : Nat) {item itemType : Int} {child : Option Bucket} (member : item ∈ current.items)
    (wanted : executor.Wanted call item itemType child) :
    Gives (executor.settle leaf call output leaves outputPosition count r item itemType child)
      (executor.Ends root current (fun _ => True)
        fun item _ => item ∉ output.take outputPosition ∧ executor.Device call.seed root item) := by
  rw [settle]
  refine (gives_lift (collides_ok within item) rfl).bind ?_
  rintro _ rfl
  split
  · exact gives_pure trivial
  · next fresh =>
    have noLeaf : Gives (chooseLeaf leaf call leaves outputPosition count r item child) ((false, leaves) = ·) := by
      unfold chooseLeaf
      rw [flat]
      exact gives_pure rfl
    refine noLeaf.bind ?_
    rintro _ rfl
    dsimp only
    split
    · exact gives_pure trivial
    · next accepted =>
      have typed : itemType = 0 := wanted.type_eq.trans devices
      have inside : executor.isOut item call.seed = false := by simpa [typed] using accepted
      have nonneg := nonneg_of_inside inside
      cases child with
      | none => exact gives_pure ⟨by simpa using fresh, nonneg, (wanted.device rfl).2.1, inside, under.item member⟩
      | some bucket =>
        have negative := (wanted.bucket bucket rfl).2.2
        omega

/-- The first entries of the output: those from before, and new devices. -/
structure Filled (executor : Placement) (seed : UInt32) (root : Int) (before : List Int) (size : Nat)
    (output : List Int) (position : Nat) : Prop where
  length_eq : output.length = size
  within : position ≤ size
  entries : ∃ added, output.take position = before ++ added ∧ added.Nodup ∧
    ∀ item ∈ added, item ∉ before ∧ executor.Device seed root item

theorem Filled.add {seed : UInt32} {before output : List Int} {size position : Nat} {item : Int}
    (filled : executor.Filled seed root before size output position) (room : position < size)
    (fresh : item ∉ output.take position) (device : executor.Device seed root item) :
    executor.Filled seed root before size (output.set position item) (position + 1) := by
  obtain ⟨added, entries, nodup, devices⟩ := filled.entries
  rw [entries, List.mem_append, not_or] at fresh
  refine ⟨by rw [List.length_set, filled.length_eq], room, added ++ [item], ?_, ?_, ?_⟩
  · rw [take_set_succ (filled.length_eq ▸ room), entries, List.append_assoc]
  · rw [← List.concat_eq_append]
    exact nodup.concat fresh.2
  · intro other member
    rcases List.mem_append.mp member with old | last
    · exact devices other old
    · rw [List.mem_singleton.mp last]
      exact ⟨fresh.1, device⟩

variable (acceptable : executor.crush.Acceptable) {rank : Int → Nat} (low : ∀ id, rank id < maxCertifiedDepth)
  (lowers : ∀ id child, executor.crush.Contains id child → rank child < rank id)

include acceptable low lowers

/-- Devices are chosen below a bucket without looking for leaves. -/
theorem chooseFlat_gives (call : FirstN) (noLocal : call.localRetries = 0)
    (noFallback : call.localFallbackRetries = 0) (flat : call.recurseToLeaf = false) (devices : call.targetType = 0)
    (enough : call.tries * maxCertifiedDepth + maxCertifiedDepth ≤ fuel)
    (under : executor.crush.BucketUnder root bucket) (room : outputPosition + count = output.length)
    (leaves : List Int) :
    Gives (executor.chooseFirstNWith leaf call fuel bucket output outputPosition count leaves) fun result =>
      executor.Filled call.seed root (output.take outputPosition) output.length result.2.1 result.1 ∧
        outputPosition ≤ result.1 ∧
          result.1 ≤ outputPosition + (call.replicas - if call.stable then 0 else outputPosition) := by
  rw [chooseFirstNWith]
  have inv : executor.Filled call.seed root (output.take outputPosition) output.length output outputPosition :=
    ⟨rfl, by omega, [], by simp, List.nodup_nil, by simp⟩
  refine (chooseReplicas_gives
    (fun current _ position =>
      executor.Filled call.seed root (output.take outputPosition) output.length current position)
    ?_ _ _ inv room).mono ?_
  · intro current leaves position left replica filled positive size
    have first := low bucket.id
    refine (search_gives acceptable noLocal noFallback low lowers under
      (fun inner leaves r item itemType child innerUnder _ member wanted =>
        settle_flat flat devices innerUnder (filled.length_eq ▸ filled.within) leaves _ r member wanted)
      under trivial 0 0 ?_).mono ?_
    · have rounds : (call.tries - 1 - 0) * maxCertifiedDepth ≤ call.tries * maxCertifiedDepth :=
        Nat.mul_le_mul_right _ (by omega)
      omega
    · rintro ⟨found, leaves⟩ after
      cases found with
      | none => exact filled
      | some item => exact ⟨by rw [filled.length_eq]; omega, filled.add (by omega) after.1 after.2⟩
  · rintro ⟨chosen, current, leaves⟩ ⟨filled, least, most, -⟩
    exact ⟨filled, least, most⟩

end ChooseFirstN

end Placement

end RadosGo.Crush
