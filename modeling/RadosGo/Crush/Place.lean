import RadosGo.Crush.Hash
import RadosGo.Crush.Ln
import RadosGo.Crush.Map

namespace RadosGo.Crush

def maxCertifiedReplicas : Nat := 64

def itemNone : Int := 0x7fffffff

structure Permutation where
  x : UInt32 := 0
  count : Nat := 0
  items : List Nat
  deriving DecidableEq, Repr

/-- A call with the permutations of its executor. It may fail, or panic; it has no result
when its fuel runs out. -/
abbrev Exec := StateT (Int → Option Permutation) (ExceptT Fault Option)

def diverges {α : Type} : Exec α := fun _ => ExceptT.mk none

def panicked {α : Type} : Exec α := throw indexOutOfRange

/-- A read of a slice. -/
def indexed {α : Type} (values : List α) (index : Nat) : Except Fault α :=
  match values[index]? with
  | some value => .ok value
  | none => .error indexOutOfRange

/-- A write to a slice. -/
def assigned {α : Type} (values : List α) (index : Nat) (value : α) : Except Fault (List α) :=
  if index < values.length then .ok (values.set index value) else .error indexOutOfRange

variable {α : Type} {values : List α} {index : Nat}

theorem indexed_ok (within : index < values.length) :
    ∃ value, indexed values index = .ok value ∧ values[index]? = some value := by
  rw [indexed, List.getElem?_eq_getElem within]
  exact ⟨_, rfl, rfl⟩

theorem assigned_ok {value : α} (within : index < values.length) :
    assigned values index value = .ok (values.set index value) := if_pos within

def toUint32 (value : Int) : UInt32 := UInt32.ofNat (value % 2 ^ 32).toNat

section Straw2

variable (bucket : Bucket) (seed : UInt32) (replica : Nat)

def minInt64 : Int := -2 ^ 63

def draw (index weight : Nat) : Except Fault Int := do
  if weight = 0 then return minInt64
  let item ← indexed bucket.items index
  let random := hash32Triple seed (toUint32 item) (UInt32.ofNat replica) &&& 0xffff
  let logarithm := ((← crushLn random.toNat) : Int) - 2 ^ 48
  return logarithm.tdiv weight

/-- The loop over the weights, with the highest draw so far and its place. -/
def highest : List Nat → Nat → Nat → Int → Except Fault Nat
  | [], _, high, _ => .ok high
  | weight :: weights, index, high, highDraw => do
    let drawn ← draw bucket seed replica index weight
    if index = 0 ∨ drawn > highDraw then highest weights (index + 1) index drawn
    else highest weights (index + 1) high highDraw

def straw2Choose : Except Fault Int := do
  let high ← highest bucket seed replica bucket.itemWeights 0 0 0
  indexed bucket.items high

/-- The loop that extends a permutation up to a position. -/
def fillPermutation : Nat → Permutation → Except Fault Permutation
  | 0, state => .ok state
  | rounds + 1, state => do
    let size := bucket.items.length
    let current := state.count
    if current < size - 1 then
      let offset := (hash32Triple seed (toUint32 bucket.id) (UInt32.ofNat current)).toNat % (size - current)
      let here ← indexed state.items current
      let there ← indexed state.items (current + offset)
      let items ← assigned state.items current there
      let items ← assigned items (current + offset) here
      fillPermutation rounds { state with count := current + 1, items }
    else fillPermutation rounds { state with count := current + 1 }

/-- The end of `permutationChoose`, once the permutation has been started. -/
def finishPermutation (state : Permutation) (position : Nat) : Except Fault (Int × Permutation) := do
  let state ← fillPermutation bucket seed (position + 1 - state.count) state
  let place ← indexed state.items position
  return (← indexed bucket.items place, state)

def permute (state : Permutation) : Except Fault (Int × Permutation) := do
  let size := bucket.items.length
  if size = 0 then throw (.panicked "runtime error: integer divide by zero")
  let position := replica % 2 ^ 32 % size
  if state.x ≠ seed ∨ state.count = 0 then
    if position = 0 then
      let selected := (hash32Triple seed (toUint32 bucket.id) 0).toNat % size
      let items ← assigned state.items 0 selected
      return (← indexed bucket.items selected, { x := seed, count := 0xffff, items })
    finishPermutation bucket seed { x := seed, count := 0, items := List.range state.items.length } position
  else if state.count = 0xffff then
    let first ← indexed state.items 0
    let items ← assigned (first :: (List.range state.items.length).drop 1) first 0
    finishPermutation bucket seed { state with count := 1, items } position
  else finishPermutation bucket seed state position

def permutationChoose : Exec Int := do
  let state := ((← get) bucket.id).getD { items := List.replicate bucket.items.length 0 }
  let (item, state) ← permute bucket seed replica state
  modify fun permutations => Function.update permutations bucket.id (some state)
  return item

end Straw2

/-- The executor without its permutations. -/
structure Placement where
  crush : CrushMap
  weights : List Nat

namespace Placement

variable (executor : Placement)

def isOut (item : Int) (seed : UInt32) : Bool :=
  if item < 0 then true
  else
    match executor.weights[item.toNat]? with
    | none => true
    | some weight =>
      if weight ≥ 0x10000 then false
      else if weight = 0 then true
      else decide ((hash32Pair seed (toUint32 item) &&& 0xffff).toNat ≥ weight)

def validTake (item : Int) : Bool :=
  if item ≥ 0 then decide (item < executor.crush.maxDevices) else decide (item ∈ executor.crush.buckets)

/-- The parameters of `chooseFirstN` which stay the same during a call. -/
structure FirstN where
  seed : UInt32
  replicas : Nat
  targetType : Int
  tries : Nat
  recurseTries : Nat
  localRetries : Nat
  localFallbackRetries : Nat
  recurseToLeaf : Bool
  varyR : Nat
  stable : Bool
  parentR : Nat

/-- The end of a round of the innermost loop. -/
inductive Attempt where
  | descend (bucket : Bucket)
  | skip
  | failed (collide : Bool) (leaves : List Int)
  | chosen (item : Int) (leaves : List Int)

/-- The call for a leaf below a bucket: what it returns and the leaves afterwards. -/
abbrev LeafChooser := Bucket → Nat → List Int → Nat → Nat → Exec (Nat × List Int)

/-- The loop that looks for an item among those chosen before. -/
def collides (output : List Int) (position : Nat) (item : Int) : Except Fault Bool :=
  if item ∈ output.take position then .ok true
  else if position ≤ output.length then .ok false
  else .error indexOutOfRange

section ChooseFirstN

variable (leaf : LeafChooser) (call : FirstN)

/-- The leaf below a chosen item, if one is wanted. The first result tells whether the
item was rejected. -/
def chooseLeaf (leaves : List Int) (outputPosition count r : Nat) (item : Int) (child : Option Bucket) :
    Exec (Bool × List Int) :=
  if !call.recurseToLeaf then pure (false, leaves)
  else
    match child with
    | some child => do
      let subR := if call.varyR ≠ 0 then r >>> (call.varyR - 1) else 0
      let (chosen, leaves) ← leaf child subR leaves outputPosition count
      return (decide (chosen ≤ outputPosition), leaves)
    | none => do return (false, ← assigned leaves outputPosition item)

/-- An item of the wanted type has been drawn. -/
def settle (output leaves : List Int) (outputPosition count r : Nat) (item itemType : Int) (child : Option Bucket) :
    Exec Attempt := do
  if ← collides output outputPosition item then return .failed true leaves
  let (reject, leaves) ← chooseLeaf leaf call leaves outputPosition count r item child
  if reject ∨ (itemType = 0 ∧ executor.isOut item call.seed) then return .failed false leaves
  return .chosen item leaves

/-- An item of a bucket that is not empty. -/
def chooseItem (current : Bucket) (r localFailures : Nat) : Exec Int :=
  if call.localFallbackRetries > 0 ∧ localFailures ≥ current.items.length / 2 ∧
      localFailures > call.localFallbackRetries
  then permutationChoose current call.seed r
  else liftM (straw2Choose current call.seed r)

def attempt (output leaves : List Int) (outputPosition count : Nat) (current : Bucket) (r localFailures : Nat) :
    Exec Attempt := do
  if current.items.length = 0 then return .failed false leaves
  let item ← chooseItem call current r localFailures
  if item ≥ executor.crush.maxDevices then return .skip
  if item ≥ 0 then
    if call.targetType ≠ 0 then return .skip
    executor.settle leaf call output leaves outputPosition count r item 0 none
  else
    match executor.crush.buckets.lookup item with
    | none => return .skip
    | some child =>
      if (child.type : Int) ≠ call.targetType then return .descend child
      executor.settle leaf call output leaves outputPosition count r item child.type (some child)

/-- The two inner loops: the item found for a replica, if any, and the leaves. -/
def search (bucket : Bucket) (output : List Int) (outputPosition count replica : Nat) :
    Nat → Bucket → Nat → Nat → List Int → Exec (Option Int × List Int)
  | 0, _, _, _, _ => diverges
  | fuel + 1, current, totalFailures, localFailures, leaves => do
    match ← executor.attempt leaf call output leaves outputPosition count current
        (replica + call.parentR + totalFailures) localFailures with
    | .descend child =>
      search bucket output outputPosition count replica fuel child totalFailures localFailures leaves
    | .skip => return (none, leaves)
    | .chosen item leaves => return (some item, leaves)
    | .failed collide leaves =>
      let totalFailures := totalFailures + 1
      let localFailures := localFailures + 1
      if (collide ∧ localFailures ≤ call.localRetries) ∨
          (call.localFallbackRetries > 0 ∧ localFailures ≤ current.items.length + call.localFallbackRetries) then
        search bucket output outputPosition count replica fuel current totalFailures localFailures leaves
      else if totalFailures < call.tries then
        search bucket output outputPosition count replica fuel bucket totalFailures 0 leaves
      else return (none, leaves)

/-- The outer loop, over so many replicas from the given one on. -/
def chooseReplicas (fuel : Nat) (bucket : Bucket) :
    Nat → Nat → List Int → List Int → Nat → Nat → Exec (Nat × List Int × List Int)
  | 0, _, output, leaves, outputPosition, _ => return (outputPosition, output, leaves)
  | rounds + 1, replica, output, leaves, outputPosition, count =>
    if count = 0 then return (outputPosition, output, leaves)
    else do
      let (found, leaves) ←
        executor.search leaf call bucket output outputPosition count replica fuel bucket 0 0 leaves
      match found with
      | none => chooseReplicas fuel bucket rounds (replica + 1) output leaves outputPosition count
      | some item =>
        let output ← assigned output outputPosition item
        chooseReplicas fuel bucket rounds (replica + 1) output leaves (outputPosition + 1) (count - 1)

/-- The body of `chooseFirstN`, with the recursive call as a parameter. -/
def chooseFirstNWith (fuel : Nat) (bucket : Bucket) (output : List Int) (outputPosition outputSize : Nat)
    (leaves : List Int) : Exec (Nat × List Int × List Int) :=
  let firstReplica := if call.stable then 0 else outputPosition
  executor.chooseReplicas leaf call fuel bucket
    (call.replicas - firstReplica) firstReplica output leaves outputPosition
    outputSize

end ChooseFirstN

/-- The recursive call does not recurse any further. -/
def leafFirstN (fuel : Nat) (call : FirstN) : LeafChooser := fun child subR leaves outputPosition count => do
  let inner := { call with
    replicas := if call.stable then 1 else outputPosition + 1, targetType := 0, tries := call.recurseTries,
    recurseTries := 0, recurseToLeaf := false, parentR := subR }
  let (chosen, leaves, _) ←
    executor.chooseFirstNWith (fun _ _ leaves position _ => return (position, leaves)) inner fuel child leaves
      outputPosition
      count []
  return (chosen, leaves)

def chooseFirstN (fuel : Nat) (call : FirstN) (bucket : Bucket) (output : List Int) (outputPosition outputSize : Nat)
    (leaves : List Int) : Exec (Nat × List Int × List Int) :=
  executor.chooseFirstNWith (executor.leafFirstN fuel call) call fuel bucket output outputPosition outputSize leaves

/-- The parameters of `chooseIndep` which stay the same during a call. -/
structure Indep where
  seed : UInt32
  replicas : Nat
  targetType : Int
  outputPosition : Nat
  end_ : Nat
  tries : Nat
  recurseTries : Nat
  recurseToLeaf : Bool
  parentR : Nat

/-- How the descent for a position ends: without an item, with a dead end that counts as
filled, or with an item. The leaves are nil in a recursive call. -/
inductive Slot where
  | hole (leaves : Option (List Int))
  | dead
  | placed (item : Int) (leaves : Option (List Int))

/-- The recursive call for the leaf at a position. -/
abbrev IndepLeafChooser := Bucket → Nat → List Int → Nat → Exec (List Int)

def onLeaves {α : Type} (leaves : Option (List Int)) (change : List Int → Exec α) : Exec α :=
  match leaves with
  | none => panicked
  | some leaves => change leaves

section ChooseIndep

variable (leaf : IndepLeafChooser) (call : Indep)

/-- The leaf below an item, if one is wanted. The first result tells whether the position
can be filled. -/
def indepLeaf (leaves : Option (List Int)) (position r : Nat) (item : Int) (child : Option Bucket) :
    Exec (Bool × Option (List Int)) :=
  if !call.recurseToLeaf then pure (true, leaves)
  else
    onLeaves leaves fun leaves =>
      match child with
      | some child => do
        let leaves ← leaf child r leaves position
        let found ← indexed leaves position
        return (decide (found ≠ itemNone), some leaves)
      | none => do return (true, some (← assigned leaves position item))

/-- An item of the wanted type has been drawn for a position. -/
def settleIndep (output : List Int) (leaves : Option (List Int)) (position r : Nat) (item itemType : Int)
    (child : Option Bucket) : Exec Slot := do
  if item ∈ (output.take call.end_).drop call.outputPosition then return .hole leaves
  let (found, leaves) ← indepLeaf leaf call leaves position r item child
  if !found ∨ (itemType = 0 ∧ executor.isOut item call.seed) then return .hole leaves
  return .placed item leaves

/-- The descent for a position. -/
def descend (output : List Int) (leaves : Option (List Int)) (position r : Nat) : Nat → Bucket → Exec Slot
  | 0, _ => diverges
  | fuel + 1, current => do
    if current.items.length = 0 then return .hole leaves
    let item ← straw2Choose current call.seed r
    if item ≥ executor.crush.maxDevices then return .dead
    if item ≥ 0 then
      if call.targetType ≠ 0 then return .dead
      executor.settleIndep leaf call output leaves position r item 0 none
    else
      match executor.crush.buckets.lookup item with
      | none => return .dead
      | some child =>
        if (child.type : Int) ≠ call.targetType then descend output leaves position r fuel child
        else executor.settleIndep leaf call output leaves position r item child.type (some child)

/-- What is left to fill, the output and the leaves. -/
structure IndepState where
  left : Int
  output : List Int
  leaves : Option (List Int)

/-- One position in a round of failures. -/
def fillPosition (fuel : Nat) (bucket : Bucket) (failure position : Nat) (state : IndepState) : Exec IndepState := do
  if (← indexed state.output position) ≠ itemNone then return state
  match ← executor.descend leaf call state.output state.leaves position
      (position + call.parentR + call.replicas * failure) fuel bucket with
  | .hole leaves => return { state with leaves }
  | .dead => return { state with left := state.left - 1 }
  | .placed item leaves => return ⟨state.left - 1, ← assigned state.output position item, leaves⟩

def fillPositions (fuel : Nat) (bucket : Bucket) (failure : Nat) : List Nat → IndepState → Exec IndepState
  | [], state => return state
  | position :: positions, state => do
    let state ← executor.fillPosition leaf call fuel bucket failure position state
    fillPositions fuel bucket failure positions state

/-- The rounds of failures from the given one on. -/
def fillRounds (fuel : Nat) (bucket : Bucket) : Nat → Nat → IndepState → Exec IndepState
  | 0, _, state => return state
  | rounds + 1, failure, state =>
    if state.left ≤ 0 then return state
    else do
      let positions := (List.range call.end_).drop call.outputPosition
      let state ← executor.fillPositions leaf call fuel bucket failure positions state
      fillRounds fuel bucket rounds (failure + 1) state

end ChooseIndep

/-- The loop that empties the slots of a call. -/
def emptySlots (values : List Int) : List Nat → Except Fault (List Int)
  | [] => .ok values
  | position :: positions => do
    let values ← assigned values position itemNone
    emptySlots values positions

def emptyLeaves (leaves : Option (List Int)) (positions : List Nat) : Except Fault (Option (List Int)) :=
  match leaves with
  | none => .ok none
  | some leaves => do return some (← emptySlots leaves positions)

/-- The body of `chooseIndep`, with the recursive call as a parameter. -/
def chooseIndepWith (leaf : IndepLeafChooser) (call : Indep) (fuel : Nat) (bucket : Bucket) (output : List Int)
    (leaves : Option (List Int)) : Exec IndepState := do
  let positions := (List.range call.end_).drop call.outputPosition
  let output ← emptySlots output positions
  let leaves ← emptyLeaves leaves positions
  executor.fillRounds leaf call fuel bucket call.tries 0 ⟨call.end_ - call.outputPosition, output, leaves⟩

def leafIndep (fuel : Nat) (call : Indep) : IndepLeafChooser := fun child r leaves position => do
  let inner := { call with
    targetType := 0, outputPosition := position, end_ := position + 1, tries := call.recurseTries, recurseTries := 0,
    recurseToLeaf := false, parentR := r }
  let state ← executor.chooseIndepWith (fun _ _ leaves _ => return leaves) inner fuel child leaves none
  return state.output

def chooseIndep (fuel : Nat) (call : Indep) (bucket : Bucket) (output : List Int) (leaves : Option (List Int)) :
    Exec IndepState :=
  executor.chooseIndepWith (executor.leafIndep fuel call) call fuel bucket output leaves

/-- The variables of `rule`. -/
structure RuleState where
  working : List Int
  output : List Int
  leaves : List Int
  workingSize : Nat := 0
  result : List Int := []
  chooseTries : Nat
  chooseleafTries : Nat := 0

section Rule

variable (fuel : Nat) (seed : UInt32) (resultMaximum : Nat)

/-- One bucket of the working set in a choose step. The size of the output grows. -/
def chooseFrom (step : RuleStep) (id : Int) (outputSize : Nat) (state : RuleState) : Exec (Nat × RuleState) := do
  let crush := executor.crush
  let number := if step.argument1 ≤ 0 then step.argument1 + resultMaximum else step.argument1
  if number ≤ 0 then return (outputSize, state)
  match crush.buckets.lookup id with
  | none => return (outputSize, state)
  | some bucket =>
    let recurseToLeaf := step.operation == ruleChooseleafFirstN
    if step.operation = ruleChooseIndep then
      let count := min number.toNat (resultMaximum - outputSize)
      let recurse := if state.chooseleafTries = 0 then 1 else state.chooseleafTries
      let chosen ← executor.chooseIndep fuel
        ⟨seed, number.toNat, step.argument2, outputSize, outputSize + count, state.chooseTries, recurse,
          recurseToLeaf, 0⟩
        bucket state.output (some state.leaves)
      return (outputSize + count, { state with output := chosen.output, leaves := chosen.leaves.getD state.leaves })
    else
      let recurseTries := if crush.chooseleafDescendOnce ≠ 0 then 1 else crush.chooseTotalTries + 1
      let (chosen, output, leaves) ← executor.chooseFirstN fuel
        ⟨seed, number.toNat, step.argument2, state.chooseTries, recurseTries, crush.chooseLocalTries,
          crush.chooseLocalFallbackTries, recurseToLeaf, crush.chooseleafVaryR, crush.chooseleafStable != 0, 0⟩
        bucket (state.output.drop outputSize) 0 (resultMaximum - outputSize) (state.leaves.drop outputSize)
      return (outputSize + chosen, { state with
        output := state.output.take outputSize ++ output, leaves := state.leaves.take outputSize ++ leaves })

def chooseFromAll (step : RuleStep) : List Int → Nat → RuleState → Exec (Nat × RuleState)
  | [], outputSize, state => return (outputSize, state)
  | id :: ids, outputSize, state => do
    let (outputSize, state) ← executor.chooseFrom fuel seed resultMaximum step id outputSize state
    chooseFromAll step ids outputSize state

def ruleStep (step : RuleStep) (state : RuleState) : Exec RuleState := do
  if step.operation = ruleSetChooseTries then
    return if step.argument1 > 0 then { state with chooseTries := step.argument1.toNat } else state
  else if step.operation = ruleSetChooseleafTries then
    return if step.argument1 > 0 then { state with chooseleafTries := step.argument1.toNat } else state
  else if step.operation = ruleTake then
    if executor.validTake step.argument1 then
      return { state with working := ← assigned state.working 0 step.argument1, workingSize := 1 }
    else return state
  else if step.operation = ruleChooseFirstN ∨ step.operation = ruleChooseleafFirstN ∨
      step.operation = ruleChooseIndep then
    if state.workingSize = 0 then return state
    let (outputSize, state) ←
      executor.chooseFromAll fuel seed resultMaximum step (state.working.take state.workingSize) 0 state
    let output :=
      if step.operation = ruleChooseleafFirstN then state.leaves.take outputSize ++ state.output.drop outputSize
      else state.output
    return { state with working := output, output := state.working, workingSize := outputSize }
  else if step.operation = ruleEmit then
    let remaining := min (resultMaximum - state.result.length) state.workingSize
    return { state with result := state.result ++ state.working.take remaining, workingSize := 0 }
  else throw (.err (GoError.errorf Sentinel.placement s!"rule operation {step.operation}"))

def ruleSteps : List RuleStep → RuleState → Exec RuleState
  | [], state => return state
  | step :: steps, state => do
    let state ← executor.ruleStep fuel seed resultMaximum step state
    ruleSteps steps state

def rule (rule : Rule) : Exec (List Int) := do
  let slots := List.replicate resultMaximum 0
  let state ← executor.ruleSteps fuel seed resultMaximum rule.steps
    { working := slots, output := slots, leaves := slots, chooseTries := executor.crush.chooseTotalTries + 1 }
  return state.result

end Rule

end Placement

namespace CrushMap

variable (crushMap : CrushMap)

def hasBucketType (bucketType : Nat) : Bool := crushMap.buckets.any fun _ bucket => bucket.type == bucketType

def replicatedProfileError : GoError :=
  GoError.errorf Sentinel.placement "rule is outside certified replicated profile"

def erasureProfileError : GoError := GoError.errorf Sentinel.placement "rule is outside certified erasure profile"

/-- The steps of a certified rule, and the place of its TAKE. -/
def takeIndex (rule : Rule) : Except GoError Nat :=
  if rule.type = ruleTypeReplicated then
    match rule.steps with
    | [take, choose, emit] =>
      if take.operation ≠ ruleTake ∨ emit ≠ ⟨ruleEmit, 0, 0⟩ then .error replicatedProfileError
      else if choose = ⟨ruleChooseFirstN, 0, 0⟩ then .ok 0
      else if choose.operation ≠ ruleChooseleafFirstN ∨ choose.argument1 ≠ 0 ∨ choose.argument2 ≤ 0 ∨
          !crushMap.hasBucketType (choose.argument2 % 2 ^ 16).toNat then .error replicatedProfileError
      else .ok 0
    | _ => .error replicatedProfileError
  else
    match rule.steps with
    | [leafTries, tries, take, choose, emit] =>
      if leafTries ≠ ⟨ruleSetChooseleafTries, 5, 0⟩ ∨ tries ≠ ⟨ruleSetChooseTries, 100, 0⟩ ∨
          take.operation ≠ ruleTake ∨ choose ≠ ⟨ruleChooseIndep, 0, 0⟩ ∨ emit.operation ≠ ruleEmit then
        .error erasureProfileError
      else .ok 2
    | _ => .error erasureProfileError

def validateCertifiedRule (rule : Rule) : Except GoError Unit := do
  let index ← crushMap.takeIndex rule
  let root := ((rule.steps[index]?).map RuleStep.argument1).getD 0
  if root ∉ crushMap.buckets then throw (GoError.errorf Sentinel.placement s!"TAKE root {root} does not exist")
  if root ∈ crushMap.classShadowBuckets then throw (GoError.errorf Sentinel.placement "class-constrained root")
  if crushMap.chooseLocalTries ≠ 0 ∨ crushMap.chooseLocalFallbackTries ≠ 0 ∨ crushMap.chooseTotalTries ≠ 50 ∨
      crushMap.chooseleafDescendOnce ≠ 1 ∨ crushMap.chooseleafVaryR ≠ 1 ∨ crushMap.chooseleafStable ≠ 1 then
    throw (GoError.errorf Sentinel.placement "tunables are outside certified Tentacle profile")

def placeRule (fuel : Nat) (rule : Rule) (seed : UInt32) (replicas : Nat) (osdWeights : List Nat) :
    Option (Except Fault (List Int)) :=
  let run := (Placement.mk crushMap osdWeights).rule fuel seed replicas rule
  (run.run' fun _ => none).run

/-- The checks of `Place` before the rule is run. -/
def certify (first second : List Int) (ruleID : Nat) (replicas : Int) : Except GoError Rule := do
  if replicas ≤ 0 ∨ replicas > maxCertifiedReplicas then throw (GoError.sentinel .placement)
  match crushMap.rules.lookup ruleID with
  | none => throw (GoError.errorf Sentinel.placement s!"rule {ruleID} does not exist")
  | some rule =>
    if rule.type ≠ ruleTypeReplicated ∧ rule.type ≠ ruleTypeErasure then
      throw (GoError.errorf Sentinel.placement s!"rule {ruleID} type {rule.type}")
    crushMap.validateCertifiedRule rule
    match crushMap.validateGraph first second with
    | .error err => throw (GoError.errorfText Sentinel.placement err)
    | .ok () => return rule

/-- The two orders are those of the loops over the buckets. -/
def place (first second : List Int) (fuel ruleID : Nat) (seed : UInt32) (replicas : Int) (osdWeights : List Nat) :
    Option (Except Fault (List Int)) :=
  match crushMap.certify first second ruleID replicas with
  | .error err => some (.error (.err err))
  | .ok rule => crushMap.placeRule fuel rule seed replicas.toNat osdWeights

end CrushMap

end RadosGo.Crush
