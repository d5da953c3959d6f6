import RadosGo.Library.GoMap
import RadosGo.Wire.Codec

namespace RadosGo.Crush

def magic : Nat := 0x00010000
def bucketStraw2 : Nat := 5
def hashRJenkins1 : Nat := 0
def ruleTake : Nat := 1
def ruleChooseFirstN : Nat := 2
def ruleChooseIndep : Nat := 3
def ruleEmit : Nat := 4
def ruleChooseleafFirstN : Nat := 6
def ruleSetChooseTries : Nat := 8
def ruleSetChooseleafTries : Nat := 9
def ruleTypeReplicated : Nat := 1
def ruleTypeErasure : Nat := 3

structure DecodeLimits where
  maxBytes : Nat
  maxBuckets : Nat
  maxRules : Nat
  maxItems : Nat
  maxNames : Nat

def maxCertifiedRetries : Nat := 1000
def maxCertifiedDepth : Nat := 64

structure Bucket where
  id : Int
  type : Nat
  weight : Nat
  items : List Int
  itemWeights : List Nat
  deriving DecidableEq, Repr

structure RuleStep where
  operation : Nat
  argument1 : Int := 0
  argument2 : Int := 0
  deriving DecidableEq, Repr

structure Rule where
  type : Nat
  minSize : Nat
  maxSize : Nat
  steps : List RuleStep
  deriving DecidableEq, Repr

/-- A decoded map, with the tunables which an old payload leaves out. -/
structure CrushMap where
  maxDevices : Int
  buckets : GoMap Int Bucket := ∅
  rules : GoMap Nat Rule := ∅
  chooseLocalTries : Nat := 2
  chooseLocalFallbackTries : Nat := 5
  chooseTotalTries : Nat := 19
  chooseleafDescendOnce : Nat := 0
  chooseleafVaryR : Nat := 0
  strawCalcVersion : Nat := 0
  allowedBucketAlgorithms : Nat := 2 ^ 1 + 2 ^ 2 + 2 ^ 4
  chooseleafStable : Nat := 0
  msrDescents : Nat := 0
  msrCollisionTries : Nat := 0
  classShadowBuckets : Finset Int := ∅
  deriving DecidableEq

section Decode

open Decoding

variable (limits : DecodeLimits)

/-- The bucket in a slot, unless the slot is empty. -/
def decodeBucket (index : Nat) : Decoding (Option Bucket) := do
  let algorithm ← uint32
  if algorithm = 0 then return none
  if algorithm ≠ bucketStraw2 then
    throw (GoError.errorf Sentinel.unsupportedCrush s!"bucket algorithm {algorithm}")
  let id ← int32
  let type ← uint16
  let encodedAlgorithm ← uint8
  let hash ← uint8
  let weight ← uint32
  let count ← uint32
  finish
  if id ≠ -1 - index ∨ encodedAlgorithm ≠ bucketStraw2 ∨ hash ≠ hashRJenkins1 then
    throw (GoError.errorf Sentinel.wireMalformed s!"invalid straw2 bucket {id}")
  if count > limits.maxItems then throw (GoError.sentinel .wireLimitExceeded)
  if count * 8 > (← remaining) then throw (GoError.sentinel .wireMalformed)
  let items ← readMany int32 count
  let itemWeights ← readMany uint32 count
  return some ⟨id, type, weight, items, itemWeights⟩

def decodeBuckets : Nat → Nat → GoMap Int Bucket → Decoding (GoMap Int Bucket)
  | 0, _, buckets => return buckets
  | count + 1, index, buckets => do
    match ← decodeBucket limits index with
    | none => decodeBuckets count (index + 1) buckets
    | some bucket => decodeBuckets count (index + 1) (buckets.insert bucket.id bucket)

def decodeRuleStep : Decoding RuleStep := do
  let operation ← uint32
  let argument1 ← int32
  let argument2 ← int32
  return ⟨operation, argument1, argument2⟩

def decodeRule (index : Nat) : Decoding (Option Rule) := do
  if (← uint32) = 0 then return none
  let count ← uint32
  if count > limits.maxItems then throw (GoError.sentinel .wireLimitExceeded)
  if count * 12 + 4 > (← remaining) then throw (GoError.sentinel .wireMalformed)
  let ruleID ← uint8
  let type ← uint8
  let minSize ← uint8
  let maxSize ← uint8
  if ruleID ≠ index then throw (GoError.errorf Sentinel.wireMalformed s!"rule {index} identity")
  let steps ← readMany decodeRuleStep count
  return some ⟨type, minSize, maxSize, steps⟩

def decodeRules : Nat → Nat → GoMap Nat Rule → Decoding (GoMap Nat Rule)
  | 0, _, rules => return rules
  | count + 1, index, rules => do
    match ← decodeRule limits index with
    | none => decodeRules count (index + 1) rules
    | some rule => decodeRules count (index + 1) (rules.insert index rule)

def consumeNameMap : Decoding Unit := do
  let count ← uint32
  if count > limits.maxNames then throw (GoError.sentinel .wireLimitExceeded)
  let _ ← readMany (do let _ ← int32; string) count
  finish

def consumeIntMap : Decoding Unit := do
  let count ← uint32
  if count > limits.maxNames then throw (GoError.sentinel .wireLimitExceeded)
  if count * 8 > (← remaining) then throw (GoError.sentinel .wireMalformed)
  let _ ← readMany (do let _ ← int32; int32) count
  finish

/-- The values of the inner maps. -/
def consumeInnerMap : Decoding (List Int) := do
  let _ ← int32
  let inner ← uint32
  if inner > limits.maxNames then throw (GoError.sentinel .wireLimitExceeded)
  if inner * 8 > (← remaining) then throw (GoError.sentinel .wireMalformed)
  readMany (do let _ ← int32; int32) inner

def consumeNestedIntMap : Decoding (Finset Int) := do
  let count ← uint32
  if count > limits.maxNames then throw (GoError.sentinel .wireLimitExceeded)
  let values ← readMany (consumeInnerMap limits) count
  finish
  return values.flatten.toFinset

/-- A field at the end of the payload is read if enough bytes are left for it. -/
def whenLeft {α : Type} (size : Nat) (default : α) (read : Decoding α) : Decoding α := do
  if (← remaining) ≥ size then read else return default

def decodeTries (result : CrushMap) : Decoding CrushMap := do
  let chooseLocalTries ← uint32
  let chooseLocalFallbackTries ← uint32
  let chooseTotalTries ← uint32
  if chooseLocalTries > maxCertifiedRetries ∨ chooseLocalFallbackTries > maxCertifiedRetries ∨
      chooseTotalTries ≥ maxCertifiedRetries then
    throw (GoError.errorf Sentinel.unsupportedCrush "retry tunables exceed certified limit")
  return { result with chooseLocalTries, chooseLocalFallbackTries, chooseTotalTries }

/-- The device classes, of which only the shadow buckets are kept. -/
def decodeClasses (result : CrushMap) : Decoding CrushMap := do
  consumeIntMap limits
  consumeNameMap limits
  let shadowBuckets ← consumeNestedIntMap limits
  if (← uint32) ≠ 0 then throw (GoError.errorf Sentinel.unsupportedCrush "choose arguments")
  return { result with classShadowBuckets := shadowBuckets }

def decodeMSR (result : CrushMap) : Decoding CrushMap := do
  let msrDescents ← uint32
  let msrCollisionTries ← uint32
  return { result with msrDescents, msrCollisionTries }

def decodeTunables (result : CrushMap) : Decoding CrushMap := do
  let result ← whenLeft 12 result (decodeTries result)
  let chooseleafDescendOnce ← whenLeft 4 result.chooseleafDescendOnce uint32
  let chooseleafVaryR ← whenLeft 1 result.chooseleafVaryR uint8
  let strawCalcVersion ← whenLeft 1 result.strawCalcVersion uint8
  let allowedBucketAlgorithms ← whenLeft 4 result.allowedBucketAlgorithms uint32
  let chooseleafStable ← whenLeft 1 result.chooseleafStable uint8
  let result := { result with
    chooseleafDescendOnce, chooseleafVaryR, strawCalcVersion, allowedBucketAlgorithms, chooseleafStable }
  let result ← whenLeft 1 result (decodeClasses limits result)
  whenLeft 8 result (decodeMSR result)

def decodePayload : Decoding CrushMap := do
  if (← uint32) ≠ magic then throw (GoError.errorf Sentinel.wireMalformed "bad CRUSH magic")
  let maxBuckets ← int32
  let maxRules ← uint32
  let maxDevices ← int32
  finish
  if maxBuckets < 0 ∨ maxBuckets > limits.maxBuckets ∨ maxRules > limits.maxRules ∨
      maxDevices < 0 ∨ maxDevices > limits.maxItems then
    throw (GoError.sentinel .wireLimitExceeded)
  let buckets ← decodeBuckets limits maxBuckets.toNat 0 ∅
  let rules ← decodeRules limits maxRules 0 ∅
  consumeNameMap limits
  consumeNameMap limits
  consumeNameMap limits
  let result ← decodeTunables limits { maxDevices, buckets, rules }
  if (← remaining) ≠ 0 then throw (GoError.sentinel .wireMalformed)
  finish
  return result

end Decode

/-- The maps `states` and `heights` of the depth-first search. -/
structure Search where
  states : Int → Nat := fun _ => 0
  heights : Int → Nat := fun _ => 0

namespace CrushMap

variable (crushMap : CrushMap)

def depthError : GoError :=
  GoError.errorf Sentinel.unsupportedCrush s!"bucket graph exceeds certified depth {maxCertifiedDepth}"

/-- The loop over the items of a bucket, with the height found so far. -/
def visitItems (visit : Int → Search → Except GoError (Nat × Search)) :
    List Int → Nat → Search → Except GoError (Nat × Search)
  | [], height, search => .ok (height, search)
  | item :: items, height, search =>
    if item ≥ 0 then
      if item ≥ crushMap.maxDevices then .error (GoError.errorf Sentinel.wireMalformed s!"device {item} exceeds max")
      else visitItems visit items height search
    else if item ∉ crushMap.buckets then .error (GoError.errorf Sentinel.wireMalformed s!"missing bucket {item}")
    else
      match visit item search with
      | .error err => .error err
      | .ok (childHeight, search) => visitItems visit items (max height (childHeight + 1)) search

/-- The visit of a bucket at depth `maxCertifiedDepth + 1 - room`. -/
def visit : Nat → Int → Search → Except GoError (Nat × Search)
  | 0, _, _ => .error depthError
  | room + 1, id, search =>
    if search.states id = 1 then .error (GoError.errorf Sentinel.wireMalformed "cyclic bucket graph")
    else if search.states id = 2 then
      -- The depth and the height together, without the bucket counted twice.
      if maxCertifiedDepth - room + search.heights id - 1 > maxCertifiedDepth then .error depthError
      else .ok (search.heights id, search)
    else
      let items := ((crushMap.buckets.lookup id).map Bucket.items).getD []
      match visitItems crushMap (visit room) items 1 { search with states := Function.update search.states id 1 } with
      | .error err => .error err
      | .ok (height, search) =>
        .ok (height, ⟨Function.update search.states id 2, Function.update search.heights id height⟩)

def validateBuckets : List Int → Except GoError Unit
  | [] => .ok ()
  | id :: order =>
    match crushMap.buckets.lookup id with
    | none => validateBuckets order
    | some bucket =>
      if id ≥ 0 ∨ bucket.id ≠ id then
        .error (GoError.errorf Sentinel.wireMalformed s!"invalid bucket identity {id}/{bucket.id}")
      else if bucket.items.length ≠ bucket.itemWeights.length then
        .error (GoError.errorf Sentinel.wireMalformed s!"bucket {id} item/weight lengths differ")
      else validateBuckets order

def visitBuckets : List Int → Search → Except GoError Unit
  | [], _ => .ok ()
  | id :: order, search =>
    match visit crushMap maxCertifiedDepth id search with
    | .error err => .error err
    | .ok (_, search) => visitBuckets order search

/-- The two loops over the buckets, each in an order of its own. -/
def validateGraph (first second : List Int) : Except GoError Unit := do
  validateBuckets crushMap first
  visitBuckets crushMap second {}

end CrushMap

def decodeMap (first second : GoMap Int Bucket → List Int) (data : Bytes) (limits : DecodeLimits) :
    Except GoError CrushMap := do
  if limits.maxBytes = 0 ∨ limits.maxBuckets = 0 ∨ limits.maxRules = 0 ∨ limits.maxItems = 0 ∨
    limits.maxNames = 0 then
    throw (GoError.sentinel .wireLimitExceeded)
  let result ← ((decodePayload limits).eval (newDecoder data limits.maxBytes)).1
  result.validateGraph (first result.buckets) (second result.buckets)
  return result

end RadosGo.Crush
