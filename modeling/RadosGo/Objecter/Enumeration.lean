import RadosGo.Object.Cursor

namespace RadosGo

open WordOrder

structure ListEntry where
  namespace_ : Bytes
  object : Bytes
  locator : Bytes
  deriving DecidableEq, Repr

structure ListPage where
  next : HObject
  entries : List ListEntry
  deriving DecidableEq, Repr

structure EnumerationResult where
  entries : List ListEntry := []
  next : HObject
  deriving DecidableEq, Repr

/-- The answers of the function that fetches a page and the cursors of its entries.
The number of earlier calls is an argument, for it need not answer the same twice. -/
abbrev Fetch := Nat → HObject → Nat → Except GoError (ListPage × List HObject)

/-- The bytes which Go allocates at once at most on a 64-bit platform. -/
def maxAlloc : Nat := 2 ^ 48

/-- The bytes of a `ListEntry`: three string headers. -/
def listEntrySize : Nat := 48

/-- The loop over the entries of a page. -/
def validateEntries (next : HObject) : HObject → List HObject → Except GoError Unit
  | _, [] => .ok ()
  | previous, entry :: entries =>
    if compareHObject entry previous = .lt ∨ (!next.isMax ∧ compareHObject entry next ≠ .lt) then
      .error Sentinel.malformedReply
    else validateEntries next entry entries

/-- What the checks of a page ensure. -/
theorem validateEntries_ok {next previous : HObject} {entries : List HObject}
    (valid : validateEntries next previous entries = .ok ()) :
    entries.Pairwise (fun left right => left.position ≤ right.position) ∧
      (∀ entry ∈ entries, previous.position ≤ entry.position) ∧
      (next.max = false → ∀ entry ∈ entries, entry.position < next.position) := by
  induction entries generalizing previous with
  | nil => exact ⟨.nil, nofun, nofun⟩
  | cons entry rest ih =>
    rw [validateEntries] at valid
    split at valid
    · cases valid
    · next accepted =>
      simp only [HObject.isMax, not_or, not_and, Bool.not_eq_true', not_not, compareHObject_eq_lt_iff,
        not_lt] at accepted
      obtain ⟨sorted, above, below⟩ := ih valid
      refine ⟨.cons above sorted, ?_, fun notMax => ?_⟩
      · exact List.forall_mem_cons.mpr ⟨accepted.1, fun other member => accepted.1.trans (above other member)⟩
      · exact List.forall_mem_cons.mpr ⟨accepted.2 notMax, below notMax⟩

def validateEnumerationPage (poolID : Int64) (start next : HObject) (entries : List HObject) :
    Except GoError Unit := do
  if !next.isMax ∧ (next.isMin ∨ next.snapshot ≠ noSnap ∨ next.pool ≠ poolID.toInt) then
    throw (GoError.sentinel .malformedReply)
  validateEntries next start entries
  if !next.isMax ∧ compareHObject next start ≠ .gt then throw (GoError.sentinel .malformedReply)

section EnumeratePages

variable (fetch : Fetch) (poolID : Int64) (start end_ : HObject) (limit : Nat)

/-- One round of the loop: what lies beyond the end is dropped from the back of the
page, then what exceeds the limit. -/
def enumerateRound (round : Nat) (result : EnumerationResult) : Except GoError EnumerationResult := do
  let remaining := limit - result.entries.length
  let (page, entryCursors) ← fetch round result.next remaining
  if entryCursors.length ≠ page.entries.length then throw (GoError.sentinel .malformedReply)
  validateEnumerationPage poolID result.next page.next entryCursors
  let beyond := compareHObject page.next end_ = .gt
  let next := if beyond then end_ else page.next
  let entryCount :=
    if beyond then (entryCursors.rdropWhile fun cursor => compareHObject cursor end_ ≠ .lt).length
    else page.entries.length
  let available := limit - result.entries.length
  let next := if entryCount > available then entryCursors.getD available next else next
  let entryCount := min entryCount available
  return { entries := result.entries ++ page.entries.take entryCount, next }

/-- The loop, which is given up when its fuel runs out. -/
def enumerateLoop : Nat → Nat → EnumerationResult → Option (Except Fault EnumerationResult)
  | 0, _, _ => none
  | fuel + 1, round, result =>
    if result.entries.length < limit ∧ compareHObject result.next end_ = .lt then
      match enumerateRound fetch poolID end_ limit round result with
      | .error err => some (.error (.err err))
      | .ok result => enumerateLoop fuel (round + 1) result
    else some (.ok result)

/-- The slice for the entries is made with the limit as its capacity. -/
def enumeratePages (fuel : Nat) : Option (Except Fault EnumerationResult) :=
  if compareHObject start end_ = .eq then some (.ok { next := end_ })
  else if limit * listEntrySize > maxAlloc then some (.error (.panicked "runtime error: makeslice: cap out of range"))
  else enumerateLoop fetch poolID end_ limit fuel 0 { next := start }

end EnumeratePages

/-- The entries of a page, each checked as soon as it is read. -/
def decodeListEntries : Nat → Decoding (List ListEntry)
  | 0 => return []
  | count + 1 => do
    let namespace_ ← Decoding.string
    let object ← Decoding.string
    let locator ← Decoding.string
    Decoding.finish
    return ⟨namespace_, object, locator⟩ :: (← decodeListEntries count)

def decodePGNLSPayload (maxEntries : Nat) : Decoding ListPage := do
  let next ← decodeHObject
  let count ← Decoding.uint32
  Decoding.finish
  if count > maxEntries ∨ count > maxInt ∨ count * 12 > (← Decoding.remaining) then
    throw (GoError.sentinel .wireLimitExceeded)
  let entries ← decodeListEntries count
  if (← Decoding.remaining) ≠ 0 then throw (GoError.errorf Sentinel.wireMalformed "trailing PGNLS response bytes")
  return ⟨next, entries⟩

def decodePGNLSEnvelope (maxEntries : Nat) : Decoding ListPage := do
  let (version, payload) ← Decoding.versioned 1
  Decoding.finish
  if version ≠ 1 then throw (GoError.errorf Sentinel.unsupportedVersion s!"PGNLS response version {version}")
  Decoding.within payload (decodePGNLSPayload maxEntries)

def decodePGNLSPage (data : Bytes) (maxBytes maxEntries : Nat) : Except GoError ListPage :=
  ((decodePGNLSEnvelope maxEntries).eval (newDecoder data maxBytes)).1

/-- What a listing reads of an OSD map. -/
structure PlacementMap where
  hasPool : Int64 → Bool
  rawHash : Int64 → Bytes → Bytes → Bytes → Except GoError UInt32

/-- The client as a listing uses it. The replies of the OSDs and the maps may change
from one fetch to the next. -/
structure ListingClient where
  maxBytes : Nat
  maxBytes_le : maxBytes ≤ maxUint32
  closed : Option GoError := none
  routeError : Nat → HObject → Option GoError := fun _ _ => none
  reply : Nat → HObject → Nat → Except GoError Bytes
  osdMap : Nat → Option PlacementMap
  wrapError : GoError → GoError

namespace ListingClient

def maxEnumerationEntries (client : ListingClient) : Nat := client.maxBytes / 12

def pgnls (client : ListingClient) (poolID : Int64) (round : Nat) (cursor : HObject) (count : Nat) :
    Except GoError ListPage := do
  if count = 0 ∨ (!cursor.isMin ∧ (cursor.pool ≠ poolID.toInt ∨ cursor.snapshot ≠ noSnap ∨ cursor.isMax)) then
    throw (GoError.sentinel .wireMalformed)
  if let some err := client.routeError round cursor then throw err
  let _ ← marshalHObject cursor client.maxBytes
  let data ← client.reply round cursor count
  decodePGNLSPage data client.maxBytes (client.maxBytes / 12)

def enumerationEntryCursors (client : ListingClient) (poolID : Int64) (namespace_ : Bytes) (round : Nat)
    (entries : List ListEntry) : Except GoError (List HObject) :=
  match client.osdMap round with
  | none => .error Sentinel.noPrimary
  | some osdMap =>
    if !osdMap.hasPool poolID then .error (.errno (-2))
    else entries.mapM fun entry => do
      if namespace_ ≠ [1] ∧ entry.namespace_ ≠ namespace_ then throw (GoError.sentinel .malformedReply)
      let hash ← osdMap.rawHash poolID entry.object entry.locator entry.namespace_
      return { key := entry.locator, object := entry.object, snapshot := noSnap, hash, namespace_ := entry.namespace_,
               pool := poolID.toInt }

def fetch (client : ListingClient) (poolID : Int64) (namespace_ : Bytes) : Fetch := fun round cursor count => do
  let page ← client.pgnls poolID round cursor count
  let entryCursors ← client.enumerationEntryCursors poolID namespace_ round page.entries
  return (page, entryCursors)

def enumerate (client : ListingClient) (poolID : Int64) (namespace_ : Bytes) (start end_ : HObject)
    (limit fuel : Nat) : Option (Except Fault EnumerationResult) :=
  if limit = 0 ∨ limit > client.maxEnumerationEntries ∨ start.isMax ∨
      (!end_.isMax ∧ compareHObject start end_ = .gt) then
    some (.error (.err Sentinel.wireMalformed))
  else enumeratePages (client.fetch poolID namespace_) poolID start end_ limit fuel

end ListingClient

end RadosGo
