import RadosGo.Object.Split
import RadosGo.Objecter.Enumeration

namespace RadosGo

open List WordOrder

structure ObjectEntry where
  name : Bytes
  namespace_ : Bytes
  locator : Bytes
  deriving DecidableEq, Repr

structure ObjectPage where
  values : List ObjectEntry
  next : ObjectCursor
  more : Bool := false
  deriving DecidableEq

def cursorBefore (left right : ObjectCursor) : Except GoError Bool :=
  match compareObjectCursors left right with
  | .error err => .error err
  | .ok comparison => .ok (comparison = .lt)

namespace Pool

/-- An `OpError` of a listing, without a code. -/
def listError (pool : Pool) (cause : GoError) : Fault :=
  .err (.wrap (s!"rados list objects failed for pool {pool.id.toInt}: " ++ cause.text) cause)

def nextCursor (pool : Pool) (next : HObject) : Except Fault ObjectCursor :=
  if next.isMax then .ok pool.endObjectCursor else newObjectCursor pool.id pool.namespace_ next

/-- The page for what `Enumerate` has returned. -/
def listedPage (pool : Pool) (end_ : ObjectCursor) (result : EnumerationResult) : Except Fault ObjectPage := do
  let values := result.entries.map fun entry => ⟨entry.object, entry.namespace_, entry.locator⟩
  let next ← pool.nextCursor result.next
  match cursorBefore next end_ with
  | .error _ => .error (pool.listError Sentinel.invalidArgument)
  | .ok more => .ok { values, next, more }

def listObjectsRange (pool : Pool) (client : Option ListingClient) (after end_ : ObjectCursor) (limit fuel : Nat) :
    Option (Except Fault ObjectPage) :=
  let invalid := some (.error (pool.listError Sentinel.invalidArgument))
  match client with
  | none => invalid
  | some client =>
    if !pool.ownsCursor after ∨ !pool.ownsCursor end_ ∨ limit = 0 ∨ limit > maxInt then invalid
    else
      match compareObjectCursors after end_ with
      | .error _ | .ok .gt => invalid
      | .ok comparison =>
        match client.closed with
        | some err => some (.error (.err (client.wrapError err)))
        | none =>
          if limit > client.maxEnumerationEntries then invalid
          else if comparison = .eq then some (.ok { values := [], next := end_ })
          else
            match after.hobject, end_.hobject with
            | .error err, _ | .ok _, .error err =>
              some (.error (pool.listError
                (.join (Sentinel.invalidArgument.text ++ "\n" ++ err.text) Sentinel.invalidArgument err)))
            | .ok start, .ok finish =>
              match client.enumerate pool.id pool.namespace_ start finish limit fuel with
              | none => none
              | some (.error (.err err)) => some (.error (.err (client.wrapError err)))
              | some (.error (.panicked message)) => some (.error (.panicked message))
              | some (.ok result) => some (pool.listedPage end_ result)

end Pool

/-- The positions which an enumeration returns: the end of the order or a position of the pool. -/
def HObject.Placed (object : HObject) (poolID : Int64) : Prop :=
  object.max = true ∨ object.Representable ∧ object.InPool poolID

theorem validateEnumerationPage_ok {poolID : Int64} {start next : HObject} {entries : List HObject}
    (valid : validateEnumerationPage poolID start next entries = .ok ()) :
    (next.max = true ∨ next.InPool poolID) ∧ validateEntries next start entries = .ok () := by
  rw [validateEnumerationPage] at valid
  split at valid
  · cases valid
  · next accepted =>
    obtain ⟨⟨⟩, entries, -⟩ := except_bind_ok valid
    refine ⟨?_, entries⟩
    simp only [HObject.isMax, not_or, not_and, Bool.not_eq_true', not_not] at accepted
    cases notMax : next.max with
    | true => exact .inl rfl
    | false => exact .inr ⟨notMax, .inr ⟨(accepted notMax).2.2, (accepted notMax).2.1⟩⟩

variable {fetch : Fetch} {poolID : Int64} {end_ : HObject} {limit round : Nat} {result result' : EnumerationResult}

/-- The answers of a fetch are in the pool, apart from what the checks of a page ensure. -/
def FetchPlaced (poolID : Int64) (fetch : Fetch) : Prop :=
  ∀ round cursor count page entryCursors, fetch round cursor count = .ok (page, entryCursors) →
    page.next.Representable ∧ ∀ entryCursor ∈ entryCursors, entryCursor.Placed poolID

/-- The entries of a page that are left before the end do not come after it. -/
theorem getD_kept_le {entryCursors : List HObject}
    (sorted : entryCursors.Pairwise fun left right => left.position ≤ right.position)
    {index : Nat} (kept : index < (entryCursors.rdropWhile fun cursor => compareHObject cursor end_ ≠ .lt).length)
    (fallback : HObject) : (entryCursors.getD index fallback).position ≤ end_.position := by
  have front := rdropWhile_prefix (fun cursor => decide (compareHObject cursor end_ ≠ .lt)) entryCursors
  generalize keptList : entryCursors.rdropWhile (fun cursor => decide (compareHObject cursor end_ ≠ .lt)) =
    keep at kept front
  have nonempty : keep ≠ [] := ne_nil_of_length_pos (Nat.zero_lt_of_lt kept)
  have last : (keep.getLast nonempty).position < end_.position := by
    subst keptList
    have inside := rdropWhile_last_not _ _ nonempty
    simpa [compareHObject_eq_lt_iff] using inside
  have same : entryCursors.getD index fallback = keep[index] := by
    obtain ⟨rest, rfl⟩ := front
    rw [getD_eq_getElem?_getD, getElem?_append_left kept, getElem?_eq_getElem kept, Option.getD_some]
  have inOrder := sorted.sublist front.sublist
  rw [same]
  rcases Nat.lt_or_eq_of_le (Nat.le_sub_one_of_lt kept) with before | atLast
  · have ordered := pairwise_iff_getElem.mp inOrder index (keep.length - 1) kept (by omega) before
    rw [← getLast_eq_getElem nonempty] at ordered
    exact ordered.trans last.le
  · have isLast : keep[index] = keep.getLast nonempty := by
      rw [getLast_eq_getElem]
      exact getElem_congr rfl atLast _
    exact (isLast ▸ last).le

theorem enumerateRound_next (placed : FetchPlaced poolID fetch) (endPlaced : end_.Placed poolID)
    (ran : enumerateRound fetch poolID end_ limit round result = .ok result') :
    result'.next.Placed poolID ∧ result'.next.position ≤ end_.position := by
  obtain ⟨⟨page, entryCursors⟩, fetched, ran⟩ := except_bind_ok ran
  dsimp only at ran
  split at ran
  · cases ran
  · next lengths =>
    obtain ⟨⟨⟩, valid, ran⟩ := except_bind_ok ran
    obtain ⟨pageNext, entries⟩ := validateEnumerationPage_ok valid
    obtain ⟨sorted, -, below⟩ := validateEntries_ok entries
    obtain ⟨representable, cursorsPlaced⟩ := placed _ _ _ _ _ fetched
    cases ran
    generalize limit - result.entries.length = available
    dsimp only
    have entryPlaced {index : Nat} (inside : index < entryCursors.length) (fallback : HObject) :
        (entryCursors.getD index fallback).Placed poolID := by
      rw [getD_eq_getElem?_getD, getElem?_eq_getElem inside, Option.getD_some]
      exact cursorsPlaced _ (getElem_mem inside)
    by_cases beyond : compareHObject page.next end_ = .gt
    · rw [if_pos beyond, if_pos beyond]
      split
      · next exceeds =>
        have inside := exceeds.trans_le (List.rdropWhile_prefix _ entryCursors).length_le
        exact ⟨entryPlaced inside end_, getD_kept_le sorted exceeds end_⟩
      · exact ⟨endPlaced, le_rfl⟩
    · have notAfter := compareHObject_ne_gt_iff.mp beyond
      rw [if_neg beyond, if_neg beyond]
      split
      · next exceeds =>
        have inside : available < entryCursors.length := by omega
        refine ⟨entryPlaced inside page.next, ?_⟩
        rw [getD_eq_getElem?_getD, getElem?_eq_getElem inside, Option.getD_some]
        cases isMax : page.next.max with
        | true => exact le_top.trans ((HObject.position_of_max isMax).symm.le.trans notAfter)
        | false => exact (below isMax _ (getElem_mem inside)).le.trans notAfter
      · exact ⟨pageNext.imp_right fun inPool => ⟨representable, inPool⟩, notAfter⟩

theorem enumerateLoop_next (placed : FetchPlaced poolID fetch) (endPlaced : end_.Placed poolID) {fuel : Nat}
    (startPlaced : result.next.Placed poolID) (notAfter : result.next.position ≤ end_.position)
    (ran : enumerateLoop fetch poolID end_ limit fuel round result = some (.ok result')) :
    result'.next.Placed poolID ∧ result'.next.position ≤ end_.position := by
  induction fuel generalizing round result with
  | zero => cases ran
  | succ fuel ih =>
    rw [enumerateLoop] at ran
    split at ran
    · split at ran
      · cases ran
      · next again =>
        obtain ⟨nextPlaced, nextNotAfter⟩ := enumerateRound_next placed endPlaced again
        exact ih nextPlaced nextNotAfter ran
    · obtain rfl := Except.ok.inj (Option.some.inj ran)
      exact ⟨startPlaced, notAfter⟩

namespace ListingClient

variable {client : ListingClient} {namespace_ : Bytes} {start finish : HObject} {fuel : Nat}

theorem decodePGNLSPayload_yields (maxEntries : Nat) :
    Decoding.Yields (decodePGNLSPayload maxEntries) fun page => page.next.Representable := by
  refine decodeHObject_yields.bind fun next representable => (Decoding.Yields.any _).bind fun count _ => ?_
  refine (Decoding.Yields.any _).bind fun _ _ => (Decoding.Yields.any _).bind fun _ _ => ?_
  have entries : Decoding.Yields (do
      let entries ← decodeListEntries count
      if (← Decoding.remaining) ≠ 0 then throw (GoError.errorf Sentinel.wireMalformed "trailing PGNLS response bytes")
      return (⟨next, entries⟩ : ListPage)) fun page => page.next.Representable := by
    refine (Decoding.Yields.any _).bind fun entries _ => (Decoding.Yields.any _).bind fun _ _ => ?_
    split
    · exact (Decoding.yields_throw _ fun _ => False).bind fun _ impossible => impossible.elim
    · exact Decoding.yields_pure representable
  split
  · exact (Decoding.yields_throw _ fun _ => False).bind fun _ impossible => impossible.elim
  · exact entries

theorem decodePGNLSPage_representable {data : Bytes} {maxBytes maxEntries : Nat} {page : ListPage}
    (decoded : decodePGNLSPage data maxBytes maxEntries = .ok page) : page.next.Representable := by
  have yields : Decoding.Yields (decodePGNLSEnvelope maxEntries) fun page => page.next.Representable := by
    refine (Decoding.Yields.any _).bind fun envelope _ => (Decoding.Yields.any _).bind fun _ _ => ?_
    split
    · exact (Decoding.yields_throw _ fun _ => False).bind fun _ impossible => impossible.elim
    · exact Decoding.yields_within (decodePGNLSPayload_yields maxEntries)
  exact yields (Prod.ext decoded rfl)

theorem enumerationEntryCursors_placed {entries : List ListEntry} {entryCursors : List HObject}
    (ran : client.enumerationEntryCursors poolID namespace_ round entries = .ok entryCursors) :
    ∀ entryCursor ∈ entryCursors, entryCursor.Placed poolID := by
  intro entryCursor member
  rw [enumerationEntryCursors] at ran
  split at ran
  · cases ran
  · split at ran
    · cases ran
    · obtain ⟨entry, -, made⟩ := mem_mapM_ok ran member
      split at made
      · cases made
      · obtain ⟨hash, -, made⟩ := except_bind_ok made
        cases made
        exact .inr ⟨⟨show noSnap < 2 ^ 64 by decide, poolID.le_toInt, poolID.toInt_lt⟩, rfl, .inr ⟨rfl, rfl⟩⟩

theorem fetch_placed (client : ListingClient) (poolID : Int64) (namespace_ : Bytes) :
    FetchPlaced poolID (client.fetch poolID namespace_) := by
  intro round cursor count page entryCursors fetched
  obtain ⟨page', decoded, fetched⟩ := except_bind_ok fetched
  obtain ⟨entryCursors', made, fetched⟩ := except_bind_ok fetched
  obtain ⟨rfl, rfl⟩ := Prod.mk.inj (Except.ok.inj fetched)
  refine ⟨?_, enumerationEntryCursors_placed made⟩
  rw [pgnls] at decoded
  split at decoded
  · cases decoded
  · split at decoded
    · cases decoded
    · obtain ⟨-, -, decoded⟩ := except_bind_ok decoded
      obtain ⟨data, -, decoded⟩ := except_bind_ok decoded
      exact decodePGNLSPage_representable decoded

theorem enumerate_next (startPlaced : start.Placed poolID) (finishPlaced : finish.Placed poolID)
    (notAfter : start.position ≤ finish.position)
    (ran : client.enumerate poolID namespace_ start finish limit fuel = some (.ok result)) :
    0 < limit ∧ limit ≤ client.maxEnumerationEntries ∧ result.next.Placed poolID ∧
      result.next.position ≤ finish.position := by
  rw [enumerate] at ran
  split at ran
  · cases ran
  · next accepted =>
    simp only [not_or] at accepted
    refine ⟨Nat.pos_of_ne_zero accepted.1, Nat.not_lt.mp accepted.2.1, ?_⟩
    rw [enumeratePages] at ran
    split at ran
    · obtain rfl := Except.ok.inj (Option.some.inj ran)
      exact ⟨finishPlaced, le_rfl⟩
    · split at ran
      · cases ran
      · exact enumerateLoop_next (fetch_placed client poolID namespace_) finishPlaced startPlaced notAfter ran

end ListingClient

namespace Pool

variable {pool : Pool} {after end_ : ObjectCursor} {client : ListingClient} {start finish : HObject} {fuel : Nat}

/-- A cursor that the next call accepts, at the position where this one stopped. -/
structure Continues (pool : Pool) (end_ : ObjectCursor) (stopped : HObject) (next : ObjectCursor) : Prop where
  owned : pool.ownsCursor next = true
  notAfter : NotAfter next end_
  decodes : ∃ object, next.hobject = .ok object ∧ compareHObject object stopped = .eq ∧
    (stopped.max = false → object = stopped)

theorem listedPage_continues {next : ObjectCursor} {object : HObject} (ownsEnd : pool.ownsCursor end_ = true)
    (decodesEnd : end_.hobject = .ok finish) (notAfter : result.next.position ≤ finish.position)
    (made : pool.nextCursor result.next = .ok next) (owned : pool.ownsCursor next = true)
    (decodes : next.hobject = .ok object)
    (same : object.position = result.next.position) (exact_ : result.next.max = false → object = result.next) :
    ∃ page, pool.listedPage end_ result = .ok page ∧ Continues pool end_ result.next page.next := by
  have compared : cursorBefore next end_ = .ok (decide (compareHObject object finish = .lt)) := by
    rw [cursorBefore, compare_owned owned ownsEnd decodes decodesEnd]
  refine ⟨⟨result.entries.map fun entry => ⟨entry.object, entry.namespace_, entry.locator⟩, next,
    decide (compareHObject object finish = .lt)⟩, ?_, owned,
      (notAfter_iff owned ownsEnd decodes decodesEnd).mpr (same.trans_le notAfter), object, decodes, ?_, exact_⟩
  · rw [listedPage, made]
    change (match cursorBefore next end_ with
      | .error _ => Except.error (pool.listError Sentinel.invalidArgument)
      | .ok more => .ok _) = _
    rw [compared]
  · rw [compareHObject_eq_cmp, cmp_eq_eq_iff, same]

theorem listedPage_eq (ownsEnd : pool.ownsCursor end_ = true) (decodesEnd : end_.hobject = .ok finish)
    (placed : result.next.Placed pool.id) (notAfter : result.next.position ≤ finish.position) :
    (result.next.max = true ∨ 39 + result.next.nameLength ≤ objectCursorMaxBytes →
      ∃ page, pool.listedPage end_ result = .ok page ∧ Continues pool end_ result.next page.next) ∧
    (¬(result.next.max = true ∨ 39 + result.next.nameLength ≤ objectCursorMaxBytes) →
      pool.listedPage end_ result = .error (.panicked "fixed-size object cursor exceeded its encoding bound")) := by
  rcases placed with isMax | ⟨representable, inPool⟩
  · refine ⟨fun _ => ?_, fun unfit => absurd (.inl isMax) unfit⟩
    refine listedPage_continues ownsEnd decodesEnd notAfter (if_pos isMax)
      (ownsCursor_iff.mpr ⟨rfl, rfl, rfl⟩) rfl ?_ ?_
    · rw [HObject.position_of_max isMax, HObject.position_of_max rfl]
    · exact fun notMax => absurd (isMax.symm.trans notMax) (by decide)
  · have notMax : ¬result.next.isMax = true := by simp [HObject.isMax, inPool.notMax]
    have made := newObjectCursor_eq pool.id pool.namespace_ result.next
    constructor
    · intro fit
      have fits := fit.resolve_left (by simp [inPool.notMax])
      have decodes := hobject_wireBytes representable inPool fits pool.namespace_
      exact listedPage_continues ownsEnd decodesEnd notAfter ((if_neg notMax).trans (made.trans (if_pos fits)))
        (ownsCursor_iff.mpr ⟨ObjectCursor.valid_of_hobject decodes, rfl, rfl⟩) decodes rfl fun _ => rfl
    · intro unfit
      rw [listedPage, nextCursor, if_neg notMax, made, if_neg fun fits => unfit (.inr fits)]
      rfl

/-- A listing whose enumeration succeeds returns a page, with a cursor at exactly the
position where the enumeration stopped, if and only if the encoding of that position
fits a cursor. Otherwise it panics. -/
theorem listObjectsRange_continues (ownsAfter : pool.ownsCursor after = true) (ownsEnd : pool.ownsCursor end_ = true)
    (decodesAfter : after.hobject = .ok start) (decodesEnd : end_.hobject = .ok finish)
    (before : compareObjectCursors after end_ = .ok .lt) (open_ : client.closed = none)
    (enumerated : client.enumerate pool.id pool.namespace_ start finish limit fuel = some (.ok result)) :
    ((∃ page, pool.listObjectsRange (some client) after end_ limit fuel = some (.ok page) ∧
        Continues pool end_ result.next page.next) ↔
      result.next.max = true ∨ 39 + result.next.nameLength ≤ objectCursorMaxBytes) ∧
    (¬(result.next.max = true ∨ 39 + result.next.nameLength ≤ objectCursorMaxBytes) →
      pool.listObjectsRange (some client) after end_ limit fuel =
        some (.error (.panicked "fixed-size object cursor exceeded its encoding bound"))) := by
  have place {cursor : ObjectCursor} {object : HObject} (owns : pool.ownsCursor cursor = true)
      (decodes : cursor.hobject = .ok object) : object.Placed pool.id := by
    rcases ObjectCursor.hobject_ok decodes with ⟨-, rfl⟩ | ⟨-, -, representable, inPool⟩
    · exact .inl rfl
    · exact .inr ⟨representable, (ownsCursor_iff.mp owns).2.1 ▸ inPool⟩
  have ordered := (notAfter_iff ownsAfter ownsEnd decodesAfter decodesEnd).mp ⟨_, before, by decide⟩
  obtain ⟨positive, bound, placed, notAfter⟩ :=
    ListingClient.enumerate_next (place ownsAfter decodesAfter) (place ownsEnd decodesEnd) ordered enumerated
  have small : limit ≤ maxInt := by
    have := client.maxBytes_le
    rw [ListingClient.maxEnumerationEntries] at bound
    rw [maxUint32] at this
    rw [maxInt]
    omega
  have reached : pool.listObjectsRange (some client) after end_ limit fuel = some (pool.listedPage end_ result) := by
    simp only [listObjectsRange, ownsAfter, ownsEnd, before, open_, decodesAfter, decodesEnd, enumerated]
    rw [if_neg (by simp [positive.ne', small]), if_neg (Nat.not_lt.mpr bound), if_neg (by decide)]
  obtain ⟨continues, panics⟩ := listedPage_eq ownsEnd decodesEnd placed notAfter
  rw [reached]
  refine ⟨⟨?_, fun fit => ?_⟩, fun unfit => congrArg some (panics unfit)⟩
  · rintro ⟨page, returned, -⟩
    by_contra unfit
    rw [panics unfit] at returned
    cases returned
  · obtain ⟨page, returned, rest⟩ := continues fit
    exact ⟨page, congrArg some returned, rest⟩

/-- A client whose OSDs answer with two objects and the end of the order. -/
def pairClient (first second : Bytes) : ListingClient where
  maxBytes := 4096
  maxBytes_le := by decide
  reply _ _ _ := .ok (Encoder.envelope 1 1 (HObject.wireBytes { max := true } ++ littleEndian 4 2 ++
    [[], first, [], [], second, []].flatMap Encoder.stringBytes))
  osdMap _ := some ⟨fun _ => true, fun _ _ _ _ => .ok 0⟩
  wrapError err := err

/-- A listing of one object stops at the second one, whose name is short. -/
theorem listObjectsRange_continues_short :
    ∃ page, smallPool.listObjectsRange (some (pairClient [97] [98])) wholeBegin smallPool.endObjectCursor 1 2 =
      some (.ok page) ∧
      Continues smallPool smallPool.endObjectCursor (namedObject [98]) page.next := by
  have enumerated : (pairClient [97] [98]).enumerate smallPool.id smallPool.namespace_
    { pool := Int64.minValue.toInt }
      { max := true } 1 2 = some (.ok ⟨[⟨[], [97], []⟩], namedObject [98]⟩) := by decide +kernel
  have decodes : wholeBegin.hobject = .ok { pool := Int64.minValue.toInt } := by decide +kernel
  exact (listObjectsRange_continues (by decide +kernel) (by decide) decodes rfl
    (by decide +kernel) rfl enumerated).1.mpr
    (.inr (by decide))

/-- A listing of one object stops at the second one, whose name is too long for a cursor. -/
theorem listObjectsRange_panics :
    (pairClient [97] (List.replicate 986 98)).enumerate smallPool.id smallPool.namespace_
      { pool := Int64.minValue.toInt }
        { max := true } 1 2 = some (.ok ⟨[⟨[], [97], []⟩], namedObject (List.replicate 986 98)⟩) ∧
    smallPool.listObjectsRange
      (some (pairClient [97] (List.replicate 986 98))) wholeBegin smallPool.endObjectCursor 1 2 =
      some (.error (.panicked "fixed-size object cursor exceeded its encoding bound")) := by
  decide +kernel

end Pool

end RadosGo
