import RadosGo.Library.Between
import RadosGo.Objecter.Enumeration

namespace RadosGo

open List WordOrder

/-- Values as Go has them: numbers of their widths and strings whose length is an int. -/
structure HObject.GoValue (object : HObject) : Prop extends object.Representable where
  keyLength : object.key.length ≤ maxInt
  objectLength : object.object.length ≤ maxInt
  namespaceLength : object.namespace_.length ≤ maxInt

theorem finite_goValues : {object : HObject | object.GoValue}.Finite := by
  let parts (object : HObject) :=
    (object.key, object.object, object.namespace_, object.snapshot, object.hash, object.max, object.pool)
  have : Finite UInt8 := Finite.of_injective UInt8.toFin fun _ _ => UInt8.toFin_inj.mp
  have : Finite UInt32 := Finite.of_injective UInt32.toFin fun _ _ => UInt32.toFin_inj.mp
  have strings := finite_length_le UInt8 maxInt
  have products := strings.prod (strings.prod (strings.prod ((Set.finite_lt_nat (2 ^ 64)).prod
    ((Set.finite_univ (α := UInt32)).prod
      ((Set.finite_univ (α := Bool)).prod (Set.finite_Ico (-2 ^ 63 : Int) (2 ^ 63)))))))
  refine Set.Finite.of_finite_image (f := parts) (products.subset ?_) ?_
  · rintro _ ⟨object, value, rfl⟩
    exact ⟨value.keyLength, value.objectLength, value.namespaceLength, value.snapshot, trivial, trivial,
      value.pool_low, value.pool_high⟩
  · rintro ⟨⟩ - ⟨⟩ - same
    simp only [parts, Prod.mk.injEq] at same
    obtain ⟨rfl, rfl, rfl, rfl, rfl, rfl, rfl⟩ := same
    rfl

/-- The objects between two positions, in order. -/
def membersIn (objects : List (ListEntry × HObject)) (lower upper : HObject) : List (ListEntry × HObject) :=
  objects.filter fun object => compareHObject lower object.2 ≠ .gt ∧ compareHObject object.2 upper = .lt

def entryPlace (object : ListEntry × HObject) : WithTop (Int ×ₗ UInt32 ×ₗ Bytes ×ₗ Bytes ×ₗ Bytes ×ₗ Nat) :=
  object.2.position

theorem membersIn_eq_between (objects : List (ListEntry × HObject)) (lower upper : HObject) :
    membersIn objects lower upper = between entryPlace objects lower.position upper.position := by
  exact filter_congr fun object _ =>
    decide_eq_decide.mpr (and_congr compareHObject_ne_gt_iff compareHObject_eq_lt_iff)

/-- The objects of a pool are listed in the order of their positions, of which no two are equal. -/
def Sorted (objects : List (ListEntry × HObject)) : Prop :=
  objects.Pairwise fun left right => compareHObject left.2 right.2 = .lt

theorem Sorted.places {objects : List (ListEntry × HObject)} (sorted : Sorted objects) :
    objects.Pairwise (entryPlace · < entryPlace ·) :=
  sorted.imp compareHObject_eq_lt_iff.mp

/-- A server that answers with the objects from the cursor up to some later position
of a kind. -/
def Answers (kind : HObject → Prop) (objects : List (ListEntry × HObject)) (fetch : Fetch) : Prop :=
  ∀ round cursor count, cursor.max = false → ∃ next : HObject, kind next ∧ next.GoValue ∧
    compareHObject cursor next = .lt ∧
    fetch round cursor count =
      .ok (⟨next, (membersIn objects cursor next).map Prod.fst⟩, (membersIn objects cursor next).map Prod.snd)

/-- The later position is the end of the order, or a head object of the pool. -/
def Serves (poolID : Int64) : List (ListEntry × HObject) → Fetch → Prop :=
  Answers fun next => next.max = true ∨ next.pool = poolID.toInt ∧ next.snapshot = noSnap

/-- What one call lists: at most the limit, all objects from the start up to `Next`,
which is the end unless the limit was reached. -/
structure Lists (objects : List (ListEntry × HObject)) (start end_ : HObject) (limit : Nat)
    (result : EnumerationResult) : Prop where
  count : result.entries.length ≤ limit
  entries : result.entries = (membersIn objects start result.next).map Prod.fst
  notAfter : compareHObject result.next end_ ≠ .gt
  atEnd : result.entries.length < limit → compareHObject result.next end_ = .eq

variable {fetch : Fetch} {poolID : Int64} {objects : List (ListEntry × HObject)} {start end_ next : HObject}
    {limit : Nat}
  {result : EnumerationResult}

theorem validateEntries_members {previous : HObject} {members : List HObject}
    (sorted : members.Pairwise fun left right => left.position < right.position)
    (above : ∀ member ∈ members, previous.position ≤ member.position)
    (below : ∀ member ∈ members, member.position < next.position) :
      validateEntries next previous members = .ok () := by
  induction members generalizing previous with
  | nil => rfl
  | cons member rest ih =>
    obtain ⟨after, sortedRest⟩ := pairwise_cons.mp sorted
    have inOrder : compareHObject member previous ≠ .lt := by
      rw [Ne, compareHObject_eq_lt_iff, not_lt]
      exact above member mem_cons_self
    have beforeNext : compareHObject member next = .lt :=
      compareHObject_eq_lt_iff.mpr (below member mem_cons_self)
    rw [validateEntries, if_neg (by simp [inOrder, beforeNext])]
    exact ih sortedRest (fun other inRest => (after other inRest).le) fun other inRest =>
      below other (mem_cons_of_mem _ inRest)

variable {cursor : HObject} {fuel : Nat}

theorem validateEnumerationPage_members (sorted : Sorted objects)
    (place : next.max = true ∨ next.pool = poolID.toInt ∧ next.snapshot = noSnap)
    (later : compareHObject cursor next = .lt) :
    validateEnumerationPage poolID cursor next ((membersIn objects cursor next).map Prod.snd) = .ok () := by
  have notMin : next.max = false → next.snapshot = noSnap → next.isMin = false := fun _ snapshot => by
    simp [HObject.isMin, snapshot, noSnap]
  have entries : validateEntries next cursor ((membersIn objects cursor next).map Prod.snd) = .ok () := by
    rw [membersIn_eq_between]
    refine validateEntries_members (pairwise_map.mpr (between_sorted sorted.places _ _)) ?_ ?_
    · intro member inPage
      obtain ⟨object, inRange, rfl⟩ := mem_map.mp inPage
      exact (mem_between.mp inRange).2.1
    · intro member inPage
      obtain ⟨object, inRange, rfl⟩ := mem_map.mp inPage
      exact (mem_between.mp inRange).2.2
  have after : compareHObject next cursor = .gt := by
    rw [compareHObject_eq_cmp, cmp_eq_gt_iff]
    exact compareHObject_eq_lt_iff.mp later
  rw [validateEnumerationPage, if_neg, entries]
  · simp [after]
  · rcases place with isMax | ⟨pool, snapshot⟩
    · simp [HObject.isMax, isMax]
    · cases isMax : next.max with
      | true => simp [HObject.isMax, isMax]
      | false => simp [HObject.isMax, isMax, pool, snapshot, notMin isMax snapshot]

/-- What the loop has collected so far. -/
structure Collected (objects : List (ListEntry × HObject)) (start end_ : HObject) (limit : Nat)
    (result : EnumerationResult) : Prop where
  count : result.entries.length ≤ limit
  entries : result.entries = (between entryPlace objects start.position result.next.position).map Prod.fst
  started : start.position ≤ result.next.position
  notAfter : result.next.position ≤ end_.position

/-- The part of a page before the end is what is left when the entries from the end on
are dropped from its back. -/
theorem page_before_end (sorted : Sorted objects) (beyond : compareHObject next end_ = .gt) :
    ((membersIn objects cursor next).map Prod.snd |>.rdropWhile fun member =>
      compareHObject member end_ ≠ .lt).length =
      (between entryPlace objects cursor.position end_.position).length := by
  rw [compareHObject_eq_cmp, cmp_eq_gt_iff] at beyond
  have decides : (fun member : HObject => decide (compareHObject member end_ ≠ .lt)) =
      fun member => !decide (member.position < end_.position) := by
    funext member
    rw [← decide_not, decide_eq_decide, Ne, compareHObject_eq_lt_iff]
  have sortedPage : ((membersIn objects cursor next).map Prod.snd).Pairwise
    (HObject.position · < HObject.position ·) := by
    rw [membersIn_eq_between]
    exact pairwise_map.mpr (between_sorted sorted.places _ _)
  rw [decides, rdropWhile_eq_filter sortedPage, filter_map, length_map, membersIn_eq_between, between,
    filter_filter, between]
  congr 2
  funext object
  rw [Function.comp_apply, ← Bool.decide_and, decide_eq_decide]
  constructor
  · rintro ⟨inside, from_, -⟩
    exact ⟨from_, inside⟩
  · rintro ⟨from_, inside⟩
    exact ⟨inside, from_, inside.trans beyond⟩

/-- Up to where a round takes a page: its end, or the end of the call if that is earlier. -/
theorem round_page (sorted : Sorted objects) (before : cursor.position ≤ end_.position)
    (later : cursor.position ≤ next.position) :
    ∃ stop : HObject, (if compareHObject next end_ = .gt then end_ else next) = stop ∧
      cursor.position ≤ stop.position ∧ stop.position ≤ end_.position ∧ (stop = next ∨ stop = end_) ∧
      (if compareHObject next end_ = .gt then
          ((membersIn objects cursor next).map Prod.snd |>.rdropWhile fun member =>
            compareHObject member end_ ≠ .lt).length
        else ((membersIn objects cursor next).map Prod.fst).length) =
        (between entryPlace objects cursor.position stop.position).length ∧
      between entryPlace objects cursor.position stop.position <+: membersIn objects cursor next := by
  rw [membersIn_eq_between]
  by_cases beyond : compareHObject next end_ = .gt
  · refine ⟨end_, if_pos beyond, before, le_rfl, .inr rfl, ?_, ?_⟩
    · rw [if_pos beyond, ← membersIn_eq_between, page_before_end sorted beyond]
    · rw [compareHObject_eq_cmp, cmp_eq_gt_iff] at beyond
      exact ⟨_, between_append sorted.places before beyond.le⟩
  · refine ⟨next, if_neg beyond, later, compareHObject_ne_gt_iff.mp beyond, .inl rfl, ?_, prefix_rfl⟩
    rw [if_neg beyond, length_map]

/-- A round with a page of the server: the entries up to where the page is taken, unless
they exceed the limit. Then `Next` is the first entry that is left out. -/
theorem enumerateRound_page (sorted : Sorted objects) {round : Nat}
    (place : next.max = true ∨ next.pool = poolID.toInt ∧ next.snapshot = noSnap)
    (later : compareHObject result.next next = .lt)
    (fetched : fetch round result.next (limit - result.entries.length) =
      .ok (⟨next, (membersIn objects result.next next).map Prod.fst⟩,
        (membersIn objects result.next next).map Prod.snd))
    {stop : HObject} (stops : (if compareHObject next end_ = .gt then end_ else next) = stop)
    {taken : List (ListEntry × HObject)} (counts : (if compareHObject next end_ = .gt then
        ((membersIn objects result.next next).map Prod.snd |>.rdropWhile fun member =>
          compareHObject member end_ ≠ .lt).length
      else ((membersIn objects result.next next).map Prod.fst).length) = taken.length)
    (front : taken <+: membersIn objects result.next next) :
    enumerateRound fetch poolID end_ limit round result =
      .ok { entries := result.entries ++ (taken.take (limit - result.entries.length)).map Prod.fst
            next := ((taken[limit - result.entries.length]?).map Prod.snd).getD stop } := by
  obtain ⟨rest, page⟩ := front
  have lengths : ¬((membersIn objects result.next next).map Prod.snd).length ≠
      ((membersIn objects result.next next).map Prod.fst).length := by simp
  rw [enumerateRound, fetched]
  simp only [bind, Except.bind, pure, Except.pure, if_neg lengths,
    validateEnumerationPage_members sorted place later, stops, counts]
  generalize limit - result.entries.length = available
  rw [← page]
  have entries : (map Prod.fst (taken ++ rest)).take (min taken.length available) =
      (taken.take available).map Prod.fst := by
    rw [← map_take, take_append_of_le_length (Nat.min_le_left _ _)]
    exact congrArg _ (take_eq_take_iff.mpr (by omega))
  rw [entries]
  split
  · next exceeds =>
    rw [getD_eq_getElem?_getD, getElem?_map, getElem?_append_left exceeds]
  · next fits => rw [getElem?_eq_none (Nat.not_lt.mp fits), Option.map_none, Option.getD_none]

theorem Collected.round (collected : Collected objects start end_ limit result) (sorted : Sorted objects)
    (serves : Serves poolID objects fetch) (room : result.entries.length < limit)
    (unfinished : compareHObject result.next end_ = .lt) (round : Nat) :
    ∃ result', enumerateRound fetch poolID end_ limit round result = .ok result' ∧
      Collected objects start end_ limit result' ∧
      (limit ≤ result'.entries.length ∨ result'.next.position = end_.position ∨
        result'.next.GoValue ∧ result.next.position < result'.next.position) := by
  have before := compareHObject_eq_lt_iff.mp unfinished
  have notMax : result.next.max = false := by
    cases isMax : result.next.max with
    | false => rfl
    | true =>
      rw [HObject.position_of_max isMax] at before
      exact absurd before not_top_lt
  obtain ⟨next, place, value, later, fetched⟩ := serves round result.next (limit - result.entries.length) notMax
  have laterPlace := compareHObject_eq_lt_iff.mp later
  obtain ⟨stop, stops, fromCursor, toEnd, isStop, counts, front⟩ := round_page sorted before.le laterPlace.le
  refine ⟨_, enumerateRound_page sorted place later fetched stops counts front, ?_⟩
  have places := sorted.places
  have count := collected.count
  rcases Nat.lt_or_ge (limit - result.entries.length)
    (between entryPlace objects result.next.position stop.position).length with exceeds | fits
  · -- the entry at the limit starts the next call
    obtain ⟨object, found⟩ : ∃ object, (between entryPlace objects result.next.position stop.position)[
        limit - result.entries.length]? = some object := ⟨_, getElem?_eq_getElem exceeds⟩
    have inRange := (mem_between.mp (mem_of_getElem? found)).2
    have length : ((between entryPlace objects result.next.position stop.position).take
        (limit - result.entries.length)).length = limit - result.entries.length := length_take_of_le exceeds.le
    rw [found, Option.map_some, Option.getD_some]
    refine ⟨⟨?_, ?_, collected.started.trans inRange.1, inRange.2.le.trans toEnd⟩, .inl ?_⟩
    · simp only [length_append, length_map, length]
      omega
    · rw [between_take places found, collected.entries, ← map_append]
      exact congrArg _ (between_append places collected.started inRange.1)
    · simp only [length_append, length_map, length]
      omega
  · rw [take_of_length_le fits, getElem?_eq_none fits, Option.map_none, Option.getD_none]
    refine ⟨⟨?_, ?_, collected.started.trans fromCursor, toEnd⟩, ?_⟩
    · simp only [length_append, length_map]
      omega
    · rw [collected.entries, ← map_append, between_append places collected.started fromCursor]
    · rcases isStop with rfl | rfl
      · exact .inr (.inr ⟨value, laterPlace⟩)
      · exact .inr (.inl rfl)

/-- The positions which a server can still answer. Each round without an end uses one up. -/
def ahead (cursor : HObject) : Set HObject := {object | object.GoValue ∧ cursor.position < object.position}

theorem ahead_lt {later : HObject} (value : later.GoValue) (before : cursor.position < later.position) :
    (ahead later).ncard < (ahead cursor).ncard := by
  refine Set.ncard_lt_ncard ⟨?_, ?_⟩ (finite_goValues.subset fun object inAhead => inAhead.1)
  · intro object inAhead
    exact ⟨inAhead.1, before.trans inAhead.2⟩
  · intro all
    exact lt_irrefl _ (all ⟨value, before⟩ : later ∈ ahead later).2

theorem enumerateLoop_done (fetch : Fetch) (poolID : Int64) (round : Nat) (positive : 1 ≤ fuel)
    (finished : limit ≤ result.entries.length ∨ end_.position ≤ result.next.position) :
    enumerateLoop fetch poolID end_ limit fuel round result = some (.ok result) := by
  obtain ⟨fuel, rfl⟩ := Nat.exists_eq_add_of_le' positive
  rw [enumerateLoop, if_neg]
  rintro ⟨room, unfinished⟩
  have before := compareHObject_eq_lt_iff.mp unfinished
  rcases finished with full | atEnd
  · omega
  · exact absurd before atEnd.not_gt

/-- The loop ends, whatever the server answers. -/
theorem Collected.loop (sorted : Sorted objects) (serves : Serves poolID objects fetch) (round : Nat)
    (collected : Collected objects start end_ limit result) :
    ∃ final, (∀ fuel, (ahead result.next).ncard + 2 ≤ fuel →
        enumerateLoop fetch poolID end_ limit fuel round result = some (.ok final)) ∧
      Collected objects start end_ limit final ∧
        (limit ≤ final.entries.length ∨ final.next.position = end_.position) := by
  induction counted : (ahead result.next).ncard using Nat.strong_induction_on generalizing result round with
  | _ steps ih =>
    by_cases active : result.entries.length < limit ∧ compareHObject result.next end_ = .lt
    · obtain ⟨result', ran, collected', progress⟩ := collected.round sorted serves active.1 active.2 round
      have once {fuel : Nat} : enumerateLoop fetch poolID end_ limit (fuel + 1) round result =
          enumerateLoop fetch poolID end_ limit fuel (round + 1) result' := by
        rw [enumerateLoop, if_pos active, ran]
      have ends (finished : limit ≤ result'.entries.length ∨ result'.next.position = end_.position) :
          ∃ final, (∀ fuel, steps + 2 ≤ fuel →
            enumerateLoop fetch poolID end_ limit fuel round result = some (.ok final)) ∧
            Collected objects start end_ limit final ∧
            (limit ≤ final.entries.length ∨ final.next.position = end_.position) := by
        refine ⟨result', fun fuel enough => ?_, collected', finished⟩
        obtain ⟨fuel, rfl⟩ := Nat.exists_eq_add_of_le' (by omega : 1 ≤ fuel)
        rw [once]
        exact enumerateLoop_done _ _ _ (by omega) (finished.imp_right Eq.ge)
      rcases progress with full | atEnd | ⟨value, later⟩
      · exact ends (.inl full)
      · exact ends (.inr atEnd)
      · have fewer := ahead_lt value later
        obtain ⟨final, returns, rest⟩ := ih _ (counted ▸ fewer) (round + 1) collected' rfl
        refine ⟨final, fun fuel enough => ?_, rest⟩
        obtain ⟨fuel, rfl⟩ := Nat.exists_eq_add_of_le' (by omega : 1 ≤ fuel)
        rw [once]
        exact returns fuel (by omega)
    · have finished : limit ≤ result.entries.length ∨ result.next.position = end_.position := by
        by_cases room : result.entries.length < limit
        · have reached : ¬result.next.position < end_.position := fun before =>
            active ⟨room, compareHObject_eq_lt_iff.mpr before⟩
          exact .inr (le_antisymm collected.notAfter (not_lt.mp reached))
        · exact .inl (not_lt.mp room)
      exact ⟨result, fun fuel enough => enumerateLoop_done _ _ _ (by omega) (finished.imp_right Eq.ge),
        collected, finished⟩

theorem Collected.lists (collected : Collected objects start end_ limit result)
    (finished : limit ≤ result.entries.length ∨ result.next.position = end_.position) :
    Lists objects start end_ limit result := by
  refine ⟨collected.count, ?_, compareHObject_ne_gt_iff.mpr collected.notAfter, fun room => ?_⟩
  · rw [collected.entries, membersIn_eq_between]
  · rw [compareHObject_eq_cmp, cmp_eq_eq_iff]
    exact finished.resolve_left (by omega)

/-- No loop makes more rounds than there are positions. -/
noncomputable def enoughRounds : Nat := {object : HObject | object.GoValue}.ncard + 2

/-- One call returns what it has to list. -/
theorem enumeratePages_lists (sorted : Sorted objects) (serves : Serves poolID objects fetch)
    (notAfter : compareHObject start end_ ≠ .gt) (bound : limit * listEntrySize ≤ maxAlloc) :
    ∃ result, (∀ fuel ≥ enoughRounds, enumeratePages fetch poolID start end_ limit fuel = some (.ok result)) ∧
      Lists objects start end_ limit result := by
  have ordered := compareHObject_ne_gt_iff.mp notAfter
  by_cases same : compareHObject start end_ = .eq
  · refine ⟨{ next := end_ }, fun fuel _ => by rw [enumeratePages, if_pos same], Nat.zero_le _, ?_, ?_, ?_⟩
    · rw [compareHObject_eq_cmp, cmp_eq_eq_iff] at same
      rw [membersIn_eq_between, same, between_self]
      rfl
    · rw [compareHObject_ne_gt_iff]
    · intro _
      rw [compareHObject_eq_cmp, cmp_eq_eq_iff]
  · have collected : Collected objects start end_ limit { next := start } :=
      ⟨Nat.zero_le _, by rw [between_self]; rfl, le_rfl, ordered⟩
    have rounds : (ahead start).ncard + 2 ≤ enoughRounds :=
      Nat.add_le_add_right (Set.ncard_le_ncard (fun object inAhead => inAhead.1) finite_goValues) 2
    obtain ⟨final, returns, collected', finished⟩ := collected.loop sorted serves 0
    refine ⟨final, fun fuel enough => ?_, collected'.lists finished⟩
    rw [enumeratePages, if_neg same, if_neg (Nat.not_lt.mpr bound)]
    exact returns fuel (rounds.trans enough)

/-- Calls are repeated from `Next` until that is the end. Each call may meet another server. -/
def enumerateAll (servers : Nat → Fetch) (poolID : Int64) (end_ : HObject) (limit fuel : Nat) :
    Nat → Nat → HObject → Option (Except Fault (List ListEntry))
  | 0, _, _ => none
  | calls + 1, call, start =>
    match enumeratePages (servers call) poolID start end_ limit fuel with
    | some (.ok result) =>
      if compareHObject result.next end_ = .lt then
        match enumerateAll servers poolID end_ limit fuel calls (call + 1) result.next with
        | some (.ok rest) => some (.ok (result.entries ++ rest))
        | other => other
      else some (.ok result.entries)
    | some (.error fault) => some (.error fault)
    | none => none

/-- A call that stops before the end leaves fewer objects to list. -/
theorem Lists.shorter (lists : Lists objects start end_ limit result) (sorted : Sorted objects) (positive : 1 ≤ limit)
    (unfinished : compareHObject result.next end_ = .lt) :
    membersIn objects start end_ = membersIn objects start result.next ++ membersIn objects result.next end_ ∧
      0 < (membersIn objects start result.next).length := by
  have before := compareHObject_eq_lt_iff.mp unfinished
  have full : limit ≤ result.entries.length := by
    by_contra room
    have atEnd := lists.atEnd (Nat.lt_of_not_le room)
    rw [unfinished] at atEnd
    cases atEnd
  rw [lists.entries, length_map] at full
  have some_ : 0 < (membersIn objects start result.next).length := by omega
  obtain ⟨object, member⟩ := exists_mem_of_length_pos some_
  rw [membersIn_eq_between] at member
  have inRange := (mem_between.mp member).2
  refine ⟨?_, some_⟩
  rw [membersIn_eq_between, membersIn_eq_between, membersIn_eq_between,
    between_append sorted.places (inRange.1.trans inRange.2.le) before.le]

theorem enumerateAll_lists {servers : Nat → Fetch} (sorted : Sorted objects)
    (serves : ∀ call, Serves poolID objects (servers call)) (positive : 1 ≤ limit)
    (bound : limit * listEntrySize ≤ maxAlloc) (rounds : enoughRounds ≤ fuel) {calls : Nat} (call : Nat)
    (notAfter : compareHObject start end_ ≠ .gt) (enough : (membersIn objects start end_).length < calls) :
    enumerateAll servers poolID end_ limit fuel calls call start =
      some (.ok ((membersIn objects start end_).map Prod.fst)) := by
  induction calls generalizing start call with
  | zero => omega
  | succ calls ih =>
    obtain ⟨result, returns, lists⟩ := enumeratePages_lists sorted (serves call) notAfter bound
    rw [enumerateAll, returns fuel rounds]
    dsimp only
    split
    · next unfinished =>
      obtain ⟨joined, progress⟩ := lists.shorter sorted positive unfinished
      have fewer : (membersIn objects result.next end_).length < calls := by
        rw [joined, length_append] at enough
        omega
      rw [ih (call + 1) lists.notAfter fewer, joined, map_append, ← lists.entries]
    · next finished =>
      have same : result.next.position = end_.position :=
        le_antisymm (compareHObject_ne_gt_iff.mp lists.notAfter)
          (not_lt.mp fun before => finished (compareHObject_eq_lt_iff.mpr before))
      rw [lists.entries, membersIn_eq_between, membersIn_eq_between, same]

/-- A call returns at most `limit` entries: exactly the objects from `start` up to its
`Next`, which is the end unless the limit was reached. Calls repeated from `Next`
list every object up to the end once. -/
theorem enumeration_complete (poolID : Int64) (sorted : Sorted objects) (notAfter : compareHObject start end_ ≠ .gt)
    (positive : 1 ≤ limit) (bound : limit * listEntrySize ≤ maxAlloc) :
    (∀ fetch, Serves poolID objects fetch → ∃ result, Lists objects start end_ limit result ∧
      ∃ enough, ∀ fuel ≥ enough, enumeratePages fetch poolID start end_ limit fuel = some (.ok result)) ∧
    ∀ servers : Nat → Fetch, (∀ call, Serves poolID objects (servers call)) →
      ∃ enough, ∀ fuel ≥ enough, ∀ calls ≥ enough, enumerateAll servers poolID end_ limit fuel calls 0 start =
        some (.ok ((membersIn objects start end_).map Prod.fst)) := by
  refine ⟨fun fetch serves => ?_, fun servers serves => ?_⟩
  · obtain ⟨result, returns, lists⟩ := enumeratePages_lists sorted serves notAfter bound
    exact ⟨result, lists, enoughRounds, returns⟩
  · refine ⟨max enoughRounds ((membersIn objects start end_).length + 1), fun fuel enough calls enoughCalls => ?_⟩
    exact enumerateAll_lists sorted serves positive bound ((le_max_left _ _).trans enough) 0 notAfter
      ((le_max_right _ _).trans enoughCalls)

/-- A server that always answers with everything that is left. -/
def wholePages (objects : List (ListEntry × HObject)) : Fetch := fun _ cursor _ =>
  .ok (⟨{ max := true }, (membersIn objects cursor { max := true }).map Prod.fst⟩,
    (membersIn objects cursor { max := true }).map Prod.snd)

theorem max_goValue : ({ max := true } : HObject).GoValue :=
  ⟨⟨by decide, by decide, by decide⟩, by decide, by decide, by decide⟩

theorem compareHObject_max {cursor : HObject} (notMax : cursor.max = false) :
    compareHObject cursor { max := true } = .lt := by
  rw [compareHObject_eq_lt_iff, HObject.position_of_not_max notMax, HObject.position_of_max rfl]
  exact WithTop.coe_lt_top _

theorem wholePages_serves (poolID : Int64) (objects : List (ListEntry × HObject)) :
    Serves poolID objects (wholePages objects) :=
  fun _ _ _ notMax => ⟨{ max := true }, .inl rfl, max_goValue, compareHObject_max notMax, rfl⟩

def twoObjects : List (ListEntry × HObject) :=
  [(⟨[], [97], []⟩, { object := [97], snapshot := noSnap, pool := 1 }),
    (⟨[], [98], []⟩, { object := [98], snapshot := noSnap, pool := 1 })]

/-- Two objects listed one at a time. -/
theorem enumeration_complete_two :
    (∃ result, Lists twoObjects { pool := 1 } { max := true } 1 result ∧ ∃ enough, ∀ fuel ≥ enough,
      enumeratePages (wholePages twoObjects) 1 { pool := 1 } { max := true } 1 fuel = some (.ok result)) ∧
    ∃ enough, ∀ fuel ≥ enough, ∀ calls ≥ enough,
      enumerateAll (fun _ => wholePages twoObjects) 1 { max := true } 1 fuel calls 0 { pool := 1 } =
        some (.ok [⟨[], [97], []⟩, ⟨[], [98], []⟩]) := by
  have sorted : Sorted twoObjects := pairwise_pair.mpr (by decide)
  obtain ⟨once, repeated⟩ :=
    enumeration_complete 1 sorted (by decide : compareHObject { pool := 1 } { max := true } ≠ .gt)
    (le_refl 1) (by decide)
  exact ⟨once _ (wholePages_serves 1 twoObjects), repeated _ fun _ => wholePages_serves 1 twoObjects⟩

/-- A server without objects whose first page ends before a snapshot. -/
def snapshotPages : Fetch := fun _ cursor _ =>
  .ok (⟨if compareHObject cursor { pool := 1, snapshot := 1 } = .lt then { pool := 1, snapshot := 1 }
    else { max := true }, []⟩, [])

/-- A page that ends before a snapshot is refused, although its end is behind the cursor. -/
theorem enumeratePages_refuses_snapshot : Answers (fun _ => True) [] snapshotPages ∧
    compareHObject { pool := 1 } { max := true } ≠ .gt ∧
    ∀ fuel, enumeratePages snapshotPages 1 { pool := 1 } { max := true } 1 (fuel + 1) =
      some (.error (.err Sentinel.malformedReply)) := by
  refine ⟨fun round cursor count notMax => ?_, by decide, fun fuel => ?_⟩
  · by_cases before : compareHObject cursor { pool := 1, snapshot := 1 } = .lt
    · exact ⟨_, trivial, ⟨⟨by decide, by decide, by decide⟩, by decide, by decide, by decide⟩, before,
        by rw [snapshotPages, if_pos before]; rfl⟩
    · exact ⟨_, trivial, max_goValue, compareHObject_max notMax, by rw [snapshotPages, if_neg before]; rfl⟩
  · rw [enumeratePages, if_neg (by decide), if_neg (by decide), enumerateLoop, if_pos (by decide)]
    rfl

end RadosGo
