import RadosGo.Crush.Map
import RadosGo.Library.Walks

namespace RadosGo.Crush

open Function List

namespace CrushMap

variable {m : CrushMap}

/-- The items of a bucket, none if there is no such bucket. -/
def itemsOf (m : CrushMap) (id : Int) : List Int := ((m.buckets.lookup id).map Bucket.items).getD []

/-- The second bucket is an item of the first one. -/
def Contains (m : CrushMap) (id item : Int) : Prop := item ∈ m.itemsOf id ∧ item < 0

/-- The item is a device of the map or one of its buckets. -/
def Known (m : CrushMap) (item : Int) : Prop := (0 ≤ item → item < m.maxDevices) ∧ (item < 0 → item ∈ m.buckets)

/-- What the search has established about a finished bucket. -/
structure Settled (m : CrushMap) (search : Search) (id : Int) : Prop where
  known : ∀ item ∈ m.itemsOf id, m.Known item
  tall : ∃ n, search.heights id = n + 1 ∧ HasWalk m.Contains n id
  low : search.heights id ≤ maxCertifiedDepth
  below : ∀ child, m.Contains id child → search.states child = 2 ∧ search.heights child < search.heights id

def Sound (m : CrushMap) (search : Search) : Prop := ∀ id, search.states id = 2 → m.Settled search id

/-- The later search has the same buckets on its path, and keeps what is finished. -/
structure Extends (search later : Search) : Prop where
  path : ∀ id, later.states id = 1 ↔ search.states id = 1
  finished : ∀ id, search.states id = 2 → later.states id = 2 ∧ later.heights id = search.heights id

theorem Extends.refl (search : Search) : Extends search search := ⟨fun _ => Iff.rfl, fun _ done => ⟨done, rfl⟩⟩

theorem Extends.trans {first second third : Search} (left : Extends first second) (right : Extends second third) :
    Extends first third where
  path id := (right.path id).trans (left.path id)
  finished id done := by
    obtain ⟨done', height⟩ := left.finished id done
    obtain ⟨done'', height'⟩ := right.finished id done'
    exact ⟨done'', height'.trans height⟩

/-- What a visit with the given room establishes. -/
structure Visited (m : CrushMap) (room : Nat) (id : Int) (search later : Search) (height : Nat) : Prop where
  extends_ : Extends search later
  sound : m.Sound later
  done : later.states id = 2
  height_eq : later.heights id = height
  fits : height ≤ room

/-- What the loop over the items of a bucket establishes. -/
structure VisitedItems (m : CrushMap) (room : Nat) (items : List Int) (height : Nat) (search later : Search)
    (result : Nat) : Prop where
  extends_ : Extends search later
  sound : m.Sound later
  known : ∀ item ∈ items, m.Known item
  grows : height ≤ result
  below : ∀ item ∈ items, item < 0 → later.states item = 2 ∧ later.heights item < result
  attained : result = height ∨ ∃ item ∈ items, item < 0 ∧ result = later.heights item + 1
  fits : height ≤ room + 1 → result ≤ room + 1

variable {room height : Nat} {visit : Int → Search → Except GoError (Nat × Search)} {items order : List Int}
  {search later : Search}

theorem visitItems_visited
    (visits : ∀ id search height later, visit id search = .ok (height, later) → m.Sound search →
      Visited m room id search later height)
    {result : Nat} (run : m.visitItems visit items height search = .ok (result, later)) (sound : m.Sound search) :
    VisitedItems m room items height search later result := by
  induction items generalizing height search with
  | nil =>
    obtain ⟨rfl, rfl⟩ := Prod.mk.inj (Except.ok.inj run)
    exact ⟨.refl _, sound, by simp, Nat.le_refl _, by simp, .inl rfl, id⟩
  | cons item items ih =>
    rw [visitItems] at run
    split at run
    · next device =>
      split at run
      · cases run
      · next inside =>
        have rest := ih run sound
        have known : m.Known item := ⟨fun _ => by omega, fun negative => by omega⟩
        refine ⟨rest.extends_, rest.sound, forall_mem_cons.mpr ⟨known, rest.known⟩, rest.grows,
          forall_mem_cons.mpr ⟨fun negative => by omega, rest.below⟩, ?_, rest.fits⟩
        rcases rest.attained with same | ⟨child, member, found⟩
        · exact .inl same
        · exact .inr ⟨child, mem_cons_of_mem _ member, found⟩
    · next bucket =>
      split at run
      · cases run
      · next present =>
        split at run
        · cases run
        · next childHeight middle visited =>
          have first := visits _ _ _ _ visited sound
          have rest := ih run first.sound
          have known : m.Known item := ⟨fun positive => absurd positive bucket, fun _ => not_not.mp present⟩
          obtain ⟨done, height_eq⟩ := rest.extends_.finished item first.done
          have grows := rest.grows
          have fits := first.fits
          rw [first.height_eq] at height_eq
          refine ⟨first.extends_.trans rest.extends_, rest.sound, forall_mem_cons.mpr ⟨known, rest.known⟩, by omega,
            forall_mem_cons.mpr ⟨fun _ => ⟨done, by omega⟩, rest.below⟩, ?_, fun small => rest.fits (by omega)⟩
          rcases rest.attained with same | ⟨child, member, found⟩
          · rcases Nat.le_total height (childHeight + 1) with less | less
            · rw [Nat.max_eq_right less] at same
              exact .inr ⟨item, mem_cons_self, by omega, by omega⟩
            · exact .inl (same.trans (Nat.max_eq_left less))
          · exact .inr ⟨child, mem_cons_of_mem _ member, found⟩

variable {id : Int}

/-- Entering a bucket that was not seen before keeps the search sound. -/
theorem Sound.enter (sound : m.Sound search) (unseen : search.states id ≠ 2) :
    m.Sound { search with states := update search.states id 1 } := by
  intro other done
  have different : other ≠ id := by
    rintro rfl
    simp at done
  have settled := sound other (by simpa [different] using done)
  refine ⟨settled.known, settled.tall, settled.low, fun child contains => ?_⟩
  obtain ⟨finished, less⟩ := settled.below child contains
  have apart : child ≠ id := fun same => unseen (same ▸ finished)
  exact ⟨by simpa [apart] using finished, less⟩

/-- A bucket is left when its items are finished. -/
theorem VisitedItems.leave (shallow : room + 1 ≤ maxCertifiedDepth) (unseen : search.states id ≠ 2)
    (fresh : search.states id ≠ 1)
    (items : VisitedItems m room (m.itemsOf id) 1 { search with states := update search.states id 1 } later height) :
    Visited m (room + 1) id search ⟨update later.states id 2, update later.heights id height⟩ height := by
  have onPath : later.states id = 1 := (items.extends_.path id).mpr (by simp)
  have apart {other : Int} (finished : later.states other = 2) : other ≠ id := by
    rintro rfl
    omega
  have fits := items.fits (by omega)
  refine ⟨⟨fun other => ?_, fun other finished => ?_⟩, fun other finished => ?_, by simp, by simp, fits⟩
  · by_cases same : other = id
    · subst same
      simp [fresh]
    · simpa [same] using items.extends_.path other
  · have different : other ≠ id := fun same => unseen (same ▸ finished)
    obtain ⟨done, height_eq⟩ := items.extends_.finished other (by simpa [different] using finished)
    exact ⟨by simpa [different] using done, by simpa [different] using height_eq⟩
  · by_cases same : other = id
    · subst same
      refine ⟨items.known, ?_, by simp only [update_self]; omega, fun child contains => ?_⟩
      · simp only [update_self]
        rcases items.attained with rfl | ⟨child, member, negative, rfl⟩
        · exact ⟨0, rfl, hasWalk_zero _⟩
        · obtain ⟨n, height_eq, walk⟩ := (items.sound child (items.below child member negative).1).tall
          exact ⟨n + 1, by omega, walk.cons ⟨member, negative⟩⟩
      · obtain ⟨done, less⟩ := items.below child contains.1 contains.2
        simp [apart done, done, less]
    · have settled := items.sound other (by simpa [same] using finished)
      refine ⟨settled.known, by simpa [same] using settled.tall, by simpa [same] using settled.low,
        fun child contains => ?_⟩
      obtain ⟨done, less⟩ := settled.below child contains
      simpa [apart done, same] using And.intro done less

theorem visit_visited (run : m.visit room id search = .ok (height, later)) (sound : m.Sound search)
    (shallow : room ≤ maxCertifiedDepth) : Visited m room id search later height := by
  induction room generalizing id search height later with
  | zero => cases run
  | succ room ih =>
    rw [visit] at run
    split at run
    · cases run
    · next fresh =>
      split at run
      · next finished =>
        split at run
        · cases run
        · next fits =>
          obtain ⟨rfl, rfl⟩ := Prod.mk.inj (Except.ok.inj run)
          exact ⟨.refl _, sound, finished, rfl, by omega⟩
      · next unseen =>
        simp only at run
        split at run
        · cases run
        · next height' middle visited =>
          obtain ⟨rfl, rfl⟩ := Prod.mk.inj (Except.ok.inj run)
          have items := visitItems_visited (fun _ _ _ _ run sound => ih run sound (by omega)) visited
            (sound.enter unseen)
          exact items.leave shallow unseen fresh

/-- Every bucket is stored under its own negative identifier, with as many weights as items. -/
def Identified (m : CrushMap) : Prop :=
  ∀ id bucket, m.buckets.lookup id = some bucket → id < 0 ∧ bucket.id = id ∧
    bucket.items.length = bucket.itemWeights.length

theorem validateBuckets_iff (order : List Int) :
    m.validateBuckets order = .ok () ↔ ∀ id ∈ order, ∀ bucket, m.buckets.lookup id = some bucket →
      id < 0 ∧ bucket.id = id ∧ bucket.items.length = bucket.itemWeights.length := by
  induction order with
  | nil => simp [validateBuckets]
  | cons id order ih =>
    rw [validateBuckets, forall_mem_cons]
    cases found : m.buckets.lookup id with
    | none => simpa using ih
    | some bucket =>
      simp only [Option.some.injEq, forall_eq']
      split
      · next wrong => simp; omega
      · next identified =>
        split
        · next wrong => simp [wrong]
        · next same =>
          rw [ih]
          push Not at identified same
          simp [identified, same]

theorem visitBuckets_settled (sound : m.Sound search) (run : m.visitBuckets order search = .ok ()) :
    ∃ later, Extends search later ∧ m.Sound later ∧ ∀ id ∈ order, later.states id = 2 := by
  induction order generalizing search with
  | nil => exact ⟨search, .refl _, sound, by simp⟩
  | cons id order ih =>
    rw [visitBuckets] at run
    split at run
    · cases run
    · next height middle visited =>
      have first := visit_visited visited sound (Nat.le_refl _)
      obtain ⟨later, extends_, sound', done⟩ := ih first.sound run
      exact ⟨later, first.extends_.trans extends_, sound',
        forall_mem_cons.mpr ⟨(extends_.finished id first.done).1, done⟩⟩

/-- The graphs which the search accepts: no chain has more buckets than the certified depth, so there is
no cycle either. -/
structure Acceptable (m : CrushMap) : Prop where
  identified : m.Identified
  known : ∀ id, ∀ item ∈ m.itemsOf id, m.Known item
  bounded : ∀ id, ¬HasWalk m.Contains maxCertifiedDepth id

/-- The buckets on the path of the search lead to the one that is visited next. -/
def Leads (m : CrushMap) (search : Search) (id : Int) : Prop :=
  ∀ ancestor, search.states ancestor = 1 → ∃ k, Walk m.Contains (k + 1) ancestor id

theorem visitItems_succeeds (acceptable : m.Acceptable)
    (visits : ∀ child search, m.Contains id child → m.Sound search → m.Leads search child →
      ∃ height later, visit child search = .ok (height, later) ∧ Visited m room child search later height)
    (sub : ∀ item ∈ items, item ∈ m.itemsOf id) (height : Nat) (sound : m.Sound search)
    (leads : ∀ child, m.Contains id child → m.Leads search child) :
    ∃ result later, m.visitItems visit items height search = .ok (result, later) := by
  induction items generalizing height search with
  | nil => exact ⟨height, search, rfl⟩
  | cons item items ih =>
    obtain ⟨here, rest⟩ := forall_mem_cons.mp sub
    have known := acceptable.known id item here
    rw [visitItems]
    by_cases device : item ≥ 0
    · have inside := known.1 device
      rw [if_pos device, if_neg (by omega)]
      exact ih rest height sound leads
    · have contains : m.Contains id item := ⟨here, by omega⟩
      obtain ⟨childHeight, middle, run, visited⟩ := visits item search contains sound (leads item contains)
      rw [if_neg device, if_neg (not_not.mpr (known.2 contains.2)), run]
      refine ih rest _ visited.sound fun child within ancestor onPath => ?_
      exact leads child within ancestor ((visited.extends_.path ancestor).mp onPath)

theorem visit_succeeds (acceptable : m.Acceptable) (shallow : room ≤ maxCertifiedDepth) (id : Int)
    (sound : m.Sound search) (leads : m.Leads search id)
    (deep : ∃ start, Walk m.Contains (maxCertifiedDepth - room) start id) :
    ∃ height later, m.visit room id search = .ok (height, later) := by
  induction room generalizing id search with
  | zero =>
    obtain ⟨start, walk⟩ := deep
    exact absurd ⟨id, walk⟩ (acceptable.bounded start)
  | succ room ih =>
    obtain ⟨start, walk⟩ := deep
    have fresh : search.states id ≠ 1 := by
      intro onPath
      obtain ⟨k, cycle⟩ := leads id onPath
      exact acceptable.bounded id (hasWalk_of_cycle cycle maxCertifiedDepth)
    rw [visit, if_neg fresh]
    by_cases finished : search.states id = 2
    · obtain ⟨n, height, rest⟩ := (sound id finished).tall
      have fits : ¬(maxCertifiedDepth - room + search.heights id - 1 > maxCertifiedDepth) := by
        intro exceeds
        exact acceptable.bounded start ((rest.behind walk).shorter (by omega))
      rw [if_pos finished, if_neg fits]
      exact ⟨_, _, rfl⟩
    · rw [if_neg finished]
      have further (child : Int) (contains : m.Contains id child) :
          m.Leads { search with states := update search.states id 1 } child := by
        intro ancestor onPath
        by_cases same : ancestor = id
        · exact ⟨0, same ▸ .step .refl contains⟩
        · obtain ⟨k, walk⟩ := leads ancestor (by simpa [same] using onPath)
          exact ⟨k + 1, .step walk contains⟩
      have visits (child : Int) (search : Search) (contains : m.Contains id child) (sound : m.Sound search)
          (leads : m.Leads search child) :
          ∃ height later, m.visit room child search = .ok (height, later) ∧
            Visited m room child search later height := by
        have deeper : Walk m.Contains (maxCertifiedDepth - room) start child := by
          have length : maxCertifiedDepth - room = maxCertifiedDepth - (room + 1) + 1 := by omega
          exact length ▸ .step walk contains
        obtain ⟨height, later, run⟩ := ih (by omega) child sound leads ⟨start, deeper⟩
        exact ⟨height, later, run, visit_visited run sound (by omega)⟩
      obtain ⟨height, later, run⟩ :=
        visitItems_succeeds acceptable visits (fun _ member => member) 1 (sound.enter finished) further
      rw [itemsOf] at run
      exact ⟨height, ⟨update later.states id 2, update later.heights id height⟩, by simp only [run]⟩

theorem visitBuckets_succeeds (acceptable : m.Acceptable) (sound : m.Sound search)
    (idle : ∀ id, search.states id ≠ 1) : m.visitBuckets order search = .ok () := by
  induction order generalizing search with
  | nil => rfl
  | cons id order ih =>
    obtain ⟨height, later, run⟩ := visit_succeeds acceptable (Nat.le_refl _) id sound
      (fun ancestor onPath => absurd onPath (idle ancestor)) ⟨id, by rw [Nat.sub_self]; exact .refl⟩
    have visited := visit_visited run sound (Nat.le_refl _)
    rw [visitBuckets, run]
    exact ih visited.sound fun other onPath => idle other ((visited.extends_.path other).mp onPath)

theorem itemsOf_eq {bucket : Bucket} (found : m.buckets.lookup id = some bucket) : m.itemsOf id = bucket.items := by
  rw [itemsOf, found]
  rfl

/-- Only a bucket has items. -/
theorem mem_of_mem_itemsOf {id item : Int} (member : item ∈ m.itemsOf id) : id ∈ m.buckets := by
  by_contra missing
  rw [itemsOf, Finmap.lookup_eq_none.mpr missing] at member
  cases member

theorem Sound.acceptable (sound : m.Sound search) (done : ∀ id ∈ m.buckets, search.states id = 2)
    (identified : m.Identified) : m.Acceptable := by
  have settled (id item : Int) (member : item ∈ m.itemsOf id) : m.Settled search id :=
    sound id (done id (mem_of_mem_itemsOf member))
  refine ⟨identified, fun id item member => (settled id item member).known item member, ?_⟩
  rintro id ⟨last, walk⟩
  have lowers (parent child : Int) (contains : m.Contains parent child) :
    search.heights child < search.heights parent :=
    ((settled parent child contains.1).below child contains).2
  have height := walk.rank search.heights lowers
  obtain ⟨child, contains, -⟩ := Walk.uncons (n := maxCertifiedDepth - 1) walk
  have start := (settled id child contains.1).low
  cases walk with
  | step _ contains =>
    obtain ⟨n, tall, -⟩ := (sound last ((settled _ last contains.1).below last contains).1).tall
    omega

/-- The search accepts exactly the acceptable graphs, in whatever order it visits the buckets. -/
theorem validateGraph_iff {first second : List Int} (firstOrder : m.buckets.IsOrder first)
    (secondOrder : m.buckets.IsOrder second) : m.validateGraph first second = .ok () ↔ m.Acceptable := by
  have empty : m.Sound {} := fun id done => by simp at done
  have identified : m.validateBuckets first = .ok () ↔ m.Identified := by
    rw [validateBuckets_iff]
    refine ⟨fun valid id bucket found => ?_, fun valid id _ bucket found => valid id bucket found⟩
    exact valid id ((firstOrder.2 id).mpr (Finmap.mem_of_lookup_eq_some found)) bucket found
  constructor
  · intro run
    obtain ⟨⟨⟩, valid, run⟩ := except_bind_ok run
    obtain ⟨later, -, sound, done⟩ := visitBuckets_settled empty run
    exact sound.acceptable (fun id present => done id ((secondOrder.2 id).mpr present)) (identified.mp valid)
  · intro acceptable
    rw [validateGraph, identified.mpr acceptable.identified]
    exact visitBuckets_succeeds acceptable empty (by simp)

theorem bounded_iff : (∀ id, ¬HasWalk m.Contains maxCertifiedDepth id) ↔
    ∀ chain : List Int, chain.IsChain m.Contains → chain.length ≤ maxCertifiedDepth := by
  constructor
  · intro bounded chain isChain
    cases chain with
    | nil => exact Nat.zero_le _
    | cons id chain =>
      have short : ¬maxCertifiedDepth ≤ chain.length := fun long =>
        bounded id (HasWalk.shorter (hasWalk_iff_chain.mpr ⟨chain, rfl, isChain⟩) long)
      rw [length_cons]
      omega
  · intro bounded id walk
    obtain ⟨chain, length, isChain⟩ := hasWalk_iff_chain.mp walk
    have short := bounded (id :: chain) isChain
    rw [length_cons] at short
    omega

/-- A table is accepted, in whatever order it is searched, exactly if its buckets and items are sound, there is no
cycle and no chain has more than 64 buckets. -/
theorem validateGraph_accepts_iff (m : CrushMap) {first second : List Int} (firstOrder : m.buckets.IsOrder first)
    (secondOrder : m.buckets.IsOrder second) : m.validateGraph first second = .ok () ↔
      (∀ id bucket, m.buckets.lookup id = some bucket →
        id < 0 ∧ bucket.id = id ∧ bucket.items.length = bucket.itemWeights.length) ∧
      (∀ id bucket, m.buckets.lookup id = some bucket →
        ∀ item ∈ bucket.items, (0 ≤ item → item < m.maxDevices) ∧ (item < 0 → item ∈ m.buckets)) ∧
      (∀ id k, ¬Walk m.Contains (k + 1) id id) ∧
      ∀ chain : List Int, chain.IsChain m.Contains → chain.length ≤ 64 := by
  rw [validateGraph_iff firstOrder secondOrder]
  constructor
  · intro acceptable
    refine ⟨acceptable.identified, fun id bucket found item member => ?_, fun id k cycle => ?_,
      bounded_iff.mp acceptable.bounded⟩
    · exact acceptable.known id item (itemsOf_eq found ▸ member)
    · exact acceptable.bounded id (hasWalk_of_cycle cycle maxCertifiedDepth)
  · rintro ⟨identified, known, -, bounded⟩
    refine ⟨identified, fun id item member => ?_, bounded_iff.mpr bounded⟩
    obtain ⟨bucket, found⟩ := Finmap.mem_iff.mp (mem_of_mem_itemsOf member)
    exact known id bucket found item (itemsOf_eq found ▸ member)

def oneRack : CrushMap where
  maxDevices := 2
  buckets := Finmap.insert (-1) ⟨-1, 3, 0, [-2], [0]⟩ (Finmap.singleton (-2) ⟨-2, 1, 0, [0, 1], [0, 0]⟩)

theorem validateGraph_accepts_iff_oneRack : oneRack.validateGraph [-1, -2] [-2, -1] = .ok () ∧
    ∀ chain : List Int, chain.IsChain oneRack.Contains → chain.length ≤ 64 := by
  have firstOrder : oneRack.buckets.IsOrder [-1, -2] := ⟨by decide, fun key => by simp [oneRack]⟩
  have secondOrder : oneRack.buckets.IsOrder [-2, -1] := ⟨by decide, fun key => by simp [oneRack, or_comm]⟩
  exact ⟨rfl, ((validateGraph_accepts_iff oneRack firstOrder secondOrder).mp rfl).2.2.2⟩

end CrushMap

end RadosGo.Crush
