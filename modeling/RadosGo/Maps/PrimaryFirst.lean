import RadosGo.Maps.Placement
import RadosGo.Maps.Vectors

namespace RadosGo.Maps

open List

open Crush (indexed)

namespace Pool

variable (pool : Pool)

/-- The shards in the order of a temporary mapping: those which may be primary come first. -/
def shardOrder (size : Nat) : List Nat :=
  (List.range size).filter (fun shard => !pool.isNonprimaryShard shard) ++
    (List.range size).filter pool.isNonprimaryShard

theorem shards_eq (source : List Int) (wanted : Nat → Bool) :
    shards source wanted = ((range source.length).filter wanted).map (source.getD · 0) := by
  have entries : source.zipIdx = (range source.length).map fun shard => (source.getD shard 0, shard) := by
    refine ext_getElem (by simp) fun shard first second => ?_
    have within : shard < source.length := by simpa using first
    simp [within]
  rw [shards, entries, filter_map, map_map]
  rfl

theorem pgTempPrimaryFirst_eq (source : List Int) :
    pool.pgTempPrimaryFirst source = (pool.shardOrder source.length).map (source.getD · 0) := by
  rw [pgTempPrimaryFirst, shards_eq, shards_eq, shardOrder, map_append]

theorem mem_shardOrder {size shard : Nat} : shard ∈ pool.shardOrder size ↔ shard < size := by
  rw [shardOrder, mem_append, mem_filter, mem_filter, mem_range]
  cases pool.isNonprimaryShard shard <;> simp

theorem shardOrder_length (size : Nat) : (pool.shardOrder size).length = size := by
  have parts := length_eq_length_filter_add (l := range size) pool.isNonprimaryShard
  rw [length_range] at parts
  rw [shardOrder, length_append]
  omega

variable {source : List Int} {osd : Int} {position : Nat}

theorem mem_pgTempPrimaryFirst : osd ∈ pool.pgTempPrimaryFirst source ↔ osd ∈ source := by
  rw [pgTempPrimaryFirst_eq, mem_map, mem_iff_getElem]
  refine exists_congr fun shard => ?_
  rw [mem_shardOrder]
  refine ⟨?_, ?_⟩
  · rintro ⟨within, read⟩
    exact ⟨within, by rwa [getD_eq_getElem _ _ within] at read⟩
  · rintro ⟨within, read⟩
    exact ⟨within, by rwa [getD_eq_getElem _ _ within]⟩

theorem indexed_of_isPrefix {rest : List Int} {index : Nat} (front : osd :: rest <+: source.drop index) :
    indexed source index = .ok osd ∧ rest <+: source.drop (index + 1) := by
  obtain ⟨others, parts⟩ := front
  have read : source[index]? = some osd := by
    rw [← Nat.add_zero index, ← getElem?_drop, ← parts]
    rfl
  refine ⟨by rw [indexed, read], others, ?_⟩
  rw [← tail_drop, ← parts]
  rfl

/-- The two cursors of the undoing loop stand at what is left of the two parts. -/
theorem undoShards_merge (source : List Int) (entries : List (Int × Nat)) (primaryIndex nonprimaryIndex : Nat)
    (primaries : (entries.filter fun entry => !pool.isNonprimaryShard entry.2).map Prod.fst <+: source.drop
      primaryIndex)
    (others : (entries.filter fun entry => pool.isNonprimaryShard entry.2).map Prod.fst <+: source.drop
      nonprimaryIndex) :
    pool.undoShards source (entries.map Prod.snd) primaryIndex nonprimaryIndex = .ok (entries.map Prod.fst) := by
  induction entries generalizing primaryIndex nonprimaryIndex with
  | nil => rfl
  | cons entry entries ih =>
    rw [map_cons, undoShards]
    cases nonprimary : pool.isNonprimaryShard entry.2 with
    | true =>
      rw [filter_cons_of_pos (by simp [nonprimary])] at others
      rw [filter_cons_of_neg (by simp [nonprimary])] at primaries
      obtain ⟨read, others⟩ := indexed_of_isPrefix others
      rw [if_pos rfl, read]
      change (pool.undoShards source (entries.map Prod.snd) primaryIndex (nonprimaryIndex + 1) >>= _) = _
      rw [ih _ _ primaries others]
      rfl
    | false =>
      rw [filter_cons_of_neg (by simp [nonprimary])] at others
      rw [filter_cons_of_pos (by simp [nonprimary])] at primaries
      obtain ⟨read, primaries⟩ := indexed_of_isPrefix primaries
      rw [if_neg (by simp), read]
      change (pool.undoShards source (entries.map Prod.snd) (primaryIndex + 1) nonprimaryIndex >>= _) = _
      rw [ih _ _ primaries others]
      rfl

/-- Every list is the order of a temporary mapping: its parts are dealt out to the shards. -/
theorem exists_entries (shards : List Nat) (primaries others : List Int)
    (first : primaries.length = shards.countP fun shard => !pool.isNonprimaryShard shard)
    (second : others.length = shards.countP pool.isNonprimaryShard) :
    ∃ entries : List (Int × Nat), entries.map Prod.snd = shards ∧
      (entries.filter fun entry => !pool.isNonprimaryShard entry.2).map Prod.fst = primaries ∧
      (entries.filter fun entry => pool.isNonprimaryShard entry.2).map Prod.fst = others := by
  induction shards generalizing primaries others with
  | nil => exact ⟨[], rfl, (length_eq_zero_iff.mp first).symm, (length_eq_zero_iff.mp second).symm⟩
  | cons shard shards ih =>
    rw [countP_cons] at first second
    cases nonprimary : pool.isNonprimaryShard shard with
    | true =>
      simp only [nonprimary, Bool.not_true, Bool.false_eq_true, if_false, if_true, Nat.add_zero] at first second
      obtain ⟨osd, others, rfl⟩ := exists_cons_of_length_eq_add_one second
      obtain ⟨entries, sound, left, right⟩ := ih primaries others first (by simpa using second)
      exact ⟨(osd, shard) :: entries, by simp [sound], by simp [nonprimary, left], by simp [nonprimary, right]⟩
    | false =>
      simp only [nonprimary, Bool.not_false, Bool.false_eq_true, if_false, if_true, Nat.add_zero] at first second
      obtain ⟨osd, primaries, rfl⟩ := exists_cons_of_length_eq_add_one first
      obtain ⟨entries, sound, left, right⟩ := ih primaries others (by simpa using first) second
      exact ⟨(osd, shard) :: entries, by simp [sound], by simp [nonprimary, left], by simp [nonprimary, right]⟩

/-- What is dealt out to the shards in order is put together again. -/
theorem pgTempUndoPrimaryFirst_entries {entries : List (Int × Nat)}
    (inOrder : entries.map Prod.snd = range entries.length) :
    pool.pgTempUndoPrimaryFirst ((entries.filter fun entry => !pool.isNonprimaryShard entry.2).map Prod.fst ++
      (entries.filter fun entry => pool.isNonprimaryShard entry.2).map Prod.fst) = .ok (entries.map Prod.fst) := by
  have counted : (entries.map Prod.snd).countP pool.isNonprimaryShard =
      (entries.filter fun entry => pool.isNonprimaryShard entry.2).length := by
    rw [countP_map, countP_eq_length_filter]
    rfl
  have parts := length_eq_length_filter_add (l := entries) fun entry => pool.isNonprimaryShard entry.2
  have length : ((entries.filter fun entry => !pool.isNonprimaryShard entry.2).map Prod.fst ++
      (entries.filter fun entry => pool.isNonprimaryShard entry.2).map Prod.fst).length = entries.length := by
    rw [length_append, length_map, length_map]
    omega
  rw [pgTempUndoPrimaryFirst, length, ← inOrder, counted]
  refine pool.undoShards_merge _ entries _ _ (prefix_append _ _) ?_
  have back : entries.length - (entries.filter fun entry => pool.isNonprimaryShard entry.2).length =
      ((entries.filter fun entry => !pool.isNonprimaryShard entry.2).map Prod.fst).length := by
    rw [length_map]
    omega
  rw [back, drop_left]

/-- The place of a shard in the order of a temporary mapping does not depend on the OSDs. -/
theorem pgTempUndoPrimaryFirstIndex_eq (within : position < pool.size) :
    ∃ shard < pool.size, pool.pgTempUndoPrimaryFirstIndex position = .ok shard ∧
      ∀ osds : List Int, osds.length = pool.size → (pool.pgTempPrimaryFirst osds)[position]? = osds[shard]? := by
  obtain ⟨shard, ordered⟩ : ∃ shard, (pool.shardOrder pool.size)[position]? = some shard :=
    ⟨_, getElem?_eq_getElem ((pool.shardOrder_length _).symm ▸ within)⟩
  have below := pool.mem_shardOrder.mp (mem_of_getElem? ordered)
  have same (osds : List Int) (length : osds.length = pool.size) :
      (pool.pgTempPrimaryFirst osds)[position]? = osds[shard]? := by
    rw [pgTempPrimaryFirst_eq, length, getElem?_map, ordered, Option.map_some,
      getD_eq_getElem _ _ (length.symm ▸ below), getElem?_eq_getElem (length.symm ▸ below)]
  refine ⟨shard, below, ?_, same⟩
  have canonical := same ((range pool.size).map Int.ofNat) (by simp)
  rw [pgTempUndoPrimaryFirstIndex, indexed, canonical, getElem?_map, getElem?_range below]
  rfl

theorem pgTempUndoPrimaryFirst_exists (osds : List Int) :
    ∃ undone, pool.pgTempUndoPrimaryFirst osds = .ok undone ∧ pool.pgTempPrimaryFirst undone = osds := by
  have parts := length_eq_countP_add_countP pool.isNonprimaryShard (l := range osds.length)
  rw [length_range] at parts
  simp only [Bool.not_eq_true, Bool.decide_eq_false] at parts
  generalize others : (range osds.length).countP pool.isNonprimaryShard = count at parts
  obtain ⟨entries, inOrder, left, right⟩ := pool.exists_entries (range osds.length)
    (osds.take (osds.length - count)) (osds.drop (osds.length - count))
    (by rw [length_take]; omega) (by rw [length_drop]; omega)
  have length : entries.length = osds.length := by simpa using congrArg length inOrder
  have undone := pool.pgTempUndoPrimaryFirst_entries (inOrder.trans (by rw [length]))
  rw [left, right, take_append_drop] at undone
  have zipped : (entries.map Prod.fst).zipIdx = entries := by
    refine ext_getElem (by simp) fun shard first second => ?_
    have named : (entries.map Prod.snd)[shard]? = some shard := by
      rw [inOrder, getElem?_range (length ▸ second)]
    grind
  refine ⟨_, undone, ?_⟩
  rw [pgTempPrimaryFirst, shards, shards, zipped, left, right, take_append_drop]

theorem pgTempUndoPrimaryFirst_meets (source : List Int) :
    Meets IsError (pool.pgTempUndoPrimaryFirst source) fun result =>
      result.length = source.length ∧ ∀ osd ∈ result, osd ∈ source := by
  obtain ⟨undone, run, ordered⟩ := pool.pgTempUndoPrimaryFirst_exists source
  rw [run, ← ordered]
  refine meets_pure ⟨?_, fun osd member => pool.mem_pgTempPrimaryFirst.mpr member⟩
  rw [pgTempPrimaryFirst_eq, length_map, shardOrder_length]

/-- The place of an OSD in the order of a temporary mapping is that of its shard. -/
theorem pgTempUndoPrimaryFirstIndex_meets (length : source.length = pool.size)
    (found : (pool.pgTempPrimaryFirst source)[position]? = some osd) :
    Meets IsError (pool.pgTempUndoPrimaryFirstIndex position) fun shard => source[shard]? = some osd := by
  have within : position < pool.size := by
    have := (List.getElem?_eq_some_iff.mp found).1
    rwa [pgTempPrimaryFirst_eq, length_map, shardOrder_length, length] at this
  obtain ⟨shard, -, run, same⟩ := pool.pgTempUndoPrimaryFirstIndex_eq within
  rw [run]
  exact meets_pure ((same source length).symm.trans found)

/-- The order of a temporary mapping and its undoing are inverse to each other, and the index of a position in that
order is the shard whose OSD stands there. -/
theorem primaryFirst_inverse :
    (∀ osds, pool.pgTempUndoPrimaryFirst (pool.pgTempPrimaryFirst osds) = .ok osds) ∧
    (∀ osds, ∃ undone, pool.pgTempUndoPrimaryFirst osds = .ok undone ∧ pool.pgTempPrimaryFirst undone = osds) ∧
    ∀ position < pool.size, ∃ shard < pool.size, pool.pgTempUndoPrimaryFirstIndex position = .ok shard ∧
      ∀ osds : List Int, osds.length = pool.size → (pool.pgTempPrimaryFirst osds)[position]? = osds[shard]? := by
  refine ⟨fun osds => ?_, pool.pgTempUndoPrimaryFirst_exists, fun position => pool.pgTempUndoPrimaryFirstIndex_eq⟩
  have inOrder : osds.zipIdx.map Prod.snd = range osds.zipIdx.length := by simp [range_eq_range']
  have undone := pool.pgTempUndoPrimaryFirst_entries inOrder
  rwa [zipIdx_map_fst] at undone

/-- An erasure coded pool of three shards, of which the first may not be primary. -/
def threeShards : Pool where
  id := 1
  name := [97]
  poolType := poolTypeErasure
  size := 3
  minimumSize := 2
  crushRule := 0
  objectHash := objectHashRJenkins
  pgCount := 1
  placementPGCount := 1
  stripeWidth := 0
  flags := 0
  snapshotSequence := 0
  snapshots := ∅
  erasureCodeProfile := []
  nonprimaryShards := (1, 0)
  applicationMetadata := ∅
  options := ∅

theorem primaryFirst_inverse_three : threeShards.pgTempPrimaryFirst [7, 8, 9] = [8, 9, 7] ∧
    threeShards.pgTempUndoPrimaryFirst [8, 9, 7] = .ok [7, 8, 9] ∧
    ∃ shard < 3, threeShards.pgTempUndoPrimaryFirstIndex 2 = .ok shard ∧ some 7 = [(7 : Int), 8, 9][shard]? := by
  obtain ⟨inverse, -, index⟩ := threeShards.primaryFirst_inverse
  obtain ⟨shard, below, run, same⟩ := index 2 (by decide)
  exact ⟨by decide, inverse [7, 8, 9], shard, below, run, same [7, 8, 9] rfl⟩

end Pool

end RadosGo.Maps
