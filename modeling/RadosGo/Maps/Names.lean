import RadosGo.Library.Meets
import RadosGo.Maps.Decoded

namespace RadosGo.Maps

open Decoding List

def OSDMap.poolByID (osdMap : OSDMap) (id : Int) : Option Pool := osdMap.pools.lookup id

def OSDMap.poolByName (osdMap : OSDMap) (name : Bytes) : Option Pool :=
  match osdMap.nameToID.lookup name with
  | none => none
  | some id => osdMap.poolByID id

def OSDMap.names (osdMap : OSDMap) : Names := ⟨osdMap.pools, osdMap.nameToID⟩

namespace Names

/-- An entry of the index names a pool which bears that name, and a pool that has a name is in the index. -/
structure Indexed (names : Names) : Prop where
  found : ∀ {name id}, names.nameToID.lookup name = some id → ∃ pool, names.pools.lookup id = some pool ∧
    pool.name = name
  named : ∀ {id pool}, names.pools.lookup id = some pool → pool.name ≠ [] → names.nameToID.lookup pool.name = some id

/-- The index is the inverse of the names: every pool has one. -/
structure Agree (names : Names) : Prop extends Indexed names where
  nonempty : ∀ {id pool}, names.pools.lookup id = some pool → pool.name ≠ []

variable {names after : Names}

theorem Indexed.addPool {pools : GoMap Int Pool} {index : GoMap Bytes Int} (indexed : Indexed ⟨pools, index⟩)
    {entry : Int × Pool} (blank : entry.2.name = []) : Indexed ⟨addPool pools entry, index⟩ := by
  obtain ⟨id, pool⟩ := entry
  unfold Maps.addPool
  split
  · next old there =>
    refine ⟨fun {name other} found => ?_, fun {other pool'} found nonempty => ?_⟩
    · obtain ⟨pool', at_, same⟩ := indexed.found found
      by_cases here : other = id
      · subst here
        obtain rfl := Option.some.inj (at_.symm.trans there)
        exact ⟨_, Finmap.lookup_insert _, same⟩
      · exact ⟨pool', (Finmap.lookup_insert_of_ne _ here).trans at_, same⟩
    · rcases GoMap.lookup_insert_iff.mp found with ⟨rfl, rfl⟩ | ⟨-, at_⟩
      · have indexedAt := indexed.named there nonempty
        exact indexedAt
      · exact indexed.named at_ nonempty
  · next missing =>
    refine ⟨fun {name other} found => ?_, fun {other pool'} found nonempty => ?_⟩
    · obtain ⟨pool', at_, same⟩ := indexed.found found
      have apart : other ≠ id := by
        rintro rfl
        rw [missing] at at_
        cases at_
      exact ⟨pool', (Finmap.lookup_insert_of_ne _ apart).trans at_, same⟩
    · rcases GoMap.lookup_insert_iff.mp found with ⟨rfl, rfl⟩ | ⟨-, at_⟩
      · exact absurd blank nonempty
      · exact indexed.named at_ nonempty

theorem Indexed.found_other (indexed : names.Indexed) {id owner : Int} {pool : Pool}
    (there : names.pools.lookup id = some pool)
    {name : Bytes} (notOld : name ≠ pool.name) (found : names.nameToID.lookup name = some owner) :
    ∃ pool', names.pools.lookup owner = some pool' ∧ pool'.name = name ∧ owner ≠ id := by
  obtain ⟨pool', at_, same⟩ := indexed.found found
  refine ⟨pool', at_, same, ?_⟩
  rintro rfl
  obtain rfl := Option.some.inj (at_.symm.trans there)
  exact notOld same.symm

theorem Indexed.name_ne (indexed : names.Indexed) {id owner : Int} {pool pool' : Pool}
    (there : names.pools.lookup id = some pool) (at_ : names.pools.lookup owner = some pool') (apart : owner ≠ id)
    (nonempty : pool'.name ≠ []) : pool'.name ≠ pool.name := by
  intro same
  have both := indexed.named there (same ▸ nonempty)
  rw [← same, indexed.named at_ nonempty] at both
  exact apart (Option.some.inj both)

theorem Indexed.renamePool (indexed : names.Indexed) {entry : Int × Bytes}
    (renamed : renamePool names entry = .ok after) : after.Indexed := by
  revert renamed
  fun_cases Maps.renamePool names entry
  all_goals rintro ⟨⟩
  next id name pool there free =>
  refine ⟨fun {other owner} found => ?_, fun {owner pool'} found nonempty => ?_⟩
  · rcases GoMap.lookup_insert_iff.mp found with ⟨rfl, rfl⟩ | ⟨-, found⟩
    · exact ⟨_, Finmap.lookup_insert _, rfl⟩
    · obtain ⟨notOld, found⟩ := GoMap.lookup_erase_iff.mp found
      obtain ⟨pool', at_, same, apart⟩ := indexed.found_other there notOld found
      exact ⟨pool', (Finmap.lookup_insert_of_ne _ apart).trans at_, same⟩
  · rcases GoMap.lookup_insert_iff.mp found with ⟨rfl, rfl⟩ | ⟨apart, at_⟩
    · exact Finmap.lookup_insert _
    · have indexedAt := indexed.named at_ nonempty
      -- The new name is free and the old one is that of the renamed pool only.
      have notNew : pool'.name ≠ name := by
        rintro rfl
        exact free ⟨owner, indexedAt, apart⟩
      have notOld := indexed.name_ne there at_ apart nonempty
      exact (Finmap.lookup_insert_of_ne _ notNew).trans ((Finmap.lookup_erase_ne notOld).trans indexedAt)

theorem Indexed.removePool (indexed : names.Indexed) (id : Int) : (removePool names id).Indexed := by
  rw [Maps.removePool]
  split
  · exact indexed
  · next pool there =>
    refine ⟨fun {name owner} found => ?_, fun {owner pool'} found nonempty => ?_⟩
    · obtain ⟨notOld, found⟩ := GoMap.lookup_erase_iff.mp found
      obtain ⟨pool', at_, same, apart⟩ := indexed.found_other there notOld found
      exact ⟨pool', (Finmap.lookup_erase_ne apart).trans at_, same⟩
    · obtain ⟨apart, at_⟩ := GoMap.lookup_erase_iff.mp found
      exact (Finmap.lookup_erase_ne (indexed.name_ne there at_ apart nonempty)).trans (indexed.named at_ nonempty)

end Names

section Apply

variable {ranges : Ranges} {current next : OSDMap} {incremental : OSDMapIncremental} {names : Names}

theorem applyPools_indexed (indexed : current.names.Indexed) (blank : ∀ entry ∈ ranges.newPools, entry.2.name = [])
    (applied : applyPools ranges current incremental = .ok names) : names.Indexed := by
  have added : Names.Indexed ⟨ranges.newPools.foldl addPool current.pools, current.nameToID⟩ :=
    foldlRecOn (motive := fun pools => Names.Indexed ⟨pools, current.nameToID⟩) ranges.newPools addPool indexed
      fun _ indexed entry member => indexed.addPool (blank entry member)
  obtain ⟨renamed, rename, returned⟩ := except_bind_ok applied
  cases returned
  have kept : renamed.Indexed :=
    foldlM_history (fun _ names => names.Indexed) (fun indexed ok => indexed.renamePool ok) [] added rename
  exact foldlRecOn (motive := Names.Indexed) incremental.oldPools removePool kept
    fun _ indexed id _ => indexed.removePool id

theorem checkNames_ok_iff (pools : List (Int × Pool)) : checkNames pools = .ok () ↔
    ∀ entry ∈ pools, entry.2.name ≠ [] := by
  induction pools with
  | nil => simp [checkNames]
  | cons entry pools ih =>
    obtain ⟨id, pool⟩ := entry
    rw [checkNames, forall_mem_cons, ← ih]
    split
    · next empty =>
      constructor
      · intro checked
        cases checked
      · exact fun both => absurd empty both.1
    · next nonempty => exact (and_iff_right nonempty).symm

theorem checkNames_lists {pools : GoMap Int Pool} {listed sample : List (Int × Pool)} (lists : pools.Lists listed)
    (lists' : pools.Lists sample) (fine : checkNames sample = .ok ()) : checkNames listed = .ok () :=
  (checkNames_ok_iff _).mpr fun entry member =>
    (checkNames_ok_iff _).mp fine entry ((lists.perm lists').mem_iff.mp member)

theorem applyChanges_agree (indexed : current.names.Indexed) (order : ranges.Of incremental)
    (blank : ∀ id pool, incremental.newPools.lookup id = some pool → pool.name = [])
    (applied : applyChanges ranges current incremental = .ok next) : next.names.Agree := by
  obtain ⟨names, pools, run⟩ := except_bind_ok applied
  obtain ⟨vectors, -, run⟩ := except_bind_ok run
  obtain ⟨⟨⟩, checked, returned⟩ := except_bind_ok run
  cases returned
  have kept : names.Indexed := applyPools_indexed indexed
    (fun entry member => blank entry.1 entry.2 (order.newPools.mem_iff.mp member)) pools
  exact ⟨kept, fun {id pool} found => (checkNames_ok_iff _).mp checked (id, pool) ((order.pools _).mem_iff.mpr found)⟩

end Apply

section Full

variable {limits : Limits}

/-- What the loop over the names of a full map has made of those it has handled. -/
structure Listed (pools : GoMap Int Pool) (entries : List (Int × Bytes)) (names : Names) : Prop where
  keys : names.pools.keys = pools.keys
  known : ∀ entry ∈ entries, entry.1 ∈ pools.keys
  index : ∀ {name id}, names.nameToID.lookup name = some id ↔ (id, name) ∈ entries
  once : (entries.map Prod.snd).Nodup
  bears : (entries.map Prod.fst).Nodup → ∀ {id name}, (id, name) ∈ entries →
    ∃ pool, names.pools.lookup id = some pool ∧ pool.name = name

theorem listed_nil (pools : GoMap Int Pool) : Listed pools [] { pools } :=
  ⟨rfl, by simp, by simp, nodup_nil, by simp⟩

variable {pools : GoMap Int Pool} {entries : List (Int × Bytes)} {names : Names} {osdMap : OSDMap}

theorem Listed.addName {after : Names} (listed : Listed pools entries names) {entry : Int × Bytes}
    (added : addName names entry = .ok after) : Listed pools (entries ++ [entry]) after := by
  obtain ⟨id, name⟩ := entry
  unfold Maps.addName at added
  dsimp only at added
  split at added
  · cases added
  · next pool there =>
    split at added
    · cases added
    · next fresh =>
      cases added
      have member : id ∈ names.pools.keys := Finmap.mem_keys.mpr (Finmap.mem_iff.mpr ⟨pool, there⟩)
      have unused : ∀ other, (other, name) ∉ entries := fun other member =>
        fresh (Finmap.mem_iff.mpr ⟨other, listed.index.mpr member⟩)
      refine ⟨?_, fun entry inside => ?_, fun {other owner} => ?_, ?_, fun ids {owner other} inside => ?_⟩
      · rw [← listed.keys]
        ext owner
        rw [Finmap.mem_keys, Finmap.mem_insert, ← Finmap.mem_keys]
        exact or_iff_right_of_imp fun same => same ▸ member
      · rcases mem_append.mp inside with old | new
        · exact listed.known entry old
        · obtain rfl := mem_singleton.mp new
          exact listed.keys ▸ member
      · rw [GoMap.lookup_insert_iff, listed.index, mem_append, mem_singleton, Prod.mk.injEq]
        constructor
        · rintro (⟨rfl, rfl⟩ | ⟨-, old⟩)
          · exact .inr ⟨rfl, rfl⟩
          · exact .inl old
        · rintro (old | ⟨rfl, rfl⟩)
          · exact .inr ⟨fun same => unused owner (same ▸ old), old⟩
          · exact .inl ⟨rfl, rfl⟩
      · rw [map_append, nodup_append']
        refine ⟨listed.once, by simp, fun other old new => ?_⟩
        obtain ⟨⟨owner, _⟩, inside, rfl⟩ := mem_map.mp old
        obtain rfl : _ = name := mem_singleton.mp new
        exact unused owner inside
      · rw [map_append, nodup_append'] at ids
        rcases mem_append.mp inside with old | new
        · have apart : owner ≠ id := fun same =>
            ids.2.2 (mem_map_of_mem old) (by simp [same])
          obtain ⟨pool', found, same⟩ := listed.bears ids.1 old
          exact ⟨pool', (Finmap.lookup_insert_of_ne _ apart).trans found, same⟩
        · obtain ⟨rfl, rfl⟩ := Prod.mk.inj (mem_singleton.mp new)
          exact ⟨_, Finmap.lookup_insert _, rfl⟩

/-- The check by count makes the index an inverse unless a pool is named twice or by an empty name. -/
theorem Listed.agree_iff (listed : Listed pools entries names)
    (count : names.nameToID.keys.card = names.pools.keys.card) :
    names.Agree ↔ (entries.map Prod.fst).Nodup ∧ [] ∉ entries.map Prod.snd := by
  constructor
  · intro agree
    refine ⟨?_, fun empty => ?_⟩
    · refine pairwise_map.mpr (List.Pairwise.imp_of_mem ?_ (pairwise_map.mp listed.once))
      rintro ⟨id, name⟩ ⟨other, name'⟩ first second apart same
      obtain rfl : id = other := same
      obtain ⟨pool, there, rfl⟩ := agree.found (listed.index.mpr first)
      obtain ⟨pool', there', rfl⟩ := agree.found (listed.index.mpr second)
      obtain rfl := Option.some.inj (there.symm.trans there')
      exact apart rfl
    · obtain ⟨⟨id, name⟩, member, rfl⟩ := mem_map.mp empty
      obtain ⟨pool, there, same⟩ := agree.found (listed.index.mpr member)
      exact agree.nonempty there same
  · rintro ⟨ids, nonempty⟩
    have index : names.nameToID.keys = (entries.map Prod.snd).toFinset := by
      ext name
      rw [Finmap.mem_keys, Finmap.mem_iff, mem_toFinset, mem_map]
      constructor
      · rintro ⟨id, found⟩
        exact ⟨(id, name), listed.index.mp found, rfl⟩
      · rintro ⟨⟨id, _⟩, member, rfl⟩
        exact ⟨id, listed.index.mpr member⟩
    have all : (entries.map Prod.fst).toFinset = names.pools.keys := by
      refine Finset.eq_of_subset_of_card_le (fun id member => ?_) ?_
      · obtain ⟨entry, inside, rfl⟩ := mem_map.mp (mem_toFinset.mp member)
        exact listed.keys ▸ listed.known entry inside
      · rw [← count, index, toFinset_card_of_nodup listed.once, toFinset_card_of_nodup ids, length_map,
          length_map]
    have listedName : ∀ {id pool}, names.pools.lookup id = some pool → (id, pool.name) ∈ entries := by
      intro id pool found
      have member : id ∈ (entries.map Prod.fst).toFinset := by
        rw [all, Finmap.mem_keys, Finmap.mem_iff]
        exact ⟨pool, found⟩
      obtain ⟨⟨_, name⟩, inside, rfl⟩ := mem_map.mp (mem_toFinset.mp member)
      obtain ⟨pool', there, rfl⟩ := listed.bears ids inside
      obtain rfl := Option.some.inj (there.symm.trans found)
      exact inside
    refine ⟨⟨fun {name id} found => listed.bears ids (listed.index.mp found), fun found _ => ?_⟩,
      fun found empty => ?_⟩
    · exact listed.index.mpr (listedName found)
    · exact nonempty (mem_map.mpr ⟨_, listedName found, empty⟩)

/-- The names of a full map as they stand in its client part. -/
def decodeNameEntries (limits : Limits) : Decoding (List (Int × Bytes)) := do
  let _ ← decodeHeading
  let _ ← decodePools limits fun id => malformed s!"duplicate pool id {id}"
  let count ← boundedCount limits.maxPools 12
  readMany decodeName count

/-- The names of a full map as they stand in the payload. -/
def nameSection (limits : Limits) (data : Bytes) : Except GoError (List (Int × Bytes)) := do
  let decoding := decodeWrapped "osdmap" 10 (decodeNameEntries limits) (pure ()) data
  let (entries, _) ← (decoding.eval (newDecoder data limits.maxBytes)).1
  return entries

/-- The payload names no pool twice and none by an empty name. -/
def WellNamed (limits : Limits) (data : Bytes) : Prop :=
  ∃ entries, nameSection limits data = .ok entries ∧ (entries.map Prod.fst).Nodup ∧ [] ∉ entries.map Prod.snd

theorem decodeOSDMapClient_listed {d d' : Decoder} (read : (decodeOSDMapClient limits).eval d = (.ok osdMap, d')) :
    ∃ pools entries, ((decodeNameEntries limits).eval d).1 = .ok entries ∧ Listed pools entries osdMap.names ∧
      osdMap.names.nameToID.keys.card = osdMap.names.pools.keys.card := by
  obtain ⟨heading, d1, head, read⟩ := eval_bind_ok read
  obtain ⟨pools, d2, poolsRead, read⟩ := eval_bind_ok read
  obtain ⟨names, d3, namesRead, read⟩ := eval_bind_ok read
  obtain ⟨count, d4, counted, namesRead⟩ := eval_bind_ok namesRead
  obtain ⟨listed, d5, folded, checked⟩ := eval_bind_ok namesRead
  obtain ⟨entries, many, fold⟩ := readFold_ok folded
  have run : (decodeNameEntries limits).eval d = (.ok entries, d5) := by
    rw [decodeNameEntries, eval_bind head, eval_bind poolsRead, eval_bind counted, many]
  have same : osdMap.names = names := by
    refine (?_ : Yields _ fun osdMap => osdMap.names = names) read
    refine .after fun _ => .after fun _ => .after fun _ => .after fun _ => .after fun _ => .after fun _ => ?_
    exact .after fun _ => .after fun _ => .after fun _ => .after fun _ => .after fun _ => .after fun _ =>
      yields_pure rfl
  dsimp only at checked
  split at checked
  · cases checked
  · next count =>
    obtain rfl : listed = names := Except.ok.inj (congrArg Prod.fst checked)
    refine ⟨pools, entries, congrArg Prod.fst run, ?_, ?_⟩
    · exact same ▸ foldlM_history (Listed pools) (fun listed added => listed.addName added) [] (listed_nil pools) fold
    · exact same ▸ not_not.mp count

/-- In an accepted full map the index is the inverse of the names exactly if the payload is well named. -/
theorem decodeOSDMap_agree_iff {data : Bytes} (decoded : decodeOSDMap limits data = .ok osdMap) :
    osdMap.names.Agree ↔ WellNamed limits data := by
  obtain ⟨client, crc, decoder, read, rfl, others⟩ := decodeOSDMap_ok decoded
  obtain ⟨pools, entries, section_, listed, count⟩ := decodeOSDMapClient_listed (Prod.ext read rfl)
  have names : nameSection limits data = .ok entries := by
    rw [nameSection]
    dsimp only
    rw [others section_]
    rfl
  refine (listed.agree_iff count).trans ⟨fun fine => ⟨entries, names, fine⟩, ?_⟩
  rintro ⟨entries', names', fine⟩
  obtain rfl := Except.ok.inj (names'.symm.trans names)
  exact fine

end Full

section Snapshots

variable {limits : Limits}

theorem yields_decodePool : Yields (decodePool limits) fun pool => pool.name = [] := by
  refine .after fun header => .after fun _ => ?_
  dsimp only
  split
  · exact yields_throw _ _
  · refine yields_within ?_
    repeat refine .after fun _ => ?_
    exact yields_pure rfl

/-- Pools are decoded without their names. -/
theorem yields_decodePools (duplicate : Int → GoError) : Yields (decodePools limits duplicate) fun pools =>
    ∀ id pool, pools.lookup id = some pool → pool.name = [] := by
  have numbered : Yields (decodeNumberedPool limits) fun entry => entry.2.name = [] :=
    .after fun id => yields_decodePool.bind fun pool blank => yields_pure blank
  refine .after fun count => yields_readFold numbered (fun {pools entry after} blank new added => ?_) count (by simp)
  rw [addEntry] at added
  split at added
  · cases added
  · cases added
    intro id pool found
    rcases GoMap.lookup_insert_iff.mp found with ⟨-, rfl⟩ | ⟨-, old⟩
    · exact new
    · exact blank id pool old

theorem yields_decodeIncrementalClient : Yields (decodeIncrementalClient limits) fun incremental =>
    ∀ id pool, incremental.newPools.lookup id = some pool → pool.name = [] := by
  iterate 8 refine .after fun _ => ?_
  dsimp only
  split
  · exact yields_throw _ _
  · refine (yields_decodePools _).bind fun newPools blank => ?_
    repeat refine .after fun _ => ?_
    exact yields_pure blank

theorem decodeOSDMapIncremental_blank {data : Bytes} {incremental : OSDMapIncremental}
    (decoded : decodeOSDMapIncremental limits data = .ok incremental) :
    ∀ id pool, incremental.newPools.lookup id = some pool → pool.name = [] := by
  obtain ⟨client, crc, full, decoder, read, rfl⟩ := decodeOSDMapIncremental_ok decoded
  have blank := Yields.of_eval yields_decodeIncrementalClient read
  exact blank

/-- The maps of a chain, the latest one first, with the full maps that were decoded for it. -/
inductive Snapshots (limits : Limits) : List Bytes → List OSDMap → Prop where
  | full {data : Bytes} {osdMap : OSDMap} (decoded : decodeOSDMap limits data = .ok osdMap) :
      Snapshots limits [data] [osdMap]
  | next {fulls : List Bytes} {current next : OSDMap} {earlier : List OSDMap} {payload : Bytes}
      {incremental : OSDMapIncremental} {ranges : Ranges} (snapshots : Snapshots limits fulls (current :: earlier))
      (decoded : decodeOSDMapIncremental limits payload = .ok incremental) (order : ranges.Of incremental)
      (applied : applyOSDMapIncremental ranges current incremental limits = .ok next) :
      Snapshots limits ((if incremental.fullMap.length ≠ 0 then [incremental.fullMap] else []) ++ fulls)
        (next :: current :: earlier)

theorem OSDMap.poolByName_iff {osdMap : OSDMap} (agree : osdMap.names.Agree) (name : Bytes) (pool : Pool) :
    osdMap.poolByName name = some pool ↔ ∃ id, osdMap.poolByID id = some pool ∧ pool.name = name := by
  rw [poolByName]
  constructor
  · intro found
    split at found
    · cases found
    · next id there =>
      obtain ⟨pool', at_, same⟩ := agree.found there
      obtain rfl := Option.some.inj (at_.symm.trans found)
      exact ⟨id, found, same⟩
  · rintro ⟨id, found, rfl⟩
    rw [show osdMap.nameToID.lookup pool.name = some id from agree.named found (agree.nonempty found)]
    exact found

/-- The index is the inverse of the pools' names in all maps of a chain exactly if every full map that
was decoded for it names no pool twice and none by an empty name. -/
theorem names_agree_iff {fulls : List Bytes} {maps : List OSDMap} (snapshots : Snapshots limits fulls maps) :
    (∀ osdMap ∈ maps, osdMap.names.Agree ∧ ∀ name pool,
      osdMap.poolByName name = some pool ↔ ∃ id, osdMap.poolByID id = some pool ∧ pool.name = name) ↔
    ∀ data ∈ fulls, WellNamed limits data := by
  have both : (∀ osdMap ∈ maps, osdMap.names.Agree) ↔ ∀ data ∈ fulls, WellNamed limits data := by
    induction snapshots with
    | full decoded => simpa using decodeOSDMap_agree_iff decoded
    | @next fulls current next earlier payload incremental ranges snapshots decoded order applied ih =>
      rw [forall_mem_cons, ih]
      obtain ⟨-, -, ⟨full, replaced, -⟩ | ⟨none, changed⟩⟩ := apply_cases applied
      · rw [if_pos full, singleton_append, forall_mem_cons, decodeOSDMap_agree_iff replaced]
      · rw [if_neg (not_not.mpr none), nil_append]
        refine and_iff_right_of_imp fun fine => ?_
        have agree := (forall_mem_cons.mp (ih.mpr fine)).1
        exact applyChanges_agree agree.toIndexed order (decodeOSDMapIncremental_blank decoded) changed
  rw [← both]
  exact forall₂_congr fun osdMap _ => and_iff_left_of_imp osdMap.poolByName_iff

theorem twoPools_named : nameSection sampleLimits twoPoolsPayload = .ok [(1, [97]), (2, [98])] := by
  have read : ((decodeNameEntries sampleLimits).eval
      (newDecoder (sampleClient 2 Crush.CrushMap.twoHosts) sampleLimits.maxBytes)).1 =
      .ok [(1, [97]), (2, [98])] := by
    decide +kernel
  rw [nameSection]
  dsimp only
  rw [twoPoolsPayload, decodeWrapped_sealed (by decide) (by decide +kernel) (by decide) read (eval_pure () _)
    twoPools_sum]
  rfl

/-- An incremental of this epoch with names for pools. -/
def incrementalClient (epoch count : Nat) (names : Bytes) : Bytes :=
  replicate 16 1 ++ words [epoch, 0, 0] ++ replicate 12 255 ++ words [0, 0, 0xffffffff, 0, count] ++ names ++
    replicate 84 0

def nameChainCRC : UInt32 := 0xace9ed22

/-- The names that are given to the pools. -/
def nameChainClient : Bytes := incrementalClient 6 2 (sampleNameEntry 1 98 ++ sampleNameEntry 2 99)

/-- An incremental that gives the name of pool 2 to pool 1 and a new one to pool 2. -/
def nameChainPayload : Bytes := sealPayload 9 nameChainClient nameChainCRC [0, 0, 0, 0]

/-- What is decoded from the payload. -/
def nameChainIncremental : OSDMapIncremental where
  fsid := List.replicate 16 1
  epoch := 6
  modified := {}
  newPoolMax := -1
  newFlags := -1
  fullMap := []
  crushData := []
  newMaxOSD := -1
  newPools := ∅
  newPoolNames := Finmap.insert 2 [99] (Finmap.singleton 1 [98])
  oldPools := []
  newUpClient := ∅
  newState := ∅
  newWeight := ∅
  newPGTemp := ∅
  newPrimaryTemp := ∅
  newPrimaryAffinity := ∅
  newErasureProfiles := ∅
  oldErasureProfiles := []
  newPGUpmap := ∅
  oldPGUpmap := []
  newPGUpmapItems := ∅
  oldPGUpmapItems := []
  newRemovedSnapshots := ∅
  newPurgedSnapshots := ∅
  newLastUpChange := {}
  newLastInChange := {}
  newPGUpmapPrimaries := ∅
  oldPGUpmapPrimaries := []
  incrementalCRC := nameChainCRC.toNat

theorem nameChain_decoded : decodeOSDMapIncremental sampleLimits nameChainPayload = .ok nameChainIncremental := by
  have read : ((decodeIncrementalClient sampleLimits).eval (newDecoder nameChainClient sampleLimits.maxBytes)).1 =
      .ok { nameChainIncremental with incrementalCRC := 0 } := by
    decide +kernel
  exact decodeOSDMapIncremental_sealed rfl (by decide) (by decide +kernel) read
    (crc32c_sums [0xa83f26ea, 0xb9200163, 0xea0652a4, nameChainCRC] (by decide +kernel) rfl)

/-- The renames in this order, with some order of the pools at the end. -/
def nameChainRanges (newPoolNames : List (Int × Bytes)) (pools : GoMap Int Pool → List (Int × Pool)) : Ranges :=
  ⟨[], newPoolNames, [], [], [], [], [], [], [], [], [], [], pools⟩

/-- The map after the incremental. -/
def nameChainMap : OSDMap := { twoPoolsMap with
  epoch := 6
  pools := Finmap.insert 1 (samplePool 1 [98]) (Finmap.singleton 2 (samplePool 2 [99]))
  nameToID := Finmap.insert [98] 1 (Finmap.singleton [99] 2)
  crc := 0
  crcVerified := false
  appliedIncremental := true }

/-- Pool 2 gives up its name before pool 1 takes it. -/
theorem nameChain_applied : ∃ ranges : Ranges, ranges.Of nameChainIncremental ∧
    applyOSDMapIncremental ranges twoPoolsMap nameChainIncremental sampleLimits = .ok nameChainMap := by
  obtain ⟨pools, lists⟩ := Classical.axiomOfChoice fun m : GoMap Int Pool => m.exists_lists
  refine ⟨nameChainRanges [(2, [99]), (1, [98])] pools,
    ⟨rfl, rfl, rfl, rfl, rfl, rfl, rfl, rfl, rfl, rfl, rfl, rfl, lists⟩, ?_⟩
  have sample : nameChainMap.pools.Lists [(1, samplePool 1 [98]), (2, samplePool 2 [99])] := rfl
  change (checkNames (pools nameChainMap.pools) >>= fun _ => .ok nameChainMap) = _
  rw [checkNames_lists (lists _) sample rfl]
  rfl

/-- The names agree before and after they move. -/
theorem names_agree_iff_nameChain : WellNamed sampleLimits twoPoolsPayload ∧ twoPoolsMap.names.Agree ∧
    nameChainMap.names.Agree := by
  obtain ⟨ranges, order, applied⟩ := nameChain_applied
  have fine : WellNamed sampleLimits twoPoolsPayload := ⟨_, twoPools_named, by decide, by decide⟩
  have agree := (names_agree_iff (.next (.full twoPools_decoded) nameChain_decoded order applied)).mpr
    (forall_mem_singleton.mpr fine)
  exact ⟨fine, (agree _ (mem_cons_of_mem _ mem_cons_self)).1, (agree _ mem_cons_self).1⟩

def clashingNamesCRC : UInt32 := 0x7e5b36f4

/-- A map with pools 1 and 2 whose name section names pool 1 twice. -/
def clashingNamesPayload : Bytes := sealPayload 10 (sampleClient 1 []) clashingNamesCRC []

/-- What is decoded: both names stand for pool 1, and pool 2 has none. -/
def clashingNamesMap : OSDMap := { twoPoolsMap with
  pools := Finmap.insert 1 (samplePool 1 [98]) (Finmap.singleton 2 (samplePool 2 []))
  nameToID := Finmap.insert [98] 1 (Finmap.singleton [97] 1)
  crushData := []
  crc := clashingNamesCRC.toNat }

theorem clashingNames_decoded : decodeOSDMap sampleLimits clashingNamesPayload = .ok clashingNamesMap := by
  have read : ((decodeOSDMapClient sampleLimits).eval (newDecoder (sampleClient 1 []) sampleLimits.maxBytes)).1 =
      .ok { clashingNamesMap with crc := 0, crcVerified := false } := by
    decide +kernel
  exact decodeOSDMap_sealed rfl (by decide) (by decide +kernel) read (crc32c_sums [0xed50e1da, 0x98c4aab9, 0xecdbf239,
    0x220e32d6, 0xfcbbbad6, 0xa403aeee, 0xb54541a, clashingNamesCRC] (by decide +kernel) rfl)

/-- An accepted full map in which the name of a pool stands for a pool of another name. -/
theorem clashingNames_accepted : ∃ data osdMap, Snapshots sampleLimits [data] [osdMap] ∧
    (∃ pool, osdMap.poolByName [97] = some pool ∧ pool.name = [98]) ∧
    (∃ pool, osdMap.poolByID 2 = some pool ∧ pool.name = []) ∧ ¬osdMap.names.Agree := by
  refine ⟨clashingNamesPayload, clashingNamesMap, .full clashingNames_decoded,
    ⟨samplePool 1 [98], by decide +kernel, rfl⟩, ⟨samplePool 2 [], by decide +kernel, rfl⟩, fun agree => ?_⟩
  exact agree.nonempty (show clashingNamesMap.names.pools.lookup 2 = some (samplePool 2 []) by decide +kernel) rfl

end Snapshots

end RadosGo.Maps
