import RadosGo.Maps.Orders

namespace RadosGo.Maps

open List

section Condition

variable (current : OSDMap) (incremental : OSDMapIncremental)

/-- The name of a pool before the renames. A new pool has none. -/
def oldName (id : Int) : Bytes := ((current.pools.lookup id).map Pool.name).getD []

/-- The name of a pool after the renames. -/
def newName (id : Int) : Bytes := (incremental.newPoolNames.lookup id).getD (oldName current id)

def Known (id : Int) : Prop := id ∈ current.pools ∨ id ∈ incremental.newPools

instance decidableKnown (id : Int) : Decidable (Known current incremental id) := inferInstanceAs (Decidable (_ ∨ _))

/-- What the application asks of an incremental besides the order of its renames. -/
structure Sound : Prop where
  known : ∀ id ∈ incremental.newPoolNames, Known current incremental id
  named : ∀ id, Known current incremental id → id ∉ incremental.oldPools → newName current incremental id ≠ []
  inside : ChangesInside current incremental

/-- The incremental continues the map, without a full map that replaces it. -/
structure Continues : Prop extends Sound current incremental where
  fsid : incremental.fsid = current.fsid
  epoch : incremental.epoch = (current.epoch + 1) % 2 ^ 32
  noFullMap : incremental.fullMap.length = 0

/-- In some order each rename finds its name open. -/
def Schedulable : Prop :=
  ∃ order, incremental.newPoolNames.Lists order ∧ Admissible (oldName current) current.nameToID order

/-- No rename takes a name that the index gives to another pool or that another rename takes. -/
structure Disjoint : Prop where
  opens : ∀ id name, incremental.newPoolNames.lookup id = some name → Open current.nameToID (id, name)
  once : ∀ id other name, incremental.newPoolNames.lookup id = some name →
    incremental.newPoolNames.lookup other = some name → id = other

/-- A name that one rename takes and another one gives up is removed from the index at the end. -/
def NoStale : Prop :=
  ∀ id other name, incremental.newPoolNames.lookup id = some name → other ∈ incremental.newPoolNames → id ≠ other →
    oldName current other = name → ∃ removed ∈ incremental.oldPools, Known current incremental removed ∧
      newName current incremental removed = name

/-- If the incremental is applied in some order of its renames, then no two of them meet. -/
def RenamesApart : Prop :=
  Continues current incremental → Schedulable current incremental →
    Disjoint current incremental ∧ NoStale current incremental

end Condition

section Pools

variable {ranges ranges' : Ranges} {current : OSDMap} {incremental : OSDMapIncremental}

theorem lookup_addPool (pools : GoMap Int Pool) (entry : Int × Pool) (id : Int) : (addPool pools entry).lookup id =
    if id = entry.1 then some (((pools.lookup id).map fun old => { entry.2 with name := old.name }).getD entry.2)
    else pools.lookup id := by
  rw [addPool]
  split
  · next old found =>
    split
    · next same => rw [same, Finmap.lookup_insert, found, Option.map_some, Option.getD_some]
    · next other => rw [Finmap.lookup_insert_of_ne _ other]
  · next missing =>
    split
    · next same => rw [same, Finmap.lookup_insert, missing, Option.map_none, Option.getD_none]
    · next other => rw [Finmap.lookup_insert_of_ne _ other]

/-- The pools with the new ones among them. -/
structure Added (current : OSDMap) (entries : List (Int × Pool)) (pools : GoMap Int Pool) : Prop where
  known : ∀ id, id ∈ pools ↔ id ∈ current.pools ∨ ∃ entry ∈ entries, entry.1 = id
  named : ∀ id pool, pools.lookup id = some pool → pool.name = oldName current id

variable {entries : List (Int × Pool)} {pools : GoMap Int Pool} {id : Int}

theorem Added.addPool (added : Added current entries pools) {entry : Int × Pool} (blank : entry.2.name = []) :
    Added current (entries ++ [entry]) (addPool pools entry) := by
  have at_ := lookup_addPool pools entry
  refine ⟨fun id => ?_, fun id pool found => ?_⟩
  · rw [Finmap.mem_iff, at_]
    by_cases same : id = entry.1
    · simp [same]
    · have known := added.known id
      rw [Finmap.mem_iff] at known
      rw [if_neg same, known]
      simp [Ne.symm same]
  · rw [at_] at found
    split at found
    · next same =>
      cases found
      cases there : pools.lookup id with
      | some old => exact added.named id old there
      | none =>
        -- A pool that is not among the pools so far was not among the current ones.
        have unknown : id ∉ current.pools := fun member => by
          have := (added.known id).mpr (.inl member)
          rw [Finmap.mem_iff, there] at this
          obtain ⟨_, none⟩ := this
          cases none
        rw [oldName, Finmap.lookup_eq_none.mpr unknown]
        exact blank
    · exact added.named id pool found

theorem addPools_added (blank : ∀ entry ∈ entries, entry.2.name = []) :
    Added current entries (entries.foldl addPool current.pools) := by
  have start : Added current [] current.pools :=
    ⟨fun id => by simp, fun id pool found => by rw [oldName, found]; rfl⟩
  induction entries using reverseRecOn with
  | nil => exact start
  | append_singleton entries entry ih =>
    obtain ⟨before, here⟩ := forall_mem_append.mp blank
    rw [foldl_append]
    exact (ih before).addPool (here entry mem_cons_self)

theorem lookup_setNames_of_not_mem {entries : List (Int × Bytes)} (other : ∀ entry ∈ entries, id ≠ entry.1) :
    (entries.foldl setName pools).lookup id = pools.lookup id := by
  induction entries generalizing pools with
  | nil => rfl
  | cons entry entries ih =>
    obtain ⟨here, later⟩ := forall_mem_cons.mp other
    rw [foldl_cons, ih later, lookup_setName, if_neg here]

theorem lookup_setNames_of_mem {entries : List (Int × Bytes)} (ids : (entries.map Prod.fst).Nodup) {name : Bytes}
    (member : (id, name) ∈ entries) :
    (entries.foldl setName pools).lookup id = (pools.lookup id).map fun pool => { pool with name } := by
  induction entries generalizing pools with
  | nil => cases member
  | cons entry entries ih =>
    obtain ⟨fresh, ids⟩ := nodup_cons.mp ids
    rw [foldl_cons]
    rcases mem_cons.mp member with rfl | later
    · have other : ∀ entry ∈ entries, id ≠ entry.1 :=
        fun entry inside same => fresh (mem_map.mpr ⟨entry, inside, same.symm⟩)
      rw [lookup_setNames_of_not_mem other, lookup_setName, if_pos rfl]
    · have apart : id ≠ entry.1 := fun same => fresh (mem_map.mpr ⟨(id, name), later, same⟩)
      rw [ih ids later, lookup_setName, if_neg apart]

end Pools

section Result

variable (ranges : Ranges) (current : OSDMap) (incremental : OSDMapIncremental)

/-- The pools before they are renamed. -/
def addedPools : GoMap Int Pool := ranges.newPools.foldl addPool current.pools

/-- What the loops over pools and names leave. -/
def finalNames : Names :=
  incremental.oldPools.foldl removePool ⟨ranges.newPoolNames.foldl setName (addedPools ranges current),
    ranges.newPoolNames.foldl (retag (oldName current)) current.nameToID⟩

variable {ranges} {incremental} (order : ranges.Of incremental)
  (blank : ∀ id pool, incremental.newPools.lookup id = some pool → pool.name = [])

include order blank

theorem addedPools_added : Added current ranges.newPools (addedPools ranges current) :=
  addPools_added fun entry member => blank entry.1 entry.2 (order.newPools.mem_iff.mp member)

theorem mem_addedPools_iff (id : Int) : id ∈ addedPools ranges current ↔ Known current incremental id := by
  rw [(addedPools_added current order blank).known, Known]
  refine or_congr_right ?_
  rw [Finmap.mem_iff]
  constructor
  · rintro ⟨entry, member, rfl⟩
    exact ⟨entry.2, order.newPools.mem_iff.mp member⟩
  · rintro ⟨pool, found⟩
    exact ⟨(id, pool), order.newPools.mem_iff.mpr found, rfl⟩

/-- The names of the pools before the removals. -/
theorem renamed_name (id : Int) :
    ((ranges.newPoolNames.foldl setName (addedPools ranges current)).lookup id).map Pool.name =
      ((addedPools ranges current).lookup id).map fun _ => newName current incremental id := by
  have added := addedPools_added current order blank
  rw [newName]
  cases renamed : incremental.newPoolNames.lookup id with
  | some name =>
    rw [lookup_setNames_of_mem order.newPoolNames.nodup (order.newPoolNames.mem_iff.mpr renamed), Option.map_map]
    rfl
  | none =>
    have other : ∀ entry ∈ ranges.newPoolNames, id ≠ entry.1 := by
      rintro entry member rfl
      have found := order.newPoolNames.mem_iff.mp member
      rw [renamed] at found
      cases found
    rw [lookup_setNames_of_not_mem other]
    cases found : (addedPools ranges current).lookup id with
    | none => rfl
    | some pool => exact congrArg some (added.named id pool found)

theorem exists_renamed_iff (id : Int) (name : Bytes) :
    ((ranges.newPoolNames.foldl setName (addedPools ranges current)).lookup id).map Pool.name = some name ↔
      Known current incremental id ∧ newName current incremental id = name := by
  rw [renamed_name current order blank, ← mem_addedPools_iff current order blank, Finmap.mem_iff]
  cases (addedPools ranges current).lookup id with
  | none => simp
  | some pool => simp

/-- The loops over pools and names succeed exactly if all renamed pools are known and the order is admissible. -/
theorem applyPools_ok_iff (names : Names) : applyPools ranges current incremental = .ok names ↔
    (∀ id ∈ incremental.newPoolNames, Known current incremental id) ∧
      Admissible (oldName current) current.nameToID ranges.newPoolNames ∧
        names = finalNames ranges current incremental := by
  have added := addedPools_added current order blank
  have known : (∀ entry ∈ ranges.newPoolNames, entry.1 ∈ addedPools ranges current) ↔
      ∀ id ∈ incremental.newPoolNames, Known current incremental id := by
    rw [← order.newPoolNames.forall_key_iff]
    exact forall₂_congr fun entry _ => mem_addedPools_iff current order blank entry.1
  have renames (after : Names) :
      ranges.newPoolNames.foldlM renamePool ⟨addedPools ranges current, current.nameToID⟩ = .ok after ↔ _ :=
    renames_ok_iff order.newPoolNames.nodup fun entry _ pool found => added.named entry.1 pool found
  rw [← known, applyPools]
  constructor
  · intro run
    obtain ⟨renamed, ran, returned⟩ := except_bind_ok run
    obtain ⟨known, admissible, rfl⟩ := (renames _).mp ran
    exact ⟨known, admissible, (Except.ok.inj returned).symm⟩
  · rintro ⟨known, admissible, rfl⟩
    exact except_bind_eq ((renames _).mpr ⟨known, admissible, rfl⟩)

/-- The names that are left after the removals. -/
theorem finalNames_named_iff :
    (∀ id pool, (finalNames ranges current incremental).pools.lookup id = some pool → pool.name ≠ []) ↔
    ∀ id, Known current incremental id → id ∉ incremental.oldPools → newName current incremental id ≠ [] := by
  refine forall_congr' fun id => ?_
  have name := exists_renamed_iff current order blank id
  rw [finalNames, lookup_removePools]
  constructor
  · intro all known kept
    obtain ⟨pool, found, same⟩ := Option.map_eq_some_iff.mp ((name _).mpr ⟨known, rfl⟩)
    exact same ▸ all pool ((if_neg kept).trans found)
  · intro all pool found
    split at found
    · cases found
    · next kept =>
      obtain ⟨known, same⟩ := (name pool.name).mp (by rw [found]; rfl)
      exact same ▸ all known kept

/-- A name that is left in the index. -/
theorem lookup_finalNames (name : Bytes) : (finalNames ranges current incremental).nameToID.lookup name =
    if ∃ id ∈ incremental.oldPools, Known current incremental id ∧ newName current incremental id = name then none
    else (ranges.newPoolNames.foldl (retag (oldName current)) current.nameToID).lookup name := by
  rw [finalNames, lookup_removePools_index]
  exact if_congr (exists_congr fun id => and_congr_right fun _ =>
    exists_renamed_iff current order blank id name) rfl rfl

/-- What is accepted is sound, and its renames, in the order that is met, each find their name open. -/
theorem applyChanges_sound (sized : current.Sized) {next : OSDMap}
    (applied : applyChanges ranges current incremental = .ok next) :
    Sound current incremental ∧ Admissible (oldName current) current.nameToID ranges.newPoolNames ∧
      next.names = finalNames ranges current incremental := by
  obtain ⟨names, pools, run⟩ := except_bind_ok applied
  obtain ⟨vectors, vectored, run⟩ := except_bind_ok run
  obtain ⟨⟨⟩, checked, returned⟩ := except_bind_ok run
  cases returned
  obtain ⟨known, admissible, rfl⟩ := (applyPools_ok_iff current order blank names).mp pools
  have named := fun id pool found => (checkNames_ok_iff _).mp checked (id, pool) ((order.pools _).mem_iff.mpr found)
  exact ⟨⟨known, (finalNames_named_iff current order blank).mp named,
    (applyVectors_ok_iff sized order).mp ⟨vectors, vectored⟩⟩, admissible, rfl⟩

/-- A sound incremental is accepted in every order in which each rename finds its name open. -/
theorem exists_applyChanges (sized : current.Sized) (sound : Sound current incremental)
    (admissible : Admissible (oldName current) current.nameToID ranges.newPoolNames) :
    ∃ next, applyChanges ranges current incremental = .ok next := by
  have pools := (applyPools_ok_iff current order blank _).mpr ⟨sound.known, admissible, rfl⟩
  obtain ⟨vectors, vectored⟩ := (applyVectors_ok_iff sized order).mpr sound.inside
  have named := (finalNames_named_iff current order blank).mpr sound.named
  have checked : checkNames (ranges.pools (finalNames ranges current incremental).pools) = .ok () :=
    (checkNames_ok_iff _).mpr fun entry member => named entry.1 entry.2 ((order.pools _).mem_iff.mp member)
  rw [applyChanges, except_bind_eq pools, except_bind_eq vectored]
  exact ⟨_, except_bind_eq checked⟩

end Result

section Mappings

variable {κ α : Type} [DecidableEq κ]

theorem applyPGVectors_perm {first second : List (κ × List α)} (perm : first.Perm second)
    (nodup : (first.map Prod.fst).Nodup) (target : GoMap κ (List α)) (emptyDeletes : Bool) :
    applyPGVectors target first emptyDeletes = applyPGVectors target second emptyDeletes :=
  GoMap.foldl_perm (fun _ entry => if emptyDeletes ∧ entry.2.length = 0 then none else some entry.2)
    (fun target entry key => target.lookup_erase_or_insert _ entry.1 key entry.2) perm nodup target

theorem applyPGInts_perm {first second : List (κ × Int)} (perm : first.Perm second)
    (nodup : (first.map Prod.fst).Nodup)
    (target : GoMap κ Int) (deleted : Int) : applyPGInts target first deleted = applyPGInts target second deleted :=
  GoMap.foldl_perm (fun _ entry => if entry.2 = deleted then none else some entry.2)
    (fun target entry key => target.lookup_erase_or_insert _ entry.1 key entry.2) perm nodup target

theorem insertAll_perm {first second : List (κ × α)} (perm : first.Perm second) (nodup : (first.map Prod.fst).Nodup)
    (target : GoMap κ α) : insertAll target first = insertAll target second := by
  refine GoMap.foldl_perm (fun _ entry => some entry.2) (fun target entry key => ?_) perm nodup target
  split
  · next same => rw [same, Finmap.lookup_insert]
  · next other => rw [Finmap.lookup_insert_of_ne _ other]

end Mappings

section Orders

variable {ranges ranges' : Ranges} {current : OSDMap} {incremental : OSDMapIncremental}
    (order : ranges.Of incremental) (order' : ranges'.Of incremental)

include order

theorem disjoint_iff : Disjoint current incremental ↔ Free current.nameToID ranges.newPoolNames := by
  constructor
  · intro disjoint
    refine ⟨fun entry member => disjoint.opens entry.1 entry.2 (order.newPoolNames.mem_iff.mp member), ?_⟩
    refine pairwise_map.mpr (List.Pairwise.imp_of_mem ?_ (pairwise_map.mp order.newPoolNames.nodup))
    intro entry other member member' apart same
    exact apart (disjoint.once entry.1 other.1 entry.2 (order.newPoolNames.mem_iff.mp member)
      (order.newPoolNames.mem_iff.mp (by rwa [same])))
  · rintro ⟨opens, nodup⟩
    refine ⟨fun id name found => opens (id, name) (order.newPoolNames.mem_iff.mpr found),
      fun id other name found found' => ?_⟩
    have same := inj_on_of_nodup_map nodup (order.newPoolNames.mem_iff.mpr found)
      (order.newPoolNames.mem_iff.mpr found') rfl
    exact congrArg Prod.fst same

include order'

theorem addedPools_perm : addedPools ranges current = addedPools ranges' current :=
  GoMap.foldl_perm (fun found entry => some ((found.map fun old => { entry.2 with name := old.name }).getD entry.2))
    lookup_addPool (order.newPools.perm order'.newPools) order.newPools.nodup current.pools

theorem renamedPools_perm : ranges.newPoolNames.foldl setName (addedPools ranges current) =
    ranges'.newPoolNames.foldl setName (addedPools ranges' current) := by
  rw [addedPools_perm order order']
  exact GoMap.foldl_perm (fun found entry => found.map fun pool => { pool with name := entry.2 }) lookup_setName
    (order.newPoolNames.perm order'.newPoolNames) order.newPoolNames.nodup _

/-- If no two renames meet, the index does not depend on their order. -/
theorem retags_perm (disjoint : Disjoint current incremental) {name : Bytes}
    (kept : ∀ id other, incremental.newPoolNames.lookup id = some name → other ∈ incremental.newPoolNames →
      id ≠ other → oldName current other ≠ name) :
    (ranges.newPoolNames.foldl (retag (oldName current)) current.nameToID).lookup name =
      (ranges'.newPoolNames.foldl (retag (oldName current)) current.nameToID).lookup name := by
  have perm := order.newPoolNames.perm order'.newPoolNames
  by_cases taken : ∃ id, incremental.newPoolNames.lookup id = some name
  · obtain ⟨id, found⟩ := taken
    have last {ranges : Ranges} (order : ranges.Of incremental) :
        (ranges.newPoolNames.foldl (retag (oldName current)) current.nameToID).lookup name = some id := by
      obtain ⟨before, after, split⟩ := append_of_mem (order.newPoolNames.mem_iff.mpr found)
      -- The renames after that of the pool are those of others.
      have others : ∀ entry ∈ after, entry.1 ≠ id := by
        have ids := order.newPoolNames.nodup
        rw [split, map_append, map_cons, nodup_append', nodup_cons] at ids
        exact fun entry member same => ids.2.1.1 (mem_map.mpr ⟨entry, member, same⟩)
      have listed : ∀ entry ∈ after, incremental.newPoolNames.lookup entry.1 = some entry.2 := fun entry member =>
        order.newPoolNames.mem_iff.mp (split ▸ mem_append_right _ (mem_cons_of_mem _ member))
      rw [split]
      refine lookup_retags_of_last (fun entry member same => ?_) fun entry member => ?_
      · exact others entry member (disjoint.once _ _ name (same ▸ listed entry member) found)
      · exact kept id entry.1 found (Finmap.mem_iff.mpr ⟨_, listed entry member⟩) (Ne.symm (others entry member))
    rw [last order, last order']
  · have untaken {ranges : Ranges} (order : ranges.Of incremental) : ∀ entry ∈ ranges.newPoolNames, entry.2 ≠ name :=
      fun entry member same => taken ⟨entry.1, same ▸ order.newPoolNames.mem_iff.mp member⟩
    rw [lookup_retags_of_not_taken (untaken order), lookup_retags_of_not_taken (untaken order')]
    exact if_congr (exists_congr fun entry => and_congr_left fun _ => perm.mem_iff) rfl rfl

theorem checkNames_perm (pools : GoMap Int Pool) :
    (checkNames (ranges.pools pools)).toOption = (checkNames (ranges'.pools pools)).toOption := by
  have same : checkNames (ranges.pools pools) = .ok () ↔ checkNames (ranges'.pools pools) = .ok () :=
    ⟨checkNames_lists (order'.pools _) (order.pools _), checkNames_lists (order.pools _) (order'.pools _)⟩
  cases first : checkNames (ranges.pools pools) with
  | ok value => rw [same.mp first]
  | error err =>
    cases second : checkNames (ranges'.pools pools) with
    | error err' => rfl
    | ok value =>
      rw [same.mpr second] at first
      cases first

variable (blank : ∀ id pool, incremental.newPools.lookup id = some pool → pool.name = [])
    (disjoint : Disjoint current incremental) (noStale : NoStale current incremental)

include blank disjoint noStale

/-- The names and the index that the renames leave do not depend on the order in which they are met. -/
theorem finalNames_perm :
    finalNames ranges current incremental = finalNames ranges' current incremental := by
  have pools : (finalNames ranges current incremental).pools = (finalNames ranges' current incremental).pools := by
    refine Finmap.ext_lookup fun id => ?_
    rw [finalNames, finalNames, lookup_removePools, lookup_removePools]
    rw [renamedPools_perm order order']
  have index : (finalNames ranges current incremental).nameToID =
    (finalNames ranges' current incremental).nameToID := by
    refine Finmap.ext_lookup fun name => ?_
    rw [lookup_finalNames current order blank, lookup_finalNames current order' blank]
    split
    · rfl
    · next unremoved =>
      refine retags_perm order order' disjoint fun id other found member apart same => unremoved ?_
      obtain ⟨removed, inside, known, final⟩ := noStale id other name found member apart same
      exact ⟨removed, inside, known, final⟩
  calc finalNames ranges current incremental
      = ⟨(finalNames ranges current incremental).pools, (finalNames ranges current incremental).nameToID⟩ := rfl
    _ = finalNames ranges' current incremental := by rw [pools, index]

theorem applyPools_perm :
    (applyPools ranges current incremental).toOption = (applyPools ranges' current incremental).toOption := by
  have admissible : Admissible (oldName current) current.nameToID ranges.newPoolNames :=
    ((disjoint_iff order).mp disjoint).admissible
  have admissible' : Admissible (oldName current) current.nameToID ranges'.newPoolNames :=
    ((disjoint_iff order').mp disjoint).admissible
  have pools := applyPools_ok_iff current order blank
  have pools' := applyPools_ok_iff current order' blank
  by_cases known : ∀ id ∈ incremental.newPoolNames, Known current incremental id
  · rw [(pools _).mpr ⟨known, admissible, rfl⟩, (pools' _).mpr ⟨known, admissible', rfl⟩,
      finalNames_perm order order' blank disjoint noStale]
  · have failed {result : Except Fault Names} (ok : ∀ names, result ≠ .ok names) : result.toOption = none := by
      cases result with
      | error err => rfl
      | ok names => exact absurd rfl (ok names)
    rw [failed fun names ok => known ((pools names).mp ok).1, failed fun names ok => known ((pools' names).mp ok).1]

/-- If no two renames meet, all orders of all the maps of an incremental have one outcome. -/
theorem applyChanges_perm (sized : current.Sized) :
    (applyChanges ranges current incremental).toOption = (applyChanges ranges' current incremental).toOption := by
  refine toOption_bind (applyPools_perm order order' blank disjoint noStale) fun names _ => ?_
  refine toOption_bind (applyVectors_perm sized order order') fun vectors _ => ?_
  rw [applyPGVectors_perm (order.newPGTemp.perm order'.newPGTemp) order.newPGTemp.nodup,
    applyPGInts_perm (order.newPrimaryTemp.perm order'.newPrimaryTemp) order.newPrimaryTemp.nodup,
    insertAll_perm (order.newErasureProfiles.perm order'.newErasureProfiles) order.newErasureProfiles.nodup,
    applyPGVectors_perm (order.newPGUpmap.perm order'.newPGUpmap) order.newPGUpmap.nodup,
    insertAll_perm (order.newPGUpmapItems.perm order'.newPGUpmapItems) order.newPGUpmapItems.nodup,
    insertAll_perm (order.newPGUpmapPrimaries.perm order'.newPGUpmapPrimaries) order.newPGUpmapPrimaries.nodup]
  exact toOption_bind (checkNames_perm order order' names.pools) fun _ _ => rfl

end Orders

theorem exists_ranges (incremental : OSDMapIncremental) : ∃ ranges : Ranges, ranges.Of incremental := by
  obtain ⟨newPools, h1⟩ := incremental.newPools.exists_lists
  obtain ⟨newPoolNames, h2⟩ := incremental.newPoolNames.exists_lists
  obtain ⟨newWeight, h3⟩ := incremental.newWeight.exists_lists
  obtain ⟨newPrimaryAffinity, h4⟩ := incremental.newPrimaryAffinity.exists_lists
  obtain ⟨newState, h5⟩ := incremental.newState.exists_lists
  obtain ⟨newUpClient, h6⟩ := incremental.newUpClient.exists_lists
  obtain ⟨newPGTemp, h7⟩ := incremental.newPGTemp.exists_lists
  obtain ⟨newPrimaryTemp, h8⟩ := incremental.newPrimaryTemp.exists_lists
  obtain ⟨newErasureProfiles, h9⟩ := incremental.newErasureProfiles.exists_lists
  obtain ⟨newPGUpmap, h10⟩ := incremental.newPGUpmap.exists_lists
  obtain ⟨newPGUpmapItems, h11⟩ := incremental.newPGUpmapItems.exists_lists
  obtain ⟨newPGUpmapPrimaries, h12⟩ := incremental.newPGUpmapPrimaries.exists_lists
  obtain ⟨pools, h13⟩ := Classical.axiomOfChoice fun m : GoMap Int Pool => m.exists_lists
  exact ⟨⟨newPools, newPoolNames, newWeight, newPrimaryAffinity, newState, newUpClient, newPGTemp, newPrimaryTemp,
    newErasureProfiles, newPGUpmap, newPGUpmapItems, newPGUpmapPrimaries, pools⟩,
    ⟨h1, h2, h3, h4, h5, h6, h7, h8, h9, h10, h11, h12, h13⟩⟩

section Main

variable {limits limits' : Limits} {ranges : Ranges} {current : OSDMap} {incremental : OSDMapIncremental}
    {data : Bytes}

theorem Ranges.Of.reorder (order : ranges.Of incremental) {names : List (Int × Bytes)}
    (lists : incremental.newPoolNames.Lists names) :
    { ranges with newPoolNames := names }.Of incremental := { order with newPoolNames := lists }

theorem apply_of_continues (continues : Continues current incremental) :
    applyOSDMapIncremental ranges current incremental limits = applyChanges ranges current incremental := by
  rw [applyOSDMapIncremental, if_neg (not_not_intro continues.fsid), if_neg (not_not_intro continues.epoch),
    if_neg (not_not_intro continues.noFullMap)]

section Necessary

variable (blank : ∀ id pool, incremental.newPools.lookup id = some pool → pool.name = []) (sized : current.Sized)
  (continues : Continues current incremental) (order : ranges.Of incremental)
  (admissible : Admissible (oldName current) current.nameToID ranges.newPoolNames)
  (same : ∀ names, incremental.newPoolNames.Lists names →
    (applyChanges ranges current incremental).toOption =
      (applyChanges { ranges with newPoolNames := names } current incremental).toOption)

include blank sized continues order admissible same

/-- If one order of the renames is admissible then all are, and they lead to the same names. -/
theorem reordered {names : List (Int × Bytes)} (lists : incremental.newPoolNames.Lists names) :
    Admissible (oldName current) current.nameToID names ∧
      finalNames ranges current incremental =
        finalNames { ranges with newPoolNames := names } current incremental := by
  obtain ⟨next, applied⟩ := exists_applyChanges current order blank sized continues.toSound admissible
  have equal := same names lists
  rw [applied] at equal
  cases applied' : applyChanges { ranges with newPoolNames := names } current incremental with
  | error err =>
    rw [applied'] at equal
    cases equal
  | ok next' =>
    rw [applied'] at equal
    cases equal
    obtain ⟨-, -, final⟩ := applyChanges_sound current order blank sized applied
    obtain ⟨-, admissible', final'⟩ := applyChanges_sound current (order.reorder lists) blank sized applied'
    exact ⟨admissible', final.symm.trans final'⟩

/-- If every order is accepted alike, then a rename finds its name open also when it comes first. -/
theorem disjoint_of_same : Disjoint current incremental := by
  have all : ∀ names : List (Int × Bytes), names.Perm ranges.newPoolNames →
      Admissible (oldName current) current.nameToID names := fun names perm =>
    (reordered blank sized continues order admissible same (order.newPoolNames.of_perm perm.symm)).1
  exact (disjoint_iff order).mpr (free_of_admissible order.newPoolNames.nodup all)

/-- The rename that takes the name comes last, or the one that gives it up does. -/
theorem noStale_of_same : NoStale current incremental := by
  intro id other name found member apart gives
  obtain ⟨target, found'⟩ := Finmap.mem_iff.mp member
  have disjoint := disjoint_of_same blank sized continues order admissible same
  by_contra unremoved
  have first : (id, name) ∈ ranges.newPoolNames := order.newPoolNames.mem_iff.mpr found
  have second : (other, target) ∈ ranges.newPoolNames.erase (id, name) :=
    (mem_erase_of_ne fun same => apart (congrArg Prod.fst same).symm).mpr (order.newPoolNames.mem_iff.mpr found')
  let rest := (ranges.newPoolNames.erase (id, name)).erase (other, target)
  have perm : ranges.newPoolNames.Perm ([(id, name), (other, target)] ++ rest) :=
    (perm_cons_erase first).trans ((perm_cons_erase second).cons _)
  have lists : incremental.newPoolNames.Lists (rest ++ [(id, name), (other, target)]) :=
    order.newPoolNames.of_perm (perm.trans perm_append_comm)
  have lists' : incremental.newPoolNames.Lists (rest ++ [(other, target), (id, name)]) :=
    lists.of_perm (List.Perm.append_left rest (.swap _ _ _))
  have final := (reordered blank sized continues order admissible same lists).2.symm.trans
    (reordered blank sized continues order admissible same lists').2
  have index := congrArg (fun names : Names => names.nameToID.lookup name) final
  rw [lookup_finalNames current (order.reorder lists) blank, lookup_finalNames current (order.reorder lists') blank,
    if_neg unremoved, if_neg unremoved] at index
  have different : name ≠ target := fun equal => apart (disjoint.once id other name found (equal ▸ found'))
  have freed : ((rest ++ [(id, name), (other, target)]).foldl (retag (oldName current)) current.nameToID).lookup
    name = none := by
    rw [append_cons, foldl_append, foldl_cons, foldl_nil, lookup_retag_ne different, if_pos gives]
  have taken : ((rest ++ [(other, target), (id, name)]).foldl
    (retag (oldName current)) current.nameToID).lookup name =
      some id := by
    rw [append_cons]
    exact lookup_retags_of_last (by simp) (by simp)
  rw [freed, taken] at index
  cases index

end Necessary

/-- The outcome is the same in all orders. -/
def SameOutcome (limits : Limits) (current : OSDMap) (incremental : OSDMapIncremental) : Prop :=
  ∀ ranges ranges' : Ranges, ranges.Of incremental → ranges'.Of incremental →
    (applyOSDMapIncremental ranges current incremental limits).toOption =
      (applyOSDMapIncremental ranges' current incremental limits).toOption

/-- The order of the renames makes no difference exactly if no two of them meet. Where they meet, one order is refused
or leaves another index. -/
theorem sameOutcome_iff (decoded : decodeOSDMapIncremental limits' data = .ok incremental) (sized : current.Sized) :
    SameOutcome limits current incremental ↔ RenamesApart current incremental := by
  have blank := decodeOSDMapIncremental_blank decoded
  constructor
  · rintro all continues ⟨names, lists, admissible⟩
    obtain ⟨ranges, order⟩ := exists_ranges incremental
    have order := order.reorder lists
    have same : ∀ names, incremental.newPoolNames.Lists names → _ := fun names lists =>
      all _ _ order (order.reorder lists)
    simp only [apply_of_continues continues] at same
    exact ⟨disjoint_of_same blank sized continues order admissible same,
      noStale_of_same blank sized continues order admissible same⟩
  · intro apart ranges ranges' order order'
    unfold applyOSDMapIncremental
    split
    · rfl
    · next fsid =>
      split
      · rfl
      · next epoch =>
        split
        · rfl
        · next noFullMap =>
          have together {ranges ranges' : Ranges} (order : ranges.Of incremental) (order' : ranges'.Of incremental)
              {next : OSDMap} (applied : applyChanges ranges current incremental = .ok next) :
              (applyChanges ranges current incremental).toOption =
                (applyChanges ranges' current incremental).toOption := by
            obtain ⟨sound, admissible, -⟩ := applyChanges_sound current order blank sized applied
            obtain ⟨disjoint, noStale⟩ := apart ⟨sound, not_not.mp fsid, not_not.mp epoch, not_not.mp noFullMap⟩
              ⟨_, order.newPoolNames, admissible⟩
            exact applyChanges_perm order order' blank disjoint noStale sized
          cases applied : applyChanges ranges current incremental with
          | ok next => exact applied ▸ together order order' applied
          | error err =>
            cases applied' : applyChanges ranges' current incremental with
            | ok next => exact applied ▸ applied' ▸ (together order' order applied').symm
            | error err => rfl

/-- The outcome of the application does not depend on the orders of the loops exactly if the renames do not meet. -/
theorem applyOSDMapIncremental_orders_iff (decoded : decodeOSDMapIncremental limits' data = .ok incremental)
    (sized : current.Sized) :
    (∀ ranges ranges' : Ranges, ranges.Of incremental → ranges'.Of incremental →
      (applyOSDMapIncremental ranges current incremental limits).toOption =
        (applyOSDMapIncremental ranges' current incremental limits).toOption) ↔ RenamesApart current incremental :=
  sameOutcome_iff decoded sized

theorem applyOSDMapIncremental_orders_iff_nameChain :
    decodeOSDMapIncremental sampleLimits nameChainPayload = .ok nameChainIncremental ∧ twoPoolsMap.Sized ∧
      ((∀ ranges ranges' : Ranges, ranges.Of nameChainIncremental → ranges'.Of nameChainIncremental →
        (applyOSDMapIncremental ranges twoPoolsMap nameChainIncremental sampleLimits).toOption =
          (applyOSDMapIncremental ranges' twoPoolsMap nameChainIncremental sampleLimits).toOption) ↔
        RenamesApart twoPoolsMap nameChainIncremental) :=
  have sized := (decodeOSDMap_sized twoPools_decoded).1
  ⟨nameChain_decoded, sized, applyOSDMapIncremental_orders_iff nameChain_decoded sized⟩

theorem nameChain_outcomes : ∃ ranges ranges' : Ranges, ranges.Of nameChainIncremental ∧
    ranges'.Of nameChainIncremental ∧
    (∃ next, applyOSDMapIncremental ranges twoPoolsMap nameChainIncremental sampleLimits = .ok next) ∧
    applyOSDMapIncremental ranges' twoPoolsMap nameChainIncremental sampleLimits =
      failure ("duplicate pool name " ++ quoted [98]) := by
  obtain ⟨ranges, order, applied⟩ := nameChain_applied
  obtain ⟨pools, lists⟩ := Classical.axiomOfChoice fun m : GoMap Int Pool => m.exists_lists
  have backward : nameChainIncremental.newPoolNames.Lists [(2, [99]), (1, [98])] := rfl
  exact ⟨ranges, nameChainRanges [(1, [98]), (2, [99])] pools, order,
    ⟨rfl, backward.of_perm (.swap ..), rfl, rfl, rfl, rfl, rfl, rfl, rfl, rfl, rfl, rfl, lists⟩, ⟨_, applied⟩, rfl⟩

/-- In one order pool 2 gives up its name before pool 1 takes it, in the other one it does not. -/
theorem nameChain_orders : ∃ data data' current incremental ranges ranges',
    decodeOSDMap sampleLimits data = .ok current ∧ decodeOSDMapIncremental sampleLimits data' = .ok incremental ∧
      ranges.Of incremental ∧ ranges'.Of incremental ∧
      (∃ next, applyOSDMapIncremental ranges current incremental sampleLimits = .ok next) ∧
      applyOSDMapIncremental ranges' current incremental sampleLimits =
        failure ("duplicate pool name " ++ quoted [98]) := by
  obtain ⟨ranges, ranges', outcomes⟩ := nameChain_outcomes
  exact ⟨twoPoolsPayload, nameChainPayload, twoPoolsMap, nameChainIncremental, ranges, ranges', twoPools_decoded,
    nameChain_decoded, outcomes⟩

end Main

end RadosGo.Maps
