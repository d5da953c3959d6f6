import RadosGo.Library.Reorder
import RadosGo.Maps.Names

namespace RadosGo.Maps

open List

section Index

variable (old : Int → Bytes)

/-- What a rename does to the index: the old name is freed before the new one is taken. -/
def retag (index : GoMap Bytes Int) (entry : Int × Bytes) : GoMap Bytes Int :=
  (index.erase (old entry.1)).insert entry.2 entry.1

/-- The name is free in the index, or it is that of the pool. -/
def Open (index : GoMap Bytes Int) (entry : Int × Bytes) : Prop := ∀ owner, index.lookup entry.2 = some owner →
    owner = entry.1

/-- In this order each rename finds its name open. -/
def Admissible : GoMap Bytes Int → List (Int × Bytes) → Prop
  | _, [] => True
  | index, entry :: entries => Open index entry ∧ Admissible (retag old index entry) entries

/-- All names are open from the start and no two of them are equal. -/
def Free (index : GoMap Bytes Int) (entries : List (Int × Bytes)) : Prop :=
  (∀ entry ∈ entries, Open index entry) ∧ (entries.map Prod.snd).Nodup

variable {old} {index : GoMap Bytes Int} {entries : List (Int × Bytes)} {name : Bytes}

theorem lookup_retag_ne {entry : Int × Bytes} (apart : name ≠ entry.2) :
    (retag old index entry).lookup name = if old entry.1 = name then none else index.lookup name := by
  rw [retag, Finmap.lookup_insert_of_ne _ apart]
  split
  · next same => rw [same, Finmap.lookup_erase]
  · next other => rw [Finmap.lookup_erase_ne (Ne.symm other)]

theorem Open.retag {entry other : Int × Bytes} (opens : Open index other) (apart : other.2 ≠ entry.2) :
    Open (retag old index entry) other := by
  intro owner found
  rw [lookup_retag_ne apart] at found
  split at found
  · cases found
  · exact opens owner found

theorem Free.admissible (free : Free index entries) : Admissible old index entries := by
  induction entries generalizing index with
  | nil => trivial
  | cons entry entries ih =>
    obtain ⟨opens, nodup⟩ := free
    obtain ⟨here, later⟩ := forall_mem_cons.mp opens
    obtain ⟨fresh, nodup⟩ := nodup_cons.mp nodup
    refine ⟨here, ih ⟨fun other member => (later other member).retag fun same => fresh ?_, nodup⟩⟩
    exact same ▸ mem_map_of_mem member

/-- If every order is admissible, the names are free: each rename may come first, and of two with one name
the second would find it taken. -/
theorem free_of_admissible (ids : (entries.map Prod.fst).Nodup)
    (all : ∀ order : List (Int × Bytes), order.Perm entries → Admissible old index order) : Free index entries := by
  have first : ∀ entry ∈ entries, Open index entry ∧ Admissible old (retag old index entry) (entries.erase entry) :=
    fun entry member => all (entry :: entries.erase entry) (perm_cons_erase member).symm
  refine ⟨fun entry member => (first entry member).1, ?_⟩
  refine pairwise_map.mpr (List.Pairwise.imp_of_mem ?_ (pairwise_map.mp ids))
  intro entry other member member' apart same
  have rest : other ∈ entries.erase entry :=
    (mem_erase_of_ne fun equal => apart (congrArg Prod.fst equal.symm)).mpr member'
  obtain ⟨-, opens, -⟩ := all (entry :: other :: (entries.erase entry).erase other)
    (((perm_cons_erase rest).symm.cons entry).trans (perm_cons_erase member).symm)
  exact apart (opens entry.1 (same ▸ Finmap.lookup_insert _))

/-- A name which no rename takes is freed by the renames away from it. -/
theorem lookup_retags_of_not_taken (apart : ∀ entry ∈ entries, entry.2 ≠ name) :
    (entries.foldl (retag old) index).lookup name =
      if ∃ entry ∈ entries, old entry.1 = name then none else index.lookup name := by
  induction entries generalizing index with
  | nil => simp
  | cons entry entries ih =>
    obtain ⟨here, later⟩ := forall_mem_cons.mp apart
    rw [foldl_cons, ih later, lookup_retag_ne (Ne.symm here)]
    by_cases freed : old entry.1 = name
    · simp [freed]
    · have same : (∃ other ∈ entry :: entries, old other.1 = name) ↔ ∃ other ∈ entries, old other.1 = name := by
        simp [freed]
      rw [if_neg freed, if_congr same rfl rfl]

/-- A name which a rename takes stays with the pool if no later rename takes or frees it. -/
theorem lookup_retags_of_last {before after : List (Int × Bytes)} {id : Int}
    (apart : ∀ entry ∈ after, entry.2 ≠ name) (kept : ∀ entry ∈ after, old entry.1 ≠ name) :
    ((before ++ (id, name) :: after).foldl (retag old) index).lookup name = some id := by
  rw [foldl_append, foldl_cons, lookup_retags_of_not_taken apart, if_neg (by simpa using kept)]
  exact Finmap.lookup_insert _

end Index

section Loops

variable {names after : Names}

/-- The pools after a rename. -/
def setName (pools : GoMap Int Pool) (entry : Int × Bytes) : GoMap Int Pool :=
  match pools.lookup entry.1 with
  | none => pools
  | some pool => pools.insert entry.1 { pool with name := entry.2 }

theorem lookup_setName (pools : GoMap Int Pool) (entry : Int × Bytes) (id : Int) : (setName pools entry).lookup id =
    if id = entry.1 then (pools.lookup id).map fun pool => { pool with name := entry.2 } else pools.lookup id := by
  rw [setName]
  split
  · next missing =>
    split
    · next same => rw [same, missing, Option.map_none]
    · rfl
  · next pool found =>
    split
    · next same => rw [same, Finmap.lookup_insert, found, Option.map_some]
    · next other => rw [Finmap.lookup_insert_of_ne _ other]

theorem renamePool_ok_iff {entry : Int × Bytes} : renamePool names entry = .ok after ↔ ∃ pool,
    names.pools.lookup entry.1 = some pool ∧ Open names.nameToID entry ∧
      after = ⟨setName names.pools entry, retag (fun _ => pool.name) names.nameToID entry⟩ := by
  obtain ⟨id, name⟩ := entry
  unfold renamePool
  dsimp only
  cases found : names.pools.lookup id with
  | none => simp [failure]
  | some pool =>
    have free : Open names.nameToID (id, name) ↔ ¬∃ oldID ∈ names.nameToID.lookup name, oldID ≠ id := by
      simp [Open]
    dsimp only
    split
    · next taken =>
      constructor
      · intro renamed
        cases renamed
      · rintro ⟨pool', -, opens, -⟩
        exact absurd taken (free.mp opens)
    · next untaken =>
      rw [setName, found]
      constructor
      · intro renamed
        exact ⟨pool, rfl, free.mpr untaken, (Except.ok.inj renamed).symm⟩
      · rintro ⟨pool', there, -, rfl⟩
        cases there
        rfl

/-- The loop over the renames: all pools are known and the order is admissible. -/
theorem renames_ok_iff {old : Int → Bytes} {entries : List (Int × Bytes)} (ids : (entries.map Prod.fst).Nodup)
    (named : ∀ entry ∈ entries, ∀ pool, names.pools.lookup entry.1 = some pool → pool.name = old entry.1) :
    entries.foldlM renamePool names = .ok after ↔ (∀ entry ∈ entries, entry.1 ∈ names.pools) ∧
      Admissible old names.nameToID entries ∧
      after = ⟨entries.foldl setName names.pools, entries.foldl (retag old) names.nameToID⟩ := by
  induction entries generalizing names with
  | nil =>
    refine ⟨fun run => ⟨by simp, trivial, (Except.ok.inj run).symm⟩, ?_⟩
    rintro ⟨-, -, rfl⟩
    rfl
  | cons entry entries ih =>
    obtain ⟨fresh, ids⟩ := nodup_cons.mp ids
    obtain ⟨namedHere, namedLater⟩ := forall_mem_cons.mp named
    -- The other renames find their pools as they were.
    have kept : ∀ other ∈ entries, (setName names.pools entry).lookup other.1 = names.pools.lookup other.1 := by
      intro other member
      have apart : other.1 ≠ entry.1 := fun same => fresh (same ▸ mem_map_of_mem member)
      rw [lookup_setName, if_neg apart]
    have knows : (∀ other ∈ entries, other.1 ∈ setName names.pools entry) ↔
      ∀ other ∈ entries, other.1 ∈ names.pools :=
      forall₂_congr fun other member => by rw [Finmap.mem_iff, Finmap.mem_iff, kept other member]
    have rest (pool : Pool) (there : names.pools.lookup entry.1 = some pool) :
        entries.foldlM renamePool ⟨setName names.pools entry, retag (fun _ => pool.name) names.nameToID entry⟩ =
          .ok after ↔
          (∀ other ∈ entries, other.1 ∈ names.pools) ∧ Admissible old (retag old names.nameToID entry) entries ∧
          after = ⟨entries.foldl setName (setName names.pools entry),
            entries.foldl (retag old) (retag old names.nameToID entry)⟩ := by
      have same : retag (fun _ => pool.name) names.nameToID entry = retag old names.nameToID entry := by
        rw [retag, namedHere pool there, retag]
      rw [same, ← knows]
      exact ih ids fun other member pool found => namedLater other member pool ((kept other member).symm.trans found)
    rw [foldlM_cons, forall_mem_cons]
    constructor
    · intro run
      obtain ⟨middle, renamed, run⟩ := except_bind_ok run
      obtain ⟨pool, there, opens, rfl⟩ := renamePool_ok_iff.mp renamed
      obtain ⟨known, admissible, result⟩ := (rest pool there).mp run
      exact ⟨⟨Finmap.mem_iff.mpr ⟨pool, there⟩, known⟩, ⟨opens, admissible⟩, result⟩
    · rintro ⟨⟨here, known⟩, ⟨opens, admissible⟩, result⟩
      obtain ⟨pool, there⟩ := Finmap.mem_iff.mp here
      rw [except_bind_eq (renamePool_ok_iff.mpr ⟨pool, there, opens, rfl⟩)]
      exact (rest pool there).mpr ⟨known, admissible, result⟩

theorem lookup_removePools (names : Names) (ids : List Int) (id : Int) :
    (ids.foldl removePool names).pools.lookup id = if id ∈ ids then none else names.pools.lookup id := by
  induction ids generalizing names with
  | nil => simp
  | cons first ids ih =>
    have removed : (removePool names first).pools.lookup id = if id = first then none else names.pools.lookup id := by
      rw [removePool]
      split
      · next missing =>
        split
        · next same => rw [same, missing]
        · rfl
      · split
        · next same => rw [same, Finmap.lookup_erase]
        · next other => rw [Finmap.lookup_erase_ne other]
    rw [foldl_cons, ih, removed]
    by_cases same : id = first <;> simp [same]

/-- The removal of pools frees the names they have. -/
theorem lookup_removePools_index (names : Names) (ids : List Int) (name : Bytes) :
    (ids.foldl removePool names).nameToID.lookup name =
      if ∃ id ∈ ids, (names.pools.lookup id).map Pool.name = some name then none else names.nameToID.lookup name := by
  induction ids generalizing names with
  | nil => simp
  | cons first ids ih =>
    rw [foldl_cons, ih]
    cases found : names.pools.lookup first with
    | none =>
      rw [show removePool names first = names by rw [removePool, found]]
      simp [found]
    | some pool =>
      have removed : removePool names first = ⟨names.pools.erase first, names.nameToID.erase pool.name⟩ := by
        rw [removePool, found]
      have others : (∃ id ∈ ids, ((names.pools.erase first).lookup id).map Pool.name = some name) ∨ pool.name = name ↔
          ∃ id ∈ first :: ids, (names.pools.lookup id).map Pool.name = some name := by
        rw [exists_mem_cons_iff, found, Option.map_some, Option.some.injEq, or_comm]
        refine or_congr_right' fun other => exists_congr fun id => and_congr_right fun _ => ?_
        by_cases same : id = first
        · subst same
          simp [found, other]
        · rw [Finmap.lookup_erase_ne same]
      rw [removed, ← if_congr others rfl rfl]
      by_cases same : pool.name = name
      · simp [same]
      · rw [Finmap.lookup_erase_ne (Ne.symm same)]
        simp [same]

end Loops

end RadosGo.Maps
