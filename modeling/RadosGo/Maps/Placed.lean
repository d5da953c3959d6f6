import RadosGo.Maps.Names
import RadosGo.Maps.PrimaryFirst

namespace RadosGo.Maps

open List Crush.CrushMap

open Crush (indexed)

/-- What CRUSH returns for the map has no device twice, and is never a panic. -/
theorem decodeCrush_distinct {first second : GoMap Int Crush.Bucket → List Int}
    (firstOrder : ∀ buckets : GoMap Int Crush.Bucket, buckets.IsOrder (first buckets))
    (secondOrder : ∀ buckets : GoMap Int Crush.Bucket, buckets.IsOrder (second buckets)) {data : Bytes}
    {crushMap : Crush.PlacementMap} (decoded : decodeCrush first second data = .ok crushMap) {fuel ruleID : Nat}
    {seed : UInt32} {replicas : Nat} {weights : List Nat} {result : Except Fault (List Int)}
    (run : crushMap.place fuel ruleID seed replicas weights = some result) :
    (∃ raw, result = .ok raw ∧ Distinct crushItemNone raw) ∨ ∃ err, result = .error (.err err) := by
  rw [decodeCrush] at decoded
  split at decoded
  · cases decoded
  · dsimp only at decoded
    split at decoded
    · cases decoded
    · next read =>
      cases decoded
      exact Crush.PlacementMap.place_distinct read firstOrder secondOrder run

namespace OSDMap

variable {osdMap : OSDMap}

/-- The map has a state for the OSD, which says that it exists. -/
def Exists (osdMap : OSDMap) (osd : Int) : Prop :=
  0 ≤ osd ∧ ∃ state ∈ osdMap.osdState[osd.toNat]?, state &&& osdStateExists ≠ 0

/-- The OSD exists and is up. -/
def Up (osdMap : OSDMap) (osd : Int) : Prop :=
  osdMap.Exists osd ∧ ∃ state ∈ osdMap.osdState[osd.toNat]?, state &&& osdStateUp ≠ 0

instance decidableExists (osdMap : OSDMap) (osd : Int) : Decidable (osdMap.Exists osd) :=
  inferInstanceAs (Decidable (_ ∧ _))

instance decidableUp (osdMap : OSDMap) (osd : Int) : Decidable (osdMap.Up osd) := inferInstanceAs (Decidable (_ ∧ _))

theorem osdExists_eq (osd : Int) : osdMap.osdExists osd = .ok (decide (osdMap.Exists osd)) := by
  rw [osdExists]
  split
  · next inside =>
    have within : osd.toNat < osdMap.osdState.length := by omega
    obtain ⟨state, ok, read⟩ := Crush.indexed_ok within
    rw [ok]
    refine congrArg Except.ok (Bool.eq_iff_iff.mpr ?_)
    simp [Exists, read, inside.1]
  · next outside =>
    refine congrArg Except.ok (decide_eq_false ?_).symm
    rintro ⟨nonneg, state, read, -⟩
    have within := (List.getElem?_eq_some_iff.mp read).1
    omega

theorem isUp_eq : osdMap.isUp = fun osd => .ok (decide (osdMap.Up osd)) := by
  funext osd
  rw [isUp, osdExists_eq, except_bind_eq rfl]
  split
  · next found =>
    obtain ⟨nonneg, state, read, -⟩ := of_decide_eq_true found
    obtain ⟨value, ok, read'⟩ := Crush.indexed_ok (List.getElem?_eq_some_iff.mp read).1
    obtain rfl := Option.some.inj (read'.symm.trans read)
    rw [ok]
    refine congrArg Except.ok (Bool.eq_iff_iff.mpr ?_)
    simp [Up, read', of_decide_eq_true found]
  · next missing =>
    exact congrArg Except.ok (decide_eq_false fun up => missing (decide_eq_true up.1)).symm

theorem onlyUp_eq (source : List Int) :
    osdMap.onlyUp source = .ok (source.filter fun osd => decide (osdMap.Up osd)) := by
  induction source with
  | nil => rfl
  | cons osd osds ih =>
    rw [onlyUp, isUp_eq, except_bind_eq rfl, filter_cons, ih]
    split <;> rfl

variable {osd : Int}

theorem Up.nonneg (up : osdMap.Up osd) : 0 ≤ osd := up.1.1

/-- The placeholder is not the number of an OSD. -/
theorem not_up_none (sized : osdMap.Sized) (small : osdMap.maxOSD < 2 ^ 31) : ¬osdMap.Up crushItemNone := by
  rintro ⟨⟨-, state, read, -⟩, -⟩
  have within := (List.getElem?_eq_some_iff.mp read).1
  have length : osdMap.osdState.length = osdMap.maxOSD.toNat := sized.vectors.state
  rw [length] at within
  simp only [crushItemNone] at within
  omega

section Upmap

theorem weightOf_meets (osd : Int) : Meets IsError (osdMap.weightOf osd) fun _ => True := by
  rw [weightOf]
  split
  · exact (meets_indexed (by omega)).bind fun _ _ => meets_pure trivial
  · exact meets_pure trivial

theorem allIn_meets (osds : List Int) : Meets IsError (osdMap.allIn osds) fun _ => True := by
  induction osds with
  | nil => exact meets_pure trivial
  | cons osd osds ih =>
    refine (weightOf_meets osd).bind fun weight _ => ?_
    split
    · exact meets_pure trivial
    · exact ih

/-- A target that was not met does not occur, and the place found is one of the list. -/
theorem scanRemap_meets (remap : OSDRemap) (osds : List Int) (index : Nat) (position : Option Nat)
    (before : ∀ place ∈ position, place < index) :
    Meets IsError (osdMap.scanRemap remap osds index position) fun scan =>
      (scan.1 = false → remap.target ∉ osds) ∧ ∀ place ∈ scan.2, place < index + osds.length := by
  induction osds generalizing index position with
  | nil => exact meets_pure ⟨fun _ => not_mem_nil, before⟩
  | cons osd osds ih =>
    rw [scanRemap]
    split
    · refine meets_pure ⟨fun missed => (Bool.noConfusion missed), fun place found => ?_⟩
      have := before place found
      omega
    · next other =>
      refine (weightOf_meets remap.target).bind fun weight _ => ?_
      refine (ih (index + 1) _ fun place found => ?_).mono fun scan kept => ⟨fun missed => ?_, fun place found => ?_⟩
      · split at found
        · obtain rfl := Option.mem_some_iff.mp found
          exact Nat.lt_succ_self _
        · exact Nat.lt_succ_of_lt (before place found)
      · exact not_mem_cons_of_ne_of_not_mem (Ne.symm other) (kept.1 missed)
      · have := kept.2 place found
        rw [length_cons]
        omega

theorem applyRemap_meets {result : List Int} (distinct : Distinct crushItemNone result) (remap : OSDRemap) :
    Meets IsError (osdMap.applyRemap result remap) (Distinct crushItemNone) := by
  refine (scanRemap_meets remap result 0 none (by simp)).bind ?_
  rintro ⟨found, position⟩ ⟨missed, within⟩
  match found, position with
  | false, some position =>
    refine (meets_assigned (by simpa using within)).mono ?_
    rintro _ rfl
    exact distinct.set (missed rfl) position
  | false, none => exact meets_pure distinct
  | true, _ => exact meets_pure distinct

theorem swapPrimary_perm (result : List Int) (primary : Int) : (swapPrimary result primary).Perm result := by
  cases result with
  | nil => rfl
  | cons first others =>
    rw [swapPrimary]
    split
    · next member =>
      have within := idxOf_lt_length_of_mem member
      calc primary :: others.set (others.idxOf primary) first
        _ |>.Perm (primary :: first :: others.eraseIdx (others.idxOf primary)) :=
          (set_perm_cons_eraseIdx within first).cons primary
        _ |>.Perm (first :: primary :: others.eraseIdx (others.idxOf primary)) := List.Perm.swap ..
        _ |>.Perm (first :: others) := by
          have back := getElem_cons_eraseIdx_perm within
          rw [getElem_idxOf] at back
          exact back.cons first
    · rfl

theorem upmapItems_meets (pg : PG) {source : List Int} (distinct : Distinct crushItemNone source) :
    Meets IsError (osdMap.upmapItems pg source) (Distinct crushItemNone) := by
  refine (meets_foldlM _ (fun result remap _ distinct => applyRemap_meets distinct remap) distinct).bind
    fun result distinct => ?_
  split
  · exact meets_pure distinct
  · next primary _ =>
    refine (weightOf_meets primary).bind fun weight _ => ?_
    split
    · exact meets_pure distinct
    · refine meets_pure ?_
      split
      · exact distinct.perm (swapPrimary_perm result primary).symm
      · exact distinct

/-- The OSDs of a set exist, and none is there twice unless that is allowed. -/
theorem validateSet_meets (name : String) (allowDuplicates : Bool) (osds seen : List Int) :
    Meets IsError (osdMap.validateSet name allowDuplicates osds seen) fun _ =>
      allowDuplicates = false → Distinct crushItemNone osds ∧ ∀ osd ∈ osds, osd ≠ crushItemNone → osd ∉ seen := by
  induction osds generalizing seen with
  | nil => exact meets_pure fun _ => ⟨List.Pairwise.nil, by simp⟩
  | cons osd osds ih =>
    rw [validateSet]
    split
    · next hole =>
      refine (ih seen).mono fun _ kept strict =>
        ⟨pairwise_cons.mpr ⟨fun _ _ full => absurd hole full, (kept strict).1⟩, ?_⟩
      exact forall_mem_cons.mpr ⟨fun full => absurd hole full, (kept strict).2⟩
    · rw [osdExists_eq, except_bind_eq rfl]
      dsimp only
      split
      · exact meets_error ⟨_, rfl⟩
      · split
        · exact meets_error ⟨_, rfl⟩
        · next fresh =>
          refine (ih (osd :: seen)).mono fun _ kept strict => ?_
          obtain ⟨distinct, unseen⟩ := kept strict
          refine ⟨pairwise_cons.mpr ⟨fun other member full same => ?_, distinct⟩, ?_⟩
          · exact unseen other member (same ▸ full) (same ▸ mem_cons_self)
          · refine forall_mem_cons.mpr
              ⟨fun _ twice => fresh ⟨twice, by simp [strict]⟩, fun other member full twice => ?_⟩
            exact unseen other member full (mem_cons_of_mem _ twice)

theorem validateItems_meets (remaps : List OSDRemap) : Meets IsError (osdMap.validateItems remaps) fun _ => True := by
  induction remaps with
  | nil => exact meets_pure trivial
  | cons remap remaps ih =>
    rw [validateItems, osdExists_eq, except_bind_eq rfl]
    dsimp only
    split
    · split
      · exact meets_error ⟨_, rfl⟩
      · exact ih
    · exact ih

theorem validateUpmap_meets (pg : PG) : Meets IsError (osdMap.validateUpmap pg) fun _ =>
    ∀ replacement, osdMap.pgUpmap.lookup pg = some replacement → Distinct crushItemNone replacement := by
  rw [validateUpmap]
  dsimp only
  split
  · next missing =>
    refine (validateItems_meets _).mono fun _ _ _ found => ?_
    rw [missing] at found
    cases found
  · next replacement there =>
    refine (validateSet_meets "pg_upmap" false replacement []).bind fun _ kept => ?_
    refine (validateItems_meets _).mono fun _ _ other found => ?_
    obtain rfl := Option.some.inj (there.symm.trans found)
    exact (kept rfl).1

theorem applyUpmap_meets (pg : PG) {source : List Int} (distinct : Distinct crushItemNone source)
    (replaced : ∀ replacement, osdMap.pgUpmap.lookup pg = some replacement → Distinct crushItemNone replacement) :
    Meets IsError (osdMap.applyUpmap pg source) (Distinct crushItemNone) := by
  rw [applyUpmap]
  split
  · exact upmapItems_meets pg distinct
  · next replacement found =>
    refine (allIn_meets replacement).bind fun valid _ => ?_
    split
    · exact upmapItems_meets pg (replaced replacement found)
    · exact meets_pure distinct

end Upmap

section Sets

variable {pool : Pool}

/-- The OSDs of a set of the pool are up. A replicated pool has none of them twice; another one
has placeholders where an OSD is missing. -/
structure Serves (osdMap : OSDMap) (pool : Pool) (osds : List Int) : Prop where
  nodup : pool.poolType = poolTypeReplicated → osds.Nodup
  up : ∀ osd ∈ osds, osdMap.Up osd ∨ pool.poolType ≠ poolTypeReplicated ∧ osd = crushItemNone

variable {osds : List Int}

section

variable (serves : osdMap.Serves pool osds)
include serves

theorem Serves.perm {others : List Int} (perm : osds.Perm others) : osdMap.Serves pool others :=
  ⟨fun replicated => perm.nodup (serves.nodup replicated), fun osd member => serves.up osd (perm.mem_iff.mpr member)⟩

theorem Serves.replicated (replicated : pool.poolType = poolTypeReplicated) (member : osd ∈ osds) :
    osdMap.Up osd := by
  rcases serves.up osd member with up | ⟨other, -⟩
  · exact up
  · exact absurd replicated other

theorem Serves.nonneg (member : osd ∈ osds) : 0 ≤ osd := by
  rcases serves.up osd member with up | ⟨-, rfl⟩
  · exact up.nonneg
  · decide

theorem Serves.hole_or_up (member : osd ∈ osds) : osd = crushItemNone ∨ osdMap.Up osd :=
  (serves.up osd member).elim .inr fun missing => .inl missing.2

end

/-- The primary is an OSD of the set, or `-1` if there is none. -/
def Leads (osds : List Int) (primary : Int) : Prop :=
  (primary = -1 ∧ ∀ osd ∈ osds, osd = crushItemNone) ∨ (primary ∈ osds ∧ primary ≠ crushItemNone)

theorem leads_firstOSD (osds : List Int) : Leads osds (firstOSD osds) := by
  induction osds with
  | nil => exact .inl ⟨rfl, by simp⟩
  | cons osd osds ih =>
    rw [firstOSD]
    split
    · next full => exact .inr ⟨mem_cons_self, full⟩
    · next hole =>
      rcases ih with ⟨none, holes⟩ | ⟨member, full⟩
      · exact .inl ⟨none, forall_mem_cons.mpr ⟨not_not.mp hole, holes⟩⟩
      · exact .inr ⟨mem_cons_of_mem _ member, full⟩

theorem Serves.primary_iff {primary : Int} (serves : osdMap.Serves pool osds) (leads : Leads osds primary) :
    primary = -1 ↔ ∀ osd ∈ osds, osd = crushItemNone := by
  rcases leads with ⟨none, holes⟩ | ⟨member, full⟩
  · exact ⟨fun _ => holes, fun _ => none⟩
  · have nonneg := serves.nonneg member
    exact ⟨fun unset => by omega, fun holes => absurd (holes primary member) full⟩

variable (hole : ¬osdMap.Up crushItemNone)

include hole

/-- The first OSD of a replicated pool is at the head. -/
theorem Serves.head (serves : osdMap.Serves pool osds) (replicated : pool.poolType = poolTypeReplicated)
    (some : osds ≠ []) : osds.head? = .some (firstOSD osds) := by
  cases osds with
  | nil => exact absurd rfl some
  | cons osd osds =>
    have full : osd ≠ crushItemNone := by
      rintro rfl
      exact hole (serves.replicated replicated mem_cons_self)
    rw [firstOSD, if_pos full]
    rfl

theorem upOSDs_meets (pool : Pool) {source : List Int}
    (distinct : pool.poolType = poolTypeReplicated → Distinct crushItemNone source) :
    Meets IsError (osdMap.upOSDs pool source) fun osds =>
      osdMap.Serves pool osds ∧ (pool.poolType ≠ poolTypeReplicated → osds.length = source.length) := by
  rw [upOSDs, isUp_eq]
  split
  · next replicated =>
    rw [onlyUp_eq]
    have up : ∀ osd ∈ source.filter fun osd => decide (osdMap.Up osd), osdMap.Up osd := by
      intro osd member
      simpa using (mem_filter.mp member).2
    refine meets_pure ⟨⟨fun _ => ?_, fun osd member => .inl (up osd member)⟩, fun other => absurd replicated other⟩
    exact Distinct.nodup (List.Pairwise.sublist filter_sublist (distinct replicated)) fun member => hole (up _ member)
  · next other =>
    change Meets IsError (source.mapM fun osd =>
      pure (if decide (osdMap.Up osd) = true then osd else crushItemNone)) _
    rw [mapM_pure]
    refine meets_pure ⟨⟨fun replicated => absurd replicated other, fun osd member => ?_⟩, fun _ => length_map _⟩
    obtain ⟨old, -, rfl⟩ := mem_map.mp member
    split
    · next up => exact .inl (of_decide_eq_true up)
    · exact .inr ⟨other, rfl⟩

/-- The entry at a place of the list is an OSD. -/
def Full (osds : List Int) (place : Nat) : Prop := ∃ osd ∈ osds[place]?, osd ≠ crushItemNone

omit hole in
theorem affinityPosition_meets (seed : UInt32) (osds rest : List Int) (index : Nat) (position : Option Nat)
    (drop : osds.drop index = rest) (before : ∀ place ∈ position, Full osds place) :
    Meets IsError (osdMap.affinityPosition seed rest index position) fun found => ∀ place ∈ found,
      Full osds place := by
  induction rest generalizing index position with
  | nil => exact meets_pure before
  | cons osd rest ih =>
    have read : osds[index]? = some osd := by
      rw [← head?_drop, drop]
      rfl
    have drop' : osds.drop (index + 1) = rest := by rw [← tail_drop, drop, tail_cons]
    rw [affinityPosition]
    split
    · exact ih (index + 1) position drop' before
    · next inside =>
      push Not at inside
      have here : Full osds index := ⟨osd, read, inside.1⟩
      refine (meets_indexed (by omega)).bind fun affinity _ => ?_
      split
      · refine ih (index + 1) _ drop' fun place found => ?_
        obtain rfl := Option.mem_some_iff.mp found
        cases position with
        | none => exact here
        | some place => exact before place rfl
      · exact meets_pure fun place found => Option.mem_some_iff.mp found ▸ here

theorem applyPrimaryAffinity_meets (seed : UInt32) (serves : osdMap.Serves pool osds) :
    Meets IsError (osdMap.applyPrimaryAffinity pool seed osds (firstOSD osds)) fun result =>
      osdMap.Serves pool result.1 ∧ Leads result.1 result.2 ∧
        (pool.poolType = poolTypeReplicated → result.1 ≠ [] → result.1.head? = some result.2) := by
  have unchanged := And.intro serves (And.intro (leads_firstOSD osds) (serves.head hole))
  rw [applyPrimaryAffinity]
  split
  · exact meets_pure unchanged
  · refine (affinityPosition_meets seed osds osds 0 none rfl (by simp)).bind fun found full => ?_
    split
    · exact meets_pure unchanged
    · next position =>
      obtain ⟨osd, read, notHole⟩ := full position rfl
      obtain ⟨within, at_⟩ := List.getElem?_eq_some_iff.mp read
      refine (meets_indexed within).bind fun primary read' => ?_
      obtain rfl := Option.some.inj (read.symm.trans read')
      have member : osd ∈ osds := mem_of_getElem? read
      split
      · have perm : osds.Perm (osd :: osds.take position ++ osds.drop (position + 1)) := by
          conv_lhs => rw [← take_append_drop position osds, drop_eq_getElem_cons within, at_]
          exact perm_middle
        exact meets_pure ⟨serves.perm perm, .inr ⟨perm.mem_iff.mp member, notHole⟩, fun _ _ => rfl⟩
      · next keeps =>
        refine meets_pure ⟨serves, .inr ⟨member, notHole⟩, fun replicated _ => ?_⟩
        obtain rfl : position = 0 := by
          by_contra later
          exact keeps ⟨replicated, Nat.pos_of_ne_zero later⟩
        rw [head?_eq_getElem?, read]

/-- No entry of `primary_temp` is the placeholder. -/
def Clean (osdMap : OSDMap) : Prop := ∀ pg, osdMap.primaryTemp.lookup pg ≠ some crushItemNone

/-- What a temporary mapping is: there is no primary only if it holds no OSD. -/
structure Temporary (osdMap : OSDMap) (pool : Pool) (pg : PG) (acting : List Int) (primary : Int) : Prop where
  serves : osdMap.Serves pool acting
  unset : primary = -1 → ∀ osd ∈ acting, osd = crushItemNone
  full : osdMap.Clean → primary ≠ crushItemNone
  length : pg ∈ osdMap.pgTemp → pool.poolType = poolTypeErasure → pool.hasFlag poolFlagECOptimizations →
    acting.length = pool.size

theorem tempMapping_meets (pool : Pool) (pg : PG) :
    Meets IsError (osdMap.tempMapping pool pg) fun mapping => osdMap.Temporary pool pg mapping.1 mapping.2 := by
  have override : osdMap.Clean → (osdMap.primaryTemp.lookup pg).getD (-1) ≠ crushItemNone := by
    intro clean
    cases found : osdMap.primaryTemp.lookup pg with
    | none => decide
    | some primary =>
      rintro rfl
      exact clean pg found
  rw [tempMapping]
  dsimp only
  split
  · next missing =>
    refine meets_pure ⟨⟨fun _ => nodup_nil, by simp⟩, fun _ => by simp, override, fun there => ?_⟩
    exact absurd there (Finmap.lookup_eq_none.mp missing)
  · next source found =>
    refine (validateSet_meets "pg_temp" (pool.poolType == poolTypeErasure) source []).bind fun _ valid => ?_
    have distinct : pool.poolType = poolTypeReplicated → Distinct crushItemNone source :=
      fun replicated => (valid (by rw [replicated]; rfl)).1
    refine (upOSDs_meets hole pool distinct).bind fun result both => ?_
    obtain ⟨serves, length⟩ := both
    generalize chosen : (if (osdMap.primaryTemp.lookup pg).getD (-1) = -1 then firstOSD result
      else (osdMap.primaryTemp.lookup pg).getD (-1)) = primary
    have unset : primary = -1 → ∀ osd ∈ result, osd = crushItemNone := by
      intro none
      subst chosen
      split at none
      · exact (serves.primary_iff (leads_firstOSD result)).mp none
      · next set => exact absurd none set
    have full : osdMap.Clean → primary ≠ crushItemNone := by
      intro clean
      subst chosen
      split
      · rcases leads_firstOSD result with ⟨none, -⟩ | ⟨-, full⟩
        · rw [none]
          decide
        · exact full
      · exact override clean
    split
    · next optimized =>
      split
      · exact meets_error ⟨_, rfl⟩
      · next sized =>
        refine (pool.pgTempUndoPrimaryFirst_meets result).bind fun undone kept => meets_pure ?_
        have erasure : pool.poolType ≠ poolTypeReplicated := by
          rw [optimized.1]
          decide
        refine ⟨⟨fun replicated => absurd replicated erasure, fun osd member => serves.up osd (kept.2 osd member)⟩,
          fun none osd member => unset none osd (kept.2 osd member), full, fun _ _ _ => ?_⟩
        rw [kept.1]
        tauto
    · next plain => exact meets_pure ⟨serves, unset, full, fun _ erasure flag => absurd ⟨erasure, flag⟩ plain⟩

theorem actingSet_meets (pg : PG) {up : List Int}
    {upPrimary : Int} (serves : osdMap.Serves pool up) (leads : Leads up upPrimary) (positive : pool.size ≠ 0) :
    Meets IsError (osdMap.actingSet pool pg up upPrimary) fun set =>
      osdMap.Serves pool set.1 ∧ (osdMap.Clean → Leads set.1 set.2) ∧ (set.2 ≠ -1 → set.2 ∈ set.1) ∧
        (pg ∈ osdMap.pgTemp → pool.poolType = poolTypeErasure →
        pool.hasFlag poolFlagECOptimizations → set.1.length = pool.size) := by
  refine (tempMapping_meets hole pool pg).bind ?_
  rintro ⟨acting, primary⟩ temporary
  dsimp only
  split
  · next empty =>
    have length : pg ∈ osdMap.pgTemp → pool.poolType = poolTypeErasure → pool.hasFlag poolFlagECOptimizations →
        up.length = pool.size := fun there erasure optimized => by
      have full : acting.length = pool.size := temporary.length there erasure optimized
      omega
    split
    · split
      · exact meets_error ⟨_, rfl⟩
      · next member =>
        exact meets_pure ⟨serves, fun _ => leads, fun set => not_not.mp fun out => member ⟨set, out⟩, length⟩
    · next set =>
      split
      · exact meets_error ⟨_, rfl⟩
      · next member =>
        have inside : primary ∈ up := not_not.mp fun out => member ⟨set, out⟩
        exact meets_pure ⟨serves, fun clean => .inr ⟨inside, temporary.full clean⟩, fun _ => inside, length⟩
  · split
    · exact meets_error ⟨_, rfl⟩
    · next member =>
      have inside : primary ≠ -1 → primary ∈ acting := fun set => not_not.mp fun out => member ⟨set, out⟩
      refine meets_pure ⟨temporary.serves, fun clean => ?_, inside, temporary.length⟩
      by_cases unset : primary = -1
      · exact .inl ⟨unset, temporary.unset unset⟩
      · exact .inr ⟨inside unset, temporary.full clean⟩

omit hole in
/-- The shard of the primary holds the primary, also if the temporary mapping reorders the shards. -/
theorem primaryShard_meets {pg : PG} {acting : List Int} (primary : Int)
    (length : pg ∈ osdMap.pgTemp → pool.hasFlag poolFlagECOptimizations → acting.length = pool.size) :
    Meets IsError (osdMap.primaryShard pool pg acting primary) fun found =>
      primary ∈ acting → ∃ shard, found = some shard ∧ acting[shard]? = some primary := by
  rw [primaryShard]
  dsimp only
  by_cases optimized : pg ∈ osdMap.pgTemp ∧ pool.hasFlag poolFlagECOptimizations
  · simp only [optimized, and_self, if_true]
    split
    · next member =>
      have read := getElem?_eq_getElem (idxOf_lt_length_of_mem member)
      rw [getElem_idxOf] at read
      refine (pool.pgTempUndoPrimaryFirstIndex_meets (length optimized.1 optimized.2) read).bind fun shard found => ?_
      split
      · exact meets_error ⟨_, rfl⟩
      · exact meets_pure fun _ => ⟨shard, rfl, found⟩
    · next missing => exact meets_pure fun member => absurd (pool.mem_pgTempPrimaryFirst.mpr member) missing
  · simp only [if_neg optimized]
    split
    · next member =>
      have read := getElem?_eq_getElem (idxOf_lt_length_of_mem member)
      rw [getElem_idxOf] at read
      rw [pure_bind]
      split
      · exact meets_error ⟨_, rfl⟩
      · exact meets_pure fun _ => ⟨_, rfl, read⟩
    · next missing => exact meets_pure fun member => absurd member missing

/-- What a placement says about its sets and their primaries. -/
structure Placed (osdMap : OSDMap) (pool : Pool) (placement : ObjectPlacement) : Prop where
  up : osdMap.Serves pool placement.up
  head : pool.poolType = poolTypeReplicated → placement.up ≠ [] → placement.up.head? = some placement.upPrimary
  acting : osdMap.Serves pool placement.acting
  leads : osdMap.Clean → Leads placement.acting placement.actingPrimary
  shard : pool.poolType = poolTypeErasure → placement.actingPrimary ≠ -1 →
    placement.sharded = true ∧ placement.acting[placement.primaryShard]? = some placement.actingPrimary

theorem placeRaw_meets (placement : ObjectPlacement)
    {raw : List Int} (distinct : Distinct crushItemNone raw) (positive : pool.size ≠ 0) :
    Meets IsError (osdMap.placeRaw pool placement raw) (osdMap.Placed pool) := by
  refine (validateUpmap_meets placement.pg).bind fun _ replaced => ?_
  refine (applyUpmap_meets placement.pg distinct replaced).bind fun mapped distinct => ?_
  refine (upOSDs_meets hole pool fun _ => distinct).bind fun up both => ?_
  refine (applyPrimaryAffinity_meets hole placement.placementSeed both.1).bind ?_
  rintro ⟨up, upPrimary⟩ ⟨serves, leads, head⟩
  refine (actingSet_meets hole placement.pg serves leads positive).bind ?_
  rintro ⟨acting, primary⟩ ⟨servesActing, leadsActing, member, length⟩
  dsimp only
  split
  · next erasure =>
    refine (primaryShard_meets primary fun there optimized => length there erasure optimized).bind fun found
      shard => ?_
    split
    · refine meets_pure ⟨serves, head, servesActing, leadsActing, fun _ set => ?_⟩
      obtain ⟨shard, found, -⟩ := shard (member set)
      cases found
    · next at_ =>
      refine meets_pure ⟨serves, head, servesActing, leadsActing, fun _ set => ⟨rfl, ?_⟩⟩
      obtain ⟨shard, found, read⟩ := shard (member set)
      exact Option.some.inj found ▸ read
  · next other => exact meets_pure ⟨serves, head, servesActing, leadsActing, fun erasure => absurd erasure other⟩

end Sets

section Objects

variable {first second : GoMap Int Crush.Bucket → List Int}
  (firstOrder : ∀ buckets : GoMap Int Crush.Bucket, buckets.IsOrder (first buckets))
  (secondOrder : ∀ buckets : GoMap Int Crush.Bucket, buckets.IsOrder (second buckets))

include firstOrder secondOrder

variable {fuel : Nat} {poolID : Int} {data : Bytes} {result : Except Fault ObjectPlacement}

theorem placeMapped_meets (hole : ¬osdMap.Up crushItemNone) {placement : ObjectPlacement}
    (run : osdMap.placeMapped (decodeCrush first second data) fuel poolID placement = some result) :
    Meets IsError result fun placement => ∃ pool, osdMap.pools.lookup poolID = some pool ∧
      (pool.poolType = poolTypeReplicated ∨ pool.poolType = poolTypeErasure) ∧ osdMap.Placed pool placement := by
  generalize decoded : decodeCrush first second data = crush at run
  revert run
  fun_cases osdMap.placeMapped crush fuel poolID placement
  any_goals rintro ⟨⟩; exact meets_error ⟨_, rfl⟩
  · rintro ⟨⟩
  · next message placed =>
    rcases decodeCrush_distinct firstOrder secondOrder decoded placed with ⟨raw, ok, -⟩ | ⟨err, failed⟩
    · cases ok
    · cases failed
  · next pool found type positive crushMap raw placed =>
    rintro ⟨⟩
    rcases decodeCrush_distinct firstOrder secondOrder decoded placed with ⟨raw, ok, distinct⟩ | ⟨err, failed⟩
    · cases ok
      exact (placeRaw_meets hole placement distinct positive).mono fun placement placed =>
        ⟨pool, found, by tauto, placed⟩
    · cases failed

theorem placeObject_meets (hole : ¬osdMap.Up crushItemNone) {object locator namespace_ : Bytes}
    (run : osdMap.placeObject (decodeCrush first second data) fuel poolID object locator namespace_ = some result) :
    Meets IsError result fun placement => ∃ pool, osdMap.pools.lookup poolID = some pool ∧
      (pool.poolType = poolTypeReplicated ∨ pool.poolType = poolTypeErasure) ∧ osdMap.Placed pool placement := by
  rw [placeObject] at run
  split at run
  · exact Option.some.inj run ▸ meets_error ⟨_, rfl⟩
  · exact placeMapped_meets firstOrder secondOrder hole run

theorem placeRawHash_meets (hole : ¬osdMap.Up crushItemNone) {hash : UInt32}
    (run : osdMap.placeRawHash (decodeCrush first second data) fuel poolID hash = some result) :
    Meets IsError result fun placement => ∃ pool, osdMap.pools.lookup poolID = some pool ∧
      (pool.poolType = poolTypeReplicated ∨ pool.poolType = poolTypeErasure) ∧ osdMap.Placed pool placement := by
  rw [placeRawHash] at run
  split at run
  · exact Option.some.inj run ▸ meets_error ⟨_, rfl⟩
  · exact placeMapped_meets firstOrder secondOrder hole run

/-- Whatever makes up a placement, its sets hold OSDs which are up and its primary is one of them. -/
theorem placeObject_sound {limits : Limits} (chain : Chain limits osdMap) (clean : osdMap.Clean) {fuel : Nat}
    {poolID : Int} {object locator namespace_ : Bytes} {placement : ObjectPlacement}
    (placed : osdMap.placeObject (decodeCrush first second osdMap.crushData) fuel poolID object locator namespace_ =
      some (.ok placement)) :
    ∃ pool, osdMap.pools.lookup poolID = some pool ∧
      (pool.poolType = poolTypeReplicated ∨ pool.poolType = poolTypeErasure) ∧
      (pool.poolType = poolTypeReplicated →
        (placement.up.Nodup ∧ ∀ osd ∈ placement.up, osdMap.Up osd) ∧
        (placement.acting.Nodup ∧ ∀ osd ∈ placement.acting, osdMap.Up osd) ∧
        (placement.up ≠ [] → placement.up.head? = some placement.upPrimary)) ∧
      (pool.poolType = poolTypeErasure →
        (∀ osd ∈ placement.up, osd = crushItemNone ∨ osdMap.Up osd) ∧
        ∀ osd ∈ placement.acting, osd = crushItemNone ∨ osdMap.Up osd) ∧
      (placement.actingPrimary = -1 ↔ ∀ osd ∈ placement.acting, osd = crushItemNone) ∧
      (placement.actingPrimary ≠ -1 → placement.actingPrimary ∈ placement.acting) ∧
      (pool.poolType = poolTypeErasure → placement.actingPrimary ≠ -1 →
        placement.sharded = true ∧ placement.acting[placement.primaryShard]? = some placement.actingPrimary) := by
  obtain ⟨sized, small⟩ := chain.sized
  obtain ⟨pool, found, type, sound⟩ :=
    (placeObject_meets firstOrder secondOrder (not_up_none sized small) placed).of_ok rfl
  refine ⟨pool, found, type, fun replicated => ?_, fun _ => ?_, sound.acting.primary_iff (sound.leads clean),
    fun set => ?_, sound.shard⟩
  · exact ⟨⟨sound.up.nodup replicated, fun _ => sound.up.replicated replicated⟩,
      ⟨sound.acting.nodup replicated, fun _ => sound.acting.replicated replicated⟩, sound.head replicated⟩
  · exact ⟨fun osd member => sound.up.hole_or_up member, fun osd member => sound.acting.hole_or_up member⟩
  · rcases sound.leads clean with ⟨unset, -⟩ | ⟨member, -⟩
    · exact absurd unset set
    · exact member

/-- The bytes of the two hosts are decoded, in whatever order the buckets are visited. -/
theorem decodeCrush_twoHosts : decodeCrush first second twoPoolsMap.crushData =
    .ok ⟨twoHostsMap, twoHostsMap.ruleError⟩ := by
  have acceptable := decodeMap_acceptable twoHosts_decoded
    twoHosts_order.1
    twoHosts_order.2
  have decoded : Crush.decodeMap first second twoHosts ⟨263, 65, 65, 65, 65⟩ =
      .ok twoHostsMap :=
    (decodeMap_iff (firstOrder _) (secondOrder _)).mpr ⟨by decide, by decide +kernel, acceptable⟩
  have certified : Crush.decodePlacementMap first second twoHosts ⟨263, 65, 65, 65, 65⟩ =
      .ok ⟨twoHostsMap, twoHostsMap.ruleError⟩ := (except_bind_eq decoded).trans rfl
  change decodeCrush first second twoHosts = _
  rw [decodeCrush, show twoHosts.length = 263 by decide +kernel, if_neg (by decide)]
  dsimp only
  rw [show max (263 / 4) 1 = 65 from rfl, certified]

omit firstOrder secondOrder in
theorem placeObject_sound_twoPools : ∃ placement,
    twoPoolsMap.placeObject (decodeCrush GoMap.anyOrder GoMap.anyOrder twoPoolsMap.crushData) 100 1 [111] [] [] =
      some (.ok placement) ∧ placement.up = [1, 0] ∧ (∀ osd ∈ placement.up, twoPoolsMap.Up osd) ∧
      placement.up.head? = some placement.upPrimary ∧ placement.actingPrimary ∈ placement.acting := by
  have placed : twoPoolsMap.placeObject (decodeCrush GoMap.anyOrder GoMap.anyOrder twoPoolsMap.crushData) 100 1
    [111] [] [] =
      some (.ok ⟨1940860161, ⟨1, 1940860161, -1⟩, ⟨1, 0, -1⟩, 91478055, [1, 0], [1, 0], 1, [1, 0], 1, 0, false⟩) := by
    rw [decodeCrush_twoHosts GoMap.isOrder_anyOrder GoMap.isOrder_anyOrder]
    decide +kernel
  obtain ⟨pool, found, -, replicated, -, -, member, -⟩ :=
    placeObject_sound GoMap.isOrder_anyOrder GoMap.isOrder_anyOrder
    (.full twoPools_decoded) (fun _ => by simp [twoPoolsMap]) placed
  obtain rfl := Option.some.inj (found.symm.trans (show _ = some (samplePool 1 [97]) by decide +kernel))
  obtain ⟨up, -, head⟩ := replicated rfl
  exact ⟨_, placed, rfl, up.2, head (by decide), member (by decide)⟩

end Objects

end OSDMap

theorem IsError.not_panicked {message : String} : ¬IsError (.panicked message) := by
  rintro ⟨err, same⟩
  cases same

/-- In a chain of maps the vectors have an entry for each OSD, so that no step of the next
incremental and no placement reads or writes outside of one. -/
theorem chain_within_vectors {limits : Limits} {osdMap : OSDMap} (chain : Chain limits osdMap) :
    ((osdMap.osdState.length : Int) = osdMap.maxOSD ∧ (osdMap.osdWeight.length : Int) = osdMap.maxOSD ∧
      (osdMap.clientAddresses.length : Int) = osdMap.maxOSD ∧
      (osdMap.primaryAffinity = [] ∨ (osdMap.primaryAffinity.length : Int) = osdMap.maxOSD)) ∧
    (∀ ranges incremental limits' message,
      applyOSDMapIncremental ranges osdMap incremental limits' ≠ .error (.panicked message)) ∧
    ∀ first second, (∀ buckets : GoMap Int Crush.Bucket, buckets.IsOrder (first buckets)) →
      (∀ buckets : GoMap Int Crush.Bucket, buckets.IsOrder (second buckets)) → ∀ fuel poolID message,
        (∀ object locator namespace_,
          osdMap.placeObject (decodeCrush first second osdMap.crushData) fuel poolID object
          locator namespace_ ≠ some (.error (.panicked message))) ∧
        ∀ hash, osdMap.placeRawHash (decodeCrush first second osdMap.crushData) fuel poolID hash ≠
          some (.error (.panicked message)) := by
  obtain ⟨sized, small⟩ := chain.sized
  have hole := OSDMap.not_up_none sized small
  have nonneg := sized.nonneg
  refine ⟨⟨?_, ?_, ?_, ?_⟩, fun ranges incremental limits' message failed => ?_, ?_⟩
  · have length : osdMap.osdState.length = _ := sized.vectors.state
    omega
  · have length : osdMap.osdWeight.length = _ := sized.vectors.weight
    omega
  · have length : osdMap.clientAddresses.length = _ := sized.vectors.addresses
    omega
  · rcases sized.vectors.affinity with none | full
    · exact .inl (eq_nil_of_length_eq_zero none)
    · have length : osdMap.primaryAffinity.length = _ := full
      exact .inr (by omega)
  · exact IsError.not_panicked ((apply_meets sized incremental limits').of_error failed)
  · intro first second firstOrder secondOrder fuel poolID message
    refine ⟨fun object locator namespace_ failed => ?_, fun hash failed => ?_⟩
    · exact IsError.not_panicked (OSDMap.placeObject_meets firstOrder secondOrder hole failed)
    · exact IsError.not_panicked (OSDMap.placeRawHash_meets firstOrder secondOrder hole failed)

theorem chain_within_vectors_nameChain : nameChainMap.osdState.length = 2 ∧
    ∀ fuel poolID message, ∀ hash, nameChainMap.placeRawHash
      (decodeCrush GoMap.anyOrder GoMap.anyOrder nameChainMap.crushData) fuel poolID hash ≠ some
        (.error (.panicked message)) := by
  obtain ⟨ranges, order, applied⟩ := nameChain_applied
  have chain : Chain sampleLimits nameChainMap := .next (.full twoPools_decoded) ⟨by decide⟩ order applied
  exact ⟨rfl, fun fuel poolID message => ((chain_within_vectors chain).2.2 GoMap.anyOrder GoMap.anyOrder
    GoMap.isOrder_anyOrder GoMap.isOrder_anyOrder fuel poolID message).2⟩

end RadosGo.Maps
