import RadosGo.Maps.Applied
import RadosGo.Mon.BatchSteps

namespace RadosGo.Mon

open Maps List

section Folds

variable {limits : Maps.Limits} {start : OSDMap} {payloads : List Bytes}

/-- A decoded incremental can be applied to a map, in some order of its loops. -/
def AppliesTo (limits : Maps.Limits) (current : OSDMap) (data : Bytes) (next : OSDMap) : Prop :=
  ∃ incremental ranges, decodeOSDMapIncremental limits data = .ok incremental ∧ ranges.Of incremental ∧
    applyOSDMapIncremental ranges current incremental limits = .ok next

/-- The application of incrementals one by one. -/
inductive Folds (limits : Maps.Limits) (start : OSDMap) : List Bytes → OSDMap → Prop where
  | nil : Folds limits start [] start
  | snoc {payloads : List Bytes} {current next : OSDMap} {data : Bytes} (folds : Folds limits start payloads current)
      (applies : AppliesTo limits current data next) : Folds limits start (payloads ++ [data]) next

/-- No two renames of an incremental meet, whichever map the incrementals before it make. -/
def ApartAll (limits : Maps.Limits) (start : OSDMap) (payloads : List Bytes) : Prop :=
  ∀ j data current incremental, payloads[j]? = some data → Folds limits start (payloads.take j) current →
    decodeOSDMapIncremental limits data = .ok incremental → RenamesApart current incremental

theorem folds_nil {current : OSDMap} (folds : Folds limits start [] current) : current = start := by
  generalize shape : ([] : List Bytes) = all at folds
  cases folds with
  | nil => rfl
  | snoc => simp at shape

theorem folds_pred {j : Nat} {data : Bytes} {next : OSDMap} (is : payloads[j]? = some data)
    (folds : Folds limits start (payloads.take (j + 1)) next) :
    ∃ current, Folds limits start (payloads.take j) current ∧ AppliesTo limits current data next := by
  rw [take_add_one, is, Option.toList_some] at folds
  generalize shape : payloads.take j ++ [data] = all at folds
  cases folds with
  | nil => simp at shape
  | snoc folds applies =>
    obtain ⟨rfl, rfl⟩ := append_singleton_inj.mp shape
    exact ⟨_, folds, applies⟩

theorem folds_succ {j : Nat} {data : Bytes} {current next : OSDMap} (is : payloads[j]? = some data)
    (folds : Folds limits start (payloads.take j) current) (applies : AppliesTo limits current data next) :
    Folds limits start (payloads.take (j + 1)) next := by
  rw [take_add_one, is, Option.toList_some]
  exact folds.snoc applies

theorem exists_folds {j k : Nat} {final : OSDMap} (folds : Folds limits start (payloads.take k) final) (below : j ≤ k)
    (within : k ≤ payloads.length) : ∃ current, Folds limits start (payloads.take j) current := by
  induction k, below using Nat.le_induction generalizing final with
  | base => exact ⟨final, folds⟩
  | succ k _ ih =>
    have is : payloads[k]? = some (payloads.get ⟨k, within⟩) := getElem?_eq_getElem within
    obtain ⟨current, folds, -⟩ := folds_pred is folds
    exact ih folds (Nat.le_of_succ_le within)

/-- The maps are of one cluster, and each has the next epoch. -/
structure Along (start : OSDMap) (count : Nat) (current : OSDMap) : Prop where
  fsid : current.fsid = start.fsid
  epoch : current.epoch = start.epoch + count
  sized : current.Sized

theorem Folds.along {current : OSDMap} (sized : start.Sized) (folds : Folds limits start payloads current)
    (fits : start.epoch + payloads.length < 2 ^ 32) : Along start payloads.length current := by
  induction folds with
  | nil => exact ⟨rfl, rfl, sized⟩
  | @snoc payloads current next data folds applies ih =>
    rw [length_append, length_singleton] at fits ⊢
    obtain ⟨fsid, epoch, sized⟩ := ih (by omega)
    obtain ⟨incremental, ranges, -, -, applied⟩ := applies
    obtain ⟨-, epoch', fsid', sameEpoch⟩ := apply_identity applied
    refine ⟨fsid'.trans fsid, ?_, ?_⟩
    · rw [sameEpoch, epoch', epoch, Nat.mod_eq_of_lt (by omega)]
      omega
    · rcases (apply_meets sized incremental limits).of_ok applied with ⟨data, decoded⟩ | ⟨sized', -⟩
      · exact (decodeOSDMap_sized decoded).1
      · exact sized'

/-- If no renames meet, an incremental gives the same map in every order. -/
theorem applied_of_apart {data : Bytes} {current next : OSDMap} {incremental : OSDMapIncremental}
    (sized : current.Sized)
    (apart : RenamesApart current incremental) (decoded : decodeOSDMapIncremental limits data = .ok incremental)
    (applies : AppliesTo limits current data next) {ranges : Ranges} (order : ranges.Of incremental) :
    applyOSDMapIncremental ranges current incremental limits = .ok next := by
  obtain ⟨incremental', ranges', decoded', order', applied⟩ := applies
  cases decoded.symm.trans decoded'
  have always : SameOutcome limits current incremental := (sameOutcome_iff decoded sized).mpr apart
  have same := always ranges ranges' order order'
  rw [applied] at same
  cases outcome : applyOSDMapIncremental ranges current incremental limits with
  | error err =>
    rw [outcome] at same
    cases same
  | ok found =>
    rw [outcome] at same
    cases same
    rfl

section Apart

variable {j k : Nat} {data : Bytes} {current other next final : OSDMap} (sized : start.Sized)
  (fits : start.epoch + payloads.length < 2 ^ 32)
include sized fits

theorem along_take (within : j ≤ payloads.length) (folds : Folds limits start (payloads.take j) current) :
    Along start j current := by
  have length : (payloads.take j).length = j := length_take_of_le within
  have along := folds.along sized (by omega)
  rwa [length] at along

/-- If no renames meet, there is only one map for each number of incrementals. -/
theorem folds_unique (apart : ApartAll limits start payloads) (within : j ≤ payloads.length)
    (folds : Folds limits start (payloads.take j) current) (folds' : Folds limits start (payloads.take j) other) :
      current = other := by
  induction j generalizing current other with
  | zero => exact (folds_nil folds).trans (folds_nil folds').symm
  | succ j ih =>
    have is : payloads[j]? = some (payloads.get ⟨j, within⟩) := getElem?_eq_getElem within
    obtain ⟨before, first, applies⟩ := folds_pred is folds
    obtain ⟨before', second, applies'⟩ := folds_pred is folds'
    obtain rfl := ih (Nat.le_of_succ_le within) first second
    have along := along_take sized fits (Nat.le_of_succ_le within) first
    obtain ⟨incremental, ranges, decoded, order, applied⟩ := applies
    have applied' := applied_of_apart along.sized
      (apart j _ before incremental is first decoded) decoded applies' order
    exact Except.ok.inj (applied.symm.trans applied')

/-- If no renames meet, the next incremental leads to the next map in every order. -/
theorem next_applied (apart : ApartAll limits start payloads) (within : k ≤ payloads.length) (below : j < k)
    (folds : Folds limits start (payloads.take j) current) (all : Folds limits start (payloads.take k) final)
    (is : payloads[j]? = some data) : ∃ incremental next, decodeOSDMapIncremental limits data = .ok incremental ∧
      incremental.epoch = start.epoch + j + 1 ∧ incremental.fsid = start.fsid ∧
        Folds limits start (payloads.take (j + 1)) next ∧
      ∀ ranges : Ranges, ranges.Of incremental →
        applyOSDMapIncremental ranges current incremental limits = .ok next := by
  obtain ⟨next, later⟩ := exists_folds all below within
  obtain ⟨before, folds', applies⟩ := folds_pred is later
  have within' : j ≤ payloads.length := by omega
  obtain rfl := folds_unique sized fits apart within' folds folds'
  have along := along_take sized fits within' folds
  obtain ⟨incremental, ranges, decoded, order, applied⟩ := applies
  obtain ⟨sameFSID, epoch, -, -⟩ := apply_identity applied
  have again : AppliesTo limits current data next := ⟨incremental, ranges, decoded, order, applied⟩
  refine ⟨incremental, next, decoded, ?_, sameFSID.trans along.fsid, later, fun ranges order => ?_⟩
  · rw [epoch, along.epoch, Nat.mod_eq_of_lt (by omega)]
  · exact applied_of_apart along.sized (apart j data current incremental is folds decoded) decoded again order

end Apart

end Folds

section Batches

variable {limits : Maps.Limits} {start : OSDMap} {payloads : List Bytes}

/-- A batch that has the incrementals after the first `a` ones up to the first `b` ones; its other maps are of epochs
that have been applied already. -/
structure Extends (start : OSDMap) (payloads : List Bytes) (a b : Nat) (batch : OSDMapBatch) : Prop where
  fsid : batch.fsid = start.fsid
  fulls : ∀ epoch ∈ batch.fullMaps, epoch ≤ start.epoch + a
  new : ∀ j, a ≤ j → j < b → ∃ data, payloads[j]? = some data ∧
    batch.incrementals.lookup (start.epoch + j + 1) = some data
  order : a ≤ b

/-- The largest epoch of the batch is not below the number. -/
def OSDMapBatch.Reaches (batch : OSDMapBatch) (bound : Nat) : Prop :=
  bound = 0 ∨ ∃ epoch, (epoch ∈ batch.incrementals ∨ epoch ∈ batch.fullMaps) ∧ bound ≤ epoch

/-- A batch of a division: nothing beyond its incrementals, and no bound beyond its epochs. -/
structure Cut (start : OSDMap) (payloads : List Bytes) (a b : Nat) (batch : OSDMapBatch) : Prop
    extends Extends start payloads a b batch where
  only : ∀ epoch ∈ batch.incrementals, epoch ≤ start.epoch + b
  newest : batch.Reaches batch.newestMap
  trim : batch.Reaches batch.trimLowerBound

/-- A batch that skips an epoch. -/
structure Skips (start : OSDMap) (payloads : List Bytes) (a b : Nat) (batch : OSDMapBatch) : Prop
    extends Extends start payloads a b batch where
  missing : start.epoch + b + 1 ∉ batch.incrementals
  later : ∃ epoch ∈ batch.incrementals, start.epoch + b + 1 < epoch

/-- A division of the incrementals from the first `a` ones on into batches. -/
inductive Divided (start : OSDMap) (payloads : List Bytes) : Nat → List OSDMapBatch → Nat → Prop where
  | nil (a : Nat) : Divided start payloads a [] a
  | cons {a b c : Nat} {batch : OSDMapBatch} {rest : List OSDMapBatch} (cut : Cut start payloads a b batch)
      (divided : Divided start payloads b rest c) : Divided start payloads a (batch :: rest) c

/-- The orders fit the incrementals of the batch. -/
def Fitting (limits : Maps.Limits) (batch : OSDMapBatch) (orders : Nat → Ranges) : Prop :=
  ∀ epoch data incremental, batch.incrementals.lookup epoch = some data →
    decodeOSDMapIncremental limits data = .ok incremental →
    (orders epoch).Of incremental

def applyBatches (limits : Maps.Limits) (current : Option OSDMap) (batches : List (OSDMapBatch × (Nat → Ranges))) :
    Except Fault (Option OSDMap) :=
  batches.foldlM (fun current batch => (applyBatch limits batch.1 batch.2 current).map BatchState.current) current

theorem sortedEpochs_pairwise (blobs : GoMap Nat Bytes) : (sortedEpochs blobs).Pairwise (· < ·) :=
  Finset.sortedLT_sort blobs.keys |>.pairwise

theorem mem_sortedEpochs {blobs : GoMap Nat Bytes} {epoch : Nat} : epoch ∈ sortedEpochs blobs ↔ epoch ∈ blobs := by
  rw [sortedEpochs, Finset.mem_sort, Finmap.mem_keys]

/-- Full maps that are not newer than the current map are passed over. -/
theorem applyFulls_old {batch : OSDMapBatch} {s : BatchState} {current : OSDMap}
    (isCurrent : s.current = some current) {epochs : List Nat} (old : ∀ epoch ∈ epochs, epoch ≤ current.epoch) :
      epochs.foldlM (applyFull limits batch) s = .ok s := by
  induction epochs with
  | nil => rfl
  | cons epoch rest ih =>
    have passed : applyFull limits batch s epoch = .ok s := by
      have isOld := old epoch mem_cons_self
      rw [applyFull, isCurrent, Option.any_some, decide_eq_true isOld]
      rfl
    rw [foldlM_cons, passed]
    exact ih fun epoch member => old epoch (mem_cons_of_mem _ member)

section Loop

variable {batch : OSDMapBatch} {orders : Nat → Ranges} {s : BatchState} {a b j : Nat} {current final : OSDMap}
  (sized : start.Sized) (fits : start.epoch + payloads.length < 2 ^ 32) (apart : ApartAll limits start payloads)
  (within : b ≤ payloads.length) (all : Folds limits start (payloads.take b) final)
  (carries : Extends start payloads a b batch) (fitting : Fitting limits batch orders)
include sized fits apart within all carries fitting

/-- The round of the next epoch. -/
theorem applyNext_new (above : a ≤ j) (below : j < b) (isCurrent : s.current = some current)
    (folds : Folds limits start (payloads.take j) current) :
    ∃ t next, applyNext limits batch orders s (start.epoch + j + 1) = .ok t ∧ t.current = some next ∧
      Folds limits start (payloads.take (j + 1)) next := by
  obtain ⟨data, is, found⟩ := carries.new j above below
  have along := along_take sized fits (by omega) folds
  obtain ⟨incremental, next, decoded, epoch, fsid, later, applied⟩ :=
    next_applied sized fits apart within below folds all is
  have blob : applyBlob limits batch orders current (start.epoch + j + 1) = .ok next := by
    have read : wrapped s!"decode incremental OSD map epoch {start.epoch + j + 1}" (decodeOSDMapIncremental limits
        ((batch.incrementals.lookup (start.epoch + j + 1)).getD [])) = .ok incremental := by
      rw [found, Option.getD_some, decoded]
      rfl
    rw [applyBlob, except_bind_eq read, if_neg (by rw [epoch, fsid, carries.fsid]; simp)]
    exact applied _ (fitting _ data incremental found decoded)
  have small : (current.epoch + 1) % 2 ^ 32 = start.epoch + j + 1 := by
    rw [along.epoch, Nat.mod_eq_of_lt (by omega)]
  refine ⟨{ s with
    current := some next
    invalidated := s.invalidated ∪ stateTransitions current next
    applied := .incremental current next :: s.applied }, next, ?_, rfl, later⟩
  rw [applyNext, isCurrent]
  dsimp only
  rw [if_neg (by rw [along.epoch]; omega), if_neg (by rw [small]; simp), except_bind_eq blob]
  rfl

/-- The loop goes through the new epochs. If there are others beyond them, it ends with a gap. -/
theorem applyNexts {epochs : List Nat} (above : a ≤ j) (below : j ≤ b) (isCurrent : s.current = some current)
    (folds : Folds limits start (payloads.take j) current) (sorted : epochs.Pairwise (· < ·))
    (carried : ∀ i, j ≤ i → i < b → start.epoch + i + 1 ∈ epochs) (missing : start.epoch + b + 1 ∉ epochs) :
    ((∀ epoch ∈ epochs, epoch ≤ start.epoch + b) →
      ∃ t, epochs.foldlM (applyNext limits batch orders) s = .ok t ∧ t.current = some final) ∧
    ((∃ epoch ∈ epochs, start.epoch + b + 1 < epoch) →
      ∃ err : GoError, epochs.foldlM (applyNext limits batch orders) s = .error (.err err) ∧
        err.Is .mapGap = true) := by
  induction epochs generalizing s j current with
  | nil =>
    have last : j = b := by
      by_contra different
      exact absurd (carried j le_rfl (by omega)) (by simp)
    subst last
    refine ⟨fun _ => ⟨s, rfl, ?_⟩, by simp⟩
    rw [isCurrent, folds_unique sized fits apart within folds all]
  | cons epoch rest ih =>
    have along := along_take sized fits (by omega) folds
    obtain ⟨first, sortedRest⟩ := pairwise_cons.mp sorted
    rw [foldlM_cons]
    by_cases old : epoch ≤ current.epoch
    · have passed : applyNext limits batch orders s epoch = .ok s := by
        rw [applyNext, isCurrent]
        exact if_pos old
      rw [passed]
      rw [along.epoch] at old
      obtain ⟨succeeds, fails⟩ := ih above below isCurrent folds sortedRest
        (fun i low high => (mem_cons.mp (carried i low high)).resolve_left (by omega))
        fun member => missing (mem_cons_of_mem _ member)
      refine ⟨fun small => succeeds fun epoch member => small epoch (mem_cons_of_mem _ member), ?_⟩
      rintro ⟨later, member, beyond⟩
      exact fails ⟨later, (mem_cons.mp member).resolve_left (by omega), beyond⟩
    · rw [along.epoch] at old
      by_cases more : j < b
      · have next : epoch = start.epoch + j + 1 := by
          rcases mem_cons.mp (carried j le_rfl more) with same | member
          · exact same.symm
          · have := first _ member
            omega
        subst next
        obtain ⟨t, next, ran, isNext, later⟩ :=
          applyNext_new sized fits apart within all carries fitting above more isCurrent folds
        rw [ran]
        obtain ⟨succeeds, fails⟩ := ih (by omega) (by omega) isNext later sortedRest
          (fun i low high => (mem_cons.mp (carried i (by omega) high)).resolve_left (by omega))
          fun member => missing (mem_cons_of_mem _ member)
        refine ⟨fun small => succeeds fun epoch member => small epoch (mem_cons_of_mem _ member), ?_⟩
        rintro ⟨later, member, beyond⟩
        exact fails ⟨later, (mem_cons.mp member).resolve_left (by omega), beyond⟩
      · obtain rfl : j = b := by omega
        have beyond : start.epoch + j + 1 < epoch := by
          have different : epoch ≠ start.epoch + j + 1 := fun same => missing (by rw [same]; exact mem_cons_self)
          omega
        refine ⟨fun small => absurd (small epoch mem_cons_self) (by omega), fun _ => ?_⟩
        have gap : applyNext limits batch orders s epoch = mapGap s!"received epoch {epoch}" := by
          rw [applyNext, isCurrent]
          dsimp only
          have bound := Nat.mod_le (current.epoch + 1) (2 ^ 32)
          rw [along.epoch] at bound
          rw [if_neg (by rw [along.epoch]; omega), if_pos (by rw [along.epoch]; omega)]
        exact ⟨_, by rw [gap]; rfl, rfl⟩

omit apart all fitting in
theorem applyFulls_extends (folds : Folds limits start (payloads.take a) current) :
    (sortedEpochs batch.fullMaps).foldlM (applyFull limits batch) { current := some current } =
      .ok { current := some current } := by
  have along := along_take sized fits (carries.order.trans within) folds
  refine applyFulls_old rfl fun epoch member => ?_
  rw [along.epoch]
  exact carries.fulls epoch (mem_sortedEpochs.mp member)

omit sized fits apart within all fitting in
theorem mem_sortedEpochs_extends {i : Nat} (above : a ≤ i) (below : i < b) :
    start.epoch + i + 1 ∈ sortedEpochs batch.incrementals := by
  obtain ⟨data, -, found⟩ := carries.new i above below
  exact mem_sortedEpochs.mpr (Finmap.mem_of_lookup_eq_some found)

end Loop

section Main

variable {batch : OSDMapBatch} {orders : Nat → Ranges} {a b : Nat} {current final : OSDMap}
  (sized : start.Sized) (fits : start.epoch + payloads.length < 2 ^ 32) (apart : ApartAll limits start payloads)
  (within : b ≤ payloads.length) (all : Folds limits start (payloads.take b) final)
    (fitting : Fitting limits batch orders)
include sized fits apart within all fitting

theorem applyBatch_cut (cut : Cut start payloads a b batch) (folds : Folds limits start (payloads.take a) current) :
    ∃ t, applyBatch limits batch orders (some current) = .ok t ∧ t.current = some final := by
  have carries := cut.toExtends
  have fulls := applyFulls_extends sized fits within carries folds
  have along := along_take sized fits within all
  have only (epoch : Nat) (member : epoch ∈ sortedEpochs batch.incrementals) : epoch ≤ start.epoch + b :=
    cut.only epoch (mem_sortedEpochs.mp member)
  have loops := applyNexts sized fits apart within all carries fitting
    (s := { current := some current }) le_rfl cut.order rfl folds
    (sortedEpochs_pairwise batch.incrementals) (fun i => mem_sortedEpochs_extends carries) fun member => by
      have := only _ member
      omega
  obtain ⟨t, ran, isFinal⟩ := loops.1 only
  have reaches {bound : Nat} (reaches : batch.Reaches bound) : bound = 0 ∨ bound ≤ final.epoch := by
    rw [along.epoch]
    rcases reaches with zero | ⟨epoch, member | member, below⟩
    · exact .inl zero
    · exact .inr (below.trans (cut.only epoch member))
    · have old := cut.fulls epoch member
      have order := cut.order
      omega
  have bounds : checkBounds batch t = .ok () := by
    have newest := reaches cut.newest
    have trim := reaches cut.trim
    rw [checkBounds, isFinal, if_neg (by simp; omega), if_neg (by simp; omega)]
  refine ⟨t, ?_, isFinal⟩
  rw [applyBatch, except_bind_eq fulls, except_bind_eq ran, except_bind_eq bounds]
  rfl

theorem applyBatch_skips (skips : Skips start payloads a b batch)
    (folds : Folds limits start (payloads.take a) current) :
    ∃ err : GoError, applyBatch limits batch orders (some current) = .error (.err err) ∧ err.Is .mapGap = true := by
  have carries := skips.toExtends
  have fulls := applyFulls_extends sized fits within carries folds
  have loops := applyNexts sized fits apart within all carries fitting
    (s := { current := some current }) le_rfl skips.order rfl folds
    (sortedEpochs_pairwise batch.incrementals) (fun i => mem_sortedEpochs_extends carries)
    fun member => skips.missing (mem_sortedEpochs.mp member)
  obtain ⟨epoch, member, beyond⟩ := skips.later
  obtain ⟨err, ran, isGap⟩ := loops.2 ⟨epoch, mem_sortedEpochs.mpr member, beyond⟩
  refine ⟨err, ?_, isGap⟩
  rw [applyBatch, except_bind_eq fulls, ran]
  rfl

end Main

variable {c : Nat} {data : Bytes} {incremental : OSDMapIncremental} {ranges : Ranges} {next : OSDMap}

theorem Divided.le {a : Nat} {batches : List OSDMapBatch} (divided : Divided start payloads a batches c) : a ≤ c := by
  induction divided with
  | nil => exact le_rfl
  | cons cut _ ih => exact cut.order.trans ih

theorem Divided.append {a b : Nat} {first second : List OSDMapBatch} (divided : Divided start payloads a first b)
    (rest : Divided start payloads b second c) : Divided start payloads a (first ++ second) c := by
  induction divided with
  | nil => exact rest
  | cons cut _ ih => exact .cons cut (ih rest)

/-- If no renames meet, every division leads to the map of the incrementals one by one. -/
theorem applyBatches_divided (sized : start.Sized) (fits : start.epoch + payloads.length < 2 ^ 32)
    (apart : ApartAll limits start payloads) {batches : List (OSDMapBatch × (Nat → Ranges))} {a : Nat}
    {current final : OSDMap} (divided : Divided start payloads a (batches.map Prod.fst) c)
    (within : c ≤ payloads.length) (folds : Folds limits start (payloads.take a) current)
    (all : Folds limits start (payloads.take c) final) (fitting : ∀ batch ∈ batches, Fitting limits batch.1 batch.2) :
    applyBatches limits (some current) batches = .ok (some final) := by
  induction batches generalizing a current with
  | nil =>
    cases divided
    rw [folds_unique sized fits apart within folds all]
    rfl
  | cons batch rest ih =>
    rw [map_cons] at divided
    cases divided with
    | @cons _ b _ _ _ cut divided =>
      obtain ⟨middle, reached⟩ := exists_folds all divided.le within
      obtain ⟨t, ran, isMiddle⟩ := applyBatch_cut sized fits apart (divided.le.trans within) reached
        (fitting batch mem_cons_self) cut folds
      have first : (applyBatch limits batch.1 batch.2 (some current)).map BatchState.current = .ok (some middle) := by
        rw [ran, ← isMiddle]
        rfl
      rw [applyBatches, foldlM_cons, except_bind_eq first]
      exact ih divided reached fun batch member => fitting batch (mem_cons_of_mem _ member)

/-- A batch with one incremental. -/
def single (start : OSDMap) (payloads : List Bytes) (j : Nat) : OSDMapBatch where
  fsid := start.fsid
  incrementals := Finmap.singleton (start.epoch + j + 1) (payloads.getD j [])
  fullMaps := ∅

theorem single_cut {j : Nat} (within : j < payloads.length) : Cut start payloads j (j + 1)
    (single start payloads j) where
  fsid := rfl
  fulls _ member := absurd member Finmap.notMem_empty
  new i low high := by
    obtain rfl : i = j := by omega
    refine ⟨payloads.getD i [], ?_, Finmap.lookup_singleton_eq⟩
    rw [getD_eq_getElem?_getD, getElem?_eq_getElem within, Option.getD_some]
  order := Nat.le_succ j
  only epoch member := by
    rw [single, Finmap.mem_singleton] at member
    omega
  newest := .inl rfl
  trim := .inl rfl

theorem singles_divided {count : Nat} (within : count ≤ payloads.length) :
    Divided start payloads 0 ((range count).map (single start payloads)) count := by
  induction count with
  | zero => exact .nil 0
  | succ count ih =>
    rw [range_succ, map_append]
    exact (ih (Nat.le_of_succ_le within)).append (.cons (single_cut within) (.nil _))

theorem sortedEpochs_single (j : Nat) :
    sortedEpochs (single start payloads j).incrementals = [start.epoch + j + 1] := by
  rw [sortedEpochs, single, Finmap.keys_singleton, Finset.sort_singleton]

theorem lookup_single {j : Nat} (is : payloads[j]? = some data) :
    (single start payloads j).incrementals.lookup (start.epoch + j + 1) = some data := by
  rw [single, Finmap.lookup_singleton_eq, getD_eq_getElem?_getD, is, Option.getD_some]

theorem single_fitting {j : Nat} (is : payloads[j]? = some data)
    (decoded : decodeOSDMapIncremental limits data = .ok incremental) (order : ranges.Of incremental) :
    Fitting limits (single start payloads j) fun _ => ranges := by
  intro epoch data' incremental' carried decoded'
  obtain rfl : epoch = start.epoch + j + 1 := (Finmap.mem_singleton _ _ _).mp (Finmap.mem_of_lookup_eq_some carried)
  cases (lookup_single is).symm.trans carried
  cases decoded.symm.trans decoded'
  exact order

/-- A batch with one incremental is accepted only if the incremental can be applied in the order that is met. -/
theorem applied_of_single {j : Nat} {current : OSDMap} (is : payloads[j]? = some data)
    (decoded : decodeOSDMapIncremental limits data = .ok incremental) (epoch : current.epoch = start.epoch + j)
    {orders : Nat → Ranges} {t : BatchState}
    (run : applyBatch limits (single start payloads j) orders (some current) = .ok t)
    (isNext : t.current = some next) :
    applyOSDMapIncremental (orders (start.epoch + j + 1)) current incremental limits = .ok next := by
  obtain ⟨s, fulls, incrementals, -⟩ := applyBatch_ok run
  have untouched : s = { current := some current } := by
    rw [sortedEpochs, single, Finmap.keys_empty, Finset.sort_empty] at fulls
    exact (Except.ok.inj fulls).symm
  subst untouched
  rw [sortedEpochs_single, foldlM_cons] at incrementals
  obtain ⟨t', round, done⟩ := except_bind_ok incrementals
  obtain rfl : t' = t := Except.ok.inj done
  unfold applyNext at round
  dsimp only at round
  rw [if_neg (by omega)] at round
  split at round
  · cases round
  · obtain ⟨after, blob, round⟩ := except_bind_ok round
    cases round
    cases isNext
    obtain ⟨incremental', decoded', -, -, applied⟩ := applyBlob_ok blob
    rw [lookup_single is, Option.getD_some] at decoded'
    cases decoded.symm.trans decoded'
    exact applied

theorem exists_fitting (limits : Maps.Limits) (batch : OSDMapBatch) : ∃ orders, Fitting limits batch orders := by
  have each (epoch : Nat) : ∃ ranges : Ranges, ∀ data incremental, batch.incrementals.lookup epoch = some data →
      decodeOSDMapIncremental limits data = .ok incremental → ranges.Of incremental := by
    by_cases readable : ∃ data incremental, batch.incrementals.lookup epoch = some data ∧
        decodeOSDMapIncremental limits data = .ok incremental
    · obtain ⟨data, incremental, carried, decoded⟩ := readable
      obtain ⟨ranges, order⟩ := exists_ranges incremental
      refine ⟨ranges, fun data' incremental' carried' decoded' => ?_⟩
      cases carried.symm.trans carried'
      cases decoded.symm.trans decoded'
      exact order
    · exact ⟨⟨[], [], [], [], [], [], [], [], [], [], [], [], fun _ => []⟩, fun data incremental carried decoded =>
        absurd ⟨data, incremental, carried, decoded⟩ readable⟩
  choose orders fitting using each
  exact ⟨orders, fun epoch data incremental => fitting epoch data incremental⟩

/-- Every division of the incrementals into batches, in whichever orders the loops meet their maps, leads to every map
that the incrementals lead to one by one; a batch that skips an epoch is a gap. -/
def Divisible (limits : Maps.Limits) (start : OSDMap) (payloads : List Bytes) : Prop :=
  ∀ count final, count ≤ payloads.length → Folds limits start (payloads.take count) final →
    (∀ batches : List (OSDMapBatch × (Nat → Ranges)), Divided start payloads 0 (batches.map Prod.fst) count →
      (∀ batch ∈ batches, Fitting limits batch.1 batch.2) →
        applyBatches limits (some start) batches = .ok (some final)) ∧
    ∀ a current batch orders, Folds limits start (payloads.take a) current → Skips start payloads a count batch →
      Fitting limits batch orders →
      ∃ err : GoError, applyBatch limits batch orders (some current) = .error (.err err) ∧ err.Is .mapGap = true

/-- If all divisions lead to one map, then so do all orders of the last incremental. -/
theorem Divisible.applied (divisible : Divisible limits start payloads) (sized : start.Sized)
    (fits : start.epoch + payloads.length < 2 ^ 32) {j : Nat} {current : OSDMap} (is : payloads[j]? = some data)
    (folds : Folds limits start (payloads.take j) current)
    (decoded : decodeOSDMapIncremental limits data = .ok incremental) {ranges' : Ranges}
    (order : ranges.Of incremental)
    (order' : ranges'.Of incremental)
    (applied : applyOSDMapIncremental ranges current incremental limits = .ok next) :
    applyOSDMapIncremental ranges' current incremental limits = .ok next := by
  obtain ⟨within, -⟩ := List.getElem?_eq_some_iff.mp is
  choose orders fitting using fun i => exists_fitting limits (single start payloads i)
  have applies : AppliesTo limits current data next := ⟨incremental, ranges, decoded, order, applied⟩
  let firsts := (range j).map fun i => (single start payloads i, orders i)
  have division : Divided start payloads 0 (firsts.map Prod.fst) j := by
    rw [map_map]
    exact singles_divided within.le
  have fittings (batch) (member : batch ∈ firsts) : Fitting limits batch.1 batch.2 := by
    obtain ⟨i, -, rfl⟩ := mem_map.mp member
    exact fitting i
  have before := (divisible j current within.le folds).1 firsts division fittings
  -- The last batch meets the other order.
  have last : Fitting limits (single start payloads j) fun _ => ranges' := single_fitting is decoded order'
  have after := (divisible (j + 1) next within (folds_succ is folds applies)).1
    (firsts ++ [(single start payloads j, fun _ => ranges')])
    (by rw [map_append]; exact division.append (.cons (single_cut within) (.nil _)))
    (by
      intro batch member
      rcases mem_append.mp member with member | member
      · exact fittings batch member
      · cases mem_singleton.mp member
        exact last)
  rw [applyBatches, foldlM_append] at after
  rw [applyBatches] at before
  rw [except_bind_eq before, foldlM_cons] at after
  obtain ⟨found, ran, done⟩ := except_bind_ok after
  cases done
  cases outcome : applyBatch limits (single start payloads j) (fun _ => ranges') (some current) with
  | error fault =>
    rw [outcome] at ran
    cases ran
  | ok t =>
    rw [outcome] at ran
    exact applied_of_single is decoded (along_take sized fits within.le folds).epoch outcome (Except.ok.inj ran)

/-- The divisions into batches lead to one map exactly if no renames of an incremental meet. -/
theorem divisible_iff (sized : start.Sized) (fits : start.epoch + payloads.length < 2 ^ 32) :
    Divisible limits start payloads ↔ ApartAll limits start payloads := by
  constructor
  · intro divisible j data current incremental is folds decoded
    obtain ⟨within, -⟩ := List.getElem?_eq_some_iff.mp is
    suffices SameOutcome limits current
      incremental from (sameOutcome_iff decoded (along_take sized fits within.le folds).sized).mp this
    intro ranges ranges' order order'
    cases applied : applyOSDMapIncremental ranges current incremental limits with
    | ok next => rw [divisible.applied sized fits is folds decoded order order' applied]
    | error err =>
      cases applied' : applyOSDMapIncremental ranges' current incremental limits with
      | error err => rfl
      | ok next =>
        rw [divisible.applied sized fits is folds decoded order' order applied'] at applied
        cases applied
  · intro apart count final within all
    refine ⟨fun batches divided fitting => applyBatches_divided sized fits apart divided within .nil all fitting, ?_⟩
    intro a current batch orders folds skips fitting
    exact applyBatch_skips sized fits apart within all fitting skips folds

def steadyCRC (later : Bool) : UInt32 := if later then 0xb02d2f7c else 0xf8bff94b

def steadyClient (later : Bool) : Bytes := incrementalClient (if later then 7 else 6) 0 []

/-- Two incrementals that change nothing but the epoch. -/
def steadyPayload (later : Bool) : Bytes := sealPayload 9 (steadyClient later) (steadyCRC later) [0, 0, 0, 0]

def steadyIncremental (later : Bool) : OSDMapIncremental :=
  { nameChainIncremental with
    epoch := if later then 7 else 6
    newPoolNames := ∅
    incrementalCRC := (steadyCRC later).toNat }

def steadyPayloads : List Bytes := [false, true].map steadyPayload

theorem steady_decoded (later : Bool) :
    decodeOSDMapIncremental sampleLimits (steadyPayload later) = .ok (steadyIncremental later) := by
  have read : ((decodeIncrementalClient sampleLimits).eval
      (newDecoder (steadyClient later) sampleLimits.maxBytes)).1 =
      .ok { steadyIncremental later with incrementalCRC := 0 } := by
    decide +kernel +revert
  refine decodeOSDMapIncremental_sealed rfl (by decide) (by decide +kernel +revert) read ?_
  cases later with
  | false => exact crc32c_sums [0x5f5bafbf, 0xa3402226, 0x22f50d73, steadyCRC false] (by decide +kernel) rfl
  | true => exact crc32c_sums [0x68185802, 0xbf59061d, 0x34617fc5, steadyCRC true] (by decide +kernel) rfl

/-- The map after them. -/
def steadyMap (epoch : Nat) : OSDMap :=
  { twoPoolsMap with epoch, crc := 0, crcVerified := false, appliedIncremental := true }

theorem steady_folds : Folds sampleLimits twoPoolsMap steadyPayloads (steadyMap 7) := by
  obtain ⟨pools, lists⟩ := Classical.axiomOfChoice fun m : GoMap Int Maps.Pool => m.exists_lists
  have order (later : Bool) : (nameChainRanges [] pools).Of (steadyIncremental later) :=
    ⟨rfl, rfl, rfl, rfl, rfl, rfl, rfl, rfl, rfl, rfl, rfl, rfl, lists⟩
  have sample : twoPoolsMap.pools.Lists [(2, samplePool 2 [98]), (1, samplePool 1 [97])] := rfl
  have named : checkNames (pools twoPoolsMap.pools) = .ok () := checkNames_lists (lists _) sample rfl
  have first : AppliesTo sampleLimits twoPoolsMap (steadyPayload false) (steadyMap 6) := by
    refine ⟨_, _, steady_decoded false, order false, ?_⟩
    change (checkNames (pools twoPoolsMap.pools) >>= fun _ => .ok (steadyMap 6)) = _
    rw [named]
    rfl
  have second : AppliesTo sampleLimits (steadyMap 6) (steadyPayload true) (steadyMap 7) := by
    refine ⟨_, _, steady_decoded true, order true, ?_⟩
    change (checkNames (pools twoPoolsMap.pools) >>= fun _ => .ok (steadyMap 7)) = _
    rw [named]
    rfl
  exact (Folds.nil.snoc first).snoc second

/-- The incremental of the first batch and the next one. -/
def steadyBatch : OSDMapBatch :=
  ⟨twoPoolsMap.fsid, Finmap.insert 6 (steadyPayload false) (Finmap.singleton 7 (steadyPayload true)), ∅, 0, 0⟩

theorem steady_divided :
    Divided twoPoolsMap steadyPayloads 0 [single twoPoolsMap steadyPayloads 0, steadyBatch] 2 := by
  refine .cons (single_cut (by decide)) (.cons ⟨⟨rfl, fun _ member => absurd member Finmap.notMem_empty,
    fun j low high => ?_, by decide⟩, fun epoch member => ?_, .inl rfl, .inl rfl⟩ (.nil 2))
  · obtain rfl : j = 1 := by omega
    exact ⟨_, rfl, rfl⟩
  · rw [steadyBatch, Finmap.mem_insert, Finmap.mem_singleton] at member
    rcases member with rfl | rfl <;> decide

/-- The second batch holds the incremental of the first one again. -/
theorem divisible_iff_steady : ApartAll sampleLimits twoPoolsMap steadyPayloads ∧
    ∃ orders orders', applyBatches sampleLimits (some twoPoolsMap)
      [(single twoPoolsMap steadyPayloads 0, orders), (steadyBatch, orders')] = .ok (some (steadyMap 7)) := by
  have apart : ApartAll sampleLimits twoPoolsMap steadyPayloads := by
    intro j data current incremental is _ decoded _ _
    obtain ⟨later, -, rfl⟩ := mem_map.mp (mem_of_getElem? is)
    cases (steady_decoded later).symm.trans decoded
    exact ⟨⟨by simp [steadyIncremental], by simp [steadyIncremental]⟩, by simp [NoStale, steadyIncremental]⟩
  obtain ⟨orders, fitting⟩ := exists_fitting sampleLimits (single twoPoolsMap steadyPayloads 0)
  obtain ⟨orders', fitting'⟩ := exists_fitting sampleLimits steadyBatch
  have divisible := (divisible_iff (decodeOSDMap_sized twoPools_decoded).1 (by decide +kernel)).mpr apart
  refine ⟨apart, orders, orders', (divisible 2 _ le_rfl steady_folds).1 _ steady_divided ?_⟩
  simp [fitting, fitting']

/-- In one order of the renames the incremental is applied, in the other one the batch with it fails. -/
theorem nameChain_divided : ∃ data start payload final batch orders, decodeOSDMap sampleLimits data = .ok start ∧
    Folds sampleLimits start [payload] final ∧ Divided start [payload] 0 [batch] 1 ∧
      Fitting sampleLimits batch orders ∧
    applyBatch sampleLimits batch orders (some start) =
      .error (.err (malformed ("duplicate pool name " ++ quoted [98]))) := by
  obtain ⟨ranges, ranges', order, order', ⟨next, applied⟩, failed⟩ := nameChain_outcomes
  have folds : Folds sampleLimits twoPoolsMap ([] ++ [nameChainPayload]) next :=
    .snoc .nil ⟨nameChainIncremental, ranges, nameChain_decoded, order, applied⟩
  refine ⟨twoPoolsPayload, twoPoolsMap, nameChainPayload, next, single twoPoolsMap [nameChainPayload] 0,
    fun _ => ranges', twoPools_decoded, folds,
    .cons (single_cut Nat.one_pos) (.nil 1), ?_, ?_⟩
  · exact single_fitting rfl nameChain_decoded order'
  · have fulls : (sortedEpochs (single twoPoolsMap [nameChainPayload] 0).fullMaps).foldlM
        (applyFull sampleLimits (single twoPoolsMap [nameChainPayload] 0)) { current := some twoPoolsMap } =
          .ok { current := some twoPoolsMap } := applyFulls_old rfl fun epoch member =>
      absurd (mem_sortedEpochs.mp member) Finmap.notMem_empty
    have blob : applyBlob sampleLimits (single twoPoolsMap [nameChainPayload] 0) (fun _ => ranges') twoPoolsMap
        (twoPoolsMap.epoch + 0 + 1) = failure ("duplicate pool name " ++ quoted [98]) := by
      have is : [nameChainPayload][0]? = some nameChainPayload := rfl
      rw [applyBlob, lookup_single is, Option.getD_some, nameChain_decoded]
      exact failed
    rw [applyBatch, except_bind_eq fulls, sortedEpochs_single, foldlM_cons, applyNext]
    dsimp only
    rw [if_neg (by decide +kernel), if_neg (by decide +kernel), blob]
    rfl

end Batches

end RadosGo.Mon
