import RadosGo.Maps.Vectors
import RadosGo.Mon.Batch

namespace RadosGo.Mon

open Maps

/-- An applied incremental keeps the cluster and gives its epoch to the map. -/
theorem apply_identity {ranges : Ranges} {current next : OSDMap} {incremental : OSDMapIncremental}
    {limits : Maps.Limits} (applied : applyOSDMapIncremental ranges current incremental limits = .ok next) :
    incremental.fsid = current.fsid ∧ incremental.epoch = (current.epoch + 1) % 2 ^ 32 ∧ next.fsid = current.fsid ∧
      next.epoch = incremental.epoch := by
  obtain ⟨sameFSID, sameEpoch, ⟨-, -, fsid, epoch⟩ | ⟨-, changed⟩⟩ := apply_cases applied
  · exact ⟨sameFSID, sameEpoch, fsid, epoch⟩
  · obtain ⟨names, -, changed⟩ := except_bind_ok changed
    obtain ⟨vectors, -, changed⟩ := except_bind_ok changed
    obtain ⟨-, -, changed⟩ := except_bind_ok changed
    cases changed
    exact ⟨sameFSID, sameEpoch, rfl, rfl⟩

variable {limits : Maps.Limits} {batch : OSDMapBatch} {orders : Nat → Ranges} {s t : BatchState} {epoch : Nat}

theorem wrapped_ok {α : Type} {text : String} {result : Except GoError α} {value : α}
    (ok : wrapped text result = .ok value) : result = .ok value := by
  cases result with
  | error err => cases ok
  | ok _ => exact congrArg Except.ok (Except.ok.inj ok)

/-- What a round of the loop over the full maps does. -/
theorem applyFull_ok (run : applyFull limits batch s epoch = .ok t) :
    t = s ∨ ∃ data decoded, decodeOSDMap limits data = .ok decoded ∧
    decoded.fsid = batch.fsid ∧ (∀ current, s.current = some current → current.epoch < decoded.epoch) ∧
    t = { current := some decoded, appliedFull := true,
          invalidated := s.invalidated ∪ s.current.elim ∅ fun current => osdsOf current decoded,
          applied := .full s.current decoded :: s.applied } := by
  unfold applyFull at run
  split at run
  · cases run
    exact .inl rfl
  · next newer =>
    obtain ⟨decoded, ok, run⟩ := except_bind_ok run
    split at run
    · cases run
    · next identity =>
      cases run
      simp only [not_or, not_not] at identity
      refine .inr ⟨_, decoded, wrapped_ok ok, identity.2, fun current isCurrent => ?_, rfl⟩
      rw [isCurrent, Option.any_some, decide_eq_true_eq, not_le] at newer
      rw [identity.1]
      exact newer

theorem applyBlob_ok {current next : OSDMap} (run : applyBlob limits batch orders current epoch = .ok next) :
    ∃ incremental, decodeOSDMapIncremental limits ((batch.incrementals.lookup epoch).getD []) = .ok incremental ∧
      incremental.epoch = epoch ∧ incremental.fsid = batch.fsid ∧
      applyOSDMapIncremental (orders epoch) current incremental limits = .ok next := by
  obtain ⟨incremental, ok, run⟩ := except_bind_ok run
  split at run
  · cases run
  · next identity =>
    simp only [not_or, not_not] at identity
    exact ⟨incremental, wrapped_ok ok, identity.1, identity.2, run⟩

/-- What a round of the loop over the incrementals does. -/
theorem applyNext_ok (run : applyNext limits batch orders s epoch = .ok t) :
    t = s ∨ ∃ current next, s.current = some current ∧
    current.epoch < epoch ∧ epoch = (current.epoch + 1) % 2 ^ 32 ∧
      applyBlob limits batch orders current epoch = .ok next ∧
    t = { s with
          current := some next
          invalidated := s.invalidated ∪ stateTransitions current next
          applied := .incremental current next :: s.applied } := by
  revert run
  fun_cases applyNext limits batch orders s epoch
  any_goals rintro ⟨⟩
  · exact .inl rfl
  · next current isCurrent newer follows =>
    intro run
    obtain ⟨next, applied, run⟩ := except_bind_ok run
    cases run
    exact .inr ⟨current, next, isCurrent, Nat.lt_of_not_le newer, not_not.mp follows, applied, rfl⟩

theorem applyBatch_ok {previous : Option OSDMap} (run : applyBatch limits batch orders previous = .ok t) : ∃ s,
    (sortedEpochs batch.fullMaps).foldlM (applyFull limits batch) { current := previous } = .ok s ∧
    (sortedEpochs batch.incrementals).foldlM (applyNext limits batch orders) s = .ok t ∧
      checkBounds batch t = .ok () := by
  obtain ⟨s, fulls, run⟩ := except_bind_ok run
  obtain ⟨s', incrementals, run⟩ := except_bind_ok run
  obtain ⟨_, bounds, run⟩ := except_bind_ok run
  cases run
  exact ⟨s, fulls, incrementals, bounds⟩

/-- The steps lead from one map to another, each from the map before it. -/
def Linked (previous : Option OSDMap) : List MapStep → Option OSDMap → Prop
  | [], current => current = previous
  | .full before after :: steps, current => current = some after ∧ Linked previous steps before
  | .incremental before after :: steps, current => current = some after ∧ Linked previous steps (some before)

/-- The step invalidates the sessions of the OSD: a full map takes the place of another map that has the OSD, or the
state of the OSD changes. -/
def MapStep.Touches (osd : Int) : MapStep → Prop
  | .full none _ => False
  | .full (some before) after => 0 ≤ osd ∧ osd < max before.maxOSD after.maxOSD
  | .incremental before after => before.state osd ≠ after.state osd

theorem mem_osdsOf {first second : OSDMap} {osd : Int} : osd ∈ osdsOf first second ↔
    0 ≤ osd ∧ osd < max first.maxOSD second.maxOSD := by
  simp only [osdsOf, Finset.mem_map, Finset.mem_range, Nat.castEmbedding_apply]
  constructor
  · rintro ⟨n, bound, rfl⟩
    omega
  · rintro ⟨nonneg, bound⟩
    exact ⟨osd.toNat, by omega, by omega⟩

theorem state_eq_none {osdMap : OSDMap} (sized : osdMap.Sized) {osd : Int} : osdMap.state osd = none ↔
    osd < 0 ∨ osdMap.maxOSD ≤ osd := by
  have length : osdMap.osdState.length = osdMap.maxOSD.toNat := sized.vectors.state
  have nonneg := sized.nonneg
  unfold OSDMap.state
  split
  · next negative => simp [negative]
  · next notNegative =>
    cases found : osdMap.osdState[osd.toNat]? with
    | none =>
      have outside := List.getElem?_eq_none_iff.mp found
      simp only [true_iff]
      omega
    | some state =>
      obtain ⟨inside, -⟩ := List.getElem?_eq_some_iff.mp found
      simp only [reduceCtorEq, false_iff]
      omega

/-- A changed state is one of an OSD below the size of either map. -/
theorem mem_stateTransitions {previous current : OSDMap} (sized : previous.Sized) (sized' : current.Sized)
    {osd : Int} : osd ∈ stateTransitions previous current ↔ previous.state osd ≠ current.state osd := by
  rw [stateTransitions, Finset.mem_filter, and_iff_right_iff_imp, mem_osdsOf]
  intro changed
  by_contra outside
  refine changed (((state_eq_none sized).mpr ?_).trans ((state_eq_none sized').mpr ?_).symm) <;> omega

/-- What holds in `applyBatch` between the rounds of its loops. -/
structure Went (batch : OSDMapBatch) (previous : Option OSDMap) (s : BatchState) : Prop where
  linked : Linked previous s.applied s.current
  touched : ∀ osd, osd ∈ s.invalidated ↔ ∃ step ∈ s.applied, step.Touches osd
  sized : ∀ osdMap, s.current = some osdMap → osdMap.Sized
  moved : s.applied ≠ [] → ∃ osdMap, s.current = some osdMap ∧ osdMap.fsid = batch.fsid ∧
    ∀ before, previous = some before → before.epoch < osdMap.epoch

namespace Went

variable {previous : Option OSDMap} (went : Went batch previous s)
include went

/-- The current map is the one from before the batch or a newer one. -/
theorem epoch_le {before current : OSDMap} (isPrevious : previous = some before)
    (isCurrent : s.current = some current) : before.epoch ≤ current.epoch := by
  have linked := went.linked
  cases steps : s.applied with
  | nil =>
    rw [steps] at linked
    have same : s.current = previous := linked
    rw [isPrevious, isCurrent] at same
    cases same
    exact le_rfl
  | cons step rest =>
    obtain ⟨osdMap, isMap, -, above⟩ := went.moved (by simp [steps])
    cases isMap.symm.trans isCurrent
    exact (above before isPrevious).le

theorem full (run : applyFull limits batch s epoch = .ok t) : Went batch previous t := by
  rcases applyFull_ok run with rfl | ⟨data, decoded, ok, sameFSID, newer, rfl⟩
  · exact went
  · refine ⟨⟨rfl, went.linked⟩, fun osd => ?_, ?_, fun _ => ⟨decoded, rfl, sameFSID, ?_⟩⟩
    · rw [Finset.mem_union, went.touched, or_comm, List.exists_mem_cons_iff]
      refine or_congr_left ?_
      cases s.current with
      | none => simp [MapStep.Touches]
      | some current => simp only [Option.elim_some, mem_osdsOf, MapStep.Touches]
    · intro osdMap same
      cases same
      exact (decodeOSDMap_sized ok).1
    · intro before isPrevious
      cases isCurrent : s.current with
      | some current => exact (went.epoch_le isPrevious isCurrent).trans_lt (newer current isCurrent)
      | none =>
        -- A map that was there is never lost.
        have linked := went.linked
        rw [isCurrent, isPrevious] at linked
        cases steps : s.applied with
        | nil =>
          rw [steps] at linked
          cases linked
        | cons step rest =>
          obtain ⟨osdMap, isMap, -⟩ := went.moved (by simp [steps])
          rw [isCurrent] at isMap
          cases isMap

theorem next (run : applyNext limits batch orders s epoch = .ok t) : Went batch previous t := by
  rcases applyNext_ok run with rfl | ⟨current, next, isCurrent, above, -, applied, rfl⟩
  · exact went
  · obtain ⟨incremental, -, sameEpoch, sameFSID, applied⟩ := applyBlob_ok applied
    obtain ⟨fsid, -, fsid', epoch'⟩ := apply_identity applied
    have sized := went.sized current isCurrent
    have sized' : next.Sized := by
      rcases (apply_meets sized incremental limits).of_ok applied with ⟨data, decoded⟩ | ⟨sized', -⟩
      · exact (decodeOSDMap_sized decoded).1
      · exact sized'
    refine ⟨⟨rfl, isCurrent ▸ went.linked⟩, fun osd => ?_, ?_, fun _ => ⟨next, rfl, ?_, ?_⟩⟩
    · rw [Finset.mem_union, went.touched, or_comm, List.exists_mem_cons_iff, mem_stateTransitions sized sized',
        MapStep.Touches]
    · intro osdMap same
      cases same
      exact sized'
    · rw [fsid', ← fsid, sameFSID]
    · intro before isPrevious
      rw [epoch', sameEpoch]
      exact (went.epoch_le isPrevious isCurrent).trans_lt above

end Went

theorem went_of_applyBatch {previous : Option OSDMap} (sized : ∀ osdMap, previous = some osdMap → osdMap.Sized)
    (run : applyBatch limits batch orders previous = .ok t) : Went batch previous t := by
  obtain ⟨s, fulls, incrementals, -⟩ := applyBatch_ok run
  have start : Went batch previous { current := previous } := ⟨rfl, by simp, sized, by simp⟩
  have first := foldlM_history (fun _ => Went batch previous) (fun went ran => went.full ran) [] start fulls
  exact foldlM_history (fun _ => Went batch previous) (fun went ran => went.next ran) [] first incrementals

end RadosGo.Mon
