import RadosGo.Objecter.SessionOrder

namespace RadosGo

namespace SessionTable

variable {s : SessionTable} {h : Holder} {w : SessionWorker} {x y n call : Nat} {osd : Int}

section Moves

variable {made : Nat → Prop} {t : SessionTable} (custody : Custody s.Held made)
include custody

/-- A session is stopped by its holder. -/
theorem custody_stop (source : Holder) (x : Nat) (distinct : source ≠ .stopped) (holds : ∀ y, s.Held source y ↔ y = x)
    (after : ∀ h y, t.Held h y ↔ h ≠ source ∧ (h = .stopped ∧ y = x ∨ s.Held h y)) :
    Handover Holder.grade s.Held t.Held made := by
  refine custody.drain source .stopped ?_ distinct.symm fun h y => ?_
  · cases source <;> simp [Holder.grade]
  · rw [after, holds]

/-- What a holder has comes to another one that had nothing. -/
theorem custody_take (source target : Holder) (raises : source.grade ≤ target.grade) (distinct : target ≠ source)
    (free : ∀ y, ¬s.Held target y)
    (after : ∀ h y, t.Held h y ↔ h ≠ source ∧ if h = target then s.Held source y else s.Held h y) :
    Handover Holder.grade s.Held t.Held made := by
  refine custody.drain source target raises distinct fun h y => ?_
  rw [after]
  split
  · next isTarget => rw [isTarget, and_iff_right rfl, or_iff_left (free y)]
  · next notTarget => rw [or_iff_right fun isTarget => notTarget isTarget.1]

end Moves

/-- What holds between the steps of all that work on the sessions. -/
structure Kept (s : SessionTable) : Prop where
  custody : Custody s.Held (· < s.nextSession)
  ordered : s.Ordered

/-- The sessions go on to holders which are not lower, none is lost. -/
structure Advances (s t : SessionTable) : Prop where
  handover : Handover Holder.grade s.Held t.Held (· < t.nextSession)
  ordered : t.Ordered
  grows : s.nextSession ≤ t.nextSession

theorem Advances.kept {t : SessionTable} (advances : s.Advances t) : t.Kept :=
  ⟨advances.handover.custody, advances.ordered⟩

theorem Advances.trans {t u : SessionTable} (first : s.Advances t) (kept : s.Kept) (second : t.Advances u) :
    s.Advances u := by
  refine ⟨first.handover.trans second.handover ?_, second.ordered, first.grows.trans second.grows⟩
  exact fun holds => ((kept.custody.made_iff _).mpr ⟨_, holds⟩).trans_le first.grows

namespace Kept

variable (kept : s.Kept)
include kept

theorem setCall (phase : SessionCall) : s.Advances (s.setCall call phase) :=
  ⟨kept.custody.congr fun h _ => by cases h <;> rfl, { kept.ordered with }, le_rfl⟩

theorem setWatcher (watcher : MapWatcher) : s.Advances { s with watcher } :=
  ⟨kept.custody.congr fun h _ => by cases h <;> rfl, { kept.ordered with }, le_rfl⟩

/-- A creation goes on, holding the same. -/
theorem setCreation {creation : SessionCreation} (sameOsd : creation.osd = (s.creation n).osd)
    (owned : creation.phase.owned = (s.creation n).phase.owned)
    (undecided : creation.phase.undecided = (s.creation n).phase.undecided)
    (early : creation.phase.early = true → (s.creation n).phase.early = true)
    (runs : creation.phase = .finished ↔ (s.creation n).phase = .finished) :
      s.Advances (s.setCreation n creation) := by
  refine ⟨kept.custody.congr fun h y => ?_, kept.ordered.setCreation sameOsd early runs, le_rfl⟩
  rw [held_setCreation]
  split
  · next isCreation => rw [isCreation, owned, Held]
  · split
    · next isCreating => rw [isCreating, undecided, Held]
    · rfl

theorem supersede (n : Nat) : s.Advances (s.supersede n) := kept.setCreation rfl rfl rfl id Iff.rfl

variable {before after : CreationPhase} {err : Option GoError} {failed active : Nat} {created : Option Nat}

theorem movePhase (phase : (s.creation n).phase = before) (owned : after.owned = before.owned)
    (undecided : after.undecided = before.undecided) (early : after.early = true → before.early = true)
    (runs : after = .finished ↔ before = .finished) : s.Advances (s.setPhase n after) := by
  subst phase
  exact kept.setCreation rfl owned undecided early runs

/-- A creation stops what it holds. -/
theorem stopOwned (phase : (s.creation n).phase = before) (holds : before.owned = some x) (owned : after.owned = none)
    (undecided : after.undecided = before.undecided) (early : after.early = true → before.early = true)
    (runs : after = .finished ↔ before = .finished) : s.Advances ((s.stop x).setPhase n after) := by
  subst phase
  have stopped : (s.stop x).Ordered := { kept.ordered with }
  refine ⟨custody_stop kept.custody (.creation n) x (by simp) ?_ ?_, stopped.setCreation rfl early runs, le_rfl⟩
  · intro y
    rw [Held, holds, Option.some.injEq, eq_comm]
  · intro h y
    rw [setPhase, held_setCreation, held_stop]
    split
    · next isCreation => simp [isCreation, owned]
    · next notCreation =>
      rw [and_iff_right notCreation]
      split
      · next isCreating => simp [isCreating, undecided, Held]
      · rfl

theorem builds (phase : (s.creation n).phase = .building) (err : Option GoError) :
    s.Advances ({ s with nextSession := s.nextSession + 1 }.setPhase n (.deciding (some s.nextSession) err)) := by
  have counted : { s with nextSession := s.nextSession + 1 }.Ordered := { kept.ordered with }
  refine ⟨kept.custody.deposit (.creating n) s.nextSession (lt_irrefl _) ?_ ?_, counted.setCreation rfl ?_ ?_,
    Nat.le_succ _⟩
  · intro y
    exact Nat.lt_succ_iff_lt_or_eq
  · intro h y
    have before : { s with nextSession := s.nextSession + 1 }.Held h y ↔ s.Held h y := by cases h <;> rfl
    rw [setPhase, held_setCreation, before]
    split
    · next isCreation => simp [isCreation, Held, phase, CreationPhase.owned]
    · split
      · next isCreating => simp [isCreating, Held, phase, CreationPhase.undecided, eq_comm]
      · next notCreating => simp [notCreating]
  · exact fun _ => by simp [phase, CreationPhase.early]
  · simp [phase]

/-- A creation installs the session that it has created. -/
theorem install (isOpen : s.gate.closed = false) (phase : (s.creation n).phase = .deciding (some x) err)
    (target : SessionTarget) :
    s.Advances ((s.install (s.creation n).osd ⟨target, x⟩).setPhase n (.finishing (some x) none)) := by
  have vacant := kept.ordered.vacant n (by rw [phase]; rfl)
  have decided : (s.setPhase n (.finishing (some x) none)).Ordered :=
    kept.ordered.setCreation rfl (fun early => by cases early) (by simp [phase])
  have osdOf : ((s.setPhase n (.finishing (some x) none)).creation n).osd = (s.creation n).osd := by
    rw [setPhase, creation_setCreation, if_pos rfl]
  have phaseOf : ((s.setPhase n (.finishing (some x) none)).creation n).phase = .finishing (some x) none := by
    rw [setPhase, creation_setCreation, if_pos rfl]
  refine ⟨custody_take kept.custody (.creating n) (.table (s.creation n).osd) (by simp [Holder.grade])
    (by simp) ?_ ?_, ?_, le_rfl⟩
  · intro y
    simp [Held, vacant]
  · intro h y
    rw [setPhase, held_setCreation, held_install]
    split
    · next isCreation => simp [isCreation, Held, phase, CreationPhase.owned]
    · split
      · next isCreating => simp [isCreating, CreationPhase.undecided]
      · next notCreating =>
        rw [and_iff_right notCreating, Held, phase, CreationPhase.undecided, Option.some.injEq]
  · have installed := decided.install (n := n) isOpen (by rw [phaseOf]; simp) (by rw [phaseOf]; rfl) ⟨target, x⟩
    rw [osdOf] at installed
    exact installed

/-- A creation keeps the session that it has created, to stop it. -/
theorem rejects (phase : (s.creation n).phase = .deciding (some x) err) (cause : GoError) :
    s.Advances (s.setPhase n (.stopping x cause)) := by
  refine ⟨custody_take kept.custody (.creating n) (.creation n) (by simp [Holder.grade]) (by simp) ?_ ?_,
    kept.ordered.setCreation rfl (fun early => by cases early) (by simp [phase]), le_rfl⟩
  · intro y
    simp [Held, phase, CreationPhase.owned]
  · intro h y
    rw [setPhase, held_setCreation]
    split
    · next isCreation => simp [isCreation, Held, phase, CreationPhase.owned, CreationPhase.undecided]
    · split
      · next isCreating => simp [isCreating, CreationPhase.undecided]
      · next notCreating => rw [and_iff_right notCreating]

/-- The last step of a creation, without a dispatcher. -/
theorem endCreation (runs : (s.creation n).phase ≠ .finished) (owned : (s.creation n).phase.owned = none)
    (undecided : (s.creation n).phase.undecided = none) (creation : SessionCreation)
    (ends : creation.phase = .finished) :
    s.Advances (((s.removeCreation (s.creation n).osd).setCreation n creation).done (.creation n)) := by
  refine ⟨kept.custody.congr fun h y => ?_, kept.ordered.endCreation runs ends, le_rfl⟩
  simp only [held_done, held_setCreation, held_removeCreation]
  split
  · next isCreation => rw [isCreation, Held, owned, ends, CreationPhase.owned]
  · split
    · next isCreating => rw [isCreating, Held, undecided, ends, CreationPhase.undecided]
    · rfl

theorem startDispatcher (born : n < s.nextCreation) (ended : (s.creation n).phase = .finished)
    (idle : s.dispatchers n = .idle) (notDone : s.gate.closeDone = false) (osd : Int) (active : Nat) :
    s.Advances ((s.add (.dispatcher n)).setDispatcher n (.running osd active)) := by
  refine ⟨kept.custody.congr fun h y => ?_, kept.ordered.startDispatcher born ended notDone active, le_rfl⟩
  rw [held_setDispatcher, held_add]
  split
  · next isDispatcher => rw [isDispatcher, Held, idle, Dispatcher.owned, Dispatcher.owned]
  · rfl

theorem startCreation (isOpen : s.gate.closed = false) (free : s.creations.lookup osd = none)
    (target : SessionTarget) : s.Advances (s.startCreation call osd target) := by
  have unborn := kept.ordered.unborn s.nextCreation le_rfl
  refine ⟨custody_take kept.custody (.table osd) (.creation s.nextCreation) (by simp [Holder.grade]) (by simp) ?_ ?_,
    kept.ordered.startCreation isOpen free target, le_rfl⟩
  · intro y
    simp [Held, unborn, CreationPhase.owned]
  · intro h y
    have sameHeld : (s.startCreation call osd target).Held h y ↔ ((s.remove osd).setCreation s.nextCreation
        { osd, target, phase := .starting ((s.sessions.lookup osd).map SessionEntry.session) }).Held h y := by
      cases h <;> rfl
    rw [sameHeld, held_setCreation, held_remove]
    split
    · next isNew => rw [isNew, and_iff_right (by simp), Held, CreationPhase.owned]
    · split
      · next isCreating => simp [isCreating, Held, unborn, CreationPhase.undecided]
      · rfl

theorem setInvalidation {before after : Invalidation} (phase : s.invalidations call = before)
    (had : before.owned = none) (has : after.owned = none) : s.Advances (s.setInvalidation call after) := by
  refine ⟨kept.custody.congr fun h y => ?_, kept.ordered.setInvalidation has, le_rfl⟩
  rw [held_setInvalidation]
  split
  · next isCall => rw [isCall, Held, phase, had, has]
  · rfl

/-- An invalidation takes a session out of the table. -/
theorem invalidate {before : Invalidation} (phase : s.invalidations call = before) (had : before.owned = none)
    (found : (s.sessions.lookup osd).map SessionEntry.session = some failed) :
    s.Advances (((s.remove osd).add (.invalidation call)).setInvalidation call (.stopping failed)) := by
  have notDone : s.gate.closeDone = false := by
    cases isDone : s.gate.closeDone with
    | false => rfl
    | true =>
      rw [kept.ordered.emptied (kept.ordered.gate.idle isDone).1] at found
      cases found
  refine ⟨custody_take kept.custody (.table osd) (.invalidation call) (by simp [Holder.grade]) (by simp) ?_ ?_,
    (kept.ordered.remove osd).addInvalidation notDone _, le_rfl⟩
  · intro y
    simp [Held, phase, had]
  · intro h y
    rw [held_setInvalidation, held_add, held_remove]
    split
    · next isCall => rw [isCall, and_iff_right (by simp), Held, found, Invalidation.owned]
    · rfl

theorem stopsFailed (phase : s.invalidations call = .stopping failed) :
    s.Advances (((s.stop failed).setInvalidation call .returned).done (.invalidation call)) := by
  have stopped : (s.stop failed).Ordered := { kept.ordered with }
  refine ⟨custody_stop kept.custody (.invalidation call) failed (by simp) ?_ ?_, stopped.endInvalidation rfl, le_rfl⟩
  · intro y
    rw [Held, phase, Invalidation.owned, Option.some.injEq, eq_comm]
  · intro h y
    rw [held_done, held_setInvalidation, held_stop]
    split
    · next isCall => simp [isCall, Invalidation.owned]
    · next other => rw [and_iff_right other]

/-- A dispatcher ends without a session to stop. -/
theorem endDispatcher (phase : s.dispatchers n = .running osd active) :
    s.Advances ((s.setDispatcher n .ended).done (.dispatcher n)) := by
  refine ⟨kept.custody.congr fun h y => ?_, kept.ordered.endDispatcher (by rw [phase]; rfl), le_rfl⟩
  rw [held_done, held_setDispatcher]
  split
  · next isDispatcher => rw [isDispatcher, Held, phase, Dispatcher.owned, Dispatcher.owned]
  · rfl

/-- A dispatcher takes its session out of the table. -/
theorem interrupt (phase : s.dispatchers n = .running osd active)
    (found : (s.sessions.lookup osd).map SessionEntry.session = some active) :
    s.Advances ((s.remove osd).setDispatcher n (.stopping active)) := by
  refine ⟨custody_take kept.custody (.table osd) (.dispatcher n) (by simp [Holder.grade]) (by simp) ?_ ?_,
    (kept.ordered.remove osd).setDispatcher ?_, le_rfl⟩
  · intro y
    simp [Held, phase, Dispatcher.owned]
  · intro h y
    rw [held_setDispatcher, held_remove]
    split
    · next isDispatcher => rw [isDispatcher, and_iff_right (by simp), Held, found, Dispatcher.owned]
    · rfl
  · change (s.dispatchers n).active = true
    rw [phase]
    rfl

theorem stopsActive (phase : s.dispatchers n = .stopping active) :
    s.Advances (((s.stop active).setDispatcher n .ended).done (.dispatcher n)) := by
  have stopped : (s.stop active).Ordered := { kept.ordered with }
  refine ⟨custody_stop kept.custody (.dispatcher n) active (by simp) ?_ ?_, stopped.endDispatcher ?_, le_rfl⟩
  · intro y
    rw [Held, phase, Dispatcher.owned, Option.some.injEq, eq_comm]
  · intro h y
    rw [held_done, held_setDispatcher, held_stop]
    split
    · next isDispatcher => simp [isDispatcher, Dispatcher.owned]
    · next other => rw [and_iff_right other]
  · change (s.dispatchers n).active = true
    rw [phase]
    rfl

theorem watchEnds : s.Advances ({ s with watcher := .ended }.done .watcher) := by
  refine ⟨kept.custody.congr fun h _ => by cases h <;> rfl, ?_, le_rfl⟩
  refine { kept.ordered with gate := kept.ordered.gate.done fun w works => ?_ }
  cases w with
  | watcher => cases works
  | _ => exact ⟨works, by simp⟩

/-- A call of `Close` goes on, holding nothing. -/
theorem setClosing {before after : Closing (GoMap Int SessionEntry)} (phase : s.gate.closings call = before)
    (had : before.taken = ∅) (has : after.taken = ∅) (notStopping : ∀ taken, after ≠ .stopping taken)
    (returned : after = .returned → s.gate.closeDone = true) : s.Advances (s.setClosing call after) := by
  refine ⟨kept.custody.congr fun h y => ?_,
    kept.ordered.setClosing (fun taken stopping => absurd stopping (notStopping taken)) returned, le_rfl⟩
  by_cases isCall : ∃ osd, h = .closing call osd
  · obtain ⟨osd, rfl⟩ := isCall
    rw [held_closing_setClosing, Held, phase, had, has]
  · exact held_setClosing_of_ne fun osd same => isCall ⟨osd, same⟩

/-- The first call of `Close` takes the whole table. -/
theorem close (isOpen : s.gate.closed = false) (before : s.gate.closings call = .idle) :
    s.Advances { s with gate := s.gate.begin_ call s.sessions, sessions := ∅ } := by
  refine ⟨kept.custody.rename (Holder.takenBy call) (fun h => ?_) (fun h y holds => ?_) fun h y holds => ?_,
    kept.ordered.close isOpen s.sessions, le_rfl⟩
  · cases h <;> simp [Holder.grade, Holder.takenBy]
  · cases h with
    | table osd => exact held_closing_setClosing.mpr holds
    | closing call' osd =>
      have different : call' ≠ call := by
        rintro rfl
        rw [Held, before] at holds
        cases holds
      exact (held_setClosing_of_ne fun osd' same => different (Holder.closing.inj same).1).mpr holds
    | _ => exact holds
  · cases h with
    | table osd => cases holds
    | closing call' osd =>
      by_cases same : call' = call
      · subst same
        exact ⟨.table osd, held_closing_setClosing.mp holds, rfl⟩
      · exact ⟨.closing call' osd,
          (held_setClosing_of_ne fun osd' isCall => same (Holder.closing.inj isCall).1).mp holds, rfl⟩
    | creating n => exact ⟨.creating n, holds, rfl⟩
    | creation n => exact ⟨.creation n, holds, rfl⟩
    | invalidation call' => exact ⟨.invalidation call', holds, rfl⟩
    | dispatcher n => exact ⟨.dispatcher n, holds, rfl⟩
    | stopped => exact ⟨.stopped, holds, rfl⟩

/-- `Close` stops one of the sessions that it has taken. -/
theorem stopsTaken {taken : GoMap Int SessionEntry} {entry : SessionEntry}
    (phase : s.gate.closings call = .stopping taken) (found : taken.lookup osd = some entry) :
    s.Advances ((s.stop entry.session).setClosing call (.stopping (taken.erase osd))) := by
  have stopped : (s.stop entry.session).Ordered := { kept.ordered with }
  refine ⟨custody_stop kept.custody (.closing call osd) entry.session (by simp) ?_ ?_,
    stopped.setClosing (fun _ _ => ⟨taken, phase⟩) (fun returned => by cases returned), le_rfl⟩
  · intro y
    simp [Held, phase, Closing.taken, found, eq_comm]
  · intro h y
    by_cases isCall : ∃ other, h = .closing call other
    · obtain ⟨other, rfl⟩ := isCall
      rw [held_closing_setClosing]
      by_cases same : other = osd
      · subst same
        simp [Closing.taken]
      · simp [Closing.taken, Held, phase, same, Finmap.lookup_erase_ne same]
    · rw [held_setClosing_of_ne fun other same => isCall ⟨other, same⟩, held_stop,
        and_iff_right fun same => isCall ⟨osd, same⟩]

theorem finishClose (phase : s.gate.closings call = .stopping ∅) (nobody : s.gate.workers = ∅) :
    s.Advances { s with gate := s.gate.finish call } := by
  refine ⟨kept.custody.congr fun h y => ?_, kept.ordered.finishClose phase nobody, le_rfl⟩
  have same : { s with gate := s.gate.finish call }.Held h y ↔ (s.setClosing call .returned).Held h y := by
    cases h <;> rfl
  rw [same]
  by_cases isCall : ∃ osd, h = .closing call osd
  · obtain ⟨osd, rfl⟩ := isCall
    rw [held_closing_setClosing, Held, phase]
    rfl
  · exact held_setClosing_of_ne fun osd same => isCall ⟨osd, same⟩

theorem supersedeCreation (osd : Int) : s.Advances (s.supersedeCreation osd) := by
  unfold SessionTable.supersedeCreation
  split
  · exact kept.supersede _
  · exact ⟨kept.custody.congr fun _ _ => Iff.rfl, kept.ordered, le_rfl⟩

theorem getSession (osd : Int) (target : SessionTarget) : s.Advances (s.getSession call osd target) := by
  unfold SessionTable.getSession
  split
  · exact kept.setCall _
  · next isOpen =>
    rw [Bool.not_eq_true] at isOpen
    split
    · split
      · exact kept.setCall _
      · exact (kept.supersede _).trans kept ((kept.supersede _).kept.setCall _)
    · next free =>
      split
      · split
        · exact kept.setCall _
        · exact kept.startCreation isOpen free target
      · exact kept.startCreation isOpen free target

theorem settle (phase : (s.creation n).phase = .deciding created err) (target : Except GoError SessionTarget) :
    s.Advances (s.settle n created err target) := by
  unfold SessionTable.settle
  split
  · next session decided =>
    have isOpen : s.gate.closed = false := by
      cases isClosed : s.gate.closed with
      | false => rfl
      | true => simp [decision, isClosed] at decided
    exact kept.install isOpen phase _
  · exact kept.rejects phase _
  · exact kept.movePhase phase rfl rfl nofun (by simp)

omit kept in
theorem done_add {w' : SessionWorker} (different : w' ≠ w) : (s.done w).add w' = (s.add w').done w := by
  simp only [SessionTable.add, SessionTable.done, s.gate.done_add different]

theorem finish (phase : (s.creation n).phase = .finishing created err) (notifies : Bool) :
    s.Advances (s.finish n created err notifies) := by
  have runs : (s.creation n).phase ≠ .finished := by simp [phase]
  have born : n < s.nextCreation := Nat.lt_of_not_le fun unborn => runs (kept.ordered.unborn n unborn)
  have idle := kept.ordered.silent n (.inl runs)
  have notDone : s.gate.closeDone = false := kept.ordered.gate.closeDone_eq_false (w := .creation n) runs
  have ended (creation : SessionCreation) (ends : creation.phase = .finished) :=
    kept.endCreation runs (by rw [phase]; rfl) (by rw [phase]; rfl) creation ends
  have started (creation : SessionCreation) (ends : creation.phase = .finished) (active : Nat) :
      s.Advances (((((s.removeCreation (s.creation n).osd).setCreation n creation).add (.dispatcher n)).done
        (.creation n)).setDispatcher n (.running (s.creation n).osd active)) := by
    rw [← done_add (by simp)]
    exact (ended creation ends).trans kept ((ended creation ends).kept.startDispatcher born
      ((congrArg _ (Function.update_self _ _ _)).trans ends) idle notDone (s.creation n).osd active)
  unfold SessionTable.finish
  dsimp only
  split
  · exact started _ rfl _
  · exact ended _ rfl

end Kept

end SessionTable

end RadosGo
