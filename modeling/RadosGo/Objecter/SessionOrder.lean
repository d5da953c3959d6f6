import RadosGo.Library.Custody
import RadosGo.Objecter.SessionTable

namespace RadosGo

/-- The session which a creation has to stop. -/
def CreationPhase.owned : CreationPhase → Option Nat
  | .starting old => old
  | .stopping created _ => some created
  | .checking | .building | .deciding _ _ | .finishing _ _ | .finished => none

/-- The session which a creation has to install or to stop. -/
def CreationPhase.undecided : CreationPhase → Option Nat
  | .deciding created _ => created
  | .starting _ | .checking | .building | .stopping _ _ | .finishing _ _ | .finished => none

/-- The creation has not decided whether it installs a session. -/
def CreationPhase.early : CreationPhase → Bool
  | .starting _ | .checking | .building | .deciding _ _ => true
  | .stopping _ _ | .finishing _ _ | .finished => false

def Invalidation.owned : Invalidation → Option Nat
  | .stopping failed => some failed
  | .idle | .entering _ _ | .waiting _ _ _ | .returned => none

def Dispatcher.owned : Dispatcher → Option Nat
  | .stopping active => some active
  | .idle | .running _ _ | .ended => none

def Dispatcher.active : Dispatcher → Bool
  | .running _ _ | .stopping _ => true
  | .idle | .ended => false

/-- The sessions which a call of `Close` has to stop. -/
def Closing.taken : Closing (GoMap Int SessionEntry) → GoMap Int SessionEntry
  | .stopping sessions => sessions
  | .idle | .joining | .returned => ∅

namespace SessionTable

/-- Where a session can be. -/
inductive Holder where
  | creating (n : Nat)
  | table (osd : Int)
  | creation (n : Nat)
  | invalidation (call : Nat)
  | dispatcher (n : Nat)
  | closing (call : Nat) (osd : Int)
  | stopped
  deriving DecidableEq

/-- How far a session has come with its holder. -/
def Holder.grade : Holder → Nat
  | .creating _ => 0
  | .table _ => 1
  | .creation _ | .invalidation _ | .dispatcher _ | .closing _ _ => 2
  | .stopped => 3

/-- Who holds what a holder had, after a call of `Close` has taken the table. -/
def Holder.takenBy (call : Nat) : Holder → Holder
  | .table osd => .closing call osd
  | other => other

def Held (s : SessionTable) : Holder → Nat → Prop
  | .creating n, x => (s.creation n).phase.undecided = some x
  | .table osd, x => (s.sessions.lookup osd).map SessionEntry.session = some x
  | .creation n, x => (s.creation n).phase.owned = some x
  | .invalidation call, x => (s.invalidations call).owned = some x
  | .dispatcher n, x => (s.dispatchers n).owned = some x
  | .closing call osd, x => ((s.gate.closings call).taken.lookup osd).map SessionEntry.session = some x
  | .stopped, x => x ∈ s.stopped

/-- A worker that is not done. -/
def Works (s : SessionTable) : SessionWorker → Prop
  | .creation n => (s.creation n).phase ≠ .finished
  | .invalidation call => (s.invalidations call).owned ≠ none
  | .dispatcher n => (s.dispatchers n).active = true
  | .watcher => False

variable {s : SessionTable} {h : Holder} {w : SessionWorker} {x y n call : Nat} {osd : Int}

section Updates

variable {creation : SessionCreation} {phase : Invalidation}

@[simp] theorem held_setCreation : (s.setCreation n creation).Held h x ↔
      if h = .creation n then creation.phase.owned = some x
      else if h = .creating n then creation.phase.undecided = some x else s.Held h x := by
  cases h with
  | creation m | creating m =>
    by_cases same : m = n <;> simp [Held, setCreation, same]
  | _ => simp [Held, setCreation]

@[simp] theorem held_setInvalidation :
    (s.setInvalidation call phase).Held h x ↔ if h = .invalidation call then phase.owned = some x
      else s.Held h x := by
  cases h with
  | invalidation other =>
    by_cases same : other = call <;> simp [Held, setInvalidation, same]
  | _ => simp [Held, setInvalidation]

@[simp] theorem held_setDispatcher {phase : Dispatcher} :
    (s.setDispatcher n phase).Held h x ↔ if h = .dispatcher n then phase.owned = some x else s.Held h x := by
  cases h with
  | dispatcher m =>
    by_cases same : m = n <;> simp [Held, setDispatcher, same]
  | _ => simp [Held, setDispatcher]

theorem held_closing_setClosing {phase : Closing (GoMap Int SessionEntry)} :
    (s.setClosing call phase).Held (.closing call osd) x ↔
      (phase.taken.lookup osd).map SessionEntry.session = some x := by
  simp only [Held, setClosing, CloseOnce.setClosing, Function.update_self]

theorem held_setClosing_of_ne {phase : Closing (GoMap Int SessionEntry)} (other : ∀ osd, h ≠ .closing call osd) :
    (s.setClosing call phase).Held h x ↔ s.Held h x := by
  cases h with
  | closing call' osd =>
    have different : call' ≠ call := fun same => other osd (by rw [same])
    simp only [Held, setClosing, CloseOnce.setClosing, Function.update_of_ne different]
  | _ => rfl

@[simp] theorem held_stop : (s.stop y).Held h x ↔ h = .stopped ∧ x = y ∨ s.Held h x := by
  cases h with
  | stopped => simp [Held, stop]
  | _ => simp [Held, stop]

@[simp] theorem held_remove : (s.remove osd).Held h x ↔ h ≠ .table osd ∧ s.Held h x := by
  cases h with
  | table other =>
    by_cases same : other = osd
    · subst same
      simp [Held, remove]
    · simp [Held, remove, same, Finmap.lookup_erase_ne same]
  | _ => simp [Held, remove]

@[simp] theorem held_install {entry : SessionEntry} :
    (s.install osd entry).Held h x ↔ if h = .table osd then entry.session = x else s.Held h x := by
  cases h with
  | table other =>
    by_cases same : other = osd
    · subst same
      simp [Held, install]
    · simp [Held, install, same, Finmap.lookup_insert_of_ne _ same]
  | _ => simp [Held, install]

@[simp] theorem held_add : (s.add w).Held h x ↔ s.Held h x := by cases h <;> rfl

@[simp] theorem held_done : (s.done w).Held h x ↔ s.Held h x := by cases h <;> rfl

@[simp] theorem held_removeCreation : (s.removeCreation osd).Held h x ↔ s.Held h x := by cases h <;> rfl

theorem creation_setCreation {m : Nat} :
    (s.setCreation n creation).creation m = if m = n then creation else s.creation m := Function.update_apply _ _ _ _

@[simp] theorem works_setCreation :
    (s.setCreation n creation).Works w ↔ if w = .creation n then creation.phase ≠ .finished else s.Works w := by
  cases w with
  | creation m =>
    by_cases same : m = n <;> simp [Works, setCreation, same]
  | _ => simp [Works, setCreation]

@[simp] theorem works_setInvalidation :
    (s.setInvalidation call phase).Works w ↔ if w = .invalidation call then phase.owned ≠ none else s.Works w := by
  cases w with
  | invalidation other =>
    by_cases same : other = call <;> simp [Works, setInvalidation, same]
  | _ => simp [Works, setInvalidation]

@[simp] theorem works_setDispatcher {phase : Dispatcher} :
    (s.setDispatcher n phase).Works w ↔ if w = .dispatcher n then phase.active = true else s.Works w := by
  cases w with
  | dispatcher m =>
    by_cases same : m = n <;> simp [Works, setDispatcher, same]
  | _ => simp [Works, setDispatcher]

end Updates

/-- The order in which creations, workers and the calls of `Close` do their work. -/
structure Ordered (s : SessionTable) : Prop where
  running : ∀ osd n, s.creations.lookup osd = some n ↔ (s.creation n).phase ≠ .finished ∧ (s.creation n).osd = osd
  vacant : ∀ n, (s.creation n).phase.early = true → s.sessions.lookup (s.creation n).osd = none
  unborn : ∀ n, s.nextCreation ≤ n → (s.creation n).phase = .finished
  silent : ∀ n, (s.creation n).phase ≠ .finished ∨ s.nextCreation ≤ n → s.dispatchers n = .idle
  gate : s.gate.Orderly s.Works
  emptied : s.gate.closed = true → s.sessions = ∅

namespace Ordered

/-- The creation of an OSD is the only one. -/
theorem same_creation (ordered : s.Ordered) {m : Nat} (runs : (s.creation n).phase ≠ .finished)
    (runs' : (s.creation m).phase ≠ .finished) (sameOsd : (s.creation m).osd = (s.creation n).osd) : m = n := by
  have first := (ordered.running _ n).mpr ⟨runs, rfl⟩
  have second := (ordered.running _ m).mpr ⟨runs', sameOsd⟩
  exact Option.some.inj (second.symm.trans first)

variable {creation : SessionCreation} {phase : Invalidation}

variable (ordered : s.Ordered)
include ordered

/-- A creation makes a step that does not end it. -/
theorem setCreation (sameOsd : creation.osd = (s.creation n).osd)
    (early : creation.phase.early = true → (s.creation n).phase.early = true)
    (runs : creation.phase = .finished ↔ (s.creation n).phase = .finished) : (s.setCreation n creation).Ordered := by
  have phaseOf (m : Nat) : ((s.setCreation n creation).creation m).phase = .finished ↔
    (s.creation m).phase = .finished := by
    rw [creation_setCreation]
    split
    · next same => rw [same, runs]
    · rfl
  have osdOf (m : Nat) : ((s.setCreation n creation).creation m).osd = (s.creation m).osd := by
    rw [creation_setCreation]
    split
    · next same => rw [same, sameOsd]
    · rfl
  refine { ordered with running := ?_, vacant := ?_, unborn := ?_, silent := ?_, gate := ?_ }
  · intro osd m
    rw [ne_eq, phaseOf, osdOf]
    exact ordered.running osd m
  · intro m isEarly
    rw [osdOf]
    refine ordered.vacant m ?_
    rw [creation_setCreation] at isEarly
    split at isEarly
    · next same => exact same ▸ early isEarly
    · exact isEarly
  · exact fun m unborn => (phaseOf m).mpr (ordered.unborn m unborn)
  · intro m
    rw [ne_eq, phaseOf]
    exact ordered.silent m
  · refine ordered.gate.mono fun w works => ?_
    rw [works_setCreation] at works
    split at works
    · next isCreation =>
      rw [isCreation]
      exact fun finished => works (runs.mpr finished)
    · exact works

/-- An invalidation that has nothing to stop. -/
theorem setInvalidation (nothing : phase.owned = none) : (s.setInvalidation call phase).Ordered := by
  refine { ordered with gate := ordered.gate.mono fun w works => ?_ }
  rw [works_setInvalidation] at works
  split at works
  · exact absurd nothing works
  · exact works

/-- An invalidation joins the wait group with the session that it has to stop. -/
theorem addInvalidation (notDone : s.gate.closeDone = false) (phase : Invalidation) :
    ((s.add (.invalidation call)).setInvalidation call phase).Ordered := by
  refine { ordered with gate := ordered.gate.add notDone fun w works => ?_ }
  rw [works_setInvalidation] at works
  split at works
  · next isCall => exact .inr isCall
  · exact .inl (by cases w <;> exact works)

theorem endInvalidation (nothing : phase.owned = none) :
    ((s.setInvalidation call phase).done (.invalidation call)).Ordered := by
  refine { ordered with gate := ordered.gate.done fun w works => ?_ }
  have works : (s.setInvalidation call phase).Works w := by cases w <;> exact works
  rw [works_setInvalidation] at works
  split at works
  · exact absurd nothing works
  · next other => exact ⟨works, other⟩

/-- A dispatcher that is running takes a session. -/
theorem setDispatcher {phase : Dispatcher} (runs : (s.dispatchers n).active = true) :
    (s.setDispatcher n phase).Ordered := by
  refine { ordered with silent := ?_, gate := ordered.gate.mono fun w works => ?_ }
  · intro m when
    have isIdle := ordered.silent m when
    have other : m ≠ n := by
      rintro rfl
      rw [isIdle] at runs
      cases runs
    exact (Function.update_of_ne other _ _).trans isIdle
  · rw [works_setDispatcher] at works
    split at works
    · next isDispatcher => exact isDispatcher ▸ runs
    · exact works

theorem endDispatcher (runs : (s.dispatchers n).active = true) :
    ((s.setDispatcher n .ended).done (.dispatcher n)).Ordered := by
  refine { ordered.setDispatcher runs with gate := ordered.gate.done fun w works => ?_ }
  have works : (s.setDispatcher n .ended).Works w := by cases w <;> exact works
  rw [works_setDispatcher] at works
  split at works
  · cases works
  · next other => exact ⟨works, other⟩

theorem remove (osd : Int) : (s.remove osd).Ordered := by
  refine { ordered with vacant := ?_, gate := ordered.gate.mono fun w works => ?_, emptied := ?_ }
  · intro n early
    have none := ordered.vacant n early
    by_cases same : (s.creation n).osd = osd
    · exact same ▸ Finmap.lookup_erase _ _
    · exact (Finmap.lookup_erase_ne same).trans none
  · cases w <;> exact works
  · intro isClosed
    rw [SessionTable.remove, ordered.emptied isClosed]
    rfl

/-- The decision of the creation of an OSD. -/
theorem install (isOpen : s.gate.closed = false) (runs : (s.creation n).phase ≠ .finished)
    (late : (s.creation n).phase.early = false) (entry : SessionEntry) :
      (s.install (s.creation n).osd entry).Ordered := by
  refine { ordered with vacant := ?_, gate := ordered.gate.mono fun w works => ?_, emptied := ?_ }
  · intro m (early : (s.creation m).phase.early = true)
    have none := ordered.vacant m early
    refine (Finmap.lookup_insert_of_ne _ fun sameOsd => ?_).trans none
    have runs' : (s.creation m).phase ≠ .finished := by
      intro finished
      rw [finished] at early
      cases early
    cases ordered.same_creation runs runs' sameOsd
    rw [late] at early
    cases early
  · cases w <;> exact works
  · intro isClosed
    exact absurd isClosed (by rw [SessionTable.install, isOpen]; decide)

theorem startCreation (isOpen : s.gate.closed = false) (free : s.creations.lookup osd = none)
    (target : SessionTarget) : (s.startCreation call osd target).Ordered := by
  have newPhase := ordered.unborn s.nextCreation le_rfl
  have creationOf (m : Nat) : (s.startCreation call osd target).creation m =
      if m = s.nextCreation then
        { osd, target, phase := .starting ((s.sessions.lookup osd).map SessionEntry.session) }
      else s.creation m := Function.update_apply _ _ _ _
  refine { ordered with running := ?_, vacant := ?_, unborn := ?_, silent := ?_, gate := ?_, emptied := ?_ }
  · intro osd' m
    rw [creationOf]
    change (s.creations.insert osd s.nextCreation).lookup osd' = some m ↔ _
    rw [GoMap.lookup_insert_iff]
    by_cases isNew : m = s.nextCreation
    · rw [if_pos isNew, isNew, ordered.running, newPhase]
      simp [eq_comm]
    · rw [if_neg isNew, ordered.running]
      have others : (s.creation m).phase ≠ .finished → (s.creation m).osd ≠ osd := by
        intro runs sameOsd
        have found := (ordered.running osd m).mpr ⟨runs, sameOsd⟩
        rw [free] at found
        cases found
      constructor
      · rintro (⟨-, same⟩ | ⟨-, runs⟩)
        · exact absurd same.symm isNew
        · exact runs
      · rintro ⟨runs, rfl⟩
        exact .inr ⟨others runs, runs, rfl⟩
  · intro m early
    rw [creationOf] at early ⊢
    change (s.sessions.erase osd).lookup _ = none
    split at early
    · next isNew =>
      rw [if_pos isNew]
      exact Finmap.lookup_erase _ _
    · next isOld =>
      rw [if_neg isOld]
      exact (ordered.remove osd).vacant m early
  · intro m unborn
    have later : s.nextCreation + 1 ≤ m := unborn
    rw [creationOf, if_neg (by omega)]
    exact ordered.unborn m (by omega)
  · intro m when
    refine ordered.silent m ?_
    by_cases isNew : m = s.nextCreation
    · exact .inr isNew.ge
    · rw [creationOf, if_neg isNew] at when
      exact when.imp_right fun (later : s.nextCreation + 1 ≤ m) => by omega
  · refine ordered.gate.add (ordered.gate.closeDone_of_open isOpen) fun w works => ?_
    have works' : (s.setCreation s.nextCreation
        { osd, target, phase := .starting ((s.sessions.lookup osd).map SessionEntry.session) }).Works w := by
      cases w <;> exact works
    rw [works_setCreation] at works'
    split at works'
    · next isNew => exact .inr isNew
    · exact .inl works'
  · exact (ordered.remove osd).emptied

/-- The end of a creation. -/
theorem endCreation (runs : (s.creation n).phase ≠ .finished) (ends : creation.phase = .finished) :
    (((s.removeCreation (s.creation n).osd).setCreation n creation).done (.creation n)).Ordered := by
  have creationOf (m : Nat) :
    (((s.removeCreation (s.creation n).osd).setCreation n creation).done (.creation n)).creation m =
      if m = n then creation else s.creation m := Function.update_apply _ _ _ _
  refine { ordered with running := ?_, vacant := ?_, unborn := ?_, silent := ?_, gate := ?_ }
  · intro osd m
    rw [creationOf]
    change (s.creations.erase (s.creation n).osd).lookup osd = some m ↔ _
    rw [GoMap.lookup_erase_iff, ordered.running]
    split
    · next same =>
      rw [same, ends]
      simp only [ne_eq, not_true_eq_false, false_and, iff_false, not_and]
      exact fun other _ sameOsd => other sameOsd.symm
    · next different =>
      refine and_iff_right_of_imp ?_
      rintro ⟨runs', rfl⟩ sameOsd
      exact different (ordered.same_creation runs runs' sameOsd)
  · intro m early
    rw [creationOf] at early ⊢
    split at early
    · rw [ends] at early
      cases early
    · next different =>
      rw [if_neg different]
      exact ordered.vacant m early
  · intro m unborn
    rw [creationOf]
    split
    · exact ends
    · exact ordered.unborn m unborn
  · intro m when
    rw [creationOf] at when
    split at when
    · next same =>
      refine ordered.silent m ?_
      exact .inl (same ▸ runs)
    · exact ordered.silent m when
  · refine ordered.gate.done fun w works => ?_
    have works : ((s.removeCreation (s.creation n).osd).setCreation n creation).Works w := by cases w <;> exact works
    rw [works_setCreation] at works
    split at works
    · exact absurd ends works
    · next other => exact ⟨by cases w <;> exact works, other⟩

/-- A creation that has just ended starts its dispatcher. -/
theorem startDispatcher (born : n < s.nextCreation) (ended : (s.creation n).phase = .finished)
    (notDone : s.gate.closeDone = false) (active : Nat) :
    ((s.add (.dispatcher n)).setDispatcher n (.running osd active)).Ordered := by
  refine { ordered with silent := ?_, gate := ordered.gate.add notDone fun w works => ?_ }
  · intro m when
    have other : m ≠ n := by
      rintro rfl
      rcases when with runs | unborn
      · exact runs ended
      · exact absurd born (Nat.not_lt.mpr unborn)
    exact (Function.update_of_ne other _ _).trans (ordered.silent m when)
  · rw [works_setDispatcher] at works
    split at works
    · next isDispatcher => exact .inr isDispatcher
    · exact .inl (by cases w <;> exact works)

theorem setClosing {phase : Closing (GoMap Int SessionEntry)}
    (stopping : ∀ taken, phase = .stopping taken → ∃ before, s.gate.closings call = .stopping before)
    (returned : phase = .returned → s.gate.closeDone = true) : (s.setClosing call phase).Ordered := by
  refine { ordered with gate := (ordered.gate.setClosing stopping returned).mono fun w works => ?_ }
  cases w <;> exact works

theorem close (isOpen : s.gate.closed = false) (taken : GoMap Int SessionEntry) :
    { s with gate := s.gate.begin_ call taken, sessions := ∅ }.Ordered := by
  refine { ordered with
    vacant := fun _ _ => rfl, gate := (ordered.gate.begin_ isOpen taken).mono fun w works => ?_, emptied :=
      fun _ => rfl }
  cases w <;> exact works

theorem finishClose {taken : GoMap Int SessionEntry} (stops : s.gate.closings call = .stopping taken)
    (nobody : s.gate.workers = ∅) : { s with gate := s.gate.finish call }.Ordered := by
  refine { ordered with gate := (ordered.gate.finish stops nobody).mono fun w works => ?_ }
  cases w <;> exact works

end Ordered

end SessionTable

end RadosGo
