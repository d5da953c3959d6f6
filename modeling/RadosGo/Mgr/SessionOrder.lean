import RadosGo.Library.Custody
import RadosGo.Mgr.SessionSlot

namespace RadosGo

/-- The session which a creation has to stop. -/
def ManagerPhase.owned : ManagerPhase → Option Nat
  | .starting stale => stale
  | .stopping unwanted _ => unwanted
  | .checking | .building | .deciding _ _ | .finishing _ | .finished => none

/-- The session which a creation has to install or to stop. -/
def ManagerPhase.undecided : ManagerPhase → Option Nat
  | .deciding created _ => created
  | .starting _ | .checking | .building | .stopping _ _ | .finishing _ | .finished => none

def ManagerInvalidation.owned : ManagerInvalidation → Option Nat
  | .stopping failed => some failed
  | .idle | .returned => none

/-- A creation that goes on without an error has a session. -/
def ManagerCreation.Sound (creation : ManagerCreation) : Prop :=
  match creation.phase with
  | .starting _ | .checking | .building => creation.completed = false
  | .deciding created err => creation.completed = false ∧ (err = none → created ≠ none)
  | .stopping _ err | .finishing err => creation.completed = false ∧ (err = none → creation.result ≠ none)
  | .finished => creation.err = none → creation.result ≠ none

/-- The session which a call of `Close` has to stop. -/
def Closing.session : Closing (Option Nat) → Option Nat
  | .stopping session => session
  | .idle | .joining | .returned => none

theorem sameTarget_iff {left right : ActiveTarget} :
    sameTarget left right = true ↔ left.gid = right.gid ∧ left.name = right.name ∧ left.address = right.address := by
  simp [sameTarget, and_assoc]

theorem sameTarget_trans {first second third : ActiveTarget} (left : sameTarget first second = true)
    (right : sameTarget second third = true) : sameTarget first third = true := by
  rw [sameTarget_iff] at *
  exact ⟨left.1.trans right.1, left.2.1.trans right.2.1, left.2.2.trans right.2.2⟩

namespace SessionSlot

/-- Where a session can be. -/
inductive Holder where
  | creating (n : Nat)
  | slot
  | creation (n : Nat)
  | invalidation (call : Nat)
  | closing (call : Nat)
  | stopped
  deriving DecidableEq

/-- How far a session has come with its holder. -/
def Holder.grade : Holder → Nat
  | .creating _ => 0
  | .slot => 1
  | .creation _ | .invalidation _ | .closing _ => 2
  | .stopped => 3

def phase (s : SessionSlot) (n : Nat) : ManagerPhase := ((s.creation n).map ManagerCreation.phase).getD .finished

def Held (s : SessionSlot) : Holder → Nat → Prop
  | .creating n, x => (s.phase n).undecided = some x
  | .slot, x => s.session.map ManagerSession.session = some x
  | .creation n, x => (s.phase n).owned = some x
  | .invalidation call, x => (s.invalidations call).owned = some x
  | .closing call, x => (s.gate.closings call).session = some x
  | .stopped, x => x ∈ s.stopped

/-- A worker that is not done. -/
def Works (s : SessionSlot) : ManagerWorker → Prop
  | .creation n => s.phase n ≠ .finished
  | .invalidation call => (s.invalidations call).owned ≠ none

variable {s : SessionSlot} {h : Holder} {w : ManagerWorker} {x n call : Nat}

section Updates

variable {creation : ManagerCreation} {m : Nat} {phase : ManagerCall} {which : Nat → ManagerCreation → Bool}

theorem phase_of (is : s.creation n = some creation) : s.phase n = creation.phase := by
  rw [phase, is]
  rfl

theorem creation_setCreation : (s.setCreation n creation).creation m = if m = n then some creation
    else s.creation m :=
  Function.update_apply _ _ _ _

theorem calls_setCall {other : Nat} :
    (s.setCall call phase).calls other = if other = call then phase else s.calls other :=
  Function.update_apply _ _ _ _

theorem creation_abandon : (s.abandon which).creation m = some creation ↔ ∃ before, s.creation m = some before ∧
      creation = { before with abandoned := before.abandoned || which m before } := by
  simp only [abandon, Option.map_eq_some_iff]
  refine exists_congr fun before => and_congr_right fun _ => ?_
  cases which m before <;> simp [eq_comm]

theorem phase_setCreation : (s.setCreation n creation).phase m = if m = n then creation.phase else s.phase m := by
  by_cases same : m = n <;> simp [phase, creation_setCreation, same]

theorem phase_abandon : (s.abandon which).phase m = s.phase m := by
  simp only [phase, abandon]
  cases s.creation m with
  | none => rfl
  | some creation =>
    simp only [Option.map_some, Option.getD_some]
    split <;> rfl

@[simp] theorem held_setCreation : (s.setCreation n creation).Held h x ↔
      if h = .creation n then creation.phase.owned = some x
      else if h = .creating n then creation.phase.undecided = some x else s.Held h x := by
  cases h with
  | creation m | creating m =>
    by_cases same : m = n <;> simp [Held, phase_setCreation, same]
  | _ => simp [Held, setCreation]

@[simp] theorem held_abandon : (s.abandon which).Held h x ↔ s.Held h x := by
  cases h with
  | creation m => rw [Held, Held, phase_abandon]
  | creating m => rw [Held, Held, phase_abandon]
  | _ => rfl

@[simp] theorem held_setInvalidation {phase : ManagerInvalidation} :
    (s.setInvalidation call phase).Held h x ↔ if h = .invalidation call then phase.owned = some x
      else s.Held h x := by
  cases h with
  | invalidation other =>
    by_cases same : other = call <;> simp [Held, setInvalidation, same]
  | _ => rfl

@[simp] theorem held_setClosing {phase : Closing (Option Nat)} :
    (s.setClosing call phase).Held h x ↔ if h = .closing call then phase.session = some x else s.Held h x := by
  cases h with
  | closing other =>
    by_cases same : other = call <;> simp [Held, setClosing, CloseOnce.setClosing, same]
  | _ => rfl

@[simp] theorem held_stopAny {session : Option Nat} : (s.stopAny session).Held h x ↔ h = .stopped ∧ session = some x ∨
    s.Held h x := by
  cases h with
  | stopped => cases session <;> simp [Held, stopAny, eq_comm]
  | _ => simp [Held, stopAny, phase]

@[simp] theorem held_install {entry : ManagerSession} :
    (s.install entry).Held h x ↔ if h = .slot then entry.session = x else s.Held h x := by
  cases h with
  | slot => simp [Held, install]
  | _ => rfl

@[simp] theorem held_remove : s.remove.Held h x ↔ h ≠ .slot ∧ s.Held h x := by
  cases h with
  | slot => simp [Held, remove]
  | _ => simp [Held, remove, phase]

@[simp] theorem held_add : (s.add w).Held h x ↔ s.Held h x := by cases h <;> rfl

@[simp] theorem held_done : (s.done w).Held h x ↔ s.Held h x := by cases h <;> rfl

@[simp] theorem held_setCall : (s.setCall call phase).Held h x ↔ s.Held h x := by cases h <;> rfl

@[simp] theorem works_setCreation :
    (s.setCreation n creation).Works w ↔ if w = .creation n then creation.phase ≠ .finished else s.Works w := by
  cases w with
  | creation m =>
    by_cases same : m = n <;> simp [Works, phase_setCreation, same]
  | invalidation call => simp [Works, setCreation]

@[simp] theorem works_setInvalidation {phase : ManagerInvalidation} :
    (s.setInvalidation call phase).Works w ↔ if w = .invalidation call then phase.owned ≠ none else s.Works w := by
  cases w with
  | invalidation other =>
    by_cases same : other = call <;> simp [Works, setInvalidation, same]
  | creation m => rfl

end Updates

/-- Creations are numbered, workers belong to the wait group, and nothing is installed in a closed client. -/
structure Ordered (s : SessionSlot) : Prop where
  unborn : ∀ n, s.nextCreation ≤ n → s.creation n = none
  gate : s.gate.Orderly s.Works
  emptied : s.gate.closed = true → s.session = none

/-- A session that was installed when it was created for a target. -/
def InstalledFor (s : SessionSlot) (target : ActiveTarget) (entry : ManagerSession) : Prop :=
  entry ∈ s.installations ∧ sameTarget entry.target target = true

/-- The sessions which calls and creations hand out were installed for their targets. -/
structure Served (s : SessionSlot) : Prop where
  installed : ∀ entry, s.session = some entry → entry ∈ s.installations
  created : ∀ n creation, s.creation n = some creation → creation.Sound ∧
    ∀ entry, creation.result = some entry → s.InstalledFor creation.target entry
  waiting : ∀ call target n, s.calls call = .waiting target n →
    ∃ creation, s.creation n = some creation ∧ sameTarget creation.target target = true
  returned : ∀ call target result, s.calls call = .returned target (.ok result) →
    ∃ entry, result = some entry ∧ s.InstalledFor target entry

end SessionSlot

end RadosGo
