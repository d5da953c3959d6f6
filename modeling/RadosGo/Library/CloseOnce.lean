import Mathlib

namespace RadosGo

/-- A call that closes something. The first one takes what has to be stopped, the others wait for it. -/
inductive Closing (τ : Type) where
  | idle
  | joining
  | stopping (taken : τ)
  | returned

/-- Closing with a wait group: `workers` are those who were added and are not done. -/
structure CloseOnce (ω τ : Type) where
  closed : Bool := false
  closeDone : Bool := false
  workers : Finset ω := ∅
  closings : Nat → Closing τ := fun _ => .idle

namespace CloseOnce

variable {ω τ : Type}

def setClosing (g : CloseOnce ω τ) (call : Nat) (phase : Closing τ) : CloseOnce ω τ :=
  { g with closings := Function.update g.closings call phase }

/-- The first call. -/
def begin_ (g : CloseOnce ω τ) (call : Nat) (taken : τ) : CloseOnce ω τ :=
  { g with closed := true }.setClosing call (.stopping taken)

/-- The first call has stopped everything and nobody works. -/
def finish (g : CloseOnce ω τ) (call : Nat) : CloseOnce ω τ := { g with closeDone := true }.setClosing call .returned

def add [DecidableEq ω] (g : CloseOnce ω τ) (worker : ω) : CloseOnce ω τ :=
  { g with workers := insert worker g.workers }

def done [DecidableEq ω] (g : CloseOnce ω τ) (worker : ω) : CloseOnce ω τ :=
  { g with workers := g.workers.erase worker }

theorem done_add [DecidableEq ω] (g : CloseOnce ω τ) {w w' : ω} (different : w' ≠ w) :
    (g.done w).add w' = (g.add w').done w := by
  simp only [add, done, Finset.erase_insert_of_ne different]

theorem closings_setClosing (g : CloseOnce ω τ) (call other : Nat) (phase : Closing τ) :
    (g.setClosing call phase).closings other = if other = call then phase else g.closings other :=
  Function.update_apply _ _ _ _

/-- Whoever works has been added, and only one call closes. -/
structure Orderly (works : ω → Prop) (g : CloseOnce ω τ) : Prop where
  employed : ∀ w, works w → w ∈ g.workers
  first : ∀ call taken, g.closings call = .stopping taken → g.closed = true ∧ g.closeDone = false ∧
    ∀ other taken', g.closings other = .stopping taken' → other = call
  idle : g.closeDone = true → g.closed = true ∧ g.workers = ∅
  returned : ∀ call, g.closings call = .returned → g.closeDone = true

namespace Orderly

variable {works works' : ω → Prop} {g : CloseOnce ω τ} {w : ω} {call : Nat}

section

variable (orderly : g.Orderly works)
include orderly

theorem mono (fewer : ∀ w, works' w → works w) : g.Orderly works' :=
  { orderly with employed := fun w isWorking => orderly.employed w (fewer w isWorking) }

theorem closeDone_eq_false (isWorking : works w) : g.closeDone = false := by
  cases isDone : g.closeDone with
  | false => rfl
  | true =>
    have member := orderly.employed w isWorking
    rw [(orderly.idle isDone).2] at member
    exact absurd member (Finset.notMem_empty w)

theorem closeDone_of_open (isOpen : g.closed = false) : g.closeDone = false := by
  cases isDone : g.closeDone with
  | false => rfl
  | true => exact absurd (orderly.idle isDone).1 (by rw [isOpen]; decide)

theorem add [DecidableEq ω] (notDone : g.closeDone = false) (more : ∀ w', works' w' → works w' ∨ w' = w) :
    (g.add w).Orderly works' := by
  refine { orderly with employed := ?_, idle := ?_ }
  · intro w' isWorking
    rcases more w' isWorking with before | rfl
    · exact Finset.mem_insert_of_mem (orderly.employed w' before)
    · exact Finset.mem_insert_self _ _
  · intro isDone
    exact absurd isDone (by rw [CloseOnce.add, notDone]; decide)

theorem done [DecidableEq ω] (fewer : ∀ w', works' w' → works w' ∧ w' ≠ w) : (g.done w).Orderly works' := by
  refine { orderly with employed := ?_, idle := ?_ }
  · intro w' isWorking
    obtain ⟨before, other⟩ := fewer w' isWorking
    exact Finset.mem_erase.mpr ⟨other, orderly.employed w' before⟩
  · intro isDone
    obtain ⟨isClosed, nobody⟩ := orderly.idle isDone
    exact ⟨isClosed, by rw [CloseOnce.done, nobody, Finset.erase_empty]⟩

/-- A call goes on; only the one that is stopping keeps on stopping. -/
theorem setClosing {phase : Closing τ}
    (stopping : ∀ taken, phase = .stopping taken → ∃ before, g.closings call = .stopping before)
    (returned : phase = .returned → g.closeDone = true) : (g.setClosing call phase).Orderly works := by
  have before {other : Nat} {taken : τ} (stops : (g.setClosing call phase).closings other = .stopping taken) :
      ∃ taken', g.closings other = .stopping taken' := by
    rw [closings_setClosing] at stops
    split at stops
    · next same => exact same ▸ stopping taken stops
    · exact ⟨taken, stops⟩
  refine { orderly with first := ?_, returned := ?_ }
  · intro other taken stops
    obtain ⟨taken', stops'⟩ := before stops
    obtain ⟨isClosed, notDone, only⟩ := orderly.first other taken' stops'
    refine ⟨isClosed, notDone, fun another taken stops => ?_⟩
    obtain ⟨_, stops⟩ := before stops
    exact only another _ stops
  · intro other hasReturned
    rw [closings_setClosing] at hasReturned
    split at hasReturned
    · exact returned hasReturned
    · exact orderly.returned other hasReturned

theorem begin_ (isOpen : g.closed = false) (taken : τ) : (g.begin_ call taken).Orderly works := by
  have nobody (other : Nat) (taken : τ) : g.closings other ≠ .stopping taken := by
    intro stops
    have isClosed := (orderly.first other taken stops).1
    rw [isOpen] at isClosed
    cases isClosed
  refine { orderly with first := ?_, idle := ?_, returned := ?_ }
  · intro other taken' stops
    rw [CloseOnce.begin_, closings_setClosing] at stops
    split at stops
    · next same =>
      refine ⟨rfl, orderly.closeDone_of_open isOpen, fun another taken stops => ?_⟩
      rw [CloseOnce.begin_, closings_setClosing] at stops
      split at stops
      · next same' => exact same'.trans same.symm
      · exact absurd stops (nobody another taken)
    · exact absurd stops (nobody other taken')
  · exact fun isDone => ⟨rfl, (orderly.idle isDone).2⟩
  · intro other hasReturned
    rw [CloseOnce.begin_, closings_setClosing] at hasReturned
    split at hasReturned
    · cases hasReturned
    · exact orderly.returned other hasReturned

theorem finish {taken : τ} (stops : g.closings call = .stopping taken) (nobody : g.workers = ∅) :
    (g.finish call).Orderly works := by
  obtain ⟨isClosed, -, only⟩ := orderly.first call taken stops
  refine { orderly with first := ?_, idle := fun _ => ⟨isClosed, nobody⟩, returned := fun _ _ => rfl }
  intro other taken' stops'
  rw [CloseOnce.finish, closings_setClosing] at stops'
  split at stops'
  · cases stops'
  · next different => exact absurd (only other taken' stops') different

/-- When a call has returned, nobody works and no call has anything left to stop. -/
theorem quiet (hasReturned : g.closings call = .returned) :
    g.closed = true ∧ (∀ w, ¬works w) ∧ ∀ other taken, g.closings other ≠ .stopping taken := by
  have isDone := orderly.returned call hasReturned
  refine ⟨(orderly.idle isDone).1, fun w isWorking => ?_, fun other taken stops => ?_⟩
  · have notDone := orderly.closeDone_eq_false isWorking
    rw [isDone] at notDone
    cases notDone
  · have notDone := (orderly.first other taken stops).2.1
    rw [isDone] at notDone
    cases notDone

end

theorem empty : ({} : CloseOnce ω τ).Orderly fun _ => False := by
  constructor <;> simp

end Orderly

end CloseOnce

end RadosGo
