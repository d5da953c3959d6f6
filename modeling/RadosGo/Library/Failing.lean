import Mathlib

namespace RadosGo

/-- A computation that changes a state and may fail. The state stays changed if it fails. -/
abbrev Failing (ε σ : Type) := ExceptT ε (StateM σ)

namespace Failing

variable {ε σ α β : Type} {x : Failing ε σ α} {f : α → Failing ε σ β} {s t : σ} {a : α}

def exec (x : Failing ε σ α) (s : σ) : Except ε α × σ := x.run.run s

@[simp] theorem exec_pure (a : α) (s : σ) : (pure a : Failing ε σ α).exec s = (.ok a, s) := rfl

@[simp] theorem exec_throw (err : ε) (s : σ) : (throw err : Failing ε σ α).exec s = (.error err, s) := rfl

@[simp] theorem exec_get (s : σ) : (get : Failing ε σ σ).exec s = (.ok s, s) := rfl

@[simp] theorem exec_set (t s : σ) : (set t : Failing ε σ PUnit).exec s = (.ok ⟨⟩, t) := rfl

@[simp] theorem exec_modify (change : σ → σ) (s : σ) :
    (modify change : Failing ε σ PUnit).exec s = (.ok ⟨⟩, change s) := rfl

theorem exec_ofExcept (result : Except ε α) (s : σ) :
    (MonadExcept.ofExcept result : Failing ε σ α).exec s = (result, s) := by
  cases result with
  | error err => rfl
  | ok a => rfl

theorem exec_bind (run : x.exec s = (.ok a, t)) : (x >>= f).exec s = (f a).exec t := by
  have raw : x s = (.ok a, t) := run
  change (match x s with
    | (result, t) => (ExceptT.bindCont f result : StateM σ _) t) = _
  rw [raw]
  rfl

theorem exec_bind_error {err : ε} (run : x.exec s = (.error err, t)) : (x >>= f).exec s = (.error err, t) := by
  have raw : x s = (.error err, t) := run
  change (match x s with
    | (result, t) => (ExceptT.bindCont f result : StateM σ _) t) = _
  rw [raw]
  rfl

section Invariants

/-- A computation keeps what holds of the state, whether it fails or not. -/
def Keeps (inv : σ → Prop) (x : Failing ε σ α) : Prop := ∀ s, inv s → inv (x.exec s).2

variable {inv : σ → Prop}

theorem Keeps.bind (first : Keeps inv x) (second : ∀ a, Keeps inv (f a)) : Keeps inv (x >>= f) := by
  intro s holds
  have after := first s holds
  match run : x.exec s with
  | (.ok a, t) =>
    rw [run] at after
    rw [exec_bind run]
    exact second a t after
  | (.error err, t) =>
    rw [run] at after
    rw [exec_bind_error run]
    exact after

theorem keeps_pure (a : α) : Keeps inv (pure a : Failing ε σ α) := fun _ holds => holds

theorem keeps_throw (err : ε) : Keeps inv (throw err : Failing ε σ α) := fun _ holds => holds

theorem keeps_get : Keeps inv (get : Failing ε σ σ) := fun _ holds => holds

theorem keeps_ofExcept (result : Except ε α) : Keeps inv (MonadExcept.ofExcept result : Failing ε σ α) := by
  intro s holds
  rw [exec_ofExcept]
  exact holds

theorem Keeps.ite {c : Prop} [Decidable c] {y : Failing ε σ α} (first : Keeps inv x) (second : Keeps inv y) :
    Keeps inv (if c then x else y) := by
  split
  · exact first
  · exact second

end Invariants

end Failing

end RadosGo
