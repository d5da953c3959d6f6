import Mathlib

namespace RadosGo

variable {m : Type → Type} [Monad m] {α β : Type} {x : m α} {f : α → m β}

/-- The computation only returns a value, which has the property. -/
def Gives (x : m α) (property : α → Prop) : Prop := ∃ a, x = pure a ∧ property a

theorem gives_pure {property : α → Prop} {a : α} (holds : property a) : Gives (pure a : m α) property :=
  ⟨a, rfl, holds⟩

theorem Gives.mono {property weaker : α → Prop} (gives : Gives x property) (implies : ∀ a, property a → weaker a) :
    Gives x weaker := by
  obtain ⟨a, eq, holds⟩ := gives
  exact ⟨a, eq, implies a holds⟩

theorem Gives.bind [LawfulMonad m] {property : α → Prop} {later : β → Prop} (first : Gives x property)
    (second : ∀ a, property a → Gives (f a) later) : Gives (x >>= f) later := by
  obtain ⟨a, rfl, holds⟩ := first
  rw [pure_bind]
  exact second a holds

end RadosGo
