import Mathlib

namespace RadosGo

variable {κ α : Type}

/-- An index finds exactly the members, each under its own key. -/
def Finds (index : κ → Option α) (key : α → κ) (members : List α) : Prop :=
  ∀ k x, index k = some x ↔ x ∈ members ∧ key x = k

variable {index : κ → Option α} {key key' : α → κ} {members : List α} {x y : α}

theorem finds_nil : Finds (fun _ => none) key [] := by simp [Finds]

theorem Finds.congr (finds : Finds index key members) (same : ∀ x ∈ members, key' x = key x) :
    Finds index key' members := fun k x => by
  rw [finds k x]
  exact and_congr_right fun member => by rw [same x member]

theorem Finds.injective (finds : Finds index key members) (left : x ∈ members) (right : y ∈ members)
    (same : key x = key y) : x = y := by
  have foundX := (finds (key x) x).mpr ⟨left, rfl⟩
  have foundY := (finds (key x) y).mpr ⟨right, same.symm⟩
  exact Option.some.inj (foundX.symm.trans foundY)

theorem Finds.none_iff (finds : Finds index key members) {k : κ} : index k = none ↔ ∀ x ∈ members, key x ≠ k := by
  rw [Option.eq_none_iff_forall_ne_some]
  exact forall_congr' fun x => by rw [ne_eq, finds k x, not_and]

variable [DecidableEq κ]

theorem Finds.append (finds : Finds index key members) (vacant : index (key x) = none) :
    Finds (Function.update index (key x) (some x)) key (members ++ [x]) := by
  have others := finds.none_iff.mp vacant
  intro k y
  rw [List.mem_append, List.mem_singleton]
  by_cases same : k = key x
  · subst same
    rw [Function.update_self, Option.some.injEq]
    constructor
    · rintro rfl
      exact ⟨.inr rfl, rfl⟩
    · rintro ⟨old | rfl, eq⟩
      · exact absurd eq (others y old)
      · rfl
  · rw [Function.update_of_ne same, finds k y]
    constructor
    · rintro ⟨old, eq⟩
      exact ⟨.inl old, eq⟩
    · rintro ⟨old | rfl, eq⟩
      · exact ⟨old, eq⟩
      · exact absurd eq.symm same

theorem Finds.erase [DecidableEq α] (finds : Finds index key members) (nodup : members.Nodup) (member : x ∈ members) :
    Finds (Function.update index (key x) none) key (members.erase x) := by
  intro k y
  rw [nodup.mem_erase_iff]
  by_cases same : k = key x
  · subst same
    rw [Function.update_self]
    exact iff_of_false nofun fun ⟨⟨other, listed⟩, eq⟩ => other (finds.injective listed member eq)
  · rw [Function.update_of_ne same, finds k y]
    constructor
    · rintro ⟨listed, eq⟩
      exact ⟨⟨fun equal => same (by rw [← eq, equal]), listed⟩, eq⟩
    · rintro ⟨⟨-, listed⟩, eq⟩
      exact ⟨listed, eq⟩

end RadosGo
