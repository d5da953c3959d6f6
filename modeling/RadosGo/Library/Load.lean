import Mathlib

namespace RadosGo

variable {α β : Type}

/-- The sum of the weights which a store holds under the given keys. -/
def load (weight : β → Nat) (store : α → β) (keys : List α) : Nat := (keys.map fun key => weight (store key)).sum

@[simp] theorem load_nil (weight : β → Nat) (store : α → β) : load weight store [] = 0 := rfl

theorem load_concat (weight : β → Nat) (store : α → β) (keys : List α) (key : α) :
    load weight store (keys ++ [key]) = load weight store keys + weight (store key) := by
  simp [load]

variable {weight : β → Nat} {store : α → β} {keys : List α} {key : α}

theorem load_congr {store' : α → β} (same : ∀ key ∈ keys, weight (store key) = weight (store' key)) :
    load weight store keys = load weight store' keys :=
  congrArg List.sum (List.map_congr_left same)

/-- A load of zeros and ones counts. -/
theorem load_eq_countP (test : β → Bool) (store : α → β) (keys : List α) :
    load (fun value => if test value then 1 else 0) store keys = keys.countP fun key => test (store key) := by
  induction keys with
  | nil => rfl
  | cons key rest ih =>
    simp only [load, List.map_cons, List.sum_cons] at ih ⊢
    rw [List.countP_cons, ih, Nat.add_comm]

/-- A load of weights that pass a test is the sum over what passes it. -/
theorem load_eq_sum_filter (test : β → Bool) (weight : β → Nat) (store : α → β) (keys : List α) :
    load (fun value => if test value then weight value else 0) store keys =
      ((keys.filter fun key => test (store key)).map fun key => weight (store key)).sum := by
  induction keys with
  | nil => rfl
  | cons key rest ih =>
    simp only [load, List.map_cons, List.sum_cons] at ih ⊢
    rw [ih]
    by_cases passes : test (store key) = true <;> simp [passes]

variable [DecidableEq α]

theorem load_erase (weight : β → Nat) (store : α → β) (member : key ∈ keys) :
    load weight store (keys.erase key) + weight (store key) = load weight store keys := by
  have perm := (List.perm_cons_erase member).map fun key => weight (store key)
  simp only [load, perm.sum_eq, List.map_cons, List.sum_cons, Nat.add_comm]

theorem load_update_of_not_mem {value : β} (absent : key ∉ keys) :
    load weight (Function.update store key value) keys = load weight store keys :=
  load_congr fun other member => by rw [Function.update_of_ne (ne_of_mem_of_not_mem member absent)]

theorem load_update (weight : β → Nat) (store : α → β) (value : β) (nodup : keys.Nodup) (member : key ∈ keys) :
    load weight (Function.update store key value) keys + weight (store key) =
      load weight store keys + weight value := by
  have before := load_erase weight store member
  have after := load_erase weight (Function.update store key value) member
  rw [load_update_of_not_mem nodup.not_mem_erase, Function.update_self] at after
  omega

end RadosGo
