import Mathlib

namespace RadosGo

variable {α : Type} {hole : α} {values : List α}

/-- No value occurs twice, apart from the hole. -/
def Distinct (hole : α) (values : List α) : Prop := values.Pairwise fun first second => first ≠ hole → first ≠ second

theorem distinct_symm {first second : α} (apart : first ≠ hole → first ≠ second) : second ≠ hole →
    second ≠ first := by
  rintro full rfl
  exact apart full rfl

theorem Distinct.of_nodup (nodup : values.Nodup) : Distinct hole values :=
  List.Pairwise.imp (S := fun first second => first ≠ hole → first ≠ second) (fun apart _ => apart) nodup

theorem Distinct.perm {other : List α} (distinct : Distinct hole values) (perm : values.Perm other) :
    Distinct hole other :=
  (perm.pairwise_iff distinct_symm).mp distinct

theorem Distinct.nodup (distinct : Distinct hole values) (full : hole ∉ values) : values.Nodup := by
  refine List.Pairwise.imp_of_mem (fun {first second} member _ apart => ?_) distinct
  exact apart fun same => full (same ▸ member)

theorem Distinct.set {value : α} (distinct : Distinct hole values) (fresh : value ∉ values) (index : Nat) :
    Distinct hole (values.set index value) := by
  by_cases within : index < values.length
  · rw [List.set_eq_take_append_cons_drop, if_pos within]
    refine Distinct.perm ?_ List.perm_middle.symm
    have rest : (values.take index ++ values.drop (index + 1)).Sublist values := by
      conv_rhs => rw [← List.take_append_drop index values]
      exact (List.Sublist.refl _).append (List.drop_sublist_drop_left _ (Nat.le_succ index))
    refine List.pairwise_cons.mpr ⟨fun other member _ same => ?_, List.Pairwise.sublist rest distinct⟩
    exact fresh (same ▸ rest.subset member)
  · rwa [List.set_eq_of_length_le (Nat.le_of_not_lt within)]

end RadosGo
