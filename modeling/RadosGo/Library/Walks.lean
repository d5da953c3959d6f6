import Mathlib

namespace RadosGo

variable {α : Type} {next : α → α → Prop}

/-- A walk of the given number of steps. -/
inductive Walk (next : α → α → Prop) : Nat → α → α → Prop
  | refl {a} : Walk next 0 a a
  | step {n a b c} : Walk next n a b → next b c → Walk next (n + 1) a c

/-- A walk of that many steps begins at the point. -/
def HasWalk (next : α → α → Prop) (n : Nat) (a : α) : Prop := ∃ b, Walk next n a b

variable {m n : Nat} {a b c : α}

theorem Walk.trans (first : Walk next m a b) (second : Walk next n b c) : Walk next (m + n) a c := by
  induction second with
  | refl => exact first
  | step _ last ih => exact .step (ih first) last

theorem hasWalk_zero (a : α) : HasWalk next 0 a := ⟨a, .refl⟩

theorem HasWalk.cons (first : next a b) (rest : HasWalk next n b) : HasWalk next (n + 1) a := by
  obtain ⟨c, walk⟩ := rest
  exact ⟨c, n.add_comm 1 ▸ (Walk.step .refl first).trans walk⟩

theorem HasWalk.behind (walk : Walk next m a b) (rest : HasWalk next n b) : HasWalk next (m + n) a := by
  obtain ⟨c, rest⟩ := rest
  exact ⟨c, walk.trans rest⟩

theorem HasWalk.shorter (walk : HasWalk next n a) (less : m ≤ n) : HasWalk next m a := by
  obtain ⟨b, walk⟩ := walk
  induction walk with
  | refl => exact Nat.le_zero.mp less ▸ hasWalk_zero _
  | @step n a b c before last ih =>
    rcases Nat.lt_or_eq_of_le less with less | rfl
    · exact ih (Nat.le_of_lt_succ less)
    · exact ⟨c, .step before last⟩

theorem Walk.uncons (walk : Walk next (n + 1) a c) : ∃ b, next a b ∧ Walk next n b c := by
  generalize length : n + 1 = steps at walk
  induction walk generalizing n with
  | refl => cases length
  | @step steps a b c before last ih =>
    cases Nat.succ.inj length
    cases steps with
    | zero =>
      cases before
      exact ⟨c, last, .refl⟩
    | succ steps =>
      obtain ⟨first, out, rest⟩ := ih rfl
      exact ⟨first, out, .step rest last⟩

/-- A walk is a chain of points. -/
theorem hasWalk_iff_chain : HasWalk next n a ↔ ∃ rest : List α, rest.length = n ∧ (a :: rest).IsChain next := by
  induction n generalizing a with
  | zero => exact ⟨fun _ => ⟨[], rfl, .singleton a⟩, fun _ => hasWalk_zero a⟩
  | succ n ih =>
    constructor
    · rintro ⟨c, walk⟩
      obtain ⟨b, first, rest⟩ := walk.uncons
      obtain ⟨rest, length, chain⟩ := ih.mp ⟨c, rest⟩
      exact ⟨b :: rest, congrArg (· + 1) length, .cons_cons first chain⟩
    · rintro ⟨rest, length, chain⟩
      obtain ⟨b, rest, rfl⟩ := List.exists_cons_of_length_eq_add_one length
      rw [List.isChain_cons_cons] at chain
      exact HasWalk.cons chain.1 (ih.mpr ⟨rest, Nat.succ.inj length, chain.2⟩)

/-- Walks around a cycle have any length. -/
theorem hasWalk_of_cycle {k : Nat} (cycle : Walk next (k + 1) a a) (n : Nat) : HasWalk next n a := by
  have around : ∀ rounds, Walk next (rounds * (k + 1)) a a := by
    intro rounds
    induction rounds with
    | zero => exact (Nat.zero_mul (k + 1)).symm ▸ .refl
    | succ rounds ih => exact (Nat.succ_mul rounds (k + 1)).symm ▸ ih.trans cycle
  exact HasWalk.shorter ⟨a, around n⟩ (Nat.le_mul_of_pos_right n (Nat.succ_pos k))

/-- A rank that every step lowers bounds the walks. -/
theorem Walk.rank (rank : α → Nat) (lowers : ∀ a b, next a b → rank b < rank a) (walk : Walk next n a b) :
    rank b + n ≤ rank a := by
  induction walk with
  | refl => exact Nat.le_refl _
  | step _ last ih =>
    have lower := lowers _ _ last
    omega

open Classical in
/-- Where the walks are bounded there is such a rank: the length of the longest walk. -/
theorem exists_rank {bound : Nat} (bounded : ∀ a, ¬HasWalk next bound a) :
    ∃ rank : α → Nat, (∀ a, rank a < bound) ∧ ∀ a b, next a b → rank b < rank a := by
  let rank (a : α) : Nat := Nat.findGreatest (fun n => HasWalk next n a) bound
  have longest (a : α) : HasWalk next (rank a) a :=
    Nat.findGreatest_spec (P := fun n => HasWalk next n a) (Nat.zero_le bound) (hasWalk_zero a)
  have small (a : α) : rank a < bound := by
    refine Nat.lt_of_le_of_ne (Nat.findGreatest_le bound) fun same => ?_
    exact bounded a (same ▸ longest a)
  refine ⟨rank, small, fun a b first => ?_⟩
  exact Nat.le_findGreatest (small b) ((longest b).cons first)

end RadosGo
