import RadosGo.Library.System

namespace RadosGo

namespace System

variable {σ μ : Type} {S : System σ μ} {allowed : σ → μ → Prop}

/-- An infinite run. It may pause, so that a run which ends is one which pauses
forever. -/
structure Run (S : System σ μ) (allowed : σ → μ → Prop) where
  state : Nat → σ
  label : Nat → Option μ
  start : S.start (state 0)
  step : ∀ i label', label i = some label' → S.step (state i) label' (state (i + 1)) ∧ allowed (state i) label'
  pause : ∀ i, label i = none → state (i + 1) = state i

namespace Run

variable (run : S.Run allowed)

theorem reaches (i : Nat) : S.Reaches allowed (run.state i) := by
  induction i with
  | zero => exact .start run.start
  | succ i ih =>
    cases taken : run.label i with
    | none => exact run.pause i taken ▸ ih
    | some label =>
      obtain ⟨step, allow⟩ := run.step i label taken
      exact .next ih step allow

/-- What holds at some time and survives every allowed step holds from then on. -/
theorem persists (Inv : σ → Prop) {i j : Nat} (holds : Inv (run.state i)) (later : i ≤ j)
    (preserved : ∀ s label t, Inv s → S.step s label t → allowed s label → Inv t) : Inv (run.state j) := by
  induction j, later using Nat.le_induction with
  | base => exact holds
  | succ j _ ih =>
    cases taken : run.label j with
    | none => exact run.pause j taken ▸ ih
    | some label =>
      obtain ⟨step, allow⟩ := run.step j label taken
      exact preserved _ _ _ ih step allow

/-- A process, given by the labels of its steps, which can always make a step
does make one. -/
def WeakFair (mine : μ → Prop) : Prop :=
  ∀ i, (∀ j, i ≤ j → ∃ label t, mine label ∧ S.step (run.state j) label t) →
    ∃ j label, i ≤ j ∧ run.label j = some label ∧ mine label

variable {run}

/-- A fair process reaches the goal if it can always go on, nobody takes it
further away, and each of its own steps takes it closer. -/
theorem WeakFair.leads {mine : μ → Prop} (fair : run.WeakFair mine) (Inv Goal : σ → Prop) (rank : σ → Nat)
    (able : ∀ s, Inv s → ¬Goal s → ∃ label t, mine label ∧ S.step s label t)
    (closer : ∀ s label t, Inv s → ¬Goal s → S.step s label t → allowed s label →
      Goal t ∨ (Inv t ∧ rank t ≤ rank s ∧ (mine label → rank t < rank s)))
    {i : Nat} (holds : Inv (run.state i)) : ∃ j, i ≤ j ∧ Goal (run.state j) := by
  induction distance : rank (run.state i) using Nat.strong_induction_on generalizing i with
  | _ bound ih =>
    by_contra never
    push Not at never
    -- Without the goal the invariant stays, and the rank does not grow.
    have stays : ∀ j, i ≤ j → Inv (run.state j) ∧ rank (run.state j) ≤ bound := by
      intro j later
      induction j, later using Nat.le_induction with
      | base => exact ⟨holds, distance.le⟩
      | succ j later stay =>
        cases taken : run.label j with
        | none => exact run.pause j taken ▸ stay
        | some label =>
          obtain ⟨step, allow⟩ := run.step j label taken
          rcases closer _ _ _ stay.1 (never j later) step allow with goal | ⟨inv, le, -⟩
          · exact absurd goal (never (j + 1) (by omega))
          · exact ⟨inv, le.trans stay.2⟩
    obtain ⟨j, label, later, taken, own⟩ := fair i fun j later => able _ (stays j later).1 (never j later)
    obtain ⟨step, allow⟩ := run.step j label taken
    rcases closer _ _ _ (stays j later).1 (never j later) step allow with goal | ⟨inv, -, less⟩
    · exact never (j + 1) (by omega) goal
    · obtain ⟨k, after, goal⟩ := ih _ ((less own).trans_le (stays j later).2) inv rfl
      exact never k (by omega) goal

end Run

section Finite

variable {next : σ → μ → σ} {s : σ} {labels : List μ}

theorem Follows.step_at (follows : S.Follows allowed next s labels) {i : Nat} {label : μ}
    (taken : labels[i]? = some label) :
    S.step ((labels.take i).foldl next s) label ((labels.take (i + 1)).foldl next s) ∧
      allowed ((labels.take i).foldl next s) label := by
  induction labels generalizing s i with
  | nil => simp at taken
  | cons first rest ih =>
    cases i with
    | zero =>
      cases taken
      exact ⟨follows.1, follows.2.1⟩
    | succ i => exact ih follows.2.2 (by simpa using taken)

/-- The run which makes the given steps and then pauses. -/
def Follows.run (follows : S.Follows allowed next s labels) (first : S.start s) : S.Run allowed where
  state i := (labels.take i).foldl next s
  label i := labels[i]?
  start := first
  step _ _ taken := follows.step_at taken
  pause i ended := by
    have short : labels.length ≤ i := List.getElem?_eq_none_iff.mp ended
    rw [List.take_of_length_le short, List.take_of_length_le (by omega)]

/-- It is fair to a process that can make no step at its end. -/
theorem Follows.run_weakFair (follows : S.Follows allowed next s labels) (first : S.start s) {mine : μ → Prop}
    (stuck : ∀ label t, mine label → ¬S.step (labels.foldl next s) label t) :
    (follows.run first).WeakFair mine := by
  intro i able
  obtain ⟨label, t, own, step⟩ := able (i + labels.length) (by omega)
  have ended : (follows.run first).state (i + labels.length) = labels.foldl next s := by
    simp only [Follows.run]
    rw [List.take_of_length_le (by omega)]
  exact absurd (ended ▸ step) (stuck label t own)

end Finite

end System

end RadosGo
