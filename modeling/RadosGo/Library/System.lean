import Mathlib

namespace RadosGo

/-- A transition system with labelled steps. -/
structure System (σ μ : Type) where
  start : σ → Prop
  step : σ → μ → σ → Prop

namespace System

variable {σ μ : Type}

/-- The states which runs reach when every step of the run is allowed, judged
by its label and the state before it. -/
inductive Reaches (S : System σ μ) (allowed : σ → μ → Prop) : σ → Prop
  | start {s} : S.start s → Reaches S allowed s
  | next {s t label} : Reaches S allowed s → S.step s label t → allowed s label → Reaches S allowed t

variable {S : System σ μ} {allowed allowed' : σ → μ → Prop} {s : σ}

theorem Reaches.mono (reach : S.Reaches allowed s) (weaker : ∀ s label, allowed s label → allowed' s label) :
    S.Reaches allowed' s := by
  induction reach with
  | start first => exact .start first
  | next _ step allow ih => exact .next ih step (weaker _ _ allow)

/-- What holds at the start and survives every allowed step holds in every
reached state. -/
theorem Reaches.invariant (Inv : σ → Prop) (reach : S.Reaches allowed s)
    (initially : ∀ s, S.start s → Inv s)
    (preserved : ∀ s label t, Inv s → S.step s label t → allowed s label → Inv t) : Inv s := by
  induction reach with
  | start first => exact initially _ first
  | next _ step allow ih => exact preserved _ _ _ ih step allow

/-- Steps which can be made one after the other, where `next` computes them. -/
def Follows (S : System σ μ) (allowed : σ → μ → Prop) (next : σ → μ → σ) : σ → List μ → Prop
  | _, [] => True
  | s, label :: rest => S.step s label (next s label) ∧ allowed s label ∧ S.Follows allowed next (next s label) rest

instance Follows.decidable {next : σ → μ → σ} [∀ s label, Decidable (S.step s label (next s label))]
    [∀ s label, Decidable (allowed s label)] : ∀ s labels, Decidable (S.Follows allowed next s labels)
  | _, [] => .isTrue trivial
  | s, label :: rest =>
    have : Decidable (S.Follows allowed next (next s label) rest) := Follows.decidable _ rest
    inferInstanceAs (Decidable (_ ∧ _ ∧ _))

theorem Reaches.follow {next : σ → μ → σ} {labels : List μ} (reach : S.Reaches allowed s)
    (follows : S.Follows allowed next s labels) : S.Reaches allowed (labels.foldl next s) := by
  induction labels generalizing s with
  | nil => exact reach
  | cons label rest ih => exact ih (.next reach follows.1 follows.2.1) follows.2.2

/-- The states which allowed steps lead to from a given one. -/
inductive Path (S : System σ μ) (allowed : σ → μ → Prop) (s : σ) : σ → Prop
  | refl : Path S allowed s s
  | next {t u label} : Path S allowed s t → S.step t label u → allowed t label → Path S allowed s u

theorem Path.single {t : σ} {label : μ} (step : S.step s label t) (allow : allowed s label) :
    S.Path allowed s t := .next .refl step allow

theorem Path.trans {t u : σ} (first : S.Path allowed s t) (second : S.Path allowed t u) : S.Path allowed s u := by
  induction second with
  | refl => exact first
  | next _ step allow ih => exact .next ih step allow

theorem Path.follow {next : σ → μ → σ} {labels : List μ} (follows : S.Follows allowed next s labels) :
    S.Path allowed s (labels.foldl next s) := by
  suffices ∀ t, S.Path allowed s t → S.Follows allowed next t labels → S.Path allowed s (labels.foldl next t) from
    this s .refl follows
  clear follows
  induction labels with
  | nil => exact fun t path _ => path
  | cons label rest ih => exact fun t path follows => ih _ (.next path follows.1 follows.2.1) follows.2.2

theorem Path.mono {t : σ} (path : S.Path allowed s t)
    (weaker : ∀ s label, allowed s label → allowed' s label) : S.Path allowed' s t := by
  induction path with
  | refl => exact .refl
  | next _ step allow ih => exact .next ih step (weaker _ _ allow)

theorem Reaches.extend {t : σ} (reach : S.Reaches allowed s) (path : S.Path allowed s t) : S.Reaches allowed t := by
  induction path with
  | refl => exact reach
  | next _ step allow ih => exact .next ih step allow

/-- A concrete system whose steps are paths of an abstract one, as long as its
own invariant holds, only reaches states whose abstractions are reached too. -/
theorem Reaches.refine {τ ν : Type} {C : System τ ν} {admissible : τ → ν → Prop} {Inv : τ → Prop}
    {abstraction : τ → σ} {c : τ} (reach : C.Reaches admissible c)
    (initially : ∀ c, C.start c → Inv c ∧ S.Reaches allowed (abstraction c))
    (preserved : ∀ c label d, Inv c → S.Reaches allowed (abstraction c) → C.step c label d → admissible c label →
      Inv d ∧ S.Path allowed (abstraction c) (abstraction d)) :
    Inv c ∧ S.Reaches allowed (abstraction c) := by
  induction reach with
  | start first => exact initially _ first
  | next _ step allow ih =>
    obtain ⟨inv, path⟩ := preserved _ _ _ ih.1 ih.2 step allow
    exact ⟨inv, ih.2.extend path⟩

end System

end RadosGo
