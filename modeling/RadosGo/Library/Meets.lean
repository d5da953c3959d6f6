import Mathlib

namespace RadosGo

variable {ε α β σ : Type}

section Bind

variable {first : Except ε α} {next : α → Except ε β}

theorem except_bind_ok {result : β} (run : first >>= next = .ok result) :
    ∃ value, first = .ok value ∧ next value = .ok result := by
  cases first with
  | error err => cases run
  | ok value => exact ⟨value, rfl, run⟩

theorem except_bind_error {err : ε} (failed : (first >>= next) = .error err) :
    first = .error err ∨ ∃ value, first = .ok value ∧ next value = .error err := by
  cases first with
  | error cause => exact .inl (congrArg _ (Except.error.inj failed))
  | ok value => exact .inr ⟨value, rfl, failed⟩

theorem except_bind_eq {value : α} (run : first = .ok value) : first >>= next = next value := by
  subst run
  rfl

end Bind

theorem mem_mapM_ok {f : α → Except ε β} {items : List α} {results : List β} (ran : items.mapM f = .ok results)
    {value : β} (member : value ∈ results) : ∃ item ∈ items, f item = .ok value := by
  induction items generalizing results with
  | nil =>
    obtain rfl : [] = results := Except.ok.inj ran
    cases member
  | cons item rest ih =>
    rw [List.mapM_cons] at ran
    obtain ⟨first, here, ran⟩ := except_bind_ok ran
    obtain ⟨others, there, ran⟩ := except_bind_ok ran
    obtain rfl : first :: others = results := Except.ok.inj ran
    rcases List.mem_cons.mp member with rfl | later
    · exact ⟨item, List.mem_cons_self, here⟩
    · obtain ⟨other, inRest, result⟩ := ih there later
      exact ⟨other, List.mem_cons_of_mem _ inRest, result⟩

variable {tolerated : ε → Prop} {x : Except ε α} {property : α → Prop}

/-- A result has the property; an error is one that is tolerated. -/
def Meets (tolerated : ε → Prop) (x : Except ε α) (property : α → Prop) : Prop :=
  match x with
  | .ok value => property value
  | .error err => tolerated err

variable {value : α} {err : ε} {step : σ → α → Except ε σ} {state : σ}

theorem meets_pure (holds : property value) : Meets tolerated (pure value) property := holds

theorem meets_error (tolerates : tolerated err) : Meets tolerated (.error err) property := tolerates

theorem Meets.mono {weaker : α → Prop} (meets : Meets tolerated x property)
    (implies : ∀ value, property value → weaker value) : Meets tolerated x weaker := by
  cases x with
  | error err => exact meets
  | ok value => exact implies value meets

theorem Meets.bind {next : α → Except ε β} {later : β → Prop} (first : Meets tolerated x property)
    (second : ∀ value, property value → Meets tolerated (next value) later) : Meets tolerated (x >>= next) later := by
  cases x with
  | error err => exact first
  | ok value => exact second value first

/-- A loop keeps what each of its rounds keeps. -/
theorem meets_foldlM {inv : σ → Prop} (values : List α)
    (steps : ∀ state, ∀ value ∈ values, inv state → Meets tolerated (step state value) inv) (start : inv state) :
    Meets tolerated (values.foldlM step state) inv := by
  induction values generalizing state with
  | nil => exact start
  | cons value values ih =>
    rw [List.foldlM_cons]
    refine (steps state value List.mem_cons_self start).bind fun after holds => ?_
    exact ih (fun state value member => steps state value (List.mem_cons_of_mem _ member)) holds

/-- The invariant of a loop may name the values that were handled so far. -/
theorem foldlM_history (inv : List α → σ → Prop)
    (steps : ∀ {handled state value after}, inv handled state → step state value = .ok after →
      inv (handled ++ [value]) after)
    (handled : List α) {values : List α} {after : σ} (start : inv handled state)
    (run : values.foldlM step state = .ok after) : inv (handled ++ values) after := by
  induction values generalizing handled state with
  | nil =>
    cases run
    rwa [List.append_nil]
  | cons value values ih =>
    rw [List.foldlM_cons] at run
    obtain ⟨middle, ran, run⟩ := except_bind_ok run
    have done := ih _ (steps start ran) run
    rwa [List.append_assoc] at done

theorem Meets.of_ok (meets : Meets tolerated x property) (ok : x = .ok value) : property value := by
  subst ok
  exact meets

theorem Meets.of_error (meets : Meets tolerated x property) (failed : x = .error err) : tolerated err := by
  subst failed
  exact meets

end RadosGo
