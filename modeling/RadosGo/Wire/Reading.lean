import RadosGo.Wire.Codec

namespace RadosGo.Decoding

variable {α β σ : Type} {x : Decoding α} {f : α → Decoding β} {d d' : Decoder}

theorem eval_bind_ok {b : β} (read : (x >>= f).eval d = (.ok b, d')) :
    ∃ a middle, x.eval d = (.ok a, middle) ∧ (f a).eval middle = (.ok b, d') := by
  match run : x.eval d with
  | (.ok a, middle) =>
    rw [eval_bind run] at read
    exact ⟨a, middle, rfl, read⟩
  | (.error err, middle) =>
    rw [eval_bind_error run] at read
    cases read

theorem eval_finish (fine : d.err = none) : finish.eval d = (.ok (), d) := by
  rw [finish, eval_bind (eval_get d), fine]
  rfl

theorem eval_remaining (d : Decoder) : remaining.eval d = (.ok d.data.length, d) := rfl

theorem eval_ofExcept (result : Except GoError α) (d : Decoder) :
    (MonadExcept.ofExcept result : Decoding α).eval d = (result, d) := by
  cases result with
  | error err => rfl
  | ok value => rfl

theorem Yields.after {later : β → Prop} (second : ∀ a, Yields (f a) later) : Yields (x >>= f) later :=
  (Yields.any x).bind fun a _ => second a

variable {property : α → Prop} {add : σ → α → Except GoError σ} {state : σ}

theorem yields_int32 : Yields int32 fun value => -2 ^ 31 ≤ value ∧ value < 2 ^ 31 :=
  Yields.after fun value => yields_pure (bmod_two_pow_bounds 31 value)

/-- A loop that adds what it reads does what reading everything first would do. -/
theorem readFold_ok {count : Nat} {after : σ} (run : (readFold x add count state).eval d = (.ok after, d')) :
    ∃ values, (readMany x count).eval d = (.ok values, d') ∧ values.foldlM add state = .ok after := by
  induction count generalizing state d with
  | zero =>
    cases run
    exact ⟨[], rfl, rfl⟩
  | succ count ih =>
    obtain ⟨value, middle, read, run⟩ := eval_bind_ok run
    obtain ⟨next, same, added, run⟩ := eval_bind_ok run
    rw [eval_ofExcept] at added
    obtain ⟨ok, rfl⟩ := Prod.mk.inj added
    obtain ⟨values, reads, folds⟩ := ih run
    refine ⟨value :: values, ?_, ?_⟩
    · rw [readMany, eval_bind read, eval_bind reads]
      rfl
    · rw [List.foldlM_cons, ok]
      exact folds

/-- What is added in each round keeps what holds of the state. -/
theorem yields_readFold {inv : σ → Prop} (reads : Yields x property)
    (adds : ∀ {state value after}, inv state → property value → add state value = .ok after → inv after) (count : Nat)
    (start : inv state) : Yields (readFold x add count state) inv := by
  induction count generalizing state with
  | zero => exact yields_pure start
  | succ count ih =>
    refine reads.bind fun value holds => ?_
    cases added : add state value with
    | error err => exact yields_throw err inv
    | ok after => exact ih (adds start holds added)

end RadosGo.Decoding
