import RadosGo.Crush.Choose

namespace RadosGo.Crush

/-- The first place below `n` with the highest value. -/
structure FirstMax (values : Nat → Int) (n place : Nat) : Prop where
  within : place < n
  highest : ∀ i < n, values i ≤ values place
  first : ∀ i < place, values i < values place

namespace FirstMax

variable {values values' : Nat → Int} {n place place' k : Nat}

theorem unique (left : FirstMax values n place) (right : FirstMax values n place') : place = place' := by
  rcases Nat.lt_trichotomy place place' with less | same | less
  · exact absurd (right.first place less) (not_lt.mpr (left.highest place' right.within))
  · exact same
  · exact absurd (left.first place' less) (not_lt.mpr (right.highest place left.within))

/-- When only the value at one place rises, the maximum stays or moves there. -/
theorem raise (before : FirstMax values n place) (after : FirstMax values' n place')
    (same : ∀ i ≠ k, values' i = values i) (grows : values k ≤ values' k) : place' = place ∨ place' = k := by
  by_cases moved : place' = k
  · exact .inr moved
  · have le (i : Nat) : values i ≤ values' i := by
      by_cases isK : i = k
      · exact isK ▸ grows
      · exact (same i isK).ge
    refine .inl (FirstMax.unique ⟨after.within, fun i within => ?_, fun i less => ?_⟩ before)
    · exact (le i).trans ((after.highest i within).trans_eq (same place' moved))
    · exact (le i).trans_lt ((after.first i less).trans_eq (same place' moved))

theorem succ (before : FirstMax values n place) :
    FirstMax values (n + 1) (if values n > values place then n else place) := by
  split
  · next higher =>
    refine ⟨Nat.lt_succ_self n, fun i within => ?_, fun i less => (before.highest i less).trans_lt higher⟩
    rcases Nat.lt_succ_iff_lt_or_eq.mp within with less | rfl
    · exact (before.highest i less).trans higher.le
    · exact le_rfl
  · next lower =>
    refine ⟨before.within.trans (Nat.lt_succ_self n), fun i within => ?_, before.first⟩
    rcases Nat.lt_succ_iff_lt_or_eq.mp within with less | rfl
    · exact before.highest i less
    · exact not_lt.mp lower

end FirstMax

section Draws

variable {bucket : Bucket} {seed : UInt32} {replica : Nat}

/-- The draws of the loop are the values of a function. -/
def Draws (bucket : Bucket) (seed : UInt32) (replica : Nat) (weights : List Nat) (index : Nat)
    (values : Nat → Int) : Prop :=
  ∀ i (within : i < weights.length), draw bucket seed replica (index + i) weights[i] = .ok (values (index + i))

/-- The loop finds the first of the highest draws. -/
theorem highest_firstMax {values : Nat → Int} {weights : List Nat} {index high : Nat} {highDraw : Int}
    (draws : Draws bucket seed replica weights index values) (some : 0 < index + weights.length)
    (so_far : 0 < index → FirstMax values index high ∧ highDraw = values high) :
    ∃ place, highest bucket seed replica weights index high highDraw = .ok place ∧
      FirstMax values (index + weights.length) place := by
  induction weights generalizing index high highDraw with
  | nil => exact ⟨high, rfl, (so_far some).1⟩
  | cons weight weights ih =>
    have first : draw bucket seed replica index weight = .ok (values index) := draws 0 (Nat.zero_lt_succ _)
    have rest : Draws bucket seed replica weights (index + 1) values := by
      intro i within
      have later := draws (i + 1) (Nat.succ_lt_succ within)
      rwa [← Nat.add_assoc, Nat.add_right_comm] at later
    rw [highest, List.length_cons, ← Nat.add_assoc, Nat.add_right_comm, except_bind_eq first]
    rcases Nat.eq_zero_or_pos index with rfl | started
    · rw [if_pos (.inl rfl)]
      exact ih rest (by omega) fun _ =>
        ⟨⟨Nat.zero_lt_one, fun i within => by rw [Nat.lt_one_iff.mp within], by simp⟩, rfl⟩
    · obtain ⟨maximum, rfl⟩ := so_far started
      have next := maximum.succ
      by_cases higher : values index > values high
      · rw [if_pos (.inr higher)]
        rw [if_pos higher] at next
        exact ih rest (by omega) fun _ => ⟨next, rfl⟩
      · rw [if_neg (by omega)]
        rw [if_neg higher] at next
        exact ih rest (by omega) fun _ => ⟨next, rfl⟩

theorem minInt64_lt_drawn {distance weight : Nat} (small : distance ≤ 2 ^ 48) (positive : weight ≠ 0) :
    minInt64 < drawn distance weight := by
  rw [drawn, if_neg positive, minInt64]
  have := Nat.div_le_self distance weight
  omega

/-- A larger weight draws at least as high. -/
theorem drawn_le {distance weight weight' : Nat} (small : distance ≤ 2 ^ 48) (le : weight ≤ weight') :
    drawn distance weight ≤ drawn distance weight' := by
  by_cases zero : weight = 0
  · by_cases zero' : weight' = 0
    · rw [zero, zero']
    · rw [drawn, if_pos zero]
      exact (minInt64_lt_drawn small zero').le
  · rw [drawn, drawn, if_neg zero, if_neg (by omega)]
    exact neg_le_neg (Int.ofNat_le.mpr (Nat.div_le_div_left le (Nat.pos_of_ne_zero zero)))

end Draws

/-- The place of the item that `straw2Choose` takes. -/
def straw2Place (bucket : Bucket) (seed : UInt32) (replica : Nat) : Except Fault Nat :=
  highest bucket seed replica bucket.itemWeights 0 0 0

variable {bucket : Bucket} {seed : UInt32} {replica : Nat}

theorem straw2Place_firstMax {weights : List Nat} {distance : Nat → Nat}
    (draws : ∀ i < weights.length, ∀ weight, draw bucket seed replica i weight = .ok (drawn (distance i) weight))
    (nonempty : 0 < weights.length) (same : bucket.itemWeights = weights) :
    ∃ place, straw2Place bucket seed replica = .ok place ∧
      FirstMax (fun i => drawn (distance i) (weights.getD i 0)) weights.length place := by
  subst same
  have draws : Draws bucket seed replica bucket.itemWeights 0 fun i =>
    drawn (distance i) (bucket.itemWeights.getD i 0) := by
    intro i within
    rw [Nat.zero_add, draws i within]
    exact congrArg (fun weight => Except.ok (drawn (distance i) weight)) (List.getD_eq_getElem _ 0 within).symm
  obtain ⟨place, run, maximum⟩ := highest_firstMax draws (by omega) (fun none => absurd none (Nat.lt_irrefl 0))
  rw [Nat.zero_add] at maximum
  exact ⟨place, run, maximum⟩

theorem straw2Choose_of_place {place : Nat} (run : straw2Place bucket seed replica = .ok place) :
    straw2Choose bucket seed replica = indexed bucket.items place := by
  rw [straw2Place] at run
  rw [straw2Choose, except_bind_eq run]

/-- A change of one weight moves the choice only to that place or away from it. -/
theorem straw2Choose_monotone {bucket bucket' : Bucket} (seed : UInt32) (replica : Nat)
    (lengths : bucket.items.length = bucket.itemWeights.length) {position weight : Nat}
    (within : position < bucket.itemWeights.length) (items : bucket'.items = bucket.items)
    (weights : bucket'.itemWeights = bucket.itemWeights.set position weight) :
    ∃ place place', straw2Place bucket seed replica = .ok place ∧ straw2Place bucket' seed replica = .ok place' ∧
      straw2Choose bucket seed replica = indexed bucket.items place ∧
      straw2Choose bucket' seed replica = indexed bucket'.items place' ∧
      (bucket.itemWeights[position] ≤ weight → place' = place ∨ place' = position) ∧
      (weight ≤ bucket.itemWeights[position] → place' = place ∨ place = position) ∧
      ((∃ other ∈ bucket.itemWeights, other ≠ 0) → bucket.itemWeights[place]? ≠ some 0) := by
  choose! distance small draws using fun i (within : i < bucket.itemWeights.length) =>
    draw_eq bucket seed replica (lengths.symm ▸ within)
  have draws' : ∀ i < (bucket.itemWeights.set position weight).length, ∀ weight,
      draw bucket' seed replica i weight = .ok (drawn (distance i) weight) := by
    intro i within weight
    rw [List.length_set] at within
    rw [← draws i within weight, draw, draw, items]
  have positive : 0 < bucket.itemWeights.length := by omega
  obtain ⟨place, run, maximum⟩ := straw2Place_firstMax draws positive rfl
  obtain ⟨place', run', maximum'⟩ := straw2Place_firstMax draws' (by rwa [List.length_set]) weights
  rw [List.length_set] at maximum'
  have same : ∀ i ≠ position, drawn (distance i) ((bucket.itemWeights.set position weight).getD i 0) =
      drawn (distance i) (bucket.itemWeights.getD i 0) := by
    intro i apart
    rw [List.getD_eq_getElem?_getD, List.getElem?_set_ne apart.symm, List.getD_eq_getElem?_getD]
  have at_ : bucket.itemWeights.getD position 0 = bucket.itemWeights[position] := List.getD_eq_getElem _ _ within
  have at' : (bucket.itemWeights.set position weight).getD position 0 = weight := by
    rw [List.getD_eq_getElem?_getD, List.getElem?_set_self within]
    rfl
  refine ⟨place, place', run, run', straw2Choose_of_place run, straw2Choose_of_place run', fun raised =>
    ?_, fun lowered => ?_, ?_⟩
  · exact maximum.raise maximum' same (by rw [at_, at']; exact drawn_le (small position within) raised)
  · refine (maximum'.raise maximum (fun i apart => (same i apart).symm) ?_).imp_left Eq.symm
    rw [at_, at']
    exact drawn_le (small position within) lowered
  · rintro ⟨other, member, heavy⟩ weightless
    obtain ⟨i, bound, rfl⟩ := List.getElem_of_mem member
    have highest := maximum.highest i bound
    rw [List.getD_eq_getElem _ _ bound, List.getD_eq_getElem?_getD, weightless] at highest
    exact absurd (minInt64_lt_drawn (small i bound) heavy) (not_lt.mpr highest)

def unevenBucket (weight : Nat) : Bucket := ⟨-1, 1, 0, [0, 1], [3, weight]⟩

theorem straw2Choose_monotone_raised : ∃ place place', straw2Place (unevenBucket 0) 7 0 = .ok place ∧
    straw2Place (unevenBucket 5) 7 0 = .ok place' ∧ (place' = place ∨ place' = 1) := by
  have within : 1 < (unevenBucket 0).itemWeights.length := by decide
  have items : (unevenBucket 5).items = (unevenBucket 0).items := rfl
  obtain ⟨place, place', run, run', -, -, raised, -⟩ := straw2Choose_monotone 7 0 rfl within items rfl
  exact ⟨place, place', run, run', raised (Nat.zero_le 5)⟩

end RadosGo.Crush
