import RadosGo.Crush.Place

namespace RadosGo.Crush

/-- The second call does what the first does, unless the first ran out of fuel. -/
def Agrees {α : Type} (x y : Exec α) : Prop :=
  ∀ permutations, (x permutations).run = none ∨ x permutations = y permutations

theorem Agrees.refl {α : Type} (x : Exec α) : Agrees x x := fun _ => .inr rfl

theorem agrees_diverges {α : Type} (x : Exec α) : Agrees diverges x := fun _ => .inl rfl

/-- What is left of a call once its first part has ended. -/
def continued {α β : Type} (next : α → Exec β) : Option (Except Fault (α × (Int → Option Permutation))) →
    Option (Except Fault (β × (Int → Option Permutation)))
  | none => none
  | some (.error fault) => some (.error fault)
  | some (.ok (a, permutations)) => (next a permutations).run

theorem run_bind {α β : Type} (x : Exec α) (next : α → Exec β) (permutations : Int → Option Permutation) :
    ((x >>= next) permutations).run = continued next (x permutations).run := by
  change ((x permutations).run >>= _ : Option _) = _
  match (x permutations).run with
  | none => rfl
  | some (.error fault) => rfl
  | some (.ok (a, after)) => rfl

theorem Agrees.bind {α β : Type} {x y : Exec α} {f g : α → Exec β} (first : Agrees x y)
    (next : ∀ a, Agrees (f a) (g a)) : Agrees (x >>= f) (y >>= g) := by
  intro permutations
  suffices continued f (x permutations).run = none ∨
    continued f (x permutations).run = continued g (y permutations).run by
    rw [← run_bind, ← run_bind] at this
    exact this
  rcases first permutations with out | same
  · left
    rw [out]
    rfl
  · rw [← same]
    match (x permutations).run with
    | none => exact .inl rfl
    | some (.error fault) => exact .inr rfl
    | some (.ok (a, after)) => exact next a after

namespace Placement

variable {executor : Placement} {small large : Nat} (more : small ≤ large)

section ChooseFirstN

variable {leaf leaf' : LeafChooser} {call : FirstN}

/-- The choosers of leaves agree. -/
def LeafAgrees (leaf leaf' : LeafChooser) : Prop :=
  ∀ child subR leaves outputPosition count,
    Agrees (leaf child subR leaves outputPosition count) (leaf' child subR leaves outputPosition count)

variable {output after : List Int} {outputPosition count localFailures : Nat} {current bucket : Bucket}

theorem attempt_agrees (leaves : LeafAgrees leaf leaf') {r : Nat} :
    Agrees (executor.attempt leaf call output after outputPosition count current r localFailures)
      (executor.attempt leaf' call output after outputPosition count current r localFailures) := by
  have leafAgrees : ∀ item child, Agrees (chooseLeaf leaf call after outputPosition count r item child)
      (chooseLeaf leaf' call after outputPosition count r item child) := by
    intro item child
    unfold chooseLeaf
    split
    · exact .refl _
    · split
      · exact (leaves _ _ _ _ _).bind fun _ => .refl _
      · exact .refl _
  have settleAgrees : ∀ item itemType child,
      Agrees (executor.settle leaf call output after outputPosition count r item itemType child)
        (executor.settle leaf' call output after outputPosition count r item itemType child) := by
    intro item itemType child
    refine (Agrees.refl _).bind fun collide => ?_
    split
    · exact .refl _
    · exact (leafAgrees item child).bind fun _ => .refl _
  unfold attempt
  split
  · exact .refl _
  · refine (Agrees.refl _).bind fun item => ?_
    split
    · exact .refl _
    · split
      · split
        · exact .refl _
        · exact settleAgrees _ _ _
      · split
        · exact .refl _
        · split
          · exact .refl _
          · exact settleAgrees _ _ _

include more

theorem search_agrees (leaves : LeafAgrees leaf leaf') {replica totalFailures : Nat} :
    Agrees (executor.search leaf call bucket output outputPosition count replica small current totalFailures
      localFailures after)
      (executor.search leaf' call bucket output outputPosition count replica large current totalFailures localFailures
        after) := by
  induction small generalizing large current totalFailures localFailures after with
  | zero => exact agrees_diverges _
  | succ small ih =>
    obtain ⟨large, rfl⟩ : ∃ next, large = next + 1 := ⟨large - 1, by omega⟩
    have less : small ≤ large := Nat.le_of_succ_le_succ more
    refine (attempt_agrees leaves).bind fun ended => ?_
    match ended with
    | .descend child => exact ih less
    | .skip => exact .refl _
    | .chosen item leaves => exact .refl _
    | .failed collide leaves =>
      dsimp only
      split
      · exact ih less
      · split
        · exact ih less
        · exact .refl _

theorem chooseReplicas_agrees (leaves : LeafAgrees leaf leaf') (rounds replica : Nat) :
    Agrees (executor.chooseReplicas leaf call small bucket rounds replica output after outputPosition count)
      (executor.chooseReplicas leaf' call large bucket rounds replica output after outputPosition count) := by
  induction rounds generalizing replica output after outputPosition count with
  | zero => exact .refl _
  | succ rounds ih =>
    unfold chooseReplicas
    split
    · exact .refl _
    · refine (search_agrees more leaves).bind fun result => ?_
      obtain ⟨found, after⟩ := result
      cases found with
      | none => exact ih _
      | some item => exact (Agrees.refl _).bind fun output => ih _

theorem chooseFirstN_agrees {leaves : List Int} {outputSize : Nat} :
    Agrees (executor.chooseFirstN small call bucket output outputPosition outputSize leaves)
      (executor.chooseFirstN large call bucket output outputPosition outputSize leaves) := by
  refine chooseReplicas_agrees more ?_ _ _
  intro child subR leaves outputPosition count
  exact (chooseReplicas_agrees more (fun _ _ _ _ _ => .refl _) _ _).bind fun _ => .refl _

end ChooseFirstN

section ChooseIndep

variable {leaf leaf' : IndepLeafChooser} {call : Indep}

/-- The choosers of leaves agree. -/
def IndepLeafAgrees (leaf leaf' : IndepLeafChooser) : Prop :=
  ∀ child r leaves position, Agrees (leaf child r leaves position) (leaf' child r leaves position)

variable {output : List Int} {leaves : Option (List Int)} {position r : Nat} {bucket : Bucket}

theorem settleIndep_agrees (choosers : IndepLeafAgrees leaf leaf') {item itemType : Int} {child : Option Bucket} :
    Agrees (executor.settleIndep leaf call output leaves position r item itemType child)
      (executor.settleIndep leaf' call output leaves position r item itemType child) := by
  have leafAgrees : Agrees (indepLeaf leaf call leaves position r item child)
      (indepLeaf leaf' call leaves position r item child) := by
    unfold indepLeaf onLeaves
    split
    · exact .refl _
    · split
      · exact .refl _
      · split
        · exact (choosers _ _ _ _).bind fun _ => .refl _
        · exact .refl _
  unfold settleIndep
  split
  · exact .refl _
  · exact leafAgrees.bind fun _ => .refl _

include more

theorem descend_agrees (choosers : IndepLeafAgrees leaf leaf') {current : Bucket} :
    Agrees (executor.descend leaf call output leaves position r small current)
      (executor.descend leaf' call output leaves position r large current) := by
  induction small generalizing large current with
  | zero => exact agrees_diverges _
  | succ small ih =>
    obtain ⟨large, rfl⟩ : ∃ next, large = next + 1 := ⟨large - 1, by omega⟩
    have less : small ≤ large := Nat.le_of_succ_le_succ more
    unfold descend
    split
    · exact .refl _
    · refine (Agrees.refl _).bind fun item => ?_
      split
      · exact .refl _
      · split
        · split
          · exact .refl _
          · exact settleIndep_agrees choosers
        · split
          · exact .refl _
          · split
            · exact ih less
            · exact settleIndep_agrees choosers

theorem fillPositions_agrees (choosers : IndepLeafAgrees leaf leaf') {failure : Nat} (positions : List Nat)
    {state : IndepState} : Agrees (executor.fillPositions leaf call small bucket failure positions state)
      (executor.fillPositions leaf' call large bucket failure positions state) := by
  induction positions generalizing state with
  | nil => exact .refl _
  | cons position positions ih =>
    refine Agrees.bind ?_ fun _ => ih
    refine (Agrees.refl _).bind fun slot => ?_
    split
    · exact .refl _
    · exact (descend_agrees more choosers).bind fun _ => .refl _

theorem chooseIndepWith_agrees (choosers : IndepLeafAgrees leaf leaf') :
    Agrees (executor.chooseIndepWith leaf call small bucket output leaves)
      (executor.chooseIndepWith leaf' call large bucket output leaves) := by
  have rounds : ∀ rounds failure state, Agrees (executor.fillRounds leaf call small bucket rounds failure state)
      (executor.fillRounds leaf' call large bucket rounds failure state) := by
    intro rounds
    induction rounds with
    | zero => exact fun _ _ => .refl _
    | succ rounds ih =>
      intro failure state
      unfold fillRounds
      split
      · exact .refl _
      · exact (fillPositions_agrees more choosers _).bind fun _ => ih _ _
  exact (Agrees.refl _).bind fun _ => (Agrees.refl _).bind fun _ => rounds _ _ _

theorem chooseIndep_agrees : Agrees (executor.chooseIndep small call bucket output leaves)
      (executor.chooseIndep large call bucket output leaves) :=
  chooseIndepWith_agrees more fun _ _ _ _ =>
    (chooseIndepWith_agrees more fun _ _ _ _ => .refl _).bind fun _ => .refl _

end ChooseIndep

section Rule

variable {seed : UInt32} {resultMaximum : Nat}

include more

theorem chooseFromAll_agrees {step : RuleStep} (ids : List Int) {outputSize : Nat} {state : RuleState} :
    Agrees (executor.chooseFromAll small seed resultMaximum step ids outputSize state)
      (executor.chooseFromAll large seed resultMaximum step ids outputSize state) := by
  induction ids generalizing outputSize state with
  | nil => exact .refl _
  | cons id ids ih =>
    refine Agrees.bind ?_ fun _ => ih
    unfold chooseFrom
    extract_lets crush number
    split
    · exact .refl _
    · split
      · exact .refl _
      · split
        · exact (chooseIndep_agrees more).bind fun _ => .refl _
        · exact (chooseFirstN_agrees more).bind fun _ => .refl _

/-- More fuel changes nothing once a rule has ended. -/
theorem rule_agrees {rule : Rule} :
    Agrees (executor.rule small seed resultMaximum rule) (executor.rule large seed resultMaximum rule) := by
  have steps : ∀ steps state, Agrees (executor.ruleSteps small seed resultMaximum steps state)
      (executor.ruleSteps large seed resultMaximum steps state) := by
    intro steps
    induction steps with
    | nil => exact fun _ => .refl _
    | cons step steps ih =>
      intro state
      refine Agrees.bind ?_ fun _ => ih _
      unfold ruleStep
      repeat' split
      all_goals first | exact .refl _ | exact (chooseFromAll_agrees more _).bind fun _ => .refl _
  exact (steps _ _).bind fun _ => .refl _

end Rule

end Placement

theorem CrushMap.placeRule_agrees {m : CrushMap} {small large : Nat} (more : small ≤ large) (rule : Rule)
    (seed : UInt32) (replicas : Nat) (weights : List Nat) : m.placeRule small rule seed replicas weights = none ∨
      m.placeRule small rule seed replicas weights = m.placeRule large rule seed replicas weights := by
  rcases Placement.rule_agrees more (fun _ => none) with out | same
  · left
    change (Prod.fst <$> Placement.rule ⟨m, weights⟩ small seed replicas rule fun _ => none).run = none
    exact congrArg (fun x => Option.bind x _) out
  · right
    change (Prod.fst <$> Placement.rule ⟨m, weights⟩ small seed replicas rule fun _ => none).run = _
    rw [same]
    rfl

end RadosGo.Crush
