import Mathlib

namespace RadosGo

variable {η α : Type}

/-- Every thing that has been made is held by exactly one holder, and nothing else is held. -/
structure Custody (held : η → α → Prop) (made : α → Prop) : Prop where
  unique : ∀ {h h' x}, held h x → held h' x → h = h'
  made_iff : ∀ x, made x ↔ ∃ h, held h x

/-- Things come from their holders to holders which are not lower. -/
structure Handover (grade : η → Nat) (held held' : η → α → Prop) (made' : α → Prop) : Prop where
  custody : Custody held' made'
  forward : ∀ {h h' x}, held h x → held' h' x → grade h ≤ grade h'

namespace Custody

variable {grade : η → Nat} {held held' : η → α → Prop} {made made' : α → Prop} {x : α}

variable (custody : Custody held made)
include custody

theorem existsUnique (isMade : made x) : ∃! h, held h x := by
  obtain ⟨h, holds⟩ := (custody.made_iff x).mp isMade
  exact ⟨h, holds, fun other also => custody.unique also holds⟩

/-- Every holder passes all it has on to one holder, perhaps itself. -/
theorem rename (next : η → η) (raises : ∀ h, grade h ≤ grade (next h)) (passed : ∀ h y, held h y → held' (next h) y)
    (back : ∀ h y, held' h y → ∃ h', held h' y ∧ next h' = h) : Handover grade held held' made := by
  refine ⟨⟨?_, fun y => ?_⟩, ?_⟩
  · intro h h' y first second
    obtain ⟨before, holds, rfl⟩ := back h y first
    obtain ⟨before', holds', rfl⟩ := back h' y second
    rw [custody.unique holds holds']
  · rw [custody.made_iff]
    constructor
    · rintro ⟨h, holds⟩
      exact ⟨next h, passed h y holds⟩
    · rintro ⟨h, holds⟩
      obtain ⟨before, holds, -⟩ := back h y holds
      exact ⟨before, holds⟩
  · intro h h' y holds after
    obtain ⟨before, holds', rfl⟩ := back h' y after
    rw [custody.unique holds holds']
    exact raises before

theorem congr (same : ∀ h y, held' h y ↔ held h y) : Handover grade held held' made :=
  custody.rename id (fun _ => le_rfl) (fun h y => (same h y).mpr) fun h y holds => ⟨h, (same h y).mp holds, rfl⟩

/-- One holder passes all it has on to another one. -/
theorem pour [DecidableEq η] (source target : η) (raises : grade source ≤ grade target) (empty : ∀ y, ¬held' source y)
    (filled : ∀ y, held' target y ↔ held target y ∨ held source y)
    (others : ∀ h, h ≠ source → h ≠ target → ∀ y, held' h y ↔ held h y) : Handover grade held held' made := by
  refine custody.rename (fun h => if h = source then target else h) (fun h => ?_)
    (fun h y holds => ?_) fun h y holds => ?_
  · split
    · next isSource => exact isSource ▸ raises
    · exact le_rfl
  · by_cases isSource : h = source
    · rw [if_pos isSource]
      exact (filled y).mpr (.inr (isSource ▸ holds))
    · rw [if_neg isSource]
      by_cases isTarget : h = target
      · exact isTarget ▸ (filled y).mpr (.inl (isTarget ▸ holds))
      · exact (others h isSource isTarget y).mpr holds
  · have notSource : h ≠ source := fun isSource => empty y (isSource ▸ holds)
    by_cases isTarget : h = target
    · rcases (filled y).mp (isTarget ▸ holds) with before | before
      · exact ⟨target, before, by simp [isTarget]⟩
      · exact ⟨source, before, by simp [isTarget]⟩
    · exact ⟨h, (others h notSource isTarget y).mp holds, if_neg notSource⟩

/-- The same, with one condition for all holders. -/
theorem drain [DecidableEq η] (source target : η) (raises : grade source ≤ grade target) (distinct : target ≠ source)
    (after : ∀ h y, held' h y ↔ h ≠ source ∧ (h = target ∧ held source y ∨ held h y)) :
      Handover grade held held' made := by
  refine custody.pour source target raises ?_ ?_ ?_
  · exact fun y holds => ((after source y).mp holds).1 rfl
  · intro y
    rw [after, and_iff_right distinct, and_iff_right rfl, or_comm]
  · intro h notSource notTarget y
    rw [after, and_iff_right notSource, or_iff_right fun isTarget => notTarget isTarget.1]

/-- A new thing comes to a holder. -/
theorem deposit (target : η) (x : α) (fresh : ¬made x) (grown : ∀ y, made' y ↔ made y ∨ y = x)
    (after : ∀ h y, held' h y ↔ held h y ∨ h = target ∧ y = x) : Handover grade held held' made' := by
  have nowhere (h : η) : ¬held h x := fun holds => fresh ((custody.made_iff x).mpr ⟨h, holds⟩)
  refine ⟨⟨?_, fun y => ?_⟩, ?_⟩
  · intro h h' y first second
    rcases (after h y).mp first with holds | ⟨isTarget, rfl⟩
    · rcases (after h' y).mp second with holds' | ⟨-, rfl⟩
      · exact custody.unique holds holds'
      · exact absurd holds (nowhere h)
    · rcases (after h' y).mp second with holds' | ⟨isTarget', -⟩
      · exact absurd holds' (nowhere h')
      · exact isTarget.trans isTarget'.symm
  · rw [grown, custody.made_iff]
    constructor
    · rintro (⟨h, holds⟩ | rfl)
      · exact ⟨h, (after h y).mpr (.inl holds)⟩
      · exact ⟨target, (after target y).mpr (.inr ⟨rfl, rfl⟩)⟩
    · rintro ⟨h, holds⟩
      exact ((after h y).mp holds).imp (fun holds => ⟨h, holds⟩) fun isNew => isNew.2
  · intro h h' y holds held
    rcases (after h' y).mp held with holds' | ⟨-, rfl⟩
    · rw [custody.unique holds holds']
    · exact absurd holds (nowhere h)

end Custody

/-- What is made stays made, so that handovers follow each other. -/
theorem Handover.trans {grade : η → Nat} {held held' held'' : η → α → Prop} {made' made'' : α → Prop}
    (first : Handover grade held held' made') (second : Handover grade held' held'' made'')
    (stays : ∀ {h x}, held h x → made' x) : Handover grade held held'' made'' := by
  refine ⟨second.custody, fun {h h' x} holds after => ?_⟩
  obtain ⟨between, holds'⟩ := (first.custody.made_iff x).mp (stays holds)
  exact (first.forward holds holds').trans (second.forward holds' after)

/-- One holder passes all it has on to a second one, which passes what it had on to a third one. -/
theorem Custody.shift [DecidableEq η] {grade : η → Nat} {held held' : η → α → Prop} {made : α → Prop}
    (custody : Custody held made)
    (first second third : η) (raises : grade first ≤ grade second ∧ grade second ≤ grade third)
    (distinct : second ≠ first) (free : ∀ y, ¬held third y) (apart : third ≠ second ∧ third ≠ first)
    (after : ∀ h y, held' h y ↔ h ≠ first ∧ if h = third then held second y else if h = second then held first y
      else held h y) :
    Handover grade held held' made := by
  have passed : Handover grade held (fun h y => h ≠ second ∧ (h = third ∧ held second y ∨ held h y)) made :=
    custody.drain second third raises.2 apart.1 fun _ _ => Iff.rfl
  refine passed.trans (passed.custody.drain first second raises.1 distinct fun h y => ?_)
    fun {h x} holds => (custody.made_iff x).mpr ⟨h, holds⟩
  rw [after]
  refine and_congr_right fun notFirst => ?_
  by_cases isThird : h = third
  · subst isThird
    simp [apart, free]
  · by_cases isSecond : h = second
    · subst isSecond
      simp [isThird, distinct.symm, apart.2.symm]
    · simp [isThird, isSecond]

end RadosGo
