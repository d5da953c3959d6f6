import Mathlib

namespace RadosGo

variable {α : Type}

/-- Every entry of a history, newest first, stands in the given relation to
the entries before it. -/
def Throughout (P : α → List α → Prop) : List α → Prop
  | [] => True
  | entry :: older => P entry older ∧ Throughout P older

@[simp] theorem throughout_nil (P : α → List α → Prop) : Throughout P [] := trivial

variable {P : α → List α → Prop} {entry : α} {older history newer : List α} {reset : α → Bool}

@[simp] theorem throughout_cons : Throughout P (entry :: older) ↔ P entry older ∧ Throughout P older := Iff.rfl

/-- The relation holds at every place where a history can be cut. -/
theorem throughout_iff :
    Throughout P history ↔ ∀ newer entry older, history = newer ++ entry :: older → P entry older := by
  induction history with
  | nil => simp
  | cons first rest ih =>
    rw [throughout_cons, ih]
    constructor
    · rintro ⟨now, before⟩ newer entry older cut
      rcases List.cons_eq_append_iff.mp cut with ⟨-, same⟩ | ⟨newer', -, same⟩
      · obtain ⟨rfl, rfl⟩ := List.cons.inj same.symm
        exact now
      · exact before newer' entry older same
    · intro everywhere
      exact ⟨everywhere [] first rest rfl, fun newer entry older cut => everywhere (first :: newer) entry older
        (by rw [cut, List.cons_append])⟩

theorem Throughout.mono {Q : α → List α → Prop} (holds : Throughout P history)
    (weaker : ∀ entry older, P entry older → Q entry older) : Throughout Q history := by
  rw [throughout_iff] at holds ⊢
  exact fun newer entry older cut => weaker entry older (holds newer entry older cut)

theorem throughout_append (rest : Throughout P older) (each : ∀ entry ∈ newer, ∀ before, P entry before) :
    Throughout P (newer ++ older) := by
  induction newer with
  | nil => exact rest
  | cons entry newer ih =>
    exact ⟨each entry List.mem_cons_self _, ih fun other member => each other (List.mem_cons_of_mem _ member)⟩

theorem throughout_append_of_length (rest : Throughout P older) (short : newer.length ≤ 1)
    (each : ∀ entry ∈ newer, P entry older) : Throughout P (newer ++ older) := by
  match newer, short with
  | [], _ => exact rest
  | [entry], _ => exact ⟨each entry List.mem_cons_self, rest⟩

/-- The entries since the last one of a kind. -/
def since (reset : α → Bool) (history : List α) : List α := history.takeWhile fun entry => !reset entry

@[simp] theorem since_nil (reset : α → Bool) : since reset [] = [] := rfl

theorem since_reset (isReset : reset entry = true) : since reset (entry :: older) = [] := by
  simp [since, isReset]

theorem since_cons (notReset : reset entry = false) : since reset (entry :: older) = entry :: since reset older := by
  simp [since, notReset]

theorem mem_of_mem_since (member : entry ∈ since reset history) :
    entry ∈ history := (List.takeWhile_sublist _).subset member

/-- More kinds of resets leave fewer entries. -/
theorem mem_since_of_imp {reset' : α → Bool} (more : ∀ entry, reset entry = true → reset' entry = true)
    (member : entry ∈ since reset' history) : entry ∈ since reset history := by
  induction history with
  | nil => exact member
  | cons first older ih =>
    cases again : reset' first with
    | true => simp [since_reset again] at member
    | false =>
      have running : reset first = false := by
        cases kind : reset first with
        | false => rfl
        | true => exact absurd (more first kind) (by simp [again])
      rw [since_cons again, List.mem_cons] at member
      rw [since_cons running, List.mem_cons]
      exact member.imp_right ih

end RadosGo
