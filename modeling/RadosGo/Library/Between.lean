import Mathlib

namespace RadosGo

open List

variable {α β : Type} [LinearOrder α] {place : β → α} {items : List β} {low middle high : α}

/-- The items whose place lies in a half-open range, in the order of the list. -/
def between (place : β → α) (items : List β) (low high : α) : List β :=
  items.filter fun item => low ≤ place item ∧ place item < high

variable {item : β} {count : Nat}

theorem mem_between : item ∈ between place items low high ↔ item ∈ items ∧ low ≤ place item ∧ place item < high := by
  simp [between]

theorem between_sorted (sorted : items.Pairwise (place · < place ·)) (low high : α) :
    (between place items low high).Pairwise (place · < place ·) :=
  sorted.filter _

theorem between_self (place : β → α) (items : List β) (low : α) : between place items low low = [] := by
  rw [between, filter_eq_nil_iff]
  intro item _
  simp

variable (sorted : items.Pairwise (place · < place ·))
include sorted

/-- Neighbouring ranges of a sorted list are joined by appending their items. -/
theorem between_append (lower : low ≤ middle) (upper : middle ≤ high) :
    between place items low middle ++ between place items middle high = between place items low high := by
  induction items with
  | nil => rfl
  | cons item rest ih =>
    obtain ⟨after, sortedRest⟩ := pairwise_cons.mp sorted
    have joined := ih sortedRest
    rcases lt_or_ge (place item) middle with before | behind
    · have inHigh : place item < high := before.trans_le upper
      simp only [between, filter_cons, before, inHigh, and_true, not_le.mpr before, decide_false,
        Bool.false_eq_true, if_false] at joined ⊢
      split
      · rw [cons_append, joined]
      · exact joined
    · -- nothing of the first range is left
      have empty : between place rest low middle = [] := by
        rw [between, filter_eq_nil_iff]
        intro other member
        simp [(behind.trans (after other member).le).not_gt]
      rw [empty, nil_append] at joined
      have first : between place (item :: rest) low middle = [] := by
        rw [between, filter_cons_of_neg (by simp [behind.not_gt])]
        exact empty
      rw [first, nil_append]
      simp only [between, filter_cons, behind, lower.trans behind, true_and] at joined ⊢
      rw [joined]

theorem filter_lt_eq_take (found : items[count]? = some item) :
    items.filter (fun other => place other < place item) = items.take count := by
  induction items generalizing count with
  | nil => cases found
  | cons first rest ih =>
    obtain ⟨after, sortedRest⟩ := pairwise_cons.mp sorted
    cases count with
    | zero =>
      obtain rfl : first = item := Option.some.inj found
      rw [take_zero, filter_eq_nil_iff]
      intro other member
      rcases mem_cons.mp member with rfl | later
      · simp
      · simp [(after other later).le]
    | succ count =>
      rw [getElem?_cons_succ] at found
      have before : place first < place item := after item (mem_of_getElem? found)
      rw [filter_cons_of_pos (by simpa using before), take_succ_cons, ih sortedRest found]

/-- The first items of a range are those before the next one. -/
theorem between_take (found : (between place items low high)[count]? = some item) :
    (between place items low high).take count = between place items low (place item) := by
  have member := mem_between.mp (mem_of_getElem? found)
  rw [← filter_lt_eq_take (between_sorted sorted low high) found, between, between, filter_filter]
  refine filter_congr fun other _ => ?_
  rw [← Bool.decide_and, decide_eq_decide]
  constructor
  · rintro ⟨before, from_, -⟩
    exact ⟨from_, before⟩
  · rintro ⟨from_, before⟩
    exact ⟨before, from_, before.trans member.2.2⟩

/-- Dropping items from the back of a sorted list until one is before a bound. -/
theorem rdropWhile_eq_filter (bound : α) :
    items.rdropWhile (fun item => !decide (place item < bound)) = items.filter fun item => place item < bound := by
  induction items using reverseRecOn with
  | nil => rfl
  | append_singleton rest last ih =>
    obtain ⟨sortedRest, -, before⟩ := pairwise_append.mp sorted
    by_cases inside : place last < bound
    · rw [rdropWhile_concat_neg _ _ _ (by simpa using inside), filter_eq_self.mpr]
      intro item member
      rcases mem_append.mp member with earlier | same
      · simpa using (before item earlier last mem_cons_self).trans inside
      · rw [mem_singleton.mp same]
        simpa using inside
    · rw [rdropWhile_concat_pos _ _ _ (by simpa using inside), ih sortedRest, filter_append,
        filter_singleton]
      simp [inside]

end RadosGo
