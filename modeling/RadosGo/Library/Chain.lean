import Mathlib

namespace RadosGo

open Function List

variable {α : Type} [DecidableEq α]

/-- A dense array whose members store their own index, threaded by a doubly
linked list through two link fields. Each field of the members is a map from
members to values, so the record describes a whole heap of them. -/
structure Chain (α : Type) where
  array : List α
  index : α → Int
  head : Option α
  tail : Option α
  previous : α → Option α
  next : α → Option α

namespace Chain

def empty : Chain α where
  array := []
  index := fun _ => 0
  head := none
  tail := none
  previous := fun _ => none
  next := fun _ => none

/-- The new member is stored behind the array and linked behind the tail. -/
def append (c : Chain α) (x : α) : Chain α where
  array := c.array ++ [x]
  index := Function.update c.index x c.array.length
  head := match c.tail with
    | none => some x
    | some _ => c.head
  tail := some x
  previous := Function.update c.previous x c.tail
  next := match c.tail with
    | none => Function.update c.next x none
    | some last => Function.update (Function.update c.next x none) last (some x)

/-- The last array member moves into the freed slot, and the two neighbours
of the removed member are linked to each other. -/
def remove (c : Chain α) (x : α) : Chain α :=
  match c.array.getLast? with
  | none => c
  | some moved =>
    { array := (c.array.set (c.index x).toNat moved).dropLast
      index := Function.update (Function.update c.index moved (c.index x)) x (-1)
      head := match c.previous x with
        | none => c.next x
        | some _ => c.head
      tail := match c.next x with
        | none => c.previous x
        | some _ => c.tail
      previous := Function.update (match c.next x with
        | none => c.previous
        | some after => Function.update c.previous after (c.previous x)) x none
      next := Function.update (match c.previous x with
        | none => c.next
        | some before => Function.update c.next before (c.next x)) x none }

/-- Bulk removal: the array and both ends are dropped at once, and the listed
members are detached one by one. -/
def detach (c : Chain α) (members : List α) : Chain α where
  array := []
  index := fun x => if x ∈ members then -1 else c.index x
  head := none
  tail := none
  previous := fun x => if x ∈ members then none else c.previous x
  next := fun x => if x ∈ members then none else c.next x

/-- The traversal `for x := head; x != nil; x = x.next`, cut off after the
given number of members. -/
def walk (next : α → Option α) : Nat → Option α → List α
  | 0, _ => []
  | _ + 1, none => []
  | fuel + 1, some x => x :: walk next fuel (next x)

def toList (c : Chain α) : List α := walk c.next c.array.length c.head

/-- The links of a run of members between the two given neighbours. -/
def Segment (previous next : α → Option α) : Option α → List α → Option α → Prop
  | _, [], _ => True
  | before, x :: xs, after =>
    previous x = before ∧ next x = xs.head?.or after ∧ Segment previous next (some x) xs after

variable {previous next previous' next' : α → Option α} {before after : Option α} {xs : List α}

omit [DecidableEq α] in
theorem Segment.congr (linked : Segment previous next before xs after)
    (samePrevious : ∀ x ∈ xs, previous' x = previous x) (sameNext : ∀ x ∈ xs, next' x = next x) :
    Segment previous' next' before xs after := by
  induction xs generalizing before with
  | nil => trivial
  | cons x xs ih =>
    obtain ⟨atPrevious, atNext, rest⟩ := linked
    refine ⟨(samePrevious x mem_cons_self).trans atPrevious,
      (sameNext x mem_cons_self).trans atNext, ih rest ?_ ?_⟩
    · exact fun y member => samePrevious y (mem_cons_of_mem _ member)
    · exact fun y member => sameNext y (mem_cons_of_mem _ member)

omit [DecidableEq α] in
theorem segment_append {xs ys : List α} : Segment previous next before (xs ++ ys) after ↔
      Segment previous next before xs (ys.head?.or after) ∧
        Segment previous next (xs.getLast?.or before) ys after := by
  induction xs generalizing before with
  | nil => simp [Segment]
  | cons x xs ih =>
    have headEq : (xs ++ ys).head?.or after = xs.head?.or (ys.head?.or after) := by
      cases xs <;> simp
    have lastEq : (x :: xs).getLast?.or before = xs.getLast?.or (some x) := by
      rw [getLast?_cons]
      cases xs.getLast? <;> simp
    simp only [cons_append, Segment, ih, headEq, lastEq, and_assoc]

/-- A link field with the link of one member, if there is one, redirected. -/
def relinked (links : α → Option α) (place target : Option α) : α → Option α :=
  match place with
  | none => links
  | some x => update links x target

theorem relinked_of_ne {links : α → Option α} {place target : Option α} {y : α} (other : ∀ x ∈ place, y ≠ x) :
    relinked links place target y = links y := by
  cases place with
  | none => rfl
  | some x => exact update_of_ne (other x rfl) _ _

theorem relinked_congr {links links' : α → Option α} {place target : Option α} {y : α} (same : links y = links' y) :
    relinked links place target y = relinked links' place target y := by
  cases place with
  | none => exact same
  | some x => simp only [relinked, update_apply, same]

/-- Redirecting the last member's `next` link moves only the right neighbour. -/
theorem Segment.relink_last (linked : Segment previous next before xs after) (nodup : xs.Nodup)
    (after' : Option α) : Segment previous (relinked next xs.getLast? after') before xs after' := by
  rcases eq_nil_or_concat xs with rfl | ⟨init, last, rfl⟩
  · trivial
  · rw [concat_eq_append] at *
    rw [segment_append] at linked ⊢
    have fresh : last ∉ init := by
      intro member
      exact (disjoint_of_nodup_append nodup) member mem_cons_self
    simp only [getLast?_concat]
    refine ⟨linked.1.congr (fun _ _ => rfl) ?_, linked.2.1, by simp [relinked], trivial⟩
    intro x member
    exact update_of_ne (ne_of_mem_of_not_mem member fresh) _ _

/-- Redirecting the first member's `previous` link moves only the left neighbour. -/
theorem Segment.relink_first (linked : Segment previous next before xs after) (nodup : xs.Nodup)
    (before' : Option α) : Segment (relinked previous xs.head? before') next before' xs after := by
  cases xs with
  | nil => trivial
  | cons first rest =>
    obtain ⟨_, atNext, linked⟩ := linked
    refine ⟨by simp [relinked], atNext, linked.congr ?_ (fun _ _ => rfl)⟩
    intro x member
    exact update_of_ne (ne_of_mem_of_not_mem member (nodup_cons.mp nodup).1) _ _

variable {x : α}

/-- Taking a member out links its two neighbours to each other. -/
theorem Segment.unlink {l r : List α} (linked : Segment previous next none (l ++ x :: r) none)
    (nodup : (l ++ x :: r).Nodup)
    (newNext : ∀ y, y ≠ x → next' y = relinked next l.getLast? r.head? y)
    (newPrevious : ∀ y, y ≠ x → previous' y = relinked previous r.head? l.getLast? y) :
    Segment previous' next' none (l ++ r) none := by
  obtain ⟨linkedL, -, -, linkedR⟩ := segment_append.mp linked
  have distinct := nodup_append'.mp nodup
  obtain ⟨xr, nodupR⟩ := nodup_cons.mp distinct.2.1
  have xl : x ∉ l := fun inLeft => distinct.2.2 inLeft mem_cons_self
  have disjoint : ∀ y ∈ l, y ∉ r := fun y inLeft inRight => distinct.2.2 inLeft (mem_cons_of_mem _ inRight)
  rw [segment_append, Option.or_none, Option.or_none]
  constructor
  · refine (linkedL.relink_last distinct.1 r.head?).congr ?_ fun y inLeft =>
      newNext y (ne_of_mem_of_not_mem inLeft xl)
    intro y inLeft
    rw [newPrevious y (ne_of_mem_of_not_mem inLeft xl)]
    exact relinked_of_ne fun first isFirst =>
      (ne_of_mem_of_not_mem (mem_of_mem_head? isFirst) (disjoint y inLeft)).symm
  · refine (linkedR.relink_first nodupR l.getLast?).congr
      (fun y inRight => newPrevious y (ne_of_mem_of_not_mem inRight xr)) ?_
    intro y inRight
    rw [newNext y (ne_of_mem_of_not_mem inRight xr)]
    exact relinked_of_ne fun last isLast => ne_of_mem_of_not_mem inRight (disjoint last (mem_of_getLast? isLast))

/-- The array, the stored indices and the linked list all hold the members
`xs`, the list in this order. -/
structure Holds (c : Chain α) (xs : List α) : Prop where
  nodup : xs.Nodup
  perm : c.array.Perm xs
  indexed : ∀ (i : Nat) (x : α), c.array[i]? = some x → c.index x = i
  head_eq : c.head = xs.head?
  tail_eq : c.tail = xs.getLast?
  linked : Segment c.previous c.next none xs none

variable {c : Chain α}

omit [DecidableEq α] in
theorem walk_segment {fuel : Nat} (linked : Segment previous next before xs none)
    (enough : xs.length ≤ fuel) : walk next fuel xs.head? = xs := by
  induction xs generalizing before fuel with
  | nil => cases fuel <;> rfl
  | cons x xs ih =>
    cases fuel with
    | zero => simp at enough
    | succ fuel =>
      simp only [head?_cons, walk, linked.2.1, Option.or_none]
      rw [ih linked.2.2 (by simpa using enough)]

omit [DecidableEq α] in
/-- The traversal from the head visits exactly the held members, so it ends
within the length of the array. -/
theorem Holds.toList_eq (holds : c.Holds xs) : c.toList = xs := by
  unfold toList
  rw [holds.head_eq, holds.perm.length_eq]
  exact walk_segment holds.linked (Nat.le_refl _)

omit [DecidableEq α] in
theorem empty_holds : (empty : Chain α).Holds [] where
  nodup := nodup_nil
  perm := .nil
  indexed := by simp [empty]
  head_eq := rfl
  tail_eq := rfl
  linked := trivial

theorem detach_holds (c : Chain α) (members : List α) : (c.detach members).Holds [] where
  nodup := nodup_nil
  perm := .nil
  indexed := by simp [detach]
  head_eq := rfl
  tail_eq := rfl
  linked := trivial

theorem Holds.append (holds : c.Holds xs) (fresh : x ∉ xs) : (c.append x).Holds (xs ++ [x]) where
  nodup := by
    rw [nodup_append']
    exact ⟨holds.nodup, nodup_singleton x, by simpa using fresh⟩
  perm := holds.perm.append_right [x]
  indexed := by
    intro i y atI
    simp only [Chain.append] at atI ⊢
    rw [getElem?_append] at atI
    split at atI
    · have different : y ≠ x := by
        intro same
        exact fresh (same ▸ holds.perm.mem_iff.mp (mem_of_getElem? atI))
      rw [update_of_ne different]
      exact holds.indexed i y atI
    · rename_i beyond
      have atEnd : i - c.array.length = 0 ∧ x = y := by
        cases gap : i - c.array.length with
        | zero => simpa [gap] using atI
        | succ n => simp [gap] at atI
      rw [← atEnd.2, update_self]
      omega
  head_eq := by
    simp only [Chain.append, holds.tail_eq, holds.head_eq]
    cases xs <;> simp [getLast?_cons]
  tail_eq := by simp [Chain.append]
  linked := by
    have samePrevious : ∀ y ∈ xs, (c.append x).previous y = c.previous y := by
      intro y member
      exact update_of_ne (ne_of_mem_of_not_mem member fresh) _ _
    rw [segment_append]
    refine ⟨?_, by simp [Chain.append, holds.tail_eq], ?_, trivial⟩
    · have relinked := holds.linked.relink_last holds.nodup (some x)
      refine relinked.congr samePrevious ?_
      intro y member
      simp only [Chain.append, holds.tail_eq]
      exact relinked_congr (update_of_ne (ne_of_mem_of_not_mem member fresh) _ _)
    · simp only [Chain.append, holds.tail_eq, head?_nil, Option.or_none]
      cases lastEq : xs.getLast? with
      | none => simp
      | some last =>
        have different : x ≠ last := fun same =>
          fresh (same ▸ mem_of_getLast? lastEq)
        simp [different]

omit [DecidableEq α] in
/-- Swapping the last member into the slot of `x` removes exactly `x`. -/
theorem swap_perm {init : List α} {moved x : α} {i : Nat} (atI : (init ++ [moved])[i]? = some x) :
    (init ++ [moved]).Perm (x :: ((init ++ [moved]).set i moved).dropLast) := by
  by_cases inside : i < init.length
  · rw [getElem?_append_left inside] at atI
    obtain ⟨_, atX⟩ := List.getElem?_eq_some_iff.mp atI
    rw [set_append_left _ _ inside, dropLast_concat]
    have kept := getElem_cons_eraseIdx_perm inside
    rw [atX] at kept
    have written := set_perm_cons_eraseIdx inside moved
    have opened := (perm_append_singleton moved init).trans (kept.symm.cons moved)
    exact (opened.trans (List.Perm.swap x moved _)).trans (written.symm.cons x)
  · have bound := (List.getElem?_eq_some_iff.mp atI).1
    rw [length_append, length_singleton] at bound
    have atEnd : i = init.length := by omega
    subst atEnd
    have same : moved = x := by simpa using atI
    subst same
    rw [set_append_right _ _ (Nat.le_refl _)]
    simp

theorem Holds.remove_array (holds : c.Holds xs) (member : x ∈ xs) :
    xs.Perm (x :: (c.remove x).array) ∧
      ∀ (i : Nat) (y : α), (c.remove x).array[i]? = some y → (c.remove x).index y = i := by
  obtain ⟨i, atI⟩ := getElem?_of_mem (holds.perm.mem_iff.mpr member)
  have atX := holds.indexed i x atI
  obtain ⟨init, moved, arrayEq⟩ : ∃ init moved, c.array = init ++ [moved] := by
    rcases eq_nil_or_concat c.array with empty | ⟨init, moved, shape⟩
    · simp [empty] at atI
    · exact ⟨init, moved, by simpa using shape⟩
  rw [arrayEq] at atI
  have lastEq : c.array.getLast? = some moved := by simp [arrayEq]
  have swapped := swap_perm atI
  have newArray : (c.remove x).array = ((init ++ [moved]).set i moved).dropLast := by
    simp only [remove, lastEq, atX, Int.toNat_natCast]
    rw [arrayEq]
  have perm : xs.Perm (x :: (c.remove x).array) := by
    rw [newArray]
    exact (arrayEq ▸ holds.perm.symm).trans swapped
  refine ⟨perm, ?_⟩
  have distinct := perm.nodup_iff.mp holds.nodup
  intro j y atJ
  have other : y ≠ x := ne_of_mem_of_not_mem (mem_of_getElem? atJ) (nodup_cons.mp distinct).1
  have newIndex : (c.remove x).index y = if y = moved then (i : Int) else c.index y := by
    simp only [remove, lastEq, atX, update_of_ne other, update_apply]
  have read : (init ++ [moved])[j]? = some y ∨ i = j ∧ moved = y := by
    rw [newArray, getElem?_dropLast, getElem?_set] at atJ
    split at atJ
    · split at atJ
      · rename_i here
        split at atJ
        · exact Or.inr ⟨here, Option.some.inj atJ⟩
        · exact absurd atJ (by simp)
      · exact Or.inl atJ
    · exact absurd atJ (by simp)
  have inside : j < init.length := by
    have bound := (List.getElem?_eq_some_iff.mp atJ).1
    simpa [newArray] using bound
  rw [newIndex]
  rcases read with old | ⟨here, atMoved⟩
  · rw [← arrayEq] at old
    have stored := holds.indexed j y old
    split
    · rename_i atMoved
      subst atMoved
      have last := holds.indexed init.length y (by simp [arrayEq])
      omega
    · exact stored
  · rw [if_pos atMoved.symm, here]

/-- Removing a member keeps the order of the others and every stored index
correct, whichever member the array had moved. -/
theorem Holds.remove (holds : c.Holds xs) (member : x ∈ xs) : (c.remove x).Holds (xs.erase x) := by
  obtain ⟨arrayPerm, indexed⟩ := holds.remove_array member
  obtain ⟨l, r, rfl⟩ := append_of_mem member
  have distinct := nodup_append'.mp holds.nodup
  obtain ⟨xr, nodupR⟩ := nodup_cons.mp distinct.2.1
  have xl : x ∉ l := fun inLeft => distinct.2.2 inLeft mem_cons_self
  have erased : (l ++ x :: r).erase x = l ++ r := by
    rw [erase_append_right _ xl, erase_cons_head]
  obtain ⟨linkedL, atPrevious, atNext, linkedR⟩ := segment_append.mp holds.linked
  simp only [Option.or_none] at atPrevious atNext
  obtain ⟨moved, lastEq⟩ : ∃ moved, c.array.getLast? = some moved := by
    cases lastEq : c.array.getLast? with
    | none =>
      have inArray := holds.perm.mem_iff.mpr member
      simp [getLast?_eq_none_iff.mp lastEq] at inArray
    | some moved => exact ⟨moved, rfl⟩
  refine ⟨holds.nodup.erase x, ?_, indexed, ?_, ?_, ?_⟩
  · exact (perm_cons x).mp (arrayPerm.symm.trans (perm_cons_erase member))
  · rw [erased]
    simp only [Chain.remove, lastEq, atPrevious, atNext, holds.head_eq]
    cases l with
    | nil => simp
    | cons y l => simp [getLast?_cons]
  · rw [erased]
    simp only [Chain.remove, lastEq, atPrevious, atNext, holds.tail_eq]
    cases r with
    | nil => simp
    | cons y r => simp [getLast?_append, getLast?_cons]
  · rw [erased]
    refine Segment.unlink holds.linked holds.nodup ?_ ?_
    all_goals
      intro y different
      simp only [Chain.remove, relinked, lastEq, atPrevious, atNext, update_of_ne different]

end Chain

end RadosGo
