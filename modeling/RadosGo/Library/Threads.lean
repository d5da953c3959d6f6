import RadosGo.Library.Chain

namespace RadosGo

open Function List

variable {κ α : Type}

/-- Doubly linked lists through the same two link fields, one list for each key. -/
structure Threads (κ α : Type) where
  head : κ → Option α := fun _ => none
  previous : α → Option α := fun _ => none
  next : α → Option α := fun _ => none

namespace Threads

/-- The traversal from a member on, cut off after the given number of members. -/
def walk (t : Threads κ α) : Nat → Option α → List α := Chain.walk t.next

/-- The list of every key, in the order of its links. -/
structure Holds (t : Threads κ α) (lists : κ → List α) : Prop where
  nodup : ∀ key, (lists key).Nodup
  disjoint : ∀ key key' x, x ∈ lists key → x ∈ lists key' → key = key'
  head_eq : ∀ key, t.head key = (lists key).head?
  linked : ∀ key, Chain.Segment t.previous t.next none (lists key) none

theorem empty_holds : ({} : Threads κ α).Holds fun _ => [] := by
  constructor <;> simp [Chain.Segment]

/-- The traversal of a list visits exactly its members. -/
theorem Holds.walk_eq {t : Threads κ α} {lists : κ → List α} (holds : t.Holds lists) (key : κ) {fuel : Nat}
    (enough : (lists key).length ≤ fuel) : t.walk fuel (t.head key) = lists key := by
  rw [holds.head_eq]
  exact Chain.walk_segment (holds.linked key) enough

variable [DecidableEq κ] [DecidableEq α]

/-- The new member becomes the head of its list. -/
def push (t : Threads κ α) (key : κ) (x : α) : Threads κ α where
  head := Function.update t.head key (some x)
  previous := match t.head key with
    | none => Function.update t.previous x none
    | some first => Function.update (Function.update t.previous x none) first (some x)
  next := Function.update t.next x (t.head key)

def remove (t : Threads κ α) (key : κ) (x : α) : Threads κ α where
  head := match t.previous x with
    | none => Function.update t.head key (t.next x)
    | some _ => t.head
  previous := Function.update (match t.next x with
    | none => t.previous
    | some after => Function.update t.previous after (t.previous x)) x none
  next := Function.update (match t.previous x with
    | none => t.next
    | some before => Function.update t.next before (t.next x)) x none

variable {t : Threads κ α} {lists : κ → List α} {key : κ} {x : α}

theorem Holds.push (holds : t.Holds lists) (key : κ) (fresh : ∀ other, x ∉ lists other) :
    (t.push key x).Holds (update lists key (x :: lists key)) where
  nodup := (forall_update_iff lists fun _ list => list.Nodup).mpr
    ⟨nodup_cons.mpr ⟨fresh key, holds.nodup key⟩, fun other _ => holds.nodup other⟩
  disjoint first second y := by
    have listed : ∀ other, y ∈ update lists key (x :: lists key) other → (y = x ∧ other = key) ∨ y ∈ lists other :=
      (forall_update_iff lists fun other list => y ∈ list → (y = x ∧ other = key) ∨ y ∈ lists other).mpr
        ⟨fun member => (mem_cons.mp member).imp_left fun isNew => ⟨isNew, rfl⟩, fun _ _ => .inr⟩
    intro inFirst inSecond
    rcases listed first inFirst with ⟨rfl, atFirst⟩ | old
    · rcases listed second inSecond with ⟨-, atSecond⟩ | old
      · exact atFirst.trans atSecond.symm
      · exact absurd old (fresh second)
    · rcases listed second inSecond with ⟨rfl, -⟩ | old'
      · exact absurd old (fresh first)
      · exact holds.disjoint first second y old old'
  head_eq other := by
    by_cases same : other = key
    · simp [Threads.push, same]
    · simp [Threads.push, update_of_ne same, holds.head_eq]
  linked other := by
    have sameNext : ∀ y, y ≠ x → (t.push key x).next y = t.next y := fun y different =>
      update_of_ne different _ _
    have newPrevious : ∀ y, y ≠ x → (t.push key x).previous y =
        Chain.relinked t.previous (lists key).head? (some x) y := fun y different => by
      simp only [Threads.push, holds.head_eq]
      exact Chain.relinked_congr (update_of_ne different _ _)
    have isNew : ∀ y ∈ lists other, y ≠ x := fun y member => ne_of_mem_of_not_mem member (fresh other)
    by_cases same : other = key
    · subst same
      rw [update_self]
      refine ⟨?_, ?_, ?_⟩
      · simp only [Threads.push, holds.head_eq]
        cases firstEq : (lists other).head? with
        | none => simp
        | some first => simp [(isNew first (mem_of_mem_head? firstEq)).symm]
      · simp [Threads.push, holds.head_eq]
      · exact ((holds.linked other).relink_first (holds.nodup other) (some x)).congr
          (fun y member => newPrevious y (isNew y member)) fun y member => sameNext y (isNew y member)
    · rw [update_of_ne same]
      refine (holds.linked other).congr (fun y member => ?_) fun y member => sameNext y (isNew y member)
      rw [newPrevious y (isNew y member)]
      refine Chain.relinked_of_ne fun first isFirst atFirst => same ?_
      exact holds.disjoint other key y member (atFirst ▸ mem_of_mem_head? isFirst)

theorem Holds.remove (holds : t.Holds lists) (member : x ∈ lists key) :
    (t.remove key x).Holds (update lists key ((lists key).erase x)) := by
  have within : ∀ other y, y ∈ update lists key ((lists key).erase x) other → y ∈ lists other :=
    (forall_update_iff lists fun other list => ∀ y ∈ list, y ∈ lists other).mpr
      ⟨fun _ => mem_of_mem_erase, fun _ _ _ => id⟩
  obtain ⟨l, r, cut⟩ := append_of_mem member
  have nodup := holds.nodup key
  have linked := holds.linked key
  have xl : x ∉ l := by
    rw [cut] at nodup
    exact fun inLeft => (nodup_append'.mp nodup).2.2 inLeft mem_cons_self
  have erased : (lists key).erase x = l ++ r := by rw [cut, erase_append_right _ xl, erase_cons_head]
  rw [cut] at nodup linked
  obtain ⟨-, atPrevious, atNext, -⟩ := Chain.segment_append.mp linked
  simp only [Option.or_none] at atPrevious atNext
  have newNext : ∀ y, y ≠ x → (t.remove key x).next y = Chain.relinked t.next l.getLast? r.head? y := by
    intro y different
    simp only [Threads.remove, atPrevious, atNext, update_of_ne different]
    rfl
  have newPrevious : ∀ y, y ≠ x → (t.remove key x).previous y = Chain.relinked t.previous r.head? l.getLast? y := by
    intro y different
    simp only [Threads.remove, atPrevious, atNext, update_of_ne different]
    rfl
  have inKey : ∀ y, y ∈ l ∨ y ∈ r → y ∈ lists key := fun y side => by
    rw [cut, mem_append, mem_cons]
    exact side.imp_right .inr
  refine ⟨?_, fun first second y inFirst inSecond => ?_, fun other => ?_, fun other => ?_⟩
  · exact (forall_update_iff lists fun _ list => list.Nodup).mpr
      ⟨(holds.nodup key).erase x, fun other _ => holds.nodup other⟩
  · exact holds.disjoint first second y (within first y inFirst) (within second y inSecond)
  · by_cases same : other = key
    · subst same
      rw [update_self, erased]
      simp only [Threads.remove, atPrevious, atNext]
      cases l with
      | nil => simp
      | cons y l => simp [getLast?_cons, holds.head_eq, cut]
    · rw [update_of_ne same, ← holds.head_eq]
      simp only [Threads.remove]
      cases t.previous x with
      | none => exact update_of_ne same _ _
      | some before => rfl
  · by_cases same : other = key
    · subst same
      rw [update_self, erased]
      exact linked.unlink nodup newNext newPrevious
    · rw [update_of_ne same]
      -- The relinked neighbours belong to the list of `key`, so no other list sees them.
      have outside : ∀ y ∈ lists other, y ∉ lists key :=
        fun y inOther inKey => same (holds.disjoint other key y inOther inKey)
      refine (holds.linked other).congr (fun y inOther => ?_) fun y inOther => ?_
      · rw [newPrevious y (ne_of_mem_of_not_mem member (outside y inOther)).symm]
        exact Chain.relinked_of_ne fun first isFirst atFirst =>
          outside y inOther (atFirst ▸ inKey first (.inr (mem_of_mem_head? isFirst)))
      · rw [newNext y (ne_of_mem_of_not_mem member (outside y inOther)).symm]
        exact Chain.relinked_of_ne fun last isLast atLast =>
          outside y inOther (atLast ▸ inKey last (.inl (mem_of_getLast? isLast)))

end Threads

end RadosGo
