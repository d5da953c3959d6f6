import RadosGo.Library.GoMap

namespace RadosGo

section Loops

variable {ε α σ : Type} {step : σ → α → Except ε σ}

theorem toOption_bind {β : Type} {x y : Except ε α} {f g : α → Except ε β} (same : x.toOption = y.toOption)
    (then_ : ∀ value, x = .ok value → (f value).toOption = (g value).toOption) :
    (x >>= f).toOption = (y >>= g).toOption := by
  cases x with
  | error err =>
    cases y with
    | error err => rfl
    | ok value => cases same
  | ok value =>
    cases y with
    | error err => cases same
    | ok other =>
      cases same
      exact then_ value rfl

/-- A loop may take its values in another order if each two of them may change places. Errors are not
told apart. -/
theorem foldlM_perm (inv : σ → Prop)
    (keeps : ∀ {state value after}, inv state → step state value = .ok after → inv after)
    {first second : List α} (perm : first.Perm second)
    (swaps : first.Pairwise fun a b => ∀ state, inv state →
      (step state a >>= (step · b)).toOption = (step state b >>= (step · a)).toOption) {state : σ}
        (start : inv state) :
    (first.foldlM step state).toOption = (second.foldlM step state).toOption := by
  induction perm generalizing state with
  | nil => rfl
  | cons value _ ih =>
    rw [List.foldlM_cons, List.foldlM_cons]
    exact toOption_bind rfl fun after ran => ih (List.Pairwise.of_cons swaps) (keeps start ran)
  | swap a b rest =>
    have both := (List.pairwise_cons.mp swaps).1 a List.mem_cons_self state start
    simp only [List.foldlM_cons, ← bind_assoc]
    exact toOption_bind both fun _ _ => rfl
  | trans perm _ ih ih' =>
    have swaps' := perm.pairwise swaps fun comm state holds => (comm state holds).symm
    exact (ih swaps start).trans (ih' swaps' start)

end Loops

namespace GoMap

variable {κ α β : Type}

theorem Lists.of_perm {m : GoMap κ α} {first second : List (κ × α)} (lists : m.Lists first)
    (perm : first.Perm second) : m.Lists second := by
  rw [Lists, lists]
  exact Multiset.coe_eq_coe.mpr (perm.map _)

variable [DecidableEq κ]

theorem lookup_erase_or_insert (m : GoMap κ α) (erases : Prop) [Decidable erases] (at_ key : κ) (value : α) :
    (if erases then m.erase at_ else m.insert at_ value).lookup key =
      if key = at_ then if erases then none else some value else m.lookup key := by
  by_cases same : key = at_
  · subst same
    rw [if_pos rfl]
    split
    · exact Finmap.lookup_erase _ _
    · exact Finmap.lookup_insert _
  · rw [if_neg same]
    split
    · exact Finmap.lookup_erase_ne same
    · exact Finmap.lookup_insert_of_ne _ same

/-- Changes of a map at different keys may be made in any order. -/
theorem foldl_perm {update : GoMap κ α → κ × β → GoMap κ α} (next : Option α → κ × β → Option α)
    (at_ : ∀ m entry key, (update m entry).lookup key = if key = entry.1 then next (m.lookup key) entry
      else m.lookup key)
    {first second : List (κ × β)} (perm : first.Perm second) (nodup : (first.map Prod.fst).Nodup) (m : GoMap κ α) :
    first.foldl update m = second.foldl update m := by
  refine perm.foldl_eq' (fun a inside b inside' state => ?_) m
  by_cases same : a.1 = b.1
  · rw [List.inj_on_of_nodup_map nodup inside inside' same]
  · refine Finmap.ext_lookup fun key => ?_
    simp only [at_]
    split
    · next here =>
      have apart : key ≠ a.1 := fun there => same (there.symm.trans here)
      simp only [if_neg apart]
    · split <;> rfl

end GoMap

end RadosGo
