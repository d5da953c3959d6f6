import Mathlib

namespace RadosGo

/-- A map of Go: finite, and equal to another one with the same entries. -/
abbrev GoMap (κ α : Type) := Finmap fun _ : κ => α

namespace GoMap

variable {κ α : Type}

/-- An order in which a loop over the map may visit the keys. -/
def IsOrder (m : GoMap κ α) (order : List κ) : Prop := order.Nodup ∧ ∀ key, key ∈ order ↔ key ∈ m

/-- Some order of the keys. -/
noncomputable def anyOrder (m : GoMap κ α) : List κ := m.keys.toList

theorem isOrder_anyOrder (m : GoMap κ α) : m.IsOrder m.anyOrder :=
  ⟨m.keys.nodup_toList, fun _ => Finset.mem_toList.trans Finmap.mem_keys⟩

/-- The entries of the map, in an order in which a loop may visit them. -/
def Lists (m : GoMap κ α) (entries : List (κ × α)) : Prop :=
  m.entries = ↑(entries.map fun entry => (⟨entry.1, entry.2⟩ : Sigma fun _ : κ => α))

theorem exists_lists (m : GoMap κ α) : ∃ entries, m.Lists entries := by
  obtain ⟨entries, same⟩ := Quot.exists_rep m.entries
  refine ⟨entries.map fun entry => (entry.1, entry.2), ?_⟩
  rw [Lists, List.map_map, ← same]
  exact congrArg _ (List.map_id entries).symm

variable {m : GoMap κ α} {entries : List (κ × α)} {key other : κ} {value found : α}

theorem Lists.perm {first second : List (κ × α)} (lists : m.Lists first) (lists' : m.Lists second) :
    first.Perm second := by
  have same := Multiset.coe_eq_coe.mp (lists.symm.trans lists')
  refine (List.map_perm_map_iff ?_).mp same
  rintro ⟨_, _⟩ ⟨_, _⟩ equal
  cases equal
  rfl

theorem Lists.nodup (lists : m.Lists entries) : (entries.map Prod.fst).Nodup := by
  have keys := m.nodupKeys
  rw [lists, Multiset.coe_nodupKeys, List.NodupKeys, List.keys, List.map_map] at keys
  exact keys

theorem Lists.mem_iff [DecidableEq κ] (lists : m.Lists entries) :
    (key, value) ∈ entries ↔ m.lookup key = some value := by
  rw [Finmap.lookup_eq_some_iff, lists, Multiset.mem_coe, List.mem_map]
  refine ⟨fun member => ⟨_, member, rfl⟩, ?_⟩
  rintro ⟨⟨_, _⟩, member, same⟩
  cases same
  exact member

theorem Lists.forall_key_iff [DecidableEq κ] (lists : m.Lists entries) {property : κ → Prop} :
    (∀ entry ∈ entries, property entry.1) ↔ ∀ key ∈ m, property key := by
  constructor
  · intro all key member
    obtain ⟨value, found⟩ := Finmap.mem_iff.mp member
    exact all (key, value) (lists.mem_iff.mpr found)
  · rintro all ⟨key, value⟩ member
    exact all key (Finmap.mem_iff.mpr ⟨value, lists.mem_iff.mp member⟩)

variable [DecidableEq κ]

theorem lookup_insert_iff :
    (m.insert key value).lookup other = some found ↔ other = key ∧ value = found ∨
      other ≠ key ∧ m.lookup other = some found := by
  by_cases same : other = key
  · subst same
    rw [Finmap.lookup_insert, Option.some.injEq]
    simp
  · rw [Finmap.lookup_insert_of_ne _ same]
    simp [same]

theorem lookup_erase_iff : (m.erase key).lookup other = some found ↔ other ≠ key ∧ m.lookup other = some found := by
  by_cases same : other = key
  · subst same
    simp
  · rw [Finmap.lookup_erase_ne same]
    simp [same]

end GoMap

end RadosGo
