import Mathlib

namespace RadosGo

open List

/-- The bytes of a text in ASCII. -/
def ascii (text : String) : List UInt8 := text.toList.map fun character => UInt8.ofNat character.toNat

section Trimming

variable {α : Type} [DecidableEq α]

/-- Drops marks from the front as long as there are any. -/
def dropMarks (marks : List (List α)) : Nat → List α → List α
  | 0, text => text
  | fuel + 1, text =>
    match marks.find? fun mark => mark.isPrefixOf text with
    | none => text
    | some mark => dropMarks marks fuel (text.drop mark.length)

/-- Each mark that is dropped has a length, so the length of the text is fuel enough. -/
def trimLeft (marks : List (List α)) (text : List α) : List α := dropMarks marks text.length text

def trimMarks (marks : List (List α)) (text : List α) : List α :=
  (trimLeft (marks.map List.reverse) (trimLeft marks text).reverse).reverse

variable {marks : List (List α)} {text : List α}

theorem dropMarks_suffix (marks : List (List α)) (fuel : Nat) (text : List α) :
    dropMarks marks fuel text <:+ text := by
  induction fuel generalizing text with
  | zero => exact suffix_refl text
  | succ fuel ih =>
    rw [dropMarks]
    split
    · exact suffix_refl text
    · exact (ih _).trans (drop_suffix _ _)

theorem trimLeft_suffix (marks : List (List α)) (text : List α) : trimLeft marks text <:+ text := dropMarks_suffix ..

theorem dropMarks_no_mark (solid : [] ∉ marks) {fuel : Nat} (enough : text.length ≤ fuel) :
    ∀ mark ∈ marks, ¬mark <+: dropMarks marks fuel text := by
  induction fuel generalizing text with
  | zero =>
    intro mark member isPrefix
    obtain rfl := eq_nil_of_length_eq_zero (Nat.le_zero.mp enough)
    obtain rfl := prefix_nil.mp isPrefix
    exact solid member
  | succ fuel ih =>
    rw [dropMarks]
    split
    · next none =>
      intro mark member isPrefix
      exact find?_eq_none.mp none mark member (List.isPrefixOf_iff_prefix.mpr isPrefix)
    · next mark found =>
      refine ih ?_
      have long : mark.length ≠ 0 := by
        intro empty
        obtain rfl := eq_nil_of_length_eq_zero empty
        exact solid (mem_of_find?_eq_some found)
      rw [length_drop]
      omega

theorem trimLeft_no_mark (solid : [] ∉ marks) : ∀ mark ∈ marks, ¬mark <+: trimLeft marks text :=
  dropMarks_no_mark solid (Nat.le_refl _)

theorem trimLeft_eq_self (bare : ∀ mark ∈ marks, ¬mark <+: text) : trimLeft marks text = text := by
  rw [trimLeft]
  cases text with
  | nil => rfl
  | cons first rest =>
    have none : (marks.find? fun mark => mark.isPrefixOf (first :: rest)) = none := by
      refine find?_eq_none.mpr fun mark member isPrefix => ?_
      exact bare mark member (List.isPrefixOf_iff_prefix.mp isPrefix)
    rw [length_cons, dropMarks, none]

/-- A text without marks at its ends. -/
structure Bare (marks : List (List α)) (text : List α) : Prop where
  front : ∀ mark ∈ marks, ¬mark <+: text
  back : ∀ mark ∈ marks, ¬mark <:+ text

theorem bare_trimMarks (solid : [] ∉ marks) (text : List α) : Bare marks (trimMarks marks text) := by
  have solid' : [] ∉ marks.map reverse := by simpa using solid
  refine ⟨fun mark member isPrefix => ?_, fun mark member isSuffix => ?_⟩
  · have shorter : trimMarks marks text <+: trimLeft marks text := by
      rw [← reverse_suffix, trimMarks, reverse_reverse]
      exact trimLeft_suffix _ _
    exact trimLeft_no_mark solid mark member (isPrefix.trans shorter)
  · rw [trimMarks, ← reverse_prefix, reverse_reverse] at isSuffix
    exact trimLeft_no_mark solid' mark.reverse (mem_map_of_mem member) isSuffix

theorem trimMarks_eq_self_iff (solid : [] ∉ marks) : trimMarks marks text = text ↔ Bare marks text := by
  constructor
  · intro same
    rw [← same]
    exact bare_trimMarks solid text
  · rintro ⟨front, back⟩
    have back' : ∀ mark ∈ marks.map reverse, ¬mark <+: text.reverse := by
      intro mark member isPrefix
      obtain ⟨original, inside, rfl⟩ := mem_map.mp member
      exact back original inside (List.reverse_prefix.mp isPrefix)
    rw [trimMarks, trimLeft_eq_self front, trimLeft_eq_self back', reverse_reverse]

end Trimming

/-- The characters which `unicode.IsSpace` accepts, in UTF-8. -/
def spaces : List (List UInt8) :=
  [[0x09], [0x0a], [0x0b], [0x0c], [0x0d], [0x20], [0xc2, 0x85], [0xc2, 0xa0], [0xe1, 0x9a, 0x80]] ++
    (List.range 11).map (fun index => [0xe2, 0x80, UInt8.ofNat (0x80 + index)]) ++
    [[0xe2, 0x80, 0xa8], [0xe2, 0x80, 0xa9], [0xe2, 0x80, 0xaf], [0xe2, 0x81, 0x9f], [0xe3, 0x80, 0x80]]

/-- `strings.TrimSpace`. -/
def trimSpace : List UInt8 → List UInt8 := trimMarks spaces

theorem spaces_solid : [] ∉ spaces := by decide

/-- `strings.Cut` with a separator of one byte. -/
def cut (separator : UInt8) (text : List UInt8) : Option (List UInt8 × List UInt8) :=
  if separator ∈ text then some (text.takeWhile (· ≠ separator), (text.dropWhile (· ≠ separator)).tail) else none

/-- The text before and behind the last occurrence of a byte. -/
def cutLast (separator : UInt8) (text : List UInt8) : Option (List UInt8 × List UInt8) :=
  (cut separator text.reverse).map fun parts => (parts.2.reverse, parts.1.reverse)

section Joining

variable {α : Type} {separator : α}

/-- A mark at the front of several texts is at the front of the first one, unless it reaches the separator. -/
theorem prefix_of_prefix_append {mark first rest : List α} (outside : separator ∉ mark)
    (isPrefix : mark <+: first ++ separator :: rest) : mark <+: first := by
  by_cases short : mark.length ≤ first.length
  · exact prefix_of_prefix_length_le isPrefix (prefix_append _ _) short
  · have reaches : first ++ [separator] <+: mark := by
      refine prefix_of_prefix_length_le ⟨rest, ?_⟩ isPrefix (by rw [length_append]; exact Nat.lt_of_not_le short)
      rw [append_assoc, singleton_append]
    exact absurd (reaches.subset (mem_append_right _ (mem_singleton_self _))) outside

theorem suffix_of_suffix_append {mark last front : List α} (outside : separator ∉ mark)
    (isSuffix : mark <:+ front ++ separator :: last) : mark <:+ last := by
  rw [← reverse_prefix] at isSuffix ⊢
  rw [reverse_append, reverse_cons, append_assoc, singleton_append] at isSuffix
  exact prefix_of_prefix_append (by rwa [mem_reverse]) isSuffix

/-- The ends of several texts are those of the first and of the last one. -/
theorem bare_intercalate {marks texts : List (List α)} (outside : ∀ mark ∈ marks, separator ∉ mark)
    (some : texts ≠ []) (bare : ∀ text ∈ texts, Bare marks text) : Bare marks ([separator].intercalate texts) := by
  induction texts with
  | nil => exact absurd rfl some
  | cons first rest ih =>
    obtain ⟨here, later⟩ := forall_mem_cons.mp bare
    cases rest with
    | nil =>
      rw [intercalate_singleton]
      exact here
    | cons second rest =>
      rw [intercalate_cons_cons, append_assoc, singleton_append]
      refine ⟨fun mark member isPrefix => ?_, fun mark member isSuffix => ?_⟩
      · exact here.front mark member (prefix_of_prefix_append (outside mark member) isPrefix)
      · exact (ih (by simp) later).back mark member (suffix_of_suffix_append (outside mark member) isSuffix)

theorem splitOnP_intercalate {separates : α → Bool} (isSeparator : separates separator) {texts : List (List α)}
    (some : texts ≠ []) (plain : ∀ text ∈ texts, ∀ character ∈ text, separates character = false) :
    ([separator].intercalate texts).splitOnP separates = texts := by
  induction texts with
  | nil => exact absurd rfl some
  | cons first rest ih =>
    obtain ⟨here, later⟩ := forall_mem_cons.mp plain
    cases rest with
    | nil =>
      rw [intercalate_singleton]
      exact splitOnP_eq_singleton here
    | cons second rest =>
      rw [intercalate_cons_cons, append_assoc, singleton_append,
        splitOnP_append_cons_of_forall_mem here separator isSeparator, ih (by simp) later]

theorem mem_intercalate {texts : List (List α)} {character : α} (other : character ≠ separator) :
    character ∈ [separator].intercalate texts ↔ ∃ text ∈ texts, character ∈ text := by
  induction texts with
  | nil => simp
  | cons first rest ih =>
    cases rest with
    | nil => simp
    | cons second rest =>
      rw [intercalate_cons_cons, mem_append, mem_append, ih, mem_singleton]
      simp [other]

end Joining

end RadosGo
