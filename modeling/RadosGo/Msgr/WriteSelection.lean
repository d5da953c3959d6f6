import RadosGo.Msgr.RequestTable

namespace RadosGo

open Function List

/-- A request that has a sequence number and is not with the write pump. -/
def RequestData.Waiting (node : RequestData) : Prop := node.sent = false ∧ node.seq ≠ 0

instance (node : RequestData) : Decidable node.Waiting := inferInstanceAs (Decidable (_ ∧ _))

/-- Applications write in the order of admission: the numbered ones come first
and their numbers increase. -/
def FifoNumbers (data : Nat → RequestData) (nodes : List Nat) : Prop :=
  nodes.Pairwise fun p q => (data p).request.control = false → (data q).request.control = false →
    (data q).seq ≠ 0 → (data p).seq ≠ 0 ∧ (data p).seq < (data q).seq

namespace WriteCandidates

variable {data : Nat → RequestData}

/-- The three candidates once the requests in `visited` are behind the loop. -/
structure Found (data : Nat → RequestData) (visited : List Nat) (found : WriteCandidates) : Prop where
  no_replay : found.replay = none → ∀ q ∈ visited, ¬(data q).Waiting
  replay : ∀ p, found.replay = some p → p ∈ visited ∧ (data p).Waiting ∧
    ∀ q ∈ visited, (data q).Waiting → (data p).seq ≤ (data q).seq
  control : ∀ p, found.control = some p → p ∈ visited ∧ (data p).sent = false ∧ (data p).seq = 0 ∧
    (data p).request.control = true
  application : found.application = visited.find? fun p =>
    !(data p).sent && ((data p).seq == 0 && !(data p).request.control)

theorem found_start : Found data [] {} where
  no_replay := by simp
  replay := by simp
  control := by simp
  application := rfl

theorem Found.visit {visited : List Nat} {found : WriteCandidates} (spec : Found data visited found) (p : Nat) :
    Found data (visited ++ [p]) (found.visit data p) := by
  obtain ⟨noReplay, replay, control, application⟩ := spec
  unfold WriteCandidates.visit
  split
  · constructor <;> grind [RequestData.Waiting]
  split
  · split
    · constructor <;> grind [RequestData.Waiting]
    · split <;> constructor <;> grind [RequestData.Waiting]
  split
  · split <;> constructor <;> grind [RequestData.Waiting]
  rename_i sent numbered isControl
  have passes : [p].find? (fun p => !(data p).sent && ((data p).seq == 0 && !(data p).request.control)) = some p := by
    simp_all
  split
  · rename_i vacant
    refine ⟨by grind [RequestData.Waiting], by grind [RequestData.Waiting], by grind, ?_⟩
    rw [find?_append, ← application, passes, Option.isNone_iff_eq_none.mp vacant, Option.none_or]
  · rename_i taken
    refine ⟨by grind [RequestData.Waiting], by grind [RequestData.Waiting], by grind, ?_⟩
    obtain ⟨q, first⟩ := Option.ne_none_iff_exists'.mp (fun none => taken (Option.isNone_iff_eq_none.mpr none))
    rw [find?_append, ← application, first, Option.some_or]

theorem found_all (nodes : List Nat) : Found data nodes (nodes.foldl (WriteCandidates.visit data) {}) := by
  induction nodes using reverseRecOn with
  | nil => exact found_start
  | append_singleton nodes p ih =>
    rw [foldl_append]
    exact ih.visit p

end WriteCandidates

/-- What the owner needs to know about the request it is about to write. -/
structure Selected (data : Nat → RequestData) (nodes : List Nat) (p : Nat) : Prop where
  member : p ∈ nodes
  unsent : (data p).sent = false
  least : (data p).seq ≠ 0 → ∀ q ∈ nodes, (data q).Waiting → (data p).seq ≤ (data q).seq
  none_waiting : (data p).seq = 0 → ∀ q ∈ nodes, ¬(data q).Waiting
  first : (data p).seq = 0 → (data p).request.control = false → ∃ before after, nodes = before ++ p :: after ∧
    ∀ q ∈ before, (data q).sent = false → (data q).request.control = false → (data q).seq ≠ 0

variable {data : Nat → RequestData} {nodes : List Nat} {p : Nat}

theorem selectWrite_control (selects : selectWrite data false nodes = some p) : Selected data nodes p := by
  obtain ⟨noReplay, replay, control, application⟩ := @WriteCandidates.found_all data nodes
  simp only [selectWrite, Bool.false_eq_true, if_false] at selects
  generalize nodes.foldl (WriteCandidates.visit data) {} = found at *
  cases oldest : found.replay with
  | some q =>
    obtain rfl : q = p := by simpa [oldest] using selects
    obtain ⟨member, waiting, least⟩ := replay q oldest
    exact ⟨member, waiting.1, fun _ => least, fun fresh => absurd fresh waiting.2, fun fresh =>
      absurd fresh waiting.2⟩
  | none =>
    have noWaiting := noReplay oldest
    cases lane : found.control with
    | some q =>
      obtain rfl : q = p := by simpa [oldest, lane] using selects
      obtain ⟨member, unsent, fresh, isControl⟩ := control q lane
      exact ⟨member, unsent, fun numbered => absurd fresh numbered, fun _ => noWaiting,
        fun _ application => by rw [isControl] at application; cases application⟩
    | none =>
      have last : found.application = some p := by simpa [oldest, lane] using selects
      obtain ⟨passes, before, after, split, skipped⟩ := find?_eq_some_iff_append.mp (application ▸ last)
      simp only [Bool.and_eq_true, Bool.not_eq_true', beq_iff_eq] at passes
      refine ⟨by simp [split], passes.1, fun numbered => absurd passes.2.1 numbered, fun _ => noWaiting,
        fun _ _ => ⟨before, after, split, fun q earlier unsent application => ?_⟩⟩
      have := skipped q earlier
      simpa [unsent, application] using this

theorem selectWrite_mem {withoutControl : Bool} (selects : selectWrite data withoutControl nodes = some p) :
    p ∈ nodes ∧ (data p).sent = false := by
  cases withoutControl with
  | false => exact ⟨(selectWrite_control selects).member, (selectWrite_control selects).unsent⟩
  | true =>
    simp only [selectWrite, if_true] at selects
    exact ⟨mem_of_find?_eq_some selects, by simpa using find?_some selects⟩

theorem selectWrite_fifo (applications : ∀ q ∈ nodes, (data q).request.control = false)
    (fifo : FifoNumbers data nodes) (selects : selectWrite data true nodes = some p) : Selected data nodes p := by
  simp only [selectWrite, if_true] at selects
  obtain ⟨passes, before, after, split, skipped⟩ := find?_eq_some_iff_append.mp selects
  have unsent : (data p).sent = false := by simpa using passes
  have allSent : ∀ q ∈ before, (data q).sent = true := fun q earlier => by simpa using skipped q earlier
  have member : p ∈ nodes := by simp [split]
  have later : ∀ q ∈ nodes, (data q).Waiting → q = p ∨ ((data p).seq ≠ 0 ∧ (data p).seq < (data q).seq) := by
    intro q listed waiting
    rw [split, mem_append, mem_cons] at listed
    rcases listed with earlier | same | behind
    · simp [RequestData.Waiting, allSent q earlier] at waiting
    · exact .inl same
    · rw [FifoNumbers, split, pairwise_append, pairwise_cons] at fifo
      exact .inr (fifo.2.1.1 q behind (applications p member) (applications q (by simp [split, behind])) waiting.2)
  refine ⟨member, unsent, fun _ q listed waiting => ?_, fun fresh q listed waiting => ?_,
    fun _ _ => ⟨before, after, split, fun q earlier open' => ?_⟩⟩
  · rcases later q listed waiting with rfl | ⟨_, less⟩
    · exact Nat.le_refl _
    · exact Nat.le_of_lt less
  · rcases later q listed waiting with rfl | ⟨numbered, _⟩
    · exact waiting.2 fresh
    · exact numbered fresh
  · rw [allSent q earlier] at open'
    cases open'

/-- Whichever loop of `nextPendingWrite` runs, it picks the waiting request of
the least number, and a fresh request only when none is waiting. -/
theorem selectWrite_selected (fifo : FifoNumbers data nodes)
    (selects : selectWrite data (nodes.all fun q => !(data q).request.control) nodes = some p) :
    Selected data nodes p := by
  cases none : nodes.all fun q => !(data q).request.control with
  | false => exact selectWrite_control (none ▸ selects)
  | true => exact selectWrite_fifo (fun q member => by simpa using all_eq_true.mp none q member) fifo (none ▸ selects)

/-- Numbering the selected request keeps the applications in order. -/
theorem FifoNumbers.hand {node : RequestData} (fifo : FifoNumbers data nodes) (nodup : nodes.Nodup)
    (selected : Selected data nodes p) (sent : ∀ q ∈ nodes, (data q).sent = true → (data q).seq ≠ 0)
    (request : node.request = (data p).request) (keeps : (data p).seq ≠ 0 → node.seq = (data p).seq)
    (above : (data p).seq = 0 → ∀ q ∈ nodes, (data q).seq < node.seq) : FifoNumbers (update data p node) nodes := by
  have requests : ∀ q, (update data p node q).request = (data q).request :=
    (forall_update_iff data fun q node => node.request = (data q).request).mpr ⟨request, fun _ _ => rfl⟩
  by_cases fresh : (data p).seq = 0
  · by_cases application : (data p).request.control = false
    · obtain ⟨before, after, split, earlier⟩ := selected.first fresh application
      rw [split, nodup_append, nodup_cons] at nodup
      obtain ⟨-, ⟨notAfter, -⟩, apart⟩ := nodup
      have beforeNe : ∀ q ∈ before, q ≠ p := fun q member => apart q member p (by simp)
      have afterNe : ∀ q ∈ after, q ≠ p := fun q member => ne_of_mem_of_not_mem member notAfter
      rw [FifoNumbers, split, pairwise_append, pairwise_cons] at fifo ⊢
      obtain ⟨front, ⟨behind, back⟩, cross⟩ := fifo
      refine ⟨front.imp_of_mem fun {q r} left right => ?_, ⟨fun q member _ isApplication => ?_,
        back.imp_of_mem fun {q r} left right => ?_⟩, fun q left r right => ?_⟩
      · simp [beforeNe q left, beforeNe r right]
      · simp only [update_of_ne (afterNe q member), update_self] at isApplication ⊢
        exact fun numbered => absurd fresh (behind q member application isApplication numbered).1
      · simp [afterNe q left, afterNe r right]
      · rcases mem_cons.mp right with rfl | right
        · rw [update_self, update_of_ne (beforeNe q left)]
          intro isApplication _ _
          have listed : q ∈ nodes := by simp [split, left]
          refine ⟨?_, above fresh q listed⟩
          cases state : (data q).sent with
          | true => exact sent q listed state
          | false => exact earlier q left state isApplication
        · rw [update_of_ne (beforeNe q left), update_of_ne (afterNe r right)]
          exact cross q left r (mem_cons_of_mem _ right)
    · refine List.Pairwise.imp_of_mem (fun {q r} _ _ ordered left right => ?_) fifo
      rw [requests] at left right
      have leftNe : q ≠ p := fun same => application (same ▸ left)
      have rightNe : r ≠ p := fun same => application (same ▸ right)
      simpa only [update_of_ne leftNe, update_of_ne rightNe] using ordered left right
  · have seqs : ∀ q, (update data p node q).seq = (data q).seq :=
      (forall_update_iff data fun q node => node.seq = (data q).seq).mpr ⟨keeps fresh, fun _ _ => rfl⟩
    simpa only [FifoNumbers, requests, seqs] using fifo

end RadosGo
