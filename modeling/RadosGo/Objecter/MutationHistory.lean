import RadosGo.Objecter.MutationStep

namespace RadosGo

open Function List

namespace Mutations

variable {s s' : Mutations}

/-- A mutation of this sequence has been admitted. -/
def Admitted (journal : List MutationNote) (sequence : Nat) : Prop := ∃ bytes, .admitted sequence bytes ∈ journal

/-- A mutation of this sequence has completed with an unknown outcome. -/
def CompletedUnknown (journal : List MutationNote) (sequence : Nat) : Prop :=
  ∃ err, .completed sequence err ∈ journal ∧ errorIs err .outcomeUnknown = true

/-- The sequences in the history, in the table and in the two counters. -/
structure Sequenced (s : Mutations) : Prop where
  admitted : ∀ sequence, Admitted s.journal sequence ↔ 0 < sequence ∧ sequence ≤ s.nextMutation
  pending : ∀ sequence ∈ s.pendingMutations.map Prod.fst, Admitted s.journal sequence
  settled : ∀ sequence, Admitted s.journal sequence →
    sequence ∈ s.pendingMutations.map Prod.fst ∨ ∃ err, .completed sequence err ∈ s.journal
  unknown : ∀ watermark, s.unknownUpTo watermark = true ↔
    ∃ sequence, sequence ≤ watermark ∧ CompletedUnknown s.journal sequence

theorem Sequenced.note (sequenced : Sequenced s) {note : MutationNote} (journal : s'.journal = note :: s.journal)
    (nextMutation : s'.nextMutation = s.nextMutation) (pendingMutations : s'.pendingMutations = s.pendingMutations)
    (unknownMutation : s'.unknownMutation = s.unknownMutation)
    (notAdmitted : ∀ sequence bytes, note ≠ .admitted sequence bytes)
    (notCompleted : ∀ sequence err, note ≠ .completed sequence err) : Sequenced s' := by
  have admitted : ∀ sequence, Admitted s'.journal sequence ↔ Admitted s.journal sequence := fun sequence =>
    exists_congr fun bytes => by rw [journal, mem_cons, or_iff_right (notAdmitted sequence bytes).symm]
  have completed : ∀ sequence err, .completed sequence err ∈ s'.journal ↔ .completed sequence err ∈ s.journal :=
    fun sequence err => by rw [journal, mem_cons, or_iff_right (notCompleted sequence err).symm]
  refine ⟨?_, ?_, ?_, ?_⟩
  · simpa only [admitted, nextMutation] using sequenced.admitted
  · simpa only [admitted, pendingMutations] using sequenced.pending
  · simpa only [admitted, completed, pendingMutations] using sequenced.settled
  · simpa only [CompletedUnknown, completed, unknownUpTo, unknownMutation] using sequenced.unknown

theorem Sequenced.adds (sequenced : Sequenced s) (call bytes : Nat) : Sequenced (s.addMutation call bytes) := by
  have journal : (s.addMutation call bytes).journal =
      .admitted (s.nextMutation + 1) bytes :: s.takeTransactionIDLocked.1.journal := rfl
  have taken : Sequenced s.takeTransactionIDLocked.1 := sequenced.note rfl rfl rfl rfl nofun nofun
  have admitted : ∀ sequence, Admitted (s.addMutation call bytes).journal sequence ↔
      sequence = s.nextMutation + 1 ∨ Admitted s.takeTransactionIDLocked.1.journal sequence := fun sequence => by
    simp only [Admitted, journal, mem_cons, MutationNote.admitted.injEq, exists_or, exists_eq_right]
  refine ⟨fun sequence => ?_, fun sequence member => ?_, fun sequence isAdmitted => ?_, fun watermark => ?_⟩
  · rw [admitted, taken.admitted]
    change _ ↔ 0 < sequence ∧ sequence ≤ s.nextMutation + 1
    have same : s.takeTransactionIDLocked.1.nextMutation = s.nextMutation := rfl
    rw [same]
    omega
  · rw [admitted]
    exact (mem_cons.mp member).imp_right (taken.pending sequence)
  · rcases (admitted sequence).mp isAdmitted with rfl | old
    · exact .inl mem_cons_self
    · rcases taken.settled sequence old with pending | ⟨err, completed⟩
      · exact .inl (mem_cons_of_mem _ pending)
      · exact .inr ⟨err, mem_cons_of_mem _ completed⟩
  · refine (taken.unknown watermark).trans
      (exists_congr fun sequence => and_congr_right fun _ => exists_congr fun err => ?_)
    rw [journal, mem_cons, or_iff_right (by exact nofun)]

theorem unknownUpTo_iff (s : Mutations) (watermark : Nat) :
    s.unknownUpTo watermark = true ↔ s.unknownMutation ≠ 0 ∧ s.unknownMutation ≤ watermark := by
  simp [unknownUpTo]

/-- Keeping the smallest unknown sequence is enough to answer for every watermark. -/
theorem noteUnknown_upTo {sequence : Nat} (positive : 0 < sequence) (err : Option GoError) (watermark : Nat) :
    (s.noteUnknown sequence err ≠ 0 ∧ s.noteUnknown sequence err ≤ watermark) ↔
      s.unknownUpTo watermark = true ∨ errorIs err .outcomeUnknown = true ∧ sequence ≤ watermark := by
  rw [unknownUpTo_iff, noteUnknown]
  cases errorIs err .outcomeUnknown with
  | false => simp
  | true =>
    simp only [true_and]
    split <;> omega

theorem Sequenced.completes (sequenced : Sequenced s) {sequence bytes : Nat} (err : Option GoError)
    (found : s.pendingMutations.lookup sequence = some bytes) : Sequenced (s.completeMutation sequence err) := by
  have isPending : sequence ∈ s.pendingMutations.map Prod.fst := by
    rw [lookup_eq_some_iff] at found
    obtain ⟨before, after, table, -⟩ := found
    simp [table]
  have positive := ((sequenced.admitted sequence).mp (sequenced.pending sequence isPending)).1
  simp only [completeMutation, found]
  have admitted : ∀ other, Admitted (.completed sequence err :: s.journal) other ↔ Admitted s.journal other :=
    fun other =>
    exists_congr fun _ => by simp
  have remaining : ∀ other, other ∈ (s.pendingMutations.filter fun pending => pending.1 != sequence).map Prod.fst ↔
      other ∈ s.pendingMutations.map Prod.fst ∧ other ≠ sequence := fun other => by
    simp only [mem_map, mem_filter, bne_iff_ne]
    constructor
    · rintro ⟨entry, ⟨member, different⟩, same⟩
      exact ⟨⟨entry, member, same⟩, same ▸ different⟩
    · rintro ⟨⟨entry, member, same⟩, different⟩
      exact ⟨entry, ⟨member, same ▸ different⟩, same⟩
  refine ⟨fun other => ?_, fun other member => ?_, fun other isAdmitted => ?_, fun watermark => ?_⟩
  · exact (admitted other).trans (sequenced.admitted other)
  · exact (admitted other).mpr (sequenced.pending other ((remaining other).mp member).1)
  · by_cases same : other = sequence
    · subst same
      exact .inr ⟨err, mem_cons_self⟩
    · rcases sequenced.settled other ((admitted other).mp isAdmitted) with pending | ⟨result, completed⟩
      · exact .inl ((remaining other).mpr ⟨pending, same⟩)
      · exact .inr ⟨result, mem_cons_of_mem _ completed⟩
  · have unknown : ∀ other, CompletedUnknown (.completed sequence err :: s.journal) other ↔
        other = sequence ∧ errorIs err .outcomeUnknown = true ∨ CompletedUnknown s.journal other := fun other => by
      simp only [CompletedUnknown, mem_cons, MutationNote.completed.injEq, or_and_right, exists_or]
      refine or_congr_left ⟨?_, ?_⟩
      · rintro ⟨_, ⟨same, rfl⟩, isUnknown⟩
        exact ⟨same, isUnknown⟩
      · rintro ⟨same, isUnknown⟩
        exact ⟨err, ⟨same, rfl⟩, isUnknown⟩
    refine (unknownUpTo_iff _ watermark).trans ((noteUnknown_upTo positive err watermark).trans ?_)
    simp only [notifyMutationWaitersLocked, Mutations.note, unknown, sequenced.unknown watermark]
    constructor
    · rintro (⟨other, below, isUnknown⟩ | ⟨isUnknown, below⟩)
      · exact ⟨other, below, .inr isUnknown⟩
      · exact ⟨sequence, below, .inl ⟨rfl, isUnknown⟩⟩
    · rintro ⟨other, below, ⟨rfl, isUnknown⟩ | isUnknown⟩
      · exact .inr ⟨isUnknown, below⟩
      · exact .inl ⟨other, below, isUnknown⟩

theorem Sequenced.effect (sequenced : Sequenced s) (effect : Effect s s') : Sequenced s' := by
  cases effect with
  | adds call bytes => exact sequenced.adds call bytes
  | completes sequence bytes err found => exact sequenced.completes err found
  | takes | marks | returns => exact sequenced.note rfl rfl rfl rfl nofun nofun
  | quiet | blocks | resumes => exact ⟨sequenced.admitted, sequenced.pending, sequenced.settled, sequenced.unknown⟩

/-- The watermark of a call of `Flush` that has not returned. -/
def runningWatermark : FlushPhase → Option Nat
  | .checking watermark | .waiting watermark _ => some watermark
  | _ => none

/-- How a call of `Flush` and its watermark in the history belong together. A call
that waits on the current channel waits for a pending mutation. -/
structure Watermarked (s : Mutations) : Prop where
  idle : ∀ flush, s.flushes flush = .idle → ∀ watermark, .watermark flush watermark ∉ s.journal
  running : ∀ flush watermark, runningWatermark (s.flushes flush) = some watermark →
    ∀ other, .watermark flush other ∈ s.journal ↔ other = watermark
  exact_ : Throughout (fun note older => ∀ flush watermark, note = .watermark flush watermark →
    ∀ sequence, Admitted older sequence ↔ 0 < sequence ∧ sequence ≤ watermark) s.journal
  awake : ∀ flush watermark changed, s.flushes flush = .waiting watermark changed →
    changed ≤ s.mutationChanged ∧ (changed = s.mutationChanged → s.pendingUpTo watermark = true)

section

variable (watermarked : Watermarked s)
include watermarked

/-- What changes no call of `Flush`, and leaves pending what is waited for. -/
theorem Watermarked.others (notes : List MutationNote) (flushes : s'.flushes = s.flushes)
    (journal : s'.journal = notes ++ s.journal) (notMark : ∀ flush watermark, .watermark flush watermark ∉ notes)
    (later : s.mutationChanged ≤ s'.mutationChanged)
    (waited : s'.mutationChanged = s.mutationChanged → ∀ watermark, s.pendingUpTo watermark = true →
      s'.pendingUpTo watermark = true) :
    Watermarked s' := by
  have marks : ∀ flush watermark, .watermark flush watermark ∈ s'.journal ↔ .watermark flush watermark ∈ s.journal :=
    fun flush watermark => by rw [journal, mem_append, or_iff_right (notMark flush watermark)]
  refine ⟨?_, ?_, ?_, ?_⟩
  · simpa only [flushes, marks] using watermarked.idle
  · simpa only [flushes, marks] using watermarked.running
  · rw [journal]
    refine throughout_append watermarked.exact_ ?_
    rintro note member older flush watermark rfl
    exact absurd member (notMark flush watermark)
  · intro flush watermark changed waiting
    rw [flushes] at waiting
    obtain ⟨earlier, pending⟩ := watermarked.awake flush watermark changed waiting
    refine ⟨earlier.trans later, fun same => ?_⟩
    have unchanged : s'.mutationChanged = s.mutationChanged := by omega
    exact waited unchanged watermark (pending (by omega))

/-- One call of `Flush` goes on with its watermark. -/
theorem Watermarked.moves {flush watermark : Nat} {phase : FlushPhase}
    (running : runningWatermark (s.flushes flush) = some watermark) (keeps : runningWatermark phase = some watermark)
    (awake : ∀ changed, phase = .waiting watermark changed → changed ≤ s.mutationChanged ∧
      (changed = s.mutationChanged → s.pendingUpTo watermark = true)) :
    Watermarked (s.setFlush flush phase) := by
  refine ⟨fun other idle => ?_, fun other mark isRunning => ?_, watermarked.exact_,
    fun other mark changed waiting => ?_⟩
  · by_cases same : other = flush
    · subst same
      simp only [setFlush, update_self] at idle
      rw [idle] at keeps
      cases keeps
    · simp only [setFlush, update_of_ne same] at idle
      exact watermarked.idle other idle
  · by_cases same : other = flush
    · subst same
      simp only [setFlush, update_self, keeps, Option.some.injEq] at isRunning
      exact isRunning ▸ watermarked.running other watermark running
    · simp only [setFlush, update_of_ne same] at isRunning
      exact watermarked.running other mark isRunning
  · by_cases same : other = flush
    · subst same
      simp only [setFlush, update_self] at waiting
      have isMark : watermark = mark := by
        rw [waiting] at keeps
        exact (Option.some.inj keeps).symm
      subst isMark
      exact awake changed waiting
    · simp only [setFlush, update_of_ne same] at waiting
      exact watermarked.awake other mark changed waiting

theorem Watermarked.marks (sequenced : Sequenced s) {flush : Nat} (idle : s.flushes flush = .idle) :
    Watermarked ((s.setFlush flush (.checking s.nextMutation)).note (.watermark flush s.nextMutation)) := by
  refine ⟨fun other isIdle watermark => ?_, fun other mark isRunning watermark => ?_, ⟨?_, watermarked.exact_⟩,
    fun other mark changed waiting => ?_⟩
  · by_cases same : other = flush
    · subst same
      simp [setFlush, note] at isIdle
    · simp only [setFlush, note, update_of_ne same] at isIdle
      simp only [setFlush, note, mem_cons, MutationNote.watermark.injEq, same, false_and, false_or]
      exact watermarked.idle other isIdle watermark
  · by_cases same : other = flush
    · subst same
      simp only [setFlush, note, update_self, runningWatermark, Option.some.injEq] at isRunning
      simp only [setFlush, note, mem_cons, MutationNote.watermark.injEq, true_and, isRunning,
        or_iff_left (watermarked.idle other idle watermark)]
    · simp only [setFlush, note, update_of_ne same] at isRunning
      simp only [setFlush, note, mem_cons, MutationNote.watermark.injEq, same, false_and, false_or]
      exact watermarked.running other mark isRunning watermark
  · rintro _ _ ⟨⟩
    exact sequenced.admitted
  · by_cases same : other = flush
    · subst same
      simp [setFlush, note] at waiting
    · simp only [setFlush, note, update_of_ne same] at waiting
      exact watermarked.awake other mark changed waiting

theorem Watermarked.returns (flush : Nat) (err : Option GoError) : Watermarked (s.returnFlush flush err) := by
  have returned : Watermarked (s.setFlush flush (.returned err)) := by
    refine ⟨fun other idle => ?_, fun other mark isRunning => ?_, watermarked.exact_,
      fun other mark changed waiting => ?_⟩
    · by_cases same : other = flush
      · simp [setFlush, same] at idle
      · simp only [setFlush, update_of_ne same] at idle
        exact watermarked.idle other idle
    · by_cases same : other = flush
      · simp [setFlush, same, runningWatermark] at isRunning
      · simp only [setFlush, update_of_ne same] at isRunning
        exact watermarked.running other mark isRunning
    · by_cases same : other = flush
      · simp [setFlush, same] at waiting
      · simp only [setFlush, update_of_ne same] at waiting
        exact watermarked.awake other mark changed waiting
  exact returned.others [.flushed flush err] rfl rfl (by simp) (Nat.le_refl _) fun _ _ => id

theorem Watermarked.effect (sequenced : Sequenced s) (effect : Effect s s') : Watermarked s' := by
  cases effect with
  | quiet admissions closed mutationClosed mutationChanged later =>
    exact watermarked.others [] rfl rfl (by simp) later fun _ _ => id
  | takes =>
    exact watermarked.others [.handedOut _] rfl rfl (by simp) (Nat.le_refl _) fun _ _ => id
  | adds call bytes =>
    refine watermarked.others [.admitted _ _, .handedOut _] rfl rfl (by simp) (Nat.le_refl _) ?_
    intro _ watermark pending
    simp only [pendingUpTo, addMutation, setAdmission, note, any_cons, Bool.or_eq_true]
    exact .inr pending
  | completes sequence bytes err found =>
    simp only [completeMutation, found]
    refine watermarked.others [.completed sequence err] rfl rfl (by simp) (Nat.le_succ _) ?_
    exact fun same => absurd same (Nat.succ_ne_self _)
  | marks flush idle => exact watermarked.marks sequenced idle
  | blocks flush watermark checking pending =>
    refine watermarked.moves (by rw [checking]; rfl) rfl ?_
    rintro changed ⟨⟩
    exact ⟨Nat.le_refl _, fun _ => pending⟩
  | resumes flush watermark changed waiting => exact watermarked.moves (by rw [waiting]; rfl) rfl (by simp)
  | returns flush watermark err => exact watermarked.returns flush err

end

/-- A flush without an error means that every mutation admitted before its watermark
has completed, none of them with an unknown outcome. If one of them had an unknown
outcome, the flush reports that. -/
def FlushesExact : List MutationNote → Prop := Throughout fun note older => ∀ flush err, note = .flushed flush err →
  (∃ watermark, .watermark flush watermark ∈ older) ∧
  ∀ newer watermark before, older = newer ++ .watermark flush watermark :: before →
    (err = none → ∀ sequence, Admitted before sequence →
      (∃ result, .completed sequence result ∈ older) ∧ ¬CompletedUnknown older sequence) ∧
    ((∃ sequence, Admitted before sequence ∧ CompletedUnknown older sequence) → errorIs err .outcomeUnknown = true)

theorem pendingUpTo_false {watermark sequence : Nat} (drained : s.pendingUpTo watermark = false)
    (below : sequence ≤ watermark) : sequence ∉ s.pendingMutations.map Prod.fst := by
  intro member
  obtain ⟨entry, isPending, rfl⟩ := mem_map.mp member
  simp only [pendingUpTo, any_eq_false, decide_eq_true_eq, not_le] at drained
  exact Nat.not_le_of_lt (drained entry isPending) below

/-- The watermark which a cut of the history shows is the one the call has. -/
theorem Watermarked.cut (watermarked : Watermarked s) {flush watermark mark : Nat} {newer before : List MutationNote}
    (running : runningWatermark (s.flushes flush) = some watermark)
    (cut : s.journal = newer ++ .watermark flush mark :: before) :
    mark = watermark ∧ ∀ sequence, Admitted before sequence ↔ 0 < sequence ∧ sequence ≤ watermark := by
  have isMark : mark = watermark := (watermarked.running flush watermark running mark).mp (by simp [cut])
  subst isMark
  exact ⟨rfl, throughout_iff.mp watermarked.exact_ newer _ before cut flush mark rfl⟩

theorem FlushesExact.returns (exact_ : FlushesExact s.journal) (watermarked : Watermarked s) (sequenced : Sequenced s)
    {flush watermark : Nat} {err : Option GoError} (running : runningWatermark (s.flushes flush) = some watermark)
    (clean : err = none → s.pendingUpTo watermark = false)
    (reported : errorIs err .outcomeUnknown = s.unknownUpTo watermark) :
    FlushesExact (s.returnFlush flush err).journal := by
  refine ⟨?_, exact_⟩
  rintro _ _ ⟨⟩
  refine ⟨⟨watermark, (watermarked.running flush watermark running watermark).mpr rfl⟩, ?_⟩
  intro newer mark before cut
  have cut : s.journal = newer ++ .watermark flush mark :: before := cut
  obtain ⟨-, admitted⟩ := watermarked.cut running cut
  constructor
  · rintro rfl sequence isAdmitted
    have bounds := (admitted sequence).mp isAdmitted
    have inHistory : Admitted s.journal sequence := by
      obtain ⟨bytes, member⟩ := isAdmitted
      exact ⟨bytes, cut.symm ▸ mem_append_right newer (mem_cons_of_mem _ member)⟩
    refine ⟨(sequenced.settled sequence inHistory).resolve_left (pendingUpTo_false (clean rfl) bounds.2),
      fun unknown => ?_⟩
    have isUnknown := (sequenced.unknown watermark).mpr ⟨sequence, bounds.2, unknown⟩
    rw [← reported] at isUnknown
    cases isUnknown
  · rintro ⟨sequence, isAdmitted, unknown⟩
    rw [reported]
    exact (sequenced.unknown watermark).mpr ⟨sequence, ((admitted sequence).mp isAdmitted).2, unknown⟩

theorem Effect.journal_grows (effect : Effect s s') : ∃ notes, s'.journal = notes ++ s.journal := by
  cases effect with
  | quiet | blocks | resumes => exact ⟨[], rfl⟩
  | takes => exact ⟨[.handedOut _], rfl⟩
  | adds => exact ⟨[.admitted _ _, .handedOut _], rfl⟩
  | completes sequence bytes err found =>
    simp only [completeMutation, found]
    exact ⟨[.completed sequence err], rfl⟩
  | marks => exact ⟨[.watermark _ _], rfl⟩
  | returns => exact ⟨[.flushed _ _], rfl⟩

theorem Effect.returned_flush (effect : Effect s s') {flush : Nat} {err : Option GoError}
    (returned : s'.flushes flush = .returned err) :
    s.flushes flush = .returned err ∨ ∃ watermark, errorIs err .outcomeUnknown = s.unknownUpTo watermark := by
  have others {other : Nat} {phase : FlushPhase} (updated : update s.flushes other phase flush = .returned err)
      (notReturned : phase ≠ .returned err) : s.flushes flush = .returned err := by
    by_cases same : flush = other
    · subst same
      rw [update_self] at updated
      exact absurd updated notReturned
    · rwa [update_of_ne same] at updated
  cases effect with
  | quiet | takes | adds => exact .inl returned
  | completes sequence bytes result found =>
    simp only [completeMutation, found] at returned
    exact .inl returned
  | marks | blocks | resumes => exact .inl (others returned (by simp))
  | returns other watermark result running clean reported =>
    by_cases same : result = err
    · exact .inr ⟨watermark, same ▸ reported⟩
    · exact .inl (others returned fun equal => same (FlushPhase.returned.inj equal))

/-- A flush reports an unknown outcome only when a mutation had one. -/
def Honest (s : Mutations) : Prop :=
  ∀ flush err, s.flushes flush = .returned err → errorIs err .outcomeUnknown = true →
    ∃ sequence, CompletedUnknown s.journal sequence

theorem Honest.effect (honest : Honest s) (sequenced : Sequenced s) (effect : Effect s s') : Honest s' := by
  intro flush err returned unknown
  have reported : ∃ sequence, CompletedUnknown s.journal sequence := by
    rcases effect.returned_flush returned with before | ⟨watermark, reports⟩
    · exact honest flush err before unknown
    · obtain ⟨sequence, -, completed⟩ := (sequenced.unknown watermark).mp (reports ▸ unknown)
      exact ⟨sequence, completed⟩
  obtain ⟨sequence, result, completed, isUnknown⟩ := reported
  obtain ⟨notes, journal⟩ := effect.journal_grows
  exact ⟨sequence, result, journal ▸ mem_append_right notes completed, isUnknown⟩

/-- What holds in every reached state. -/
structure Ledgered (s : Mutations) : Prop where
  accounts : Accounts s
  identified : Identified s
  sequenced : Sequenced s
  watermarked : Watermarked s
  honest : Honest s
  flushes : FlushesExact s.journal

theorem FlushesExact.note {journal : List MutationNote} (exact_ : FlushesExact journal) {note : MutationNote}
    (other : ∀ flush err, note ≠ .flushed flush err) : FlushesExact (note :: journal) :=
  ⟨fun flush err same => absurd same (other flush err), exact_⟩

theorem Ledgered.effect (ledgered : Ledgered s) (effect : Effect s s') : Ledgered s' := by
  refine ⟨ledgered.accounts.effect effect, ledgered.identified.effect effect, ledgered.sequenced.effect effect,
    ledgered.watermarked.effect ledgered.sequenced effect, ledgered.honest.effect ledgered.sequenced effect, ?_⟩
  have exact_ := ledgered.flushes
  cases effect with
  | returns flush watermark err running clean reported =>
    have running : runningWatermark (s.flushes flush) = some watermark := by
      rcases running with checking | ⟨changed, waiting⟩
      · rw [checking, runningWatermark]
      · rw [waiting, runningWatermark]
    exact exact_.returns ledgered.watermarked ledgered.sequenced running clean reported
  | completes sequence bytes err found =>
    simp only [completeMutation, found]
    exact exact_.note (by simp)
  | adds => exact FlushesExact.note (exact_.note (by simp)) (by simp)
  | takes => exact exact_.note (by simp)
  | marks => exact exact_.note (by simp)
  | quiet | blocks | resumes => exact exact_

theorem ledgered_of_reaches {allowed : Mutations → MutationAction → Prop} (reach : interleavings.Reaches allowed s) :
    Ledgered s := by
  refine reach.invariant Ledgered ?_ ?_
  · rintro first ⟨limits, rfl⟩
    have none : ∀ sequence, ¬Admitted [] sequence := fun _ => nofun
    refine ⟨⟨Nat.zero_le _, rfl, Nat.zero_le _, .nil, nofun⟩, ⟨nofun, Nat.zero_lt_one, trivial⟩, ⟨?_, nofun, ?_, ?_⟩,
      ⟨nofun, nofun, trivial, nofun⟩, nofun, trivial⟩
    · intro sequence
      refine iff_of_false (none sequence) ?_
      rintro ⟨positive, bound⟩
      exact absurd positive (Nat.not_lt.mpr bound)
    · exact fun sequence admitted => absurd admitted (none sequence)
    · intro watermark
      refine iff_of_false (by simp [unknownUpTo]) ?_
      rintro ⟨_, _, _, ⟨⟩, _⟩
  · rintro earlier action later ledgered step -
    exact ledgered.effect (step_effect step)

/-- The steps which a call of `Flush` makes by itself. -/
def FlushSteps (flush : Nat) (action : MutationAction) : Prop :=
  action = .flushChecks flush ∨ action = .flushWakes flush

/-- A call of `Flush` returns when nothing is pending up to its watermark: it is not
waiting, or the channel on which it waits has been closed. -/
theorem Watermarked.flush_returns (watermarked : Watermarked s) {flush watermark : Nat}
    (running : runningWatermark (s.flushes flush) = some watermark) (drained : s.pendingUpTo watermark = false) :
    ∃ s', interleavings.Path (fun _ => FlushSteps flush) s s' ∧ s'.flushes flush =
      .returned (if s.unknownUpTo watermark then some Sentinel.outcomeUnknown else none) := by
  have checks (x : Mutations) (checking : x.flushes flush = .checking watermark)
      (pending : x.pendingUpTo watermark = false) : interleavings.Path (fun _ => FlushSteps flush) x
        (x.returnFlush flush (if x.unknownUpTo watermark then some Sentinel.outcomeUnknown else none)) := by
    have step : interleavings.step x (.flushChecks flush) (x.returnFlush flush
        (if x.unknownUpTo watermark then some Sentinel.outcomeUnknown else none)) := by
      simp [interleavings, step, checking, checkFlush, pending]
    exact .single step (.inl rfl)
  cases phase : s.flushes flush with
  | idle | returned =>
    rw [phase] at running
    cases running
  | checking mark =>
    obtain rfl : mark = watermark := by
      rw [phase] at running
      exact Option.some.inj running
    exact ⟨_, checks s phase drained, by simp [returnFlush, setFlush, note]⟩
  | waiting mark changed =>
    obtain rfl : mark = watermark := by
      rw [phase] at running
      exact Option.some.inj running
    obtain ⟨earlier, pending⟩ := watermarked.awake flush mark changed phase
    have closed : changed < s.mutationChanged := by
      refine Nat.lt_of_le_of_ne earlier fun same => ?_
      cases drained.symm.trans (pending same)
    have wakes : interleavings.step s (.flushWakes flush) (s.setFlush flush (.checking mark)) := by
      simp [interleavings, step, phase, closed]
    refine ⟨_, (System.Path.single wakes (.inr rfl)).trans (checks _ (by simp [setFlush]) drained), ?_⟩
    simp only [returnFlush, note, setFlush, update_self]
    rfl

/-- A call of `Flush` that has not returned reports an unknown outcome once none of
the mutations before its watermark is pending. -/
def ReportsUnknownOutcome (s : Mutations) : Prop :=
  ∀ flush newer watermark before, s.journal = newer ++ .watermark flush watermark :: before →
    (∀ err, s.flushes flush ≠ .returned err) →
    (∀ sequence, Admitted before sequence → sequence ∉ s.pendingMutations.map Prod.fst) →
    (∃ sequence, Admitted before sequence ∧ CompletedUnknown s.journal sequence) →
    ∃ s', interleavings.Path (fun _ => FlushSteps flush) s s' ∧
      s'.flushes flush = .returned (some Sentinel.outcomeUnknown)

theorem Ledgered.reports (ledgered : Ledgered s) : ReportsUnknownOutcome s := by
  intro flush newer mark before cut running drained unknown
  obtain ⟨watermark, isRunning⟩ : ∃ watermark, runningWatermark (s.flushes flush) = some watermark := by
    cases phase : s.flushes flush with
    | idle => exact absurd (cut ▸ by simp) (ledgered.watermarked.idle flush phase mark)
    | returned err => exact absurd phase (running err)
    | checking watermark | waiting watermark => exact ⟨watermark, rfl⟩
  obtain ⟨-, admitted⟩ := ledgered.watermarked.cut isRunning cut
  have nothing : s.pendingUpTo watermark = false := by
    simp only [pendingUpTo, any_eq_false, decide_eq_true_eq]
    intro entry member below
    have isPending := mem_map_of_mem (f := Prod.fst) member
    have bounds := (ledgered.sequenced.admitted entry.1).mp (ledgered.sequenced.pending entry.1 isPending)
    exact drained entry.1 ((admitted entry.1).mpr ⟨bounds.1, below⟩) isPending
  obtain ⟨s', path, returned⟩ := ledgered.watermarked.flush_returns isRunning nothing
  obtain ⟨sequence, isAdmitted, isUnknown⟩ := unknown
  have reported := (ledgered.sequenced.unknown watermark).mpr
    ⟨sequence, ((admitted sequence).mp isAdmitted).2, isUnknown⟩
  rw [reported, if_pos rfl] at returned
  exact ⟨s', path, returned⟩

def next (s : Mutations) (action : MutationAction) : Mutations := (s.step action).getD s

instance (s : Mutations) (action : MutationAction) : Decidable (interleavings.step s action (s.next action)) :=
  decidable_of_iff ((s.step action).isSome = true) (by
    cases result : s.step action <;> simp [interleavings, next, result])

def empty : Mutations where
  limits := ⟨2, 100, by decide⟩

end Mutations

end RadosGo
