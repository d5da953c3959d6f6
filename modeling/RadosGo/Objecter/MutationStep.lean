import RadosGo.Library.History
import RadosGo.Objecter.Mutations

namespace RadosGo

namespace Mutations

variable {s s' : Mutations} {action : MutationAction}

/-- What a step can do. The calls that admit mutations are only of interest when
they succeed. -/
inductive Effect (s : Mutations) : Mutations → Prop
  | quiet (admissions : Nat → AdmissionPhase) (closed mutationClosed : Bool) (mutationChanged : Nat)
      (later : s.mutationChanged ≤ mutationChanged) :
      Effect s { s with admissions, closed, mutationClosed, mutationChanged }
  | takes (below : s.nextTransaction ≠ maxUint64) : Effect s s.takeTransactionIDLocked.1
  | adds (call bytes : Nat) (room : s.hasRoom bytes) (belowMutation : s.nextMutation ≠ maxUint64)
      (belowTransaction : s.nextTransaction ≠ maxUint64) : Effect s (s.addMutation call bytes)
  | completes (sequence bytes : Nat) (err : Option GoError)
      (found : s.pendingMutations.lookup sequence = some bytes) :
      Effect s (s.completeMutation sequence err)
  | marks (flush : Nat) (idle : s.flushes flush = .idle) :
      Effect s ((s.setFlush flush (.checking s.nextMutation)).note (.watermark flush s.nextMutation))
  | blocks (flush watermark : Nat) (checking : s.flushes flush = .checking watermark)
      (pending : s.pendingUpTo watermark = true) : Effect s (s.setFlush flush (.waiting watermark s.mutationChanged))
  | resumes (flush watermark changed : Nat) (waiting : s.flushes flush = .waiting watermark changed) :
      Effect s (s.setFlush flush (.checking watermark))
  | returns (flush watermark : Nat) (err : Option GoError)
      (running : s.flushes flush = .checking watermark ∨ ∃ changed, s.flushes flush = .waiting watermark changed)
      (clean : err = none → s.pendingUpTo watermark = false)
      (reported : errorIs err .outcomeUnknown = s.unknownUpTo watermark) : Effect s (s.returnFlush flush err)

theorem Effect.setAdmission (s : Mutations) (call : Nat) (phase : AdmissionPhase) :
    Effect s (s.setAdmission call phase) :=
  .quiet _ _ _ _ (Nat.le_refl _)

theorem admitMutationOperations_effect (s : Mutations) (call bytes : Nat) :
    Effect s (s.admitMutationOperations call bytes) := by
  unfold admitMutationOperations
  split
  · exact .setAdmission s call _
  split
  · rename_i room
    split
    · exact .setAdmission s call _
    · rename_i below
      rw [not_or] at below
      exact .adds call bytes room below.1 below.2
  · exact .setAdmission s call _

theorem checkFlush_effect {flush watermark : Nat} (checking : s.flushes flush = .checking watermark) :
    Effect s (s.checkFlush flush watermark) := by
  unfold checkFlush
  split
  · rename_i pending
    exact .blocks flush watermark checking pending
  · rename_i drained
    refine .returns flush watermark _ (.inl checking) (fun _ => by simpa using drained) ?_
    split
    · rename_i unknown
      rw [unknown]
      rfl
    · rename_i known
      simpa using (Bool.not_eq_true _ ▸ known : s.unknownUpTo watermark = false).symm

theorem cancelFlush_effect {flush watermark changed : Nat} (waiting : s.flushes flush = .waiting watermark changed)
    (cause : ContextError) : Effect s (s.cancelFlush flush watermark cause) := by
  unfold cancelFlush
  refine .returns flush watermark _ (.inr ⟨changed, waiting⟩) ?_ ?_
  · split <;> exact nofun
  · split
    · rename_i unknown
      simp [unknown]
    · rename_i known
      simpa using (Bool.not_eq_true _ ▸ known : s.unknownUpTo watermark = false).symm

theorem step_effect (step : s.step action = some s') : Effect s s' := by
  revert step
  fun_cases s.step action
  any_goals rintro ⟨⟩
  any_goals exact .setAdmission s _ _
  · exact admitMutationOperations_effect s _ _
  · next sequence err =>
    cases found : s.pendingMutations.lookup sequence with
    | none =>
      simp only [completeMutation, found]
      exact .quiet _ _ _ _ (Nat.le_refl _)
    | some bytes => exact .completes sequence bytes err found
  · next flush idle => exact .marks flush idle
  · next checking => exact checkFlush_effect checking
  · next waiting _ => exact .resumes _ _ _ waiting
  · next waiting => exact cancelFlush_effect waiting _
  · next taken =>
    unfold takeTransactionID at taken
    split at taken
    · cases taken
    · next below =>
      cases taken
      exact .takes below
  · exact .quiet _ _ _ _ (Nat.le_refl _)
  · unfold beginShutdown
    split
    · exact .quiet _ _ _ _ (Nat.le_refl _)
    · exact .quiet _ _ _ _ (Nat.le_succ _)
  · unfold close
    split
    · exact .quiet _ _ _ _ (Nat.le_refl _)
    · exact .quiet _ _ _ _ (Nat.le_succ _)

/-- Taking an entry out of a table with distinct keys. -/
theorem sum_filter_lookup {table : List (Nat × Nat)} (distinct : (table.map Prod.fst).Nodup) {key value : Nat}
    (found : table.lookup key = some value) :
    ((table.filter fun entry => entry.1 != key).map Prod.snd).sum + value = (table.map Prod.snd).sum := by
  induction table with
  | nil => cases found
  | cons entry rest ih =>
    obtain ⟨first, size⟩ := entry
    obtain ⟨fresh, distinct⟩ := List.nodup_cons.mp distinct
    by_cases same : key = first
    · subst same
      have absent : rest.filter (fun other => other.1 != key) = rest :=
        List.filter_eq_self.mpr fun other member =>
          bne_iff_ne.mpr fun equal => fresh (List.mem_map.mpr ⟨other, member, equal⟩)
      rw [List.lookup_cons_self, Option.some.injEq] at found
      rw [List.filter_cons_of_neg (by simp), absent, List.map_cons, List.sum_cons, found, Nat.add_comm]
    · simp only [List.lookup_cons, beq_eq_false_iff_ne.mpr same] at found
      rw [List.filter_cons_of_pos (by simpa using Ne.symm same)]
      simp only [List.map_cons, List.sum_cons, ← ih distinct found]
      omega

/-- The table of pending mutations and its two sums. -/
structure Accounts (s : Mutations) : Prop where
  count : s.pendingMutations.length ≤ s.limits.maxMutations
  bytes : s.retainedMutationBytes = (s.pendingMutations.map Prod.snd).sum
  bounded : s.retainedMutationBytes ≤ s.limits.maxMutationBytes
  distinct : (s.pendingMutations.map Prod.fst).Nodup
  issued : ∀ sequence ∈ s.pendingMutations.map Prod.fst, sequence ≤ s.nextMutation

theorem Accounts.adds (accounts : Accounts s) {bytes : Nat} (call : Nat) (room : s.hasRoom bytes) :
    Accounts (s.addMutation call bytes) := by
  obtain ⟨count, bytesRoom⟩ := room
  have fits := s.limits.bytes_lt
  have bounded := accounts.bounded
  rw [subUint64_eq fits bounded] at bytesRoom
  have grown : addUint64 s.retainedMutationBytes bytes = s.retainedMutationBytes + bytes := addUint64_eq (by omega)
  refine ⟨count, ?_, ?_, ?_, ?_⟩
  · simp only [addMutation, setAdmission, note, grown, List.map_cons, List.sum_cons, ← accounts.bytes, Nat.add_comm]
  · simp only [addMutation, setAdmission, note, grown]
    have sameLimits : s.takeTransactionIDLocked.1.limits = s.limits := rfl
    rw [sameLimits]
    omega
  · refine List.nodup_cons.mpr ⟨fun member => ?_, accounts.distinct⟩
    exact Nat.lt_irrefl _ (accounts.issued _ member)
  · intro sequence member
    rcases List.mem_cons.mp member with rfl | old
    · exact Nat.le_refl _
    · exact Nat.le_succ_of_le (accounts.issued sequence old)

theorem Accounts.completes (accounts : Accounts s) {sequence bytes : Nat} (err : Option GoError)
    (found : s.pendingMutations.lookup sequence = some bytes) : Accounts (s.completeMutation sequence err) := by
  have sum := sum_filter_lookup accounts.distinct found
  have retained := accounts.bytes
  have bounded := accounts.bounded
  have fits := s.limits.bytes_lt
  have shrunk : subUint64 s.retainedMutationBytes bytes = s.retainedMutationBytes - bytes :=
    subUint64_eq (by omega) (by omega)
  have sublist : (s.pendingMutations.filter fun pending => pending.1 != sequence).Sublist s.pendingMutations :=
    List.filter_sublist
  simp only [completeMutation, found]
  refine ⟨sublist.length_le.trans accounts.count, ?_, ?_, accounts.distinct.sublist (sublist.map _), ?_⟩
  · simp only [notifyMutationWaitersLocked, note, shrunk]
    omega
  · simp only [notifyMutationWaitersLocked, note, shrunk]
    omega
  · exact fun other member => accounts.issued other ((sublist.map _).subset member)

theorem Accounts.effect (accounts : Accounts s) (effect : Effect s s') : Accounts s' := by
  cases effect with
  | adds call bytes room => exact accounts.adds call room
  | completes sequence bytes err found => exact accounts.completes err found
  | _ => exact ⟨accounts.count, accounts.bytes, accounts.bounded, accounts.distinct, accounts.issued⟩

/-- No transaction ID is handed out twice. -/
def HandedOutOnce : List MutationNote → Prop := Throughout fun note older =>
  ∀ transactionID, note = .handedOut transactionID → .handedOut transactionID ∉ older

structure Identified (s : Mutations) : Prop where
  below : ∀ transactionID, .handedOut transactionID ∈ s.journal → transactionID < s.nextTransaction
  positive : 0 < s.nextTransaction
  once : HandedOutOnce s.journal

theorem Identified.takes (identified : Identified s) : Identified s.takeTransactionIDLocked.1 := by
  have positive := identified.positive
  have next : (if s.nextTransaction = 0 then 1 else s.nextTransaction) = s.nextTransaction := if_neg (by omega)
  simp only [takeTransactionIDLocked, next]
  refine ⟨?_, Nat.succ_pos _, ?_, identified.once⟩
  · intro transactionID member
    rcases List.mem_cons.mp member with same | old
    · obtain rfl := MutationNote.handedOut.inj same
      exact Nat.lt_succ_self _
    · exact Nat.lt_succ_of_lt (identified.below transactionID old)
  · rintro _ ⟨⟩ member
    exact Nat.lt_irrefl _ (identified.below _ member)

theorem Identified.note (identified : Identified s) {note : MutationNote} (journal : s'.journal = note :: s.journal)
    (next : s'.nextTransaction = s.nextTransaction) (other : ∀ transactionID, note ≠ .handedOut transactionID) :
    Identified s' := by
  refine ⟨?_, next ▸ identified.positive, ?_⟩
  · intro transactionID member
    rw [journal, List.mem_cons] at member
    rw [next]
    exact identified.below transactionID (member.resolve_left (other transactionID).symm)
  · rw [journal]
    exact ⟨fun transactionID same => absurd same (other transactionID), identified.once⟩

theorem Identified.effect (identified : Identified s) (effect : Effect s s') : Identified s' := by
  cases effect with
  | takes => exact identified.takes
  | adds call bytes => exact identified.takes.note rfl rfl nofun
  | completes sequence bytes err found =>
    simp only [completeMutation, found]
    exact identified.note rfl rfl nofun
  | marks | returns => exact identified.note rfl rfl nofun
  | quiet | blocks | resumes => exact ⟨identified.below, identified.positive, identified.once⟩

end Mutations

end RadosGo
