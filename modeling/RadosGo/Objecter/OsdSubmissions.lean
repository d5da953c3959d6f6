import RadosGo.Objecter.OsdSessionStep

namespace RadosGo

open List

/-- The submission of a call which is still registered. -/
def Phase.registered : Phase → Option Nat
  | .submitted serial | .completed serial _ => some serial
  | _ => none

/-- A phase that has no submission but the one which it had before. -/
structure Phase.Within (before after : Phase) : Prop where
  registered : ∀ serial, after.registered = some serial → before.registered = some serial
  removed : ∀ serial resend result, after = .removed serial resend result → before = .removed serial resend result

theorem Phase.Within.refl (phase : Phase) : Phase.Within phase phase := ⟨fun _ => id, fun _ _ _ => id⟩

theorem Phase.SameButWoken.within {before after : Phase} (same : Phase.SameButWoken before after) :
    Phase.Within before after := by
  rcases same with rfl | ⟨woken, woken', rfl, rfl⟩
  · exact .refl _
  · exact ⟨nofun, nofun⟩

namespace OsdSession

variable {s s' : OsdSession} {action : SessionAction} {call : Nat} {before after : Phase} {notes : List TargetNote}
  {submissions : List TargetSubmission} {serials : Nat}

theorem Transition.marked_not_mem (moved : Transition s action call before after notes submissions serials)
    (serial : Nat) : .marked serial ∉ notes := by
  cases moved <;> simp

theorem Transition.contextEnded_not_mem (moved : Transition s action call before after notes submissions serials)
    (other : Nat) : .contextEnded other ∉ notes := by
  cases moved <;> simp

/-- The history knows whose context has ended. -/
def ContextsNoted (s : OsdSession) : Prop :=
  ∀ call, (s.calls call).ctxErr ≠ none ↔ .contextEnded call ∈ s.journal

theorem ContextsNoted.effect (noted : ContextsNoted s) (effect : Effect s action s') : ContextsNoted s' := by
  intro other
  cases effect with
  | moves call moved phase ctxErr others journal =>
    have same : (s'.calls other).ctxErr = (s.calls other).ctxErr := by
      by_cases same : other = call
      · rw [same, ctxErr]
      · rw [others other same]
    rw [same, noted other, journal, mem_append, or_iff_right (moved.contextEnded_not_mem other)]
  | contextEnds call phases ended others journal =>
    rw [journal, mem_cons]
    by_cases same : other = call
    · subst same
      simp [ended]
    · simp [others other same, noted other, same]
  | marks chosen phases ctxErrs journal => simp [ctxErrs, noted other, journal]

/-- The mutex is only held for a submission that waits to be admitted. -/
def HeldForSubmission (s : OsdSession) : Prop :=
  ∀ call, s.holder = some call → ∃ serial, (s.calls call).phase = .submitted serial

theorem HeldForSubmission.effect (held : HeldForSubmission s) (effect : Effect s action s') :
    HeldForSubmission s' := by
  intro other isHolder
  cases effect with
  | moves call moved phase ctxErr others journal submissions serials holder =>
    rcases holder other isHolder with ⟨rfl, serial, submitted⟩ | ⟨isHolder, outside⟩
    · exact ⟨serial, phase.trans submitted⟩
    · obtain ⟨serial, submitted⟩ := held other isHolder
      have different : other ≠ call := fun same => outside serial (same ▸ submitted) same
      exact ⟨serial, by rw [others other different, submitted]⟩
  | contextEnds call phases ended others journal submissions serials holder =>
    rw [phases other]
    exact held other (holder ▸ isHolder)
  | marks chosen phases ctxErrs journal submissions serials holder =>
    obtain ⟨serial, submitted⟩ := held other (holder other isHolder)
    rcases phases other with same | ⟨_, _, waiting, _⟩
    · exact ⟨serial, same.trans submitted⟩
    · cases submitted.symm.trans waiting

/-- How the registered submissions, the phases of the calls and the history
belong together. -/
structure Tracked (s : OsdSession) : Prop where
  distinct : (s.submissions.map TargetSubmission.serial).Nodup
  issued : ∀ serial ∈ s.submissions.map TargetSubmission.serial, serial < s.serials
  flagged : ∀ submission ∈ s.submissions, submission.resend = true ↔ .marked submission.serial ∈ s.journal
  marked : ∀ serial, .marked serial ∈ s.journal → serial < s.serials
  listed : ∀ call serial, (s.calls call).phase.registered = some serial →
    serial ∈ s.submissions.map TargetSubmission.serial
  owned : ∀ call other serial, (s.calls call).phase.registered = some serial →
    (s.calls other).phase.registered = some serial → call = other
  removed : ∀ call serial resend result, (s.calls call).phase = .removed serial resend result →
    (resend = true ↔ .marked serial ∈ s.journal) ∧ serial < s.serials ∧
      serial ∉ s.submissions.map TargetSubmission.serial

variable (tracked : Tracked s)
include tracked

/-- The receive loop notes every submission which it marks. -/
theorem Tracked.marks (chosen : TargetSubmission → Bool)
    (submissions : s'.submissions = s.submissions.map fun submission => if chosen submission
      then { submission with resend := true, canceled := true } else submission)
    (serials : s'.serials = s.serials)
    (marks : ∀ serial, .marked serial ∈ s'.journal ↔
      (∃ submission ∈ s.submissions, chosen submission = true ∧ submission.serial = serial) ∨
      .marked serial ∈ s.journal)
    (phases : ∀ call, Phase.Within (s.calls call).phase (s'.calls call).phase) : Tracked s' := by
  have sameSerials : s'.submissions.map TargetSubmission.serial = s.submissions.map TargetSubmission.serial := by
    rw [submissions, map_map]
    refine map_congr_left fun submission _ => ?_
    simp only [Function.comp_apply]
    split <;> rfl
  refine ⟨?_, ?_, ?_, ?_, ?_, ?_, ?_⟩
  · rw [sameSerials]
    exact tracked.distinct
  · rw [sameSerials, serials]
    exact tracked.issued
  · rw [submissions, forall_mem_map]
    intro submission member
    rw [marks]
    split
    · rename_i isChosen
      simp only [true_iff]
      exact .inl ⟨submission, member, isChosen, rfl⟩
    · rename_i notChosen
      rw [tracked.flagged submission member, or_iff_right]
      rintro ⟨other, member', isChosen, same⟩
      obtain rfl := inj_on_of_nodup_map tracked.distinct member' member same
      exact notChosen isChosen
  · intro serial member
    rw [serials]
    rcases (marks serial).mp member with ⟨submission, listed, -, rfl⟩ | old
    · exact tracked.issued _ (mem_map_of_mem listed)
    · exact tracked.marked serial old
  · intro call serial registered
    rw [sameSerials]
    exact tracked.listed call serial ((phases call).registered serial registered)
  · intro call other serial registered registered'
    exact tracked.owned call other serial ((phases call).registered serial registered)
      ((phases other).registered serial registered')
  · intro call serial resend result removed
    obtain ⟨flag, issued, gone⟩ :=
      tracked.removed call serial resend result ((phases call).removed serial resend result removed)
    rw [marks, serials, sameSerials, or_iff_right]
    · exact ⟨flag, issued, gone⟩
    · rintro ⟨submission, member, -, rfl⟩
      exact gone (mem_map_of_mem member)

/-- Nothing changes while the submissions stay the same. -/
theorem Tracked.within (submissions : s'.submissions = s.submissions) (serials : s'.serials = s.serials)
    (marks : ∀ serial, .marked serial ∈ s'.journal ↔ .marked serial ∈ s.journal)
    (phases : ∀ call, Phase.Within (s.calls call).phase (s'.calls call).phase) : Tracked s' :=
  tracked.marks (fun _ => false) (by simpa using submissions) serials (by simpa using marks) phases

/-- A new submission is not marked, and belongs to its call only. -/
theorem Tracked.registers {submission : TargetSubmission} (serial : submission.serial = s.serials)
    (fresh : submission.resend = false) (submissions : s'.submissions = submission :: s.submissions)
    (serials : s'.serials = s.serials + 1)
    (marks : ∀ serial, .marked serial ∈ s'.journal ↔ .marked serial ∈ s.journal)
    (phase : (s'.calls call).phase = .submitted s.serials)
    (others : ∀ other, other ≠ call → s'.calls other = s.calls other) : Tracked s' where
  distinct := by
    rw [submissions, map_cons, nodup_cons, serial]
    exact ⟨fun member => Nat.lt_irrefl _ (tracked.issued _ member), tracked.distinct⟩
  issued := by
    rw [submissions, serials, map_cons, forall_mem_cons, serial]
    exact ⟨s.serials.lt_succ_self, fun other member => Nat.lt_succ_of_lt (tracked.issued other member)⟩
  flagged := by
    rw [submissions, forall_mem_cons]
    simp only [marks]
    refine ⟨?_, tracked.flagged⟩
    have unmarked : .marked s.serials ∉ s.journal := fun member => Nat.lt_irrefl _ (tracked.marked _ member)
    simp [fresh, serial, unmarked]
  marked other member := by
    rw [serials]
    exact Nat.lt_succ_of_lt (tracked.marked other ((marks other).mp member))
  listed other serial' registered := by
    rw [submissions, map_cons, mem_cons, serial]
    by_cases same : other = call
    · rw [same, phase] at registered
      exact .inl (Option.some.inj registered).symm
    · rw [others other same] at registered
      exact .inr (tracked.listed other serial' registered)
  owned := by
    have old : ∀ other serial, other ≠ call → (s'.calls other).phase.registered = some serial → serial < s.serials :=
      fun other serial different registered =>
        tracked.issued serial (tracked.listed other serial (others other different ▸ registered))
    intro first second serial' registered registered'
    by_cases isFirst : first = call <;> by_cases isSecond : second = call
    · exact isFirst.trans isSecond.symm
    · rw [isFirst, phase] at registered
      cases registered
      exact absurd (old second _ isSecond registered') (Nat.lt_irrefl _)
    · rw [isSecond, phase] at registered'
      cases registered'
      exact absurd (old first _ isFirst registered) (Nat.lt_irrefl _)
    · rw [others first isFirst] at registered
      rw [others second isSecond] at registered'
      exact tracked.owned first second serial' registered registered'
  removed other serial' resend result removed := by
    by_cases same : other = call
    · rw [same, phase] at removed
      cases removed
    · rw [others other same] at removed
      obtain ⟨flag, issued, gone⟩ := tracked.removed other serial' resend result removed
      rw [marks, serials, submissions, map_cons, mem_cons, serial]
      exact ⟨flag, Nat.lt_succ_of_lt issued, fun member => member.elim (Nat.ne_of_lt issued) gone⟩

/-- A submission that is removed tells whether it was marked. -/
theorem Tracked.removes {serial : Nat} {result : Except GoError Message}
    (completed : (s.calls call).phase = .completed serial result)
    (submissions : s'.submissions = s.submissions.filter fun submission => submission.serial != serial)
    (serials : s'.serials = s.serials) (marks : ∀ serial, .marked serial ∈ s'.journal ↔ .marked serial ∈ s.journal)
    (phase : (s'.calls call).phase =
      .removed serial (s.submissions.any fun submission => submission.serial == serial && submission.resend) result)
    (others : ∀ other, other ≠ call → s'.calls other = s.calls other) : Tracked s' := by
  have isListed : (s.calls call).phase.registered = some serial := by rw [completed]; rfl
  have remaining : ∀ other, other ∈ s'.submissions.map TargetSubmission.serial ↔
      other ∈ s.submissions.map TargetSubmission.serial ∧ other ≠ serial := fun other => by
    simp only [submissions, mem_map, mem_filter, bne_iff_ne]
    constructor
    · rintro ⟨submission, ⟨member, different⟩, rfl⟩
      exact ⟨⟨submission, member, rfl⟩, different⟩
    · rintro ⟨⟨submission, member, rfl⟩, different⟩
      exact ⟨submission, ⟨member, different⟩, rfl⟩
  have flag : (s.submissions.any fun submission => submission.serial == serial && submission.resend) = true ↔
      .marked serial ∈ s.journal := by
    simp only [any_eq_true, Bool.and_eq_true, beq_iff_eq]
    constructor
    · rintro ⟨submission, member, rfl, resend⟩
      exact (tracked.flagged submission member).mp resend
    · intro marked
      obtain ⟨submission, member, rfl⟩ := mem_map.mp (tracked.listed call serial isListed)
      exact ⟨submission, member, rfl, (tracked.flagged submission member).mpr marked⟩
  have registered : ∀ other serial', (s'.calls other).phase.registered = some serial' →
      other ≠ call ∧ (s.calls other).phase.registered = some serial' := fun other serial' registered => by
    have different : other ≠ call := fun same => by
      rw [same, phase] at registered
      cases registered
    exact ⟨different, others other different ▸ registered⟩
  refine ⟨?_, ?_, ?_, ?_, ?_, ?_, ?_⟩
  · rw [submissions]
    exact tracked.distinct.sublist (filter_sublist.map _)
  · intro other member
    rw [serials]
    exact tracked.issued other ((remaining other).mp member).1
  · intro submission member
    rw [submissions] at member
    rw [marks]
    exact tracked.flagged submission (mem_of_mem_filter member)
  · intro other member
    rw [serials]
    exact tracked.marked other ((marks other).mp member)
  · intro other serial' isRegistered
    obtain ⟨different, before⟩ := registered other serial' isRegistered
    refine (remaining serial').mpr ⟨tracked.listed other serial' before, ?_⟩
    rintro rfl
    exact different (tracked.owned other call serial' before isListed)
  · intro first second serial' isFirst isSecond
    exact tracked.owned first second serial' (registered first serial' isFirst).2
      (registered second serial' isSecond).2
  · intro other serial' resend result' removed
    rw [marks, serials, remaining]
    by_cases same : other = call
    · rw [same, phase] at removed
      obtain ⟨rfl, rfl, rfl⟩ := Phase.removed.inj removed
      exact ⟨flag, tracked.issued serial (tracked.listed call serial isListed), fun member => member.2 rfl⟩
    · rw [others other same] at removed
      obtain ⟨flag', issued, gone⟩ := tracked.removed other serial' resend result' removed
      exact ⟨flag', issued, fun member => gone member.1⟩

theorem Tracked.effect (effect : Effect s action s') : Tracked s' := by
  cases effect with
  | moves call moved phase ctxErr others journal submissions serials =>
    have marks : ∀ serial, .marked serial ∈ s'.journal ↔ .marked serial ∈ s.journal := fun serial => by
      rw [journal, mem_append, or_iff_right (moved.marked_not_mem serial)]
    generalize was : (s.calls call).phase = before at moved
    have stays (within : Phase.Within before (s'.calls call).phase) (other : Nat) :
        Phase.Within (s.calls other).phase (s'.calls other).phase := by
      by_cases same : other = call
      · rw [same, was]
        exact within
      · rw [others other same]
        exact .refl _
    cases moved with
    | registers submission serial fresh => exact tracked.registers serial fresh submissions serials marks phase others
    | removes serial result => exact tracked.removes was submissions serials marks phase others
    | completes serial result =>
      refine tracked.within submissions serials marks (stays ?_)
      rw [phase]
      exact ⟨fun _ => id, nofun⟩
    | _ =>
      refine tracked.within submissions serials marks (stays ?_)
      rw [phase]
      exact ⟨nofun, nofun⟩
  | contextEnds call phases ended others journal submissions serials =>
    refine tracked.within submissions serials (fun serial => by simp [journal]) fun other => ?_
    rw [phases other]
    exact .refl _
  | marks chosen phases ctxErrs journal submissions serials =>
    exact tracked.marks chosen submissions serials (fun serial => by simp [journal, and_assoc]) fun call =>
      (phases call).within

end OsdSession

end RadosGo
