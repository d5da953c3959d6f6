import RadosGo.Objecter.OsdSession

namespace RadosGo

/-- Waking a call does not move it. -/
def Phase.SameButWoken (before after : Phase) : Prop :=
  after = before ∨ ∃ woken woken', before = .waiting woken ∧ after = .waiting woken'

namespace OsdSession

/-- What one call does: its phases, its notes, and the submissions afterwards. -/
inductive Transition (s : OsdSession) (action : SessionAction) (call : Nat) :
    Phase → Phase → List TargetNote → List TargetSubmission → Nat → Prop
  | starts : Transition s action call .idle .entering [] s.submissions s.serials
  | refused (err : GoError) :
      Transition s action call .entering (.returned (.error err))
        [.returned call (.error err)] s.submissions s.serials
  | blocks : Transition s action call .entering (.waiting false) [] s.submissions s.serials
  | registers (submission : TargetSubmission) (serial : submission.serial = s.serials)
      (fresh : submission.resend = false) :
      Transition s action call .entering (.submitted s.serials) [.registered call s.serials]
        (submission :: s.submissions)
        (s.serials + 1)
  | completes (serial : Nat) (result : Except GoError Message) :
      Transition s action call (.submitted serial) (.completed serial result)
        [.completed call serial result] s.submissions
        s.serials
  | removes (serial : Nat) (result : Except GoError Message) :
      Transition s action call (.completed serial result)
        (.removed serial (s.submissions.any fun submission =>
          submission.serial == serial && submission.resend) result) []
        (s.submissions.filter fun submission => submission.serial != serial) s.serials
  | discards (serial : Nat) (result : Except GoError Message) (decides : action = .decides call)
      (live : (s.calls call).ctxErr = none) :
      Transition s action call (.removed serial true result) .entering
        [.discarded call serial] s.submissions s.serials
  | delivers (serial : Nat) (resend : Bool) (reply : Message) (kept : resend = false ∨ (s.calls call).ctxErr ≠ none) :
      Transition s action call (.removed serial resend (.ok reply)) (.returned (.ok reply))
        [.returned call (.ok reply)]
        s.submissions s.serials
  | gives (serial : Nat) (resend : Bool) (err : GoError) :
      Transition s action call (.removed serial resend (.error err)) (.failing err) [] s.submissions s.serials
  | joins (err cause : GoError) (message : String) :
      Transition s action call (.failing err) (.returned (.error (.join message err cause)))
        [.returned call (.error (.join message err cause))] s.submissions s.serials
  | abandons (woken : Bool) (err : GoError) :
      Transition s action call (.waiting woken) (.returned (.error err))
        [.returned call (.error err)] s.submissions s.serials
  | resumes : Transition s action call (.waiting true) .entering [] s.submissions s.serials

/-- Who can hold the mutex when a call has moved: the call for its submission, or
the holder before if that was not for a submission of the call. -/
def HoldsAfter (s : OsdSession) (call : Nat) (after : Phase) (holder : Option Nat) : Prop :=
  ∀ other, holder = some other → (other = call ∧ ∃ serial, after = .submitted serial) ∨
    s.holder = some other ∧ ∀ serial, (s.calls call).phase = .submitted serial → other ≠ call

/-- What a step can do. -/
inductive Effect (s : OsdSession) (action : SessionAction) (s' : OsdSession) : Prop
  | moves (call : Nat) {after : Phase} {notes : List TargetNote} {submissions : List TargetSubmission} {serials : Nat}
      (moved : Transition s action call (s.calls call).phase after notes submissions serials)
      (phase : (s'.calls call).phase = after) (ctxErr : (s'.calls call).ctxErr = (s.calls call).ctxErr)
      (others : ∀ other, other ≠ call → s'.calls other = s.calls other) (journal : s'.journal = notes ++ s.journal)
      (submissions : s'.submissions = submissions) (serials : s'.serials = serials)
      (holder : s.HoldsAfter call after s'.holder)
  | contextEnds (call : Nat) (phases : ∀ other, (s'.calls other).phase = (s.calls other).phase)
      (ended : (s'.calls call).ctxErr ≠ none)
      (others : ∀ other, other ≠ call → (s'.calls other).ctxErr = (s.calls other).ctxErr)
      (journal : s'.journal = .contextEnded call :: s.journal) (submissions : s'.submissions = s.submissions)
      (serials : s'.serials = s.serials) (holder : s'.holder = s.holder)
  | marks (chosen : TargetSubmission → Bool)
      (phases : ∀ call, Phase.SameButWoken (s.calls call).phase (s'.calls call).phase)
      (ctxErrs : ∀ call, (s'.calls call).ctxErr = (s.calls call).ctxErr)
      (journal : s'.journal = ((s.submissions.filter chosen).map fun submission =>
        .marked submission.serial) ++ s.journal)
      (submissions : s'.submissions = s.submissions.map fun submission =>
        if chosen submission then { submission with resend := true, canceled := true } else submission)
      (serials : s'.serials = s.serials) (holder : ∀ other, s'.holder = some other → s.holder = some other)

variable {s s' : OsdSession} {action : SessionAction} {call : Nat}

variable {before after : Phase} {x : OsdSession} {result : Except GoError Message}

theorem holdsAfter (was : (s.calls call).phase = before) (notSubmitted : ∀ serial, before ≠ .submitted serial) :
    s.HoldsAfter call after s.holder :=
  fun _ held => .inr ⟨held, fun serial submitted => absurd (was.symm.trans submitted) (notSubmitted serial)⟩

theorem Effect.setPhase {notes : List TargetNote} (x : OsdSession) (was : (s.calls call).phase = before)
    (moved : Transition s action call before after notes x.submissions x.serials) (calls : x.calls = s.calls)
    (journal : x.journal = notes ++ s.journal) (holder : s.HoldsAfter call after x.holder) :
    Effect s action (x.setPhase call after) :=
  .moves call (was ▸ moved) (by simp [OsdSession.setPhase]) (by simp [OsdSession.setPhase, calls])
    (fun other different => by simp [OsdSession.setPhase, calls, Function.update_of_ne different]) journal
      rfl rfl holder

/-- What neither moves a call nor marks a submission. -/
theorem Effect.silent (phases : ∀ call, Phase.SameButWoken (s.calls call).phase (s'.calls call).phase)
    (ctxErrs : ∀ call, (s'.calls call).ctxErr = (s.calls call).ctxErr) (journal : s'.journal = s.journal)
    (submissions : s'.submissions = s.submissions) (serials : s'.serials = s.serials)
    (holder : ∀ other, s'.holder = some other → s.holder = some other) : Effect s action s' :=
  .marks (fun _ => false) phases ctxErrs (by simpa using journal) (by simpa using submissions) serials holder

/-- What the receive loop does to the calls, apart from marking their submissions. -/
structure Wakes (s s' : OsdSession) : Prop where
  phases : ∀ call, Phase.SameButWoken (s.calls call).phase (s'.calls call).phase
  ctxErrs : ∀ call, (s'.calls call).ctxErr = (s.calls call).ctxErr
  journal : s'.journal = s.journal
  submissions : s'.submissions = s.submissions
  serials : s'.serials = s.serials
  holder : s'.holder = s.holder

theorem Wakes.refl (s : OsdSession) : Wakes s s := ⟨fun _ => .inl rfl, fun _ => rfl, rfl, rfl, rfl, rfl⟩

theorem Wakes.trans {s'' : OsdSession} (first : Wakes s s') (second : Wakes s' s'') : Wakes s s'' where
  phases call := by
    rcases first.phases call with same | ⟨woken, woken', before, after⟩
    · rw [← same]
      exact second.phases call
    · rcases second.phases call with same | ⟨_, last, _, after'⟩
      · exact .inr ⟨woken, woken', before, same.trans after⟩
      · exact .inr ⟨woken, last, before, after'⟩
  ctxErrs call := (second.ctxErrs call).trans (first.ctxErrs call)
  journal := second.journal.trans first.journal
  submissions := second.submissions.trans first.submissions
  serials := second.serials.trans first.serials
  holder := second.holder.trans first.holder

theorem wakes_wake (s : OsdSession) (pgs : PG → Bool) : Wakes s (s.wake pgs) := by
  refine ⟨fun call => ?_, fun call => ?_, rfl, rfl, rfl, rfl⟩
  · simp only [wake]
    split
    · rename_i woken waits
      split
      · exact .inr ⟨woken, true, waits, rfl⟩
      · exact .inl rfl
    · exact .inl rfl
  · simp only [wake]
    split
    · split <;> rfl
    · rfl

/-- The receive loop changes its own fields before it wakes the calls. -/
theorem Wakes.afterOwn (wakes : Wakes x s') (calls : x.calls = s.calls) (journal : x.journal = s.journal)
    (submissions : x.submissions = s.submissions) (serials : x.serials = s.serials) (holder : x.holder = s.holder) :
    Wakes s s' :=
  ⟨fun call => calls ▸ wakes.phases call, fun call => calls ▸ wakes.ctxErrs call, wakes.journal.trans journal,
    wakes.submissions.trans submissions, wakes.serials.trans serials, wakes.holder.trans holder⟩

theorem wakes_fail (s : OsdSession) (err : GoError) : Wakes s (s.fail err) := by
  unfold fail
  split
  · exact (wakes_wake _ _).afterOwn rfl rfl rfl rfl rfl
  · exact .refl s

theorem wakes_reconcile (s : OsdSession) : Wakes s s.reconcile := by
  unfold reconcile wakeAllBackoffs
  exact (wakes_wake _ _).afterOwn rfl rfl rfl rfl rfl

theorem wakes_removeBackoff (s : OsdSession) (id : Nat) : Wakes s (s.removeBackoff id).1 := by
  unfold removeBackoff wakeBackoffPG
  split
  · exact .refl s
  · dsimp only
    exact (wakes_wake _ _).afterOwn rfl rfl rfl rfl rfl

theorem wakes_addBackoff (s : OsdSession) (backoff : Backoff) : Wakes s (s.addBackoff backoff).1 := by
  unfold addBackoff
  split
  · exact .refl s
  · dsimp only
    exact (wakes_removeBackoff s backoff.id).trans ((wakes_wake _ _).afterOwn rfl rfl rfl rfl rfl)

/-- What the receive loop does to the calls and to the submissions which it chooses. -/
structure Marks (chosen : TargetSubmission → Bool) (s s' : OsdSession) : Prop where
  phases : ∀ call, Phase.SameButWoken (s.calls call).phase (s'.calls call).phase
  ctxErrs : ∀ call, (s'.calls call).ctxErr = (s.calls call).ctxErr
  journal : s'.journal = ((s.submissions.filter chosen).map fun submission => .marked submission.serial) ++ s.journal
  submissions : s'.submissions = s.submissions.map fun submission =>
    if chosen submission then { submission with resend := true, canceled := true } else submission
  serials : s'.serials = s.serials
  holder : s'.holder = s.holder

theorem Wakes.marks (wakes : Wakes s s') : ∃ chosen, Marks chosen s s' :=
  ⟨fun _ => false, wakes.phases, wakes.ctxErrs, by simpa using wakes.journal, by simpa using wakes.submissions,
    wakes.serials, wakes.holder⟩

theorem wakes_fail_if (s : OsdSession) (reconciles fails : Bool) (err : GoError) :
    Wakes s (if fails = true then (if reconciles = true then s.reconcile else s).fail err
      else if reconciles = true then s.reconcile else s) := by
  have reconciled : Wakes s (if reconciles = true then s.reconcile else s) := by
    split
    · exact wakes_reconcile s
    · exact .refl s
  split
  · exact reconciled.trans (wakes_fail _ err)
  · exact reconciled

/-- Only an unblock marks submissions. -/
theorem applyBackoff_marks (decoded : Except GoError Backoff) (ackErr : Option GoError) (ready : Wakes s x) :
    ((x.applyBackoff decoded ackErr).2 = none ∧ ∃ chosen, Marks chosen s (x.applyBackoff decoded ackErr).1) ∨
      Wakes s (x.applyBackoff decoded ackErr).1 := by
  unfold applyBackoff
  split
  · exact .inr ready
  rename_i backoff
  split
  · have added := ready.trans (wakes_addBackoff x backoff)
    split
    all_goals
      rename_i same
      rw [same] at added
      exact .inr added
  · have removed := ready.trans (wakes_removeBackoff x backoff.id)
    split
    · rename_i next blocked same
      have removed : Wakes s next := by simpa only [same] using removed
      refine .inl ⟨rfl, covers blocked, removed.phases, removed.ctxErrs, ?_, ?_, removed.serials, removed.holder⟩
      · simp only [markResend, removed.submissions, removed.journal]
      · simp only [markResend, removed.submissions]
    · rename_i next same
      rw [same] at removed
      exact .inr removed

theorem receive_marks (s : OsdSession) (received : Received) : ∃ chosen, Marks chosen s (s.receive received) := by
  cases received with
  | backoff reconciles current decoded ackErr reconcilesAgain stillCurrent =>
    have ready : Wakes s (if reconciles = true then s.reconcile else s) := by
      split
      · exact wakes_reconcile s
      · exact .refl s
    simp only [receive]
    split
    · have applied := applyBackoff_marks decoded ackErr ready
      split
      · rename_i next same
        rw [same] at applied
        exact applied.elim And.right Wakes.marks
      · rename_i next err same
        rw [same] at applied
        rcases applied with ⟨none, -⟩ | wakes
        · cases none
        · exact (wakes.trans (wakes_fail_if next reconcilesAgain stillCurrent err)).marks
    · exact ready.marks
  | reset => exact (wakes_reconcile s).marks
  | failed err => exact (wakes_fail s err).marks
  | finished =>
    obtain ⟨chosen, failed⟩ := (wakes_fail s Sentinel.sessionClosed).marks
    exact ⟨chosen, { failed with }⟩

theorem returns_effect (was : (s.calls call).phase = before)
    (moved : Transition s action call before (.returned result) [.returned call result] s.submissions s.serials)
    (notSubmitted : ∀ serial, before ≠ .submitted serial) : Effect s action (s.returns call result) :=
  .setPhase (s.note (.returned call result)) was moved rfl rfl (holdsAfter was notSubmitted)

theorem enter_effect (entering : (s.calls call).phase = .entering) : Effect s action (s.enter call) := by
  unfold enter
  split
  · rename_i err _
    exact returns_effect entering (.refused err) nofun
  split
  · exact .setPhase s entering .blocks rfl rfl (holdsAfter entering nofun)
  · exact .setPhase ((s.addSubmission call).note (.registered call s.serials)) entering
      (.registers (s.newSubmission call) rfl rfl) rfl rfl
      fun _ held => .inl ⟨(Option.some.inj held).symm, s.serials, rfl⟩

theorem conclude_effect {serial : Nat} {resend : Bool}
    (removed : (s.calls call).phase = .removed serial resend result) :
    Effect s (.decides call) (s.conclude call serial resend result) := by
  unfold conclude
  split
  · rename_i again
    simp only [Bool.and_eq_true, Option.isNone_iff_eq_none] at again
    obtain ⟨rfl, live⟩ := again
    exact .setPhase (s.note (.discarded call serial)) removed (.discards serial result rfl live) rfl rfl
      (holdsAfter removed nofun)
  · rename_i kept
    have kept : resend = false ∨ (s.calls call).ctxErr ≠ none := by
      simpa only [Bool.and_eq_true, not_and_or, Bool.not_eq_true, Option.isNone_iff_eq_none] using kept
    cases result with
    | ok reply => exact returns_effect removed (.delivers serial resend reply kept) nofun
    | error err => exact .setPhase s removed (.gives serial resend err) rfl rfl (holdsAfter removed nofun)

theorem unlock_same (s : OsdSession) (call : Nat) : (s.unlock call).calls = s.calls ∧
    (s.unlock call).journal = s.journal ∧
    (s.unlock call).submissions = s.submissions ∧ (s.unlock call).serials = s.serials := by
  unfold unlock
  split <;> exact ⟨rfl, rfl, rfl, rfl⟩

theorem unlock_holder {other : Nat} (held : (s.unlock call).holder = some other) :
    s.holder = some other ∧ other ≠ call := by
  unfold unlock at held
  split at held
  · cases held
  · rename_i outside
    exact ⟨held, fun same => outside (same ▸ held)⟩

/-- What a step does to the calls, the submissions and the history. -/
theorem step_effect (step : s.step action = some s') : Effect s action s' := by
  revert step
  fun_cases s.step action
  any_goals rintro ⟨⟩
  · next call pg object idle =>
    have moved : Transition s (.submitTarget call pg object) call (s.calls call).phase .entering
      [] s.submissions s.serials :=
      idle ▸ .starts
    exact .moves call moved (by simp) (by simp)
      (fun other different => by simp [Function.update_of_ne different]) rfl rfl rfl (holdsAfter idle nofun)
  · next entering => exact enter_effect entering
  · next call _ submitted =>
    obtain ⟨calls, journal, submissions, serials⟩ := unlock_same s call
    exact .silent (fun _ => .inl (by rw [calls])) (fun _ => by rw [calls]) journal submissions serials
      fun _ held => (unlock_holder held).1
  · next call result serial submitted =>
    obtain ⟨calls, journal, submissions, serials⟩ := unlock_same s call
    have moved : Transition s (.completes call result) call (.submitted serial) (.completed serial result)
        [.completed call serial result] (s.unlock call).submissions (s.unlock call).serials := by
      rw [submissions, serials]
      exact .completes serial result
    refine .setPhase ((s.unlock call).note (.completed call serial result)) submitted moved calls ?_ fun _ held =>
      .inr ⟨(unlock_holder held).1, fun _ _ => (unlock_holder held).2⟩
    simp only [note, journal, List.singleton_append]
  · next serial result _ completed =>
    exact .setPhase { s with submissions := s.submissions.filter fun submission => submission.serial != serial }
      completed (.removes serial result) rfl rfl (holdsAfter completed nofun)
  · next removed => exact conclude_effect removed
  · next failing _ => exact returns_effect failing (.joins _ _ _) nofun
  · next waiting =>
    intro step
    obtain ⟨cause, -, rfl⟩ := Option.map_eq_some_iff.mp step
    exact returns_effect waiting (.abandons _ _) nofun
  · next waiting _ => exact returns_effect waiting (.abandons _ _) nofun
  · next waiting => exact .setPhase s waiting .resumes rfl rfl (holdsAfter waiting nofun)
  · next call cause =>
    refine .contextEnds call (fun other => ?_) ?_ (fun other different => ?_) rfl rfl rfl rfl
    · by_cases same : other = call
      · simp [note, same]
      · simp [note, Function.update_of_ne same]
    · cases (s.calls call).ctxErr <;> simp [note]
    · simp [note, Function.update_of_ne different]
  · next received _ =>
    obtain ⟨chosen, marks⟩ := receive_marks s received
    exact .marks chosen marks.phases marks.ctxErrs marks.journal marks.submissions marks.serials fun _ held =>
      marks.holder ▸ held
  · exact .silent (fun _ => .inl rfl) (fun _ => rfl) rfl rfl rfl fun _ => id

end OsdSession

end RadosGo
