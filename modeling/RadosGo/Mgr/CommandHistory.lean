import RadosGo.Library.History
import RadosGo.Mgr.Command

namespace RadosGo

namespace CommandCall

variable {s s' : CommandCall} {action : CommandAction}

/-- The session has refused a submission: its answer is an error, and not the
one of an unknown outcome. -/
def Refused (journal : List CommandNote) (submission : Nat) : Prop :=
  ∃ err, .answered submission (.error err) ∈ journal ∧ err.Is .outcomeUnknown = false

/-- Nothing of the command can have been executed so far. -/
structure Unexecuted (journal : List CommandNote) : Prop where
  noReply : ∀ submission reply, .answered submission (.ok reply) ∉ journal
  refused : ∀ submission active, .submitted submission active ∈ journal → Refused journal submission

/-- A call submits its command only while nothing of it can have been executed. -/
def NotRepeated : List CommandNote → Prop := Throughout fun note older =>
  ∀ submission active, note = .submitted submission active → Unexecuted older

/-- All submissions but one have been refused. -/
def ExecutedOnce (journal : List CommandNote) : Prop :=
  ∀ first second active active', .submitted first active ∈ journal → .submitted second active' ∈ journal →
    first ≠ second → Refused journal first ∨ Refused journal second

variable {journal : List CommandNote}

theorem Refused.cons {submission : Nat} (refused : Refused journal submission)
    (note : CommandNote) : Refused (note :: journal) submission := by
  obtain ⟨err, answered, known⟩ := refused
  exact ⟨err, List.mem_cons_of_mem note answered, known⟩

theorem executedOnce_of_notRepeated (notRepeated : NotRepeated journal) : ExecutedOnce journal := by
  induction journal with
  | nil => exact fun _ _ _ _ => nofun
  | cons note older ih =>
    intro first second active active' isFirst isSecond different
    rcases List.mem_cons.mp isFirst with rfl | olderFirst
    · rcases List.mem_cons.mp isSecond with same | olderSecond
      · injection same with sameNumber
        exact absurd sameNumber.symm different
      · exact .inr (((notRepeated.1 first active rfl).refused second active' olderSecond).cons _)
    · rcases List.mem_cons.mp isSecond with rfl | olderSecond
      · exact .inl (((notRepeated.1 second active' rfl).refused first active olderFirst).cons _)
      · exact (ih notRepeated.2 first second active active' olderFirst olderSecond different).imp
          (·.cons _) (·.cons _)

theorem Unexecuted.refuse (unexecuted : Unexecuted journal) {err : GoError}
    (known : err.Is .outcomeUnknown = false) (submission : Nat) (active : ManagerSession) :
    Unexecuted (.answered submission (.error err) :: .submitted submission active :: journal) where
  noReply other reply noted := by
    simp only [List.mem_cons, reduceCtorEq, CommandNote.answered.injEq, and_false, false_or] at noted
    exact unexecuted.noReply other reply noted
  refused other active' noted := by
    simp only [List.mem_cons, reduceCtorEq, CommandNote.submitted.injEq, false_or] at noted
    rcases noted with ⟨rfl, -⟩ | older
    · exact ⟨err, List.mem_cons_self, known⟩
    · exact ((unexecuted.refused other active' older).cons _).cons _

/-- The history in each phase: before a submission nothing can have been executed,
and its answer is the last entry while it is not yet read. -/
def Recorded (s : CommandCall) : Prop :=
  match s.phase with
  | .loop | .waiting | .connecting _ => Unexecuted s.journal
  | .submitting _ | .draining _ _ => ∃ active older, Unexecuted older ∧
      s.journal = s.result.toList.map (.answered (s.submissions - 1)) ++
        .submitted (s.submissions - 1) active :: older
  | .returned _ _ => True

/-- A submission is given up for its context only when that has ended. -/
def ContextOver (s : CommandCall) : Prop :=
  ∀ active cause, s.phase = .draining active (.context cause) → s.ctxErr.isSome = true

/-- A reply to a submission that was given up for another manager is thrown away. -/
def drops (s : CommandCall) : CommandAction → Bool
  | .drains =>
    match s.phase, s.result with
    | .draining _ .moved, some (.ok _) => true
    | _, _ => false
  | _ => false

structure Recording (s : CommandCall) : Prop where
  recorded : Recorded s
  context : ContextOver s
  notRepeated : NotRepeated s.journal

/-- A call that neither submits nor drains needs no more than its history. -/
theorem Recording.idle (unexecuted : Unexecuted s.journal) (notRepeated : NotRepeated s.journal)
    (phase : s.phase = .loop ∨ s.phase = .waiting ∨ ∃ target, s.phase = .connecting target) : Recording s := by
  rcases phase with is | is | ⟨target, is⟩
  · exact ⟨by simpa only [Recorded, is] using unexecuted, fun _ _ => by simp [is], notRepeated⟩
  · exact ⟨by simpa only [Recorded, is] using unexecuted, fun _ _ => by simp [is], notRepeated⟩
  · exact ⟨by simpa only [Recorded, is] using unexecuted, fun _ _ => by simp [is], notRepeated⟩

theorem Recording.returns (notRepeated : NotRepeated s.journal) (reply : CommandReply) (err : Option GoError) :
    Recording (s.returns reply err) := ⟨trivial, nofun, notRepeated⟩

theorem Recording.fails (notRepeated : NotRepeated s.journal) (err : GoError) : Recording (s.fails err) :=
  .returns notRepeated {} (some err)

theorem Recording.retryOrBreak (unexecuted : Unexecuted s.journal) (notRepeated : NotRepeated s.journal)
    (err : GoError) : Recording (s.retryOrBreak err) := by
  unfold CommandCall.retryOrBreak
  simp only
  split
  · exact .idle unexecuted notRepeated (.inr (.inl rfl))
  · exact ⟨trivial, nofun, notRepeated⟩

theorem Recording.begin_ (unexecuted : Unexecuted s.journal) (notRepeated : NotRepeated s.journal) :
    Recording s.begin_ := by
  unfold CommandCall.begin_
  split
  · split
    · split
      · exact .idle unexecuted notRepeated (.inr (.inl rfl))
      · exact .fails notRepeated _
    · exact .idle unexecuted notRepeated (.inr (.inr ⟨_, rfl⟩))
  · exact .fails notRepeated _

/-- A submission starts after a history without a possible execution. -/
theorem Recording.connected (unexecuted : Unexecuted s.journal) (notRepeated : NotRepeated s.journal)
    (outcome : Except GoError ManagerSession) : Recording (s.connected outcome) := by
  cases outcome with
  | ok active => exact ⟨⟨active, s.journal, unexecuted, rfl⟩, nofun, fun _ _ _ => unexecuted, notRepeated⟩
  | error err =>
    simp only [CommandCall.connected]
    split
    · exact .fails notRepeated _
    · exact .retryOrBreak unexecuted notRepeated err

/-- The call goes on after an error only if the submission was refused. -/
theorem Recording.settle (notRepeated : NotRepeated s.journal) (result : Except GoError Message)
    (refused : ∀ err, result = .error err → err.Is .outcomeUnknown = false → err.Is .managerClosed = false →
      s.ctxErr.isSome = false → Unexecuted s.journal) : Recording (s.settle result) := by
  cases result with
  | error err =>
    simp only [CommandCall.settle]
    split
    · exact .fails notRepeated err
    rename_i known
    split
    · exact .fails notRepeated _
    · rename_i alive
      simp only [Bool.or_eq_true, not_or, Bool.not_eq_true] at known alive
      exact .retryOrBreak (refused err rfl known alive.1 alive.2) notRepeated err
  | ok reply =>
    simp only [CommandCall.settle]
    split
    · exact .fails notRepeated _
    · split
      · exact .fails notRepeated _
      · exact .returns notRepeated _ _

variable {active : ManagerSession} {result : Except GoError Message}

section

variable (recording : Recording s)
include recording

theorem Recording.drain {why : Abandonment} (draining : s.phase = .draining active why)
    (answered : s.result = some result) (keeps : s.drops .drains = false) : Recording (s.drain why result) := by
  unfold CommandCall.drain
  split
  · rename_i unknown
    refine .settle recording.notRepeated result ?_
    rintro err rfl known
    rw [errOf, errorIs_some, known] at unknown
    cases unknown
  rename_i notUnknown
  cases why with
  | context cause =>
    refine .settle recording.notRepeated _ fun _ _ _ _ alive => ?_
    cases alive.symm.trans (recording.context active cause draining)
  | closed =>
    refine .settle recording.notRepeated _ ?_
    rintro err ⟨⟩ _ stillOpen
    cases stillOpen
  | moved =>
    cases result with
    | ok reply => simp [drops, draining, answered] at keeps
    | error err =>
      have recorded := recording.recorded
      simp only [Recorded, draining, answered] at recorded
      obtain ⟨active', older, unexecuted, journal⟩ := recorded
      have known : err.Is .outcomeUnknown = false := by simpa [errOf] using notUnknown
      refine .idle ?_ recording.notRepeated (.inl rfl)
      simp only [again, journal, Option.toList_some, List.map_cons, List.map_nil, List.cons_append, List.nil_append]
      exact unexecuted.refuse known _ _

theorem Recording.unexecuted (phase : s.phase = .loop ∨ s.phase = .waiting ∨ ∃ target, s.phase = .connecting target) :
    Unexecuted s.journal := by
  have recorded := recording.recorded
  rcases phase with is | is | ⟨target, is⟩ <;> simpa only [Recorded, is] using recorded

/-- What the call shares with others may change at any time. -/
theorem Recording.shared (phase : s'.phase = s.phase) (journal : s'.journal = s.journal)
    (result : s'.result = s.result)
    (submissions : s'.submissions = s.submissions) (ctxErr : s.ctxErr.isSome = true → s'.ctxErr.isSome = true) :
    Recording s' := by
  refine ⟨?_, fun active cause draining => ctxErr (recording.context active cause (phase ▸ draining)), ?_⟩
  · have recorded := recording.recorded
    unfold Recorded at recorded ⊢
    rwa [phase, journal, result, submissions]
  · rw [journal]
    exact recording.notRepeated

theorem Recording.abandon (submitting : s.phase = .submitting active) (why : Abandonment)
    (context : ∀ cause, why = .context cause → s.ctxErr.isSome = true) :
    Recording { s with phase := .draining active why } := by
  have recorded := recording.recorded
  simp only [Recorded, submitting] at recorded
  refine ⟨recorded, ?_, recording.notRepeated⟩
  rintro other cause ⟨⟩
  exact context cause rfl

theorem Recording.answer (result : Except GoError Message) (unanswered : s.result = none)
    (submitting : (∃ active, s.phase = .submitting active) ∨ ∃ active why, s.phase = .draining active why) :
    Recording { s with result := some result, journal := .answered (s.submissions - 1) result :: s.journal } := by
  refine ⟨?_, recording.context, nofun, recording.notRepeated⟩
  have recorded := recording.recorded
  rcases submitting with ⟨active, is⟩ | ⟨active, why, is⟩
  all_goals
    simp only [Recorded, is, unanswered] at recorded ⊢
    obtain ⟨active', older, unexecuted, journal⟩ := recorded
    exact ⟨active', older, unexecuted, by rw [journal]; rfl⟩

theorem Recording.receive (submitting : s.phase = .submitting active) (answered : s.result = some result) :
    Recording (s.settle result) := by
  refine .settle recording.notRepeated result ?_
  rintro err rfl known - -
  have recorded := recording.recorded
  simp only [Recorded, submitting, answered] at recorded
  obtain ⟨active', older, unexecuted, journal⟩ := recorded
  simp only [journal, Option.toList_some, List.map_cons, List.map_nil, List.cons_append, List.nil_append]
  exact unexecuted.refuse known _ _

theorem Recording.step (step : s.step action = some s') (keeps : s.drops action = false) : Recording s' := by
  revert step
  fun_cases s.step action
  any_goals rintro ⟨⟩
  · exact recording.shared rfl rfl rfl rfl id
  · exact recording.shared rfl rfl rfl rfl fun _ => by simp
  · exact recording.shared rfl rfl rfl rfl id
  · next isLoop => exact .begin_ (recording.unexecuted (.inl isLoop)) recording.notRepeated
  · next waiting => exact .idle (recording.unexecuted (.inr (.inl waiting))) recording.notRepeated (.inl rfl)
  · intro step
    obtain ⟨cause, -, rfl⟩ := Option.map_eq_some_iff.mp step
    exact .fails recording.notRepeated _
  · exact .fails recording.notRepeated _
  · next outcome target connecting =>
    exact .connected (recording.unexecuted (.inr (.inr ⟨target, connecting⟩))) recording.notRepeated outcome
  · next unanswered submitting => exact recording.answer _ unanswered (.inl ⟨_, submitting⟩)
  · next unanswered draining => exact recording.answer _ unanswered (.inr ⟨_, _, draining⟩)
  · next answered submitting => exact recording.receive submitting answered
  · next ended submitting => exact recording.abandon submitting _ fun _ _ => by simp [ended]
  · next submitting => exact recording.abandon submitting _ nofun
  · exact recording
  · next submitting _ _ _ => exact recording.abandon submitting _ nofun
  · next submitting _ _ => exact recording.abandon submitting _ nofun
  · next answered draining => exact recording.drain draining answered keeps

end

/-- As long as no reply is thrown away for a change of manager, a command is not
submitted again once it can have been executed. -/
theorem command_not_repeated (reach : interleavings.Reaches (fun s action => s.drops action = false) s) :
    NotRepeated s.journal ∧ ExecutedOnce s.journal := by
  suffices Recording s from ⟨this.notRepeated, executedOnce_of_notRepeated this.notRepeated⟩
  refine reach.invariant Recording ?_ ?_
  · rintro first ⟨config, tid, mgrMap, rfl⟩
    exact .idle ⟨nofun, nofun⟩ trivial (.inl rfl)
  · rintro earlier action later recording step keeps
    exact recording.step step keeps

def next (s : CommandCall) (action : CommandAction) : CommandCall := (s.step action).getD s

instance (s : CommandCall) (action : CommandAction) : Decidable (interleavings.step s action (s.next action)) :=
  decidable_of_iff ((s.step action).isSome = true) (by
    cases result : s.step action <;> simp [interleavings, next, result])

/-- A manager which the map names as the active one. -/
def manager (gid : Nat) : MgrMap where
  epoch := 1
  available := true
  activeGID := gid
  activeName := [120]
  activeFeatures := featureServerOctopusMask
  activeAddresses := [⟨2, 0, 2, 26 :: 144 :: List.replicate 12 0⟩]

def firstCall : CommandCall where
  config := ⟨3, false, fun _ => .ok {}⟩
  tid := 0
  mgrMap := some (manager 1)

def sessionWith (gid : Nat) : ManagerSession where
  target := ⟨1, gid, [120], ⟨2, 0, 2, 26 :: 144 :: List.replicate 12 0⟩, featureServerOctopusMask⟩
  session := gid

theorem firstCall_reached {allowed : CommandCall → CommandAction → Prop} {actions : List CommandAction}
    (follows : interleavings.Follows allowed next firstCall actions) :
    interleavings.Reaches allowed (actions.foldl next firstCall) := by
  have starts : interleavings.start firstCall := ⟨_, _, _, rfl⟩
  exact (System.Reaches.start starts).follow follows

/-- The first manager refuses the command and the second one executes it. -/
def refusedThenExecuted : List CommandAction :=
  [.begins, .connects (.ok (sessionWith 1)), .mapChanges (some (manager 2)), .ticks,
    .answers (.error Sentinel.sessionClosed), .drains, .begins, .connects (.ok (sessionWith 2)),
      .answers (.ok {}), .receives]

theorem command_not_repeated_executed :
    ((refusedThenExecuted.foldl next firstCall).journal.length = 4 ∧
      (refusedThenExecuted.foldl next firstCall).phase = .returned {} none) ∧
    NotRepeated (refusedThenExecuted.foldl next firstCall).journal ∧
      ExecutedOnce (refusedThenExecuted.foldl next firstCall).journal :=
  ⟨by decide, command_not_repeated (firstCall_reached (by decide))⟩

/-- The manager has replied when the ticker sees that another one is active now.
The reply is thrown away and the command submitted to the new manager. -/
theorem command_repeated_after_reply :
    ∃ s, interleavings.Reaches (fun _ _ => True) s ∧ ¬NotRepeated s.journal := by
  refine ⟨[.begins, .connects (.ok (sessionWith 1)), .answers (.ok {}), .mapChanges (some (manager 2)),
    .ticks, .drains,
    .begins, .connects (.ok (sessionWith 2))].foldl next firstCall, firstCall_reached (by decide),
      fun notRepeated => ?_⟩
  exact (notRepeated.1 _ _ rfl).noReply 0 {} List.mem_cons_self

end CommandCall

end RadosGo
