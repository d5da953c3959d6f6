import RadosGo.Library.History
import RadosGo.Objecter.OsdSubmissions

namespace RadosGo

/-- The phase carries the result of a submission whose outcome is unknown. -/
def Phase.unknown : Phase → Bool
  | .completed _ (.error err) | .removed _ _ (.error err) | .failing err | .returned (.error err) =>
    err.Is .outcomeUnknown
  | _ => false

theorem Phase.SameButWoken.unknown {before after : Phase} (same : Phase.SameButWoken before after) :
    after.unknown = before.unknown := by
  rcases same with rfl | ⟨woken, woken', rfl, rfl⟩ <;> rfl

namespace OsdSession

variable {s s' : OsdSession} {action : SessionAction} {call : Nat} {before after : Phase} {notes : List TargetNote}
  {submissions : List TargetSubmission} {serials : Nat}

theorem Transition.notes_length (moved : Transition s action call before after notes submissions serials) :
    notes.length ≤ 1 := by
  cases moved <;> simp

variable {other : Nat} {result : Except GoError Message} {admissible : OsdSession → SessionAction → Prop}

variable {serial : Nat}

theorem Transition.completed_mem (moved : Transition s action call before after notes submissions serials)
    (noted : .completed other serial result ∈ notes) : other = call ∧ after = .completed serial result := by
  cases moved <;> simp_all

theorem Transition.returned_mem (moved : Transition s action call before after notes submissions serials)
    (noted : .returned other result ∈ notes) : other = call ∧ after = .returned result := by
  cases moved <;> simp_all

/-- A call starts over although the outcome of its submission is unknown. -/
def forgets (s : OsdSession) : SessionAction → Bool
  | .decides call =>
    match (s.calls call).phase with
    | .removed _ true (.error err) => err.Is .outcomeUnknown && (s.calls call).ctxErr.isNone
    | _ => false
  | _ => false

/-- A call with a submission whose outcome is unknown does not return another error. -/
def ReportsUnknown : List TargetNote → Prop := Throughout fun note older => ∀ call err,
  note = .returned call (.error err) → ∀ serial cause, .completed call serial (.error cause) ∈ older →
    cause.Is .outcomeUnknown = true → err.Is .outcomeUnknown = true

theorem Transition.unknown (moved : Transition s action call before after notes submissions serials)
    (isBefore : (s.calls call).phase = before) (unknown : before.unknown = true) :
    after.unknown = true ∨ s.forgets action = true := by
  cases moved with
  | discards serial result decides live =>
    cases result with
    | ok reply => cases unknown
    | error err =>
      have unknown : err.Is .outcomeUnknown = true := unknown
      exact .inr (by simp [forgets, decides, isBefore, unknown, live])
  | removes serial result =>
    cases result with
    | ok reply => cases unknown
    | error err => exact .inl unknown
  | gives serial resend err => exact .inl unknown
  | joins err cause message =>
    have unknown : err.Is .outcomeUnknown = true := unknown
    exact .inl (by simp [Phase.unknown, GoError.Is, unknown])
  | _ => cases unknown

/-- An unknown outcome stays with its call until that returns. -/
structure Reporting (s : OsdSession) : Prop where
  carried : ∀ call serial cause, .completed call serial (.error cause) ∈ s.journal → cause.Is .outcomeUnknown = true →
    (s.calls call).phase.unknown = true
  reports : ReportsUnknown s.journal

theorem Reporting.effect (reporting : Reporting s) (effect : Effect s action s')
    (remembers : s.forgets action = false) : Reporting s' := by
  cases effect with
  | moves call moved phase ctxErr others journal =>
    have carried : ∀ serial cause, .completed call serial (.error cause) ∈ s.journal →
      cause.Is .outcomeUnknown = true →
        (s'.calls call).phase.unknown = true := fun serial cause noted unknown => by
      rw [phase]
      exact (moved.unknown rfl (reporting.carried call serial cause noted unknown)).resolve_right
        (by simp [remembers])
    refine ⟨fun other serial cause noted unknown => ?_, ?_⟩
    · rw [journal] at noted
      rcases List.mem_append.mp noted with new | old
      · obtain ⟨rfl, isCompleted⟩ := moved.completed_mem new
        rw [phase, isCompleted]
        exact unknown
      · by_cases same : other = call
        · subst same
          exact carried serial cause old unknown
        · rw [others other same]
          exact reporting.carried other serial cause old unknown
    · rw [journal]
      refine throughout_append_of_length reporting.reports moved.notes_length ?_
      rintro note member other err rfl serial cause noted unknown
      obtain ⟨rfl, isReturned⟩ := moved.returned_mem member
      have kept := carried serial cause noted unknown
      rw [phase, isReturned] at kept
      exact kept
  | contextEnds call phases _ _ journal =>
    refine ⟨fun other serial cause noted unknown => ?_, ?_⟩
    · rw [journal] at noted
      rw [phases]
      exact reporting.carried other serial cause (by simpa using noted) unknown
    · rw [journal]
      exact ⟨nofun, reporting.reports⟩
  | marks chosen phases _ journal =>
    refine ⟨fun other serial cause noted unknown => ?_, ?_⟩
    · rw [journal] at noted
      rw [(phases other).unknown]
      exact reporting.carried other serial cause (by simpa using noted) unknown
    · rw [journal]
      refine throughout_append reporting.reports ?_
      rintro note member older other err rfl
      simp at member

/-- The session after an action, or as it is if the action is not possible. -/
def next (s : OsdSession) (action : SessionAction) : OsdSession := (s.step action).getD s

instance (s : OsdSession) (action : SessionAction) : Decidable (interleavings.step s action (s.next action)) :=
  decidable_of_iff ((s.step action).isSome = true) (by
    cases result : s.step action <;> simp [interleavings, next, result])

def afterActions (actions : List SessionAction) : OsdSession :=
  actions.foldl next { maxBackoffs := 0, maxBackoffBytes := 0 }

/-- The OSD blocks the object of all these calls, or unblocks it. -/
def backsOff (operation : BackoffOperation) : SessionAction :=
  .receives (.backoff false true (.ok ⟨⟨0, 0, 0⟩, operation, 0, {}, {}⟩) none false true)

def submission : List SessionAction := [.submitTarget 0 ⟨0, 0, 0⟩ {}, .enter 0, .admitted 0]

/-- The messenger returns from the submission, and the call goes on. -/
def completion (result : Except GoError Message) : List SessionAction := [.completes 0 result, .removes 0, .decides 0]

theorem afterActions_reached {actions : List SessionAction}
    (follows : interleavings.Follows admissible next { maxBackoffs := 0, maxBackoffBytes := 0 } actions) :
    interleavings.Reaches admissible (afterActions actions) := by
  have starts : interleavings.start { maxBackoffs := 0, maxBackoffBytes := 0 } := ⟨0, 0, rfl⟩
  exact (System.Reaches.start starts).follow follows

/-- An unknown outcome of a submission is reported, as long as no call starts
over in spite of it. -/
theorem submission_unknown_reported (reach : interleavings.Reaches (fun s action => s.forgets action = false) s) :
    ReportsUnknown s.journal := by
  suffices Reporting s from this.reports
  refine reach.invariant Reporting ?_ ?_
  · rintro first ⟨_, _, rfl⟩
    exact ⟨nofun, trivial⟩
  · rintro earlier action later reporting step remembers
    exact reporting.effect (step_effect step) remembers

def unknownReported : List SessionAction :=
  submission ++ [backsOff .block] ++ completion (.error Sentinel.outcomeUnknown) ++ [.joins 0]

theorem submission_unknown_reported_joined :
    (afterActions unknownReported).journal.length = 3 ∧ ReportsUnknown (afterActions unknownReported).journal :=
  ⟨by decide, submission_unknown_reported (afterActions_reached (by decide))⟩

/-- An unblock cancels a submission, whose outcome is then unknown. The next
backoff of the object makes the call wait, until its context ends. -/
theorem submission_unknown_forgotten :
    ∃ s, interleavings.Reaches (fun _ _ => True) s ∧ ¬ReportsUnknown s.journal := by
  refine ⟨afterActions (submission ++ [backsOff .block, backsOff .unblock] ++
    completion (.error Sentinel.outcomeUnknown) ++
    [backsOff .block, .enter 0, .contextEnds 0 .canceled, .wakes 0 .context]),
    afterActions_reached (by decide), fun reports => ?_⟩
  have reported := (throughout_cons.mp reports).1 _ _ rfl _ _ (.tail _ (.tail _ (.head _))) rfl
  cases reported

/-- A reply is dropped only when its submission was marked before and the context
still lives. As long as no reply is dropped, the call makes no other submission
and returns nothing else. -/
def RepliesKept : List TargetNote → Prop := Throughout fun note older =>
  (∀ call serial, note = .discarded call serial → .marked serial ∈ older ∧ .contextEnded call ∉ older) ∧
  (∀ call again, note = .registered call again → ∀ serial reply, .completed call serial (.ok reply) ∈ older →
    .discarded call serial ∈ older) ∧
  ∀ call result, note = .returned call result → ∀ serial reply, .completed call serial (.ok reply) ∈ older →
    .discarded call serial ∈ older ∨ result = .ok reply ∧ (.marked serial ∉ older ∨ .contextEnded call ∈ older)

/-- The call still has a reply to its submission. -/
inductive Answers (serial : Nat) (reply : Message) : Phase → Prop
  | completed : Answers serial reply (.completed serial (.ok reply))
  | removed (resend : Bool) : Answers serial reply (.removed serial resend (.ok reply))
  | returned : Answers serial reply (.returned (.ok reply))

/-- A reply stays with its call until that drops it. -/
def CarriesReplies (s : OsdSession) : Prop :=
  ∀ call serial reply, .completed call serial (.ok reply) ∈ s.journal →
    .discarded call serial ∈ s.journal ∨ Answers serial reply (s.calls call).phase

variable {reply : Message}

theorem Transition.answers (moved : Transition s action call before after notes submissions serials)
    (answers : Answers serial reply before) : .discarded call serial ∈ notes ∨ Answers serial reply after := by
  cases answers with
  | completed =>
    cases moved with
    | removes => exact .inr (.removed _)
  | removed resend =>
    cases moved with
    | discards => exact .inl List.mem_cons_self
    | delivers => exact .inr .returned
  | returned => cases moved

theorem CarriesReplies.effect (carries : CarriesReplies s) (effect : Effect s action s') : CarriesReplies s' := by
  intro other serial reply noted
  cases effect with
  | moves call moved phase ctxErr others journal =>
    rw [journal] at noted ⊢
    rcases List.mem_append.mp noted with new | old
    · obtain ⟨rfl, completed⟩ := moved.completed_mem new
      rw [phase, completed]
      exact .inr .completed
    · rcases carries other serial reply old with dropped | answers
      · exact .inl (List.mem_append_right _ dropped)
      · by_cases same : other = call
        · subst same
          rw [phase]
          exact (moved.answers answers).imp_left (List.mem_append_left _)
        · rw [others other same]
          exact .inr answers
  | contextEnds call phases _ _ journal =>
    rw [journal] at noted ⊢
    rw [phases]
    simpa using carries other serial reply (by simpa using noted)
  | marks chosen phases _ journal =>
    rw [journal] at noted ⊢
    refine (carries other serial reply (by simpa using noted)).imp (List.mem_append_right _) fun answers => ?_
    rcases phases other with same | ⟨_, _, waiting, _⟩
    · exact same ▸ answers
    · rw [waiting] at answers
      cases answers

/-- What holds in every reached state about the replies. -/
structure Replying (s : OsdSession) : Prop where
  contexts : ContextsNoted s
  held : HeldForSubmission s
  tracked : Tracked s
  carries : CarriesReplies s
  kept : RepliesKept s.journal

theorem Replying.discarded (replying : Replying s)
    (removed : (s.calls call).phase = .removed serial true result) (live : (s.calls call).ctxErr = none) :
    .marked serial ∈ s.journal ∧ .contextEnded call ∉ s.journal :=
  ⟨(replying.tracked.removed call serial true result removed).1.mp rfl,
    fun ended => (replying.contexts call).mpr ended live⟩

theorem Replying.delivered (replying : Replying s) {resend : Bool}
    (removed : (s.calls call).phase = .removed serial resend (.ok reply))
    (isKept : resend = false ∨ (s.calls call).ctxErr ≠ none) :
    .marked serial ∉ s.journal ∨ .contextEnded call ∈ s.journal := by
  refine isKept.imp (fun unmarked marked => ?_) (replying.contexts call).mp
  have flag := (replying.tracked.removed call serial resend _ removed).1.mpr marked
  cases unmarked.symm.trans flag

/-- A call without a reply to return has dropped all it got. -/
theorem Replying.dropped (replying : Replying s)
    (noReply : ∀ serial reply, ¬Answers serial reply (s.calls call).phase)
    (noted : .completed call serial (.ok reply) ∈ s.journal) : .discarded call serial ∈ s.journal :=
  (replying.carries call serial reply noted).resolve_right (noReply serial reply)

theorem Replying.effect (replying : Replying s) (effect : Effect s action s') : Replying s' := by
  refine ⟨replying.contexts.effect effect, replying.held.effect effect, replying.tracked.effect effect,
    replying.carries.effect effect, ?_⟩
  cases effect with
  | moves call moved phase ctxErr others journal =>
    rw [journal]
    refine throughout_append_of_length replying.kept moved.notes_length ?_
    generalize was : (s.calls call).phase = before at moved
    have dropped (noReply : ∀ serial reply, ¬Answers serial reply before) :
        ∀ serial reply, .completed call serial (.ok reply) ∈ s.journal → .discarded call serial ∈ s.journal :=
      fun _ _ => replying.dropped (was ▸ noReply)
    cases moved with
    | starts | blocks | removes | gives | resumes => exact nofun
    | completes => simp
    | registers =>
      simp only [List.mem_singleton, forall_eq]
      refine ⟨nofun, ?_, nofun⟩
      rintro _ _ ⟨⟩
      exact dropped nofun
    | refused | joins | abandons =>
      simp only [List.mem_singleton, forall_eq]
      refine ⟨nofun, nofun, ?_⟩
      rintro _ _ ⟨⟩ serial reply noted
      exact .inl (dropped nofun serial reply noted)
    | discards serial result decides live =>
      simp only [List.mem_singleton, forall_eq]
      refine ⟨?_, nofun, nofun⟩
      rintro _ _ ⟨⟩
      exact replying.discarded was live
    | delivers serial resend reply isKept =>
      simp only [List.mem_singleton, forall_eq]
      refine ⟨nofun, nofun, ?_⟩
      rintro _ _ ⟨⟩ serial' reply' noted
      refine (replying.carries call serial' reply' noted).imp_right fun answers => ?_
      rw [was] at answers
      cases answers
      exact ⟨rfl, replying.delivered was isKept⟩
  | contextEnds call phases _ _ journal =>
    rw [journal]
    exact ⟨⟨nofun, nofun, nofun⟩, replying.kept⟩
  | marks chosen phases _ journal =>
    rw [journal]
    refine throughout_append replying.kept ?_
    intro note member older
    obtain ⟨submission, -, rfl⟩ := List.mem_map.mp member
    exact ⟨nofun, nofun, nofun⟩

theorem replying_of_reaches (reach : interleavings.Reaches admissible s) : Replying s := by
  refine reach.invariant Replying ?_ ?_
  · rintro first ⟨_, _, rfl⟩
    refine ⟨fun call => ?_, nofun, ⟨.nil, nofun, nofun, nofun, nofun, nofun, nofun⟩, nofun, trivial⟩
    simp
  · rintro earlier action later replying step -
    exact replying.effect (step_effect step)

/-- What brings a call to its end once the messenger has returned: its own steps,
and the admission of the submission that holds the mutex. -/
def Finishes (call : Nat) (action : SessionAction) : Prop :=
  action = .removes call ∨ action = .decides call ∨ ∃ other, action = .admitted other

/-- The call returns the reply, or drops it. -/
def Settles (s : OsdSession) (call serial : Nat) (reply : Message) : Prop :=
  ∃ s', interleavings.Path (fun _ => Finishes call) s s' ∧
    ((s'.calls call).phase = .returned (.ok reply) ∨ .discarded call serial ∈ s'.journal)

theorem settles_of_removed {resend : Bool}
    (removed : (s.calls call).phase = .removed serial resend (.ok reply)) : s.Settles call serial reply := by
  have step : s.step (.decides call) = some (s.conclude call serial resend (.ok reply)) := by
    simp only [OsdSession.step, removed]
  refine ⟨_, .single step (.inr (.inl rfl)), ?_⟩
  unfold conclude
  split
  · exact .inr List.mem_cons_self
  · exact .inl (by simp [returns, OsdSession.note, OsdSession.setPhase])

theorem Settles.of_path (path : interleavings.Path (fun _ => Finishes call) s s')
    (settles : s'.Settles call serial reply) : s.Settles call serial reply := by
  obtain ⟨last, rest, settled⟩ := settles
  exact ⟨last, path.trans rest, settled⟩

theorem settles_of_completed_of_free
    (completed : (s.calls call).phase = .completed serial (.ok reply)) (free : s.holder = none) :
    s.Settles call serial reply := by
  have step : s.step (.removes call) = some (s.remove call serial (.ok reply)) := by
    simp only [OsdSession.step, completed, free]
  have removed : ((s.remove call serial (.ok reply)).calls call).phase = .removed serial
      (s.submissions.any fun submission => submission.serial == serial && submission.resend) (.ok reply) := by
    simp only [remove, OsdSession.setPhase, Function.update_self]
  exact .of_path (.single step (.inl rfl)) (settles_of_removed removed)

theorem settles_of_completed (held : HeldForSubmission s)
    (completed : (s.calls call).phase = .completed serial (.ok reply)) : s.Settles call serial reply := by
  cases isHolder : s.holder with
  | none => exact settles_of_completed_of_free completed isHolder
  | some other =>
    obtain ⟨serial', submitted⟩ := held other isHolder
    have step : s.step (.admitted other) = some (s.unlock other) := by
      simp only [OsdSession.step, submitted]
    refine .of_path (.single step (.inr (.inr ⟨other, rfl⟩))) (settles_of_completed_of_free ?_ ?_)
    · rw [(unlock_same s other).1, completed]
    · simp only [unlock, isHolder, if_true]

theorem Replying.settles (replying : Replying s)
    (noted : .completed call serial (.ok reply) ∈ s.journal) : s.Settles call serial reply := by
  rcases replying.carries call serial reply noted with dropped | answers
  · exact ⟨s, .refl, .inr dropped⟩
  · generalize is : (s.calls call).phase = phase at answers
    cases answers with
    | completed => exact settles_of_completed replying.held is
    | removed resend => exact settles_of_removed is
    | returned => exact ⟨s, .refl, .inl is⟩

/-- A reply is returned, and its request not submitted again, unless an unblock
marked the submission and the context lives. Then the reply is dropped. -/
theorem replies_kept (reach : interleavings.Reaches (fun _ _ => True) s) :
    RepliesKept s.journal ∧ ∀ call serial reply, .completed call serial (.ok reply) ∈ s.journal →
      s.Settles call serial reply :=
  ⟨(replying_of_reaches reach).kept, fun _ _ _ => (replying_of_reaches reach).settles⟩

/-- The object is blocked while the call waits for its reply. -/
def replyReturned : List SessionAction := submission ++ [backsOff .block] ++ completion (.ok {})

theorem replies_kept_returned : ((afterActions replyReturned).calls 0).phase = .returned (.ok {}) ∧
    RepliesKept (afterActions replyReturned).journal :=
  ⟨by decide, (replies_kept (afterActions_reached (by decide))).1⟩

/-- An unblock arrives between a reply and the removal of its submission. The
request is submitted again, and the reply is lost. -/
theorem reply_dropped_and_resubmitted : ∃ s reply serial again, interleavings.Reaches (fun _ _ => True) s ∧
    ∃ older, s.journal = .registered 0 again :: older ∧ .completed 0 serial (.ok reply) ∈ older :=
  ⟨afterActions (submission ++
    [backsOff .block, .completes 0 (.ok {}), backsOff .unblock, .removes 0, .decides 0, .enter 0]),
    {}, 0, 1, afterActions_reached (by decide), _, rfl, by decide⟩

end OsdSession

end RadosGo
