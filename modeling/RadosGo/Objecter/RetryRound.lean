import RadosGo.Objecter.Retry

namespace RadosGo

/-- The reply does not say what became of the operation, and it is sent again. -/
def Call.restarts (call : Call) (reply : Reply) : Bool :=
  reply.redirect.isSome || reply.result == -11 ||
    (call.answeredBy reply && reply.operations.any fun answer => answer.code == -11)

/-- A success that a durable call does not accept. -/
def Call.undurable (call : Call) (reply : Reply) : Bool :=
  call.durable && reply.result == 0 && toUint64 reply.flags &&& flagOnDisk == 0

/-- The reply passes all checks but that of the lengths of its data. -/
def Call.accepts (call : Call) (reply : Reply) : Bool :=
  !call.restarts reply && call.answeredBy reply && !call.undurable reply

/-- The reply reports the success of every operation that had to succeed. -/
def Call.succeeds (call : Call) (reply : Reply) : Bool :=
  call.accepts reply && !call.overread reply && decide (0 ≤ reply.result) && (call.failure reply).isNone

/-- A negative result of the reply or of one of its operations. -/
def Reply.Carries (reply : Reply) (result : Int) : Prop :=
  result < 0 ∧ (reply.result = result ∨ ∃ answer ∈ reply.operations, answer.code = result)

namespace RetryState

/-- The reply that belongs to the request of the next attempt, if it gets one. -/
def received (codec : RequestCodec) (config : RetryConfig) (call : Call) (s : RetryState) (env : Surroundings) :
    Option Reply :=
  if s.continues config call then
    match s.prepare codec config call env with
    | .inl _ => none
    | .inr (s, route, request) =>
      match env.submit route.pg (s.object route) request with
      | .error _ => none
      | .ok message => (s.decode codec call env route message).toOption
  else none

/-- What a round of the loop can do, by how its attempt ends. -/
inductive Round (call : Call) (s : RetryState) (env : Surroundings) (received : Option Reply) (c : CallState) : Prop
  | skips (same : c.attempts = s.attempts) (running : c.outcome = none) (id : c.transactionID = s.transactionID)
      (kept : errorIs s.lastErr .outcomeUnknown = true → errorIs c.lastErr .outcomeUnknown = true)
  | stops (err : GoError) (same : c.attempts = s.attempts) (returned : c.outcome = some ({}, some err))
      (kept : errorIs s.lastErr .outcomeUnknown = true → err.Is .outcomeUnknown = true)
  | retries (cause : GoError) (noted : c.attempts = ⟨s.transactionID, .failed cause⟩ :: s.attempts)
      (running : c.outcome = none) (id : c.transactionID = s.transactionID)
      (kept : errorIs s.lastErr .outcomeUnknown = true ∨ call.outcomeSensitive = true ∧
        cause.Is .outcomeUnknown = true → errorIs c.lastErr .outcomeUnknown = true)
  | fails (cause err : GoError) (noted : c.attempts = ⟨s.transactionID, .failed cause⟩ :: s.attempts)
      (returned : c.outcome = some ({}, some err))
      (kept : errorIs s.lastErr .outcomeUnknown = true ∨ call.outcomeSensitive = true ∧
        cause.Is .outcomeUnknown = true → err.Is .outcomeUnknown = true)
  | rejects (err : GoError) (noted : c.attempts = ⟨s.transactionID, .malformed⟩ :: s.attempts)
      (returned : c.outcome = some ({}, some err))
        (unknown : call.outcomeSensitive = true → err.Is .outcomeUnknown = true)
  | overreads (reply : Reply) (is : received = some reply)
      (noted : c.attempts = ⟨s.transactionID, .malformed⟩ :: s.attempts) (returned : c.outcome ≠ none)
      (bare : call.accepts reply = true ∧ call.overread reply = true ∨
        call.readInto = true ∧ call.succeeds reply = true ∧ env.ctxErrOnCopy = none ∧
          reply.firstData.length > call.destination)
  | restarts (reply : Reply) (is : received = some reply) (again : call.restarts reply = true)
      (noted : c.attempts = ⟨s.transactionID, .answered reply⟩ :: s.attempts)
  | finishes (reply : Reply) (is : received = some reply)
      (noted : c.attempts = ⟨s.transactionID, .answered reply⟩ :: s.attempts) (returned : c.outcome ≠ none)
      (definite : ∀ result err, c.outcome = some (result, some err) → err.Is .outcomeUnknown = true ∨
        (∃ code, err = .errno code ∧ reply.Carries code) ∨
        call.readInto = true ∧ call.succeeds reply = true ∧ env.ctxErrOnCopy ≠ none)

variable {codec : RequestCodec} {config : RetryConfig} {call : Call} {s : RetryState} {env : Surroundings}

theorem retrying_same (s : RetryState) :
    s.retrying.attempts = s.attempts ∧ s.retrying.transactionID = s.transactionID ∧
      s.retrying.lastErr = s.lastErr := by
  unfold retrying
  split <;> exact ⟨rfl, rfl, rfl⟩

theorem Round.preserving {s' : RetryState} {received : Option Reply} (err : GoError)
    (attempts : s'.attempts = s.attempts)
    (lastErr : s'.lastErr = s.lastErr) : Round call s env received (s'.returnsPreserving err) :=
  .stops _ attempts rfl fun unknown => by rw [lastErr, preserveOutcomeUnknown_is, unknown, Bool.true_or]

/-- Before the request is submitted, the loop skips the attempt or stops with
the outcome it knows. -/
theorem prepare_inl {received : Option Reply} {c : CallState} (run : s.prepare codec config call env = .inl c) :
    Round call s env received c := by
  obtain ⟨attempts, id, lastErr⟩ := retrying_same s
  revert run
  fun_cases s.prepare codec config call env
  all_goals rintro ⟨⟩
  · exact .preserving _ rfl rfl
  · exact .preserving _ rfl rfl
  · split
    · exact .skips attempts rfl id fun unknown => by rw [← lastErr] at unknown; exact unknown
    · exact .preserving _ attempts lastErr
  · exact .preserving _ attempts lastErr
  · exact .preserving _ attempts lastErr

theorem prepare_inr {s' : RetryState} {route : Route} {message : Message}
    (run : s.prepare codec config call env = .inr (s', route, message)) :
    s'.attempts = s.attempts ∧ s'.transactionID = s.transactionID ∧ s'.lastErr = s.lastErr ∧
      message.header.transactionID = s.transactionID := by
  obtain ⟨attempts, id, lastErr⟩ := retrying_same s
  revert run
  fun_cases s.prepare codec config call env
  any_goals rintro ⟨⟩
  next encoded _ =>
    intro run
    simp only [Sum.inr.injEq, Prod.mk.injEq] at run
    obtain ⟨same, -, rfl⟩ := run
    refine ⟨same ▸ attempts, same ▸ id, same ▸ lastErr, ?_⟩
    split at encoded
    · exact (codec.encodeImmutableRequest_id _ _ encoded).trans id
    · exact (codec.encodeRequest_id _ _ encoded).trans id

theorem remember_unknown (s : RetryState) (err : GoError) :
    errorIs (s.remember err).lastErr .outcomeUnknown =
      (errorIs s.lastErr .outcomeUnknown || err.Is .outcomeUnknown) :=
  preserveOutcomeUnknown_is s.lastErr err

/-- A failed submission is remembered if it leaves the outcome unknown. -/
theorem marked_unknown (call : Call) (s : RetryState) (err : GoError) :
    errorIs (if (call.outcomeSensitive && err.Is .outcomeUnknown) = true then s.remember err else s).lastErr
      .outcomeUnknown = (errorIs s.lastErr .outcomeUnknown || (call.outcomeSensitive && err.Is .outcomeUnknown)) := by
  split
  · rename_i unknown
    rw [remember_unknown, unknown, ((Bool.and_eq_true _ _).mp unknown).2]
  · rename_i known
    rw [Bool.not_eq_true] at known
    rw [known, Bool.or_false]

theorem submitFailed_round {failed : RetryState} {received : Option Reply} {cause : GoError} (route : Route)
    (noted : failed.attempts = ⟨s.transactionID, .failed cause⟩ :: s.attempts)
    (id : failed.transactionID = s.transactionID) (lastErr : failed.lastErr = s.lastErr) :
    Round call s env received (failed.submitFailed call env route cause) := by
  have remembers := marked_unknown call failed cause
  unfold submitFailed
  simp only
  generalize isMarked : (if (call.outcomeSensitive && cause.Is .outcomeUnknown) = true then failed.remember cause
    else failed) = marked at remembers ⊢
  have markedNoted : marked.attempts = failed.attempts := by rw [← isMarked]; split <;> rfl
  have markedID : marked.transactionID = failed.transactionID := by rw [← isMarked]; split <;> rfl
  have kept : errorIs s.lastErr .outcomeUnknown = true ∨
      call.outcomeSensitive = true ∧ cause.Is .outcomeUnknown = true →
        errorIs marked.lastErr .outcomeUnknown = true := by
    rw [remembers, lastErr]
    simp
  have again : Round call s env received marked.again :=
    .retries cause (markedNoted.trans noted) rfl (markedID.trans id) kept
  split
  · exact again
  split
  · refine .fails cause _ (markedNoted.trans noted) rfl fun unknown => ?_
    rw [preserveOutcomeUnknown_is, kept unknown, Bool.true_or]
  split
  · refine .fails cause _ noted rfl fun unknown => ?_
    rw [preserveOutcomeUnknown_is, lastErr]
    rcases unknown with earlier | ⟨-, now⟩
    · rw [earlier, Bool.true_or]
    · rw [now, Bool.or_true]
  split
  · rename_i unknown
    have now := ((Bool.and_eq_true _ _).mp unknown).2
    split
    · split
      · exact again
      · exact .fails cause _ (markedNoted.trans noted) rfl fun _ => by simp [GoError.Is, now]
      · exact .fails cause _ (markedNoted.trans noted) rfl fun _ => now
    · exact again
  · rename_i known
    have known : ¬(call.outcomeSensitive = true ∧ cause.Is .outcomeUnknown = true) := by simpa using known
    split
    · refine .fails cause _ noted rfl fun unknown => ?_
      rw [preserveOutcomeUnknown_is, lastErr, unknown.resolve_right known, Bool.true_or]
    · refine .retries cause noted rfl id fun unknown => ?_
      exact (remember_unknown failed cause).trans (by rw [lastErr, unknown.resolve_right known, Bool.true_or])

theorem restart_attempts (call : Call) (s : RetryState) (env : Surroundings) :
    (s.restart call env).attempts = s.attempts := by
  unfold restart
  split
  · split <;> rfl
  · rfl

theorem failure_carried {reply : Reply} {code : Int} (failed : call.failure reply = some code) :
    reply.Carries code := by
  obtain ⟨⟨operation, answer⟩, found, rfl⟩ := Option.map_eq_some_iff.mp failed
  have negative := List.find?_some found
  have member := List.mem_of_find?_eq_some found
  simp only [Bool.and_eq_true, decide_eq_true_eq] at negative
  exact ⟨negative.1, .inr ⟨answer, (List.of_mem_zip member).2, rfl⟩⟩

theorem rejection_unknown (rejection : Rejection) (sensitive : call.outcomeSensitive = true) :
    (rejection.error call).Is .outcomeUnknown = true := by
  simp [Rejection.error, sensitive]

section Settled

variable {received : Option Reply} {reply : Reply} {request : Message} {prepared : RetryState}
  (attempts : prepared.attempts = s.attempts) (id : request.header.transactionID = s.transactionID)

include attempts id

theorem ended_attempts (ending : Ending) :
    (prepared.ended request ending).attempts = ⟨s.transactionID, ending⟩ :: s.attempts := by
  simp only [ended, attempts, id]

theorem complete_round (is : received = some reply) (route : Route) (accepted : call.accepts reply = true)
    (fits : call.overread reply = false) :
    Round call s env received (prepared.complete call env request route reply) := by
  have answered := ended_attempts attempts id (.answered reply)
  have succeeds (nonnegative : ¬reply.result < 0) (none : call.failure reply = none) :
    call.succeeds reply = true := by
    simp [Call.succeeds, accepted, fits, none, Int.not_lt.mp nonnegative]
  fun_cases prepared.complete call env request route reply
  · next negative =>
    refine .finishes reply is answered nofun fun result err same => .inr (.inl ⟨reply.result, ?_, negative, .inl rfl⟩)
    cases same
    rfl
  · next code failed =>
    refine .finishes reply is answered nofun fun result err same => .inr (.inl ⟨code, ?_, failure_carried failed⟩)
    cases same
    rfl
  · next nonnegative none readInto cause ended =>
    exact .finishes reply is answered nofun fun _ _ _ =>
      .inr (.inr ⟨readInto, succeeds nonnegative none, by rw [ended]; nofun⟩)
  · next nonnegative none readInto running long =>
    exact .overreads reply is (ended_attempts attempts id _) nofun
      (.inr ⟨readInto, succeeds nonnegative none, running, long⟩)
  all_goals exact .finishes reply is answered nofun fun _ _ same => by cases same

theorem settle_round (is : received = some reply) (route : Route) :
    Round call s env received (prepared.settle call env request route reply) := by
  have answered := ended_attempts attempts id (.answered reply)
  have again : call.restarts reply = true →
    ∀ x : RetryState, x.attempts = (prepared.ended request (.answered reply)).attempts →
      Round call s env received (x.restart call env) := fun restarts x same =>
    .restarts reply is restarts ((restart_attempts call x env).trans (same.trans answered))
  unfold settle
  simp only
  split
  · rename_i redirect isRedirect
    exact again (by simp [Call.restarts, isRedirect]) _ rfl
  rename_i notRedirect
  split
  · rename_i eagain
    exact again (by simp [Call.restarts, eagain]) _ rfl
  rename_i noEagain
  split
  · exact .rejects _ (ended_attempts attempts id _) rfl (rejection_unknown _)
  rename_i matches'
  split
  · rename_i eagain
    exact again (by simp_all [Call.restarts]) _ rfl
  rename_i noOperationEagain
  split
  · exact .finishes reply is answered nofun fun _ err same => .inl (by cases same; rfl)
  rename_i durable
  have notUndurable : call.undurable reply = false := by
    rw [← Bool.not_eq_true]
    simpa [Call.undurable, and_assoc] using durable
  have accepted : call.accepts reply = true := by
    simp_all [Call.accepts, Call.restarts]
  split
  · rename_i long
    exact .overreads reply is (ended_attempts attempts id _) nofun (.inl ⟨accepted, long⟩)
  · rename_i fits
    exact complete_round attempts id is route accepted (by simpa using fits)

end Settled

/-- What a round of the loop does. -/
theorem round_spec (codec : RequestCodec) (config : RetryConfig) (call : Call) (s : RetryState) (env : Surroundings) :
    Round call s env (s.received codec config call env) (s.round codec config call env) := by
  unfold round received
  by_cases continues : s.continues config call = true
  · rw [if_pos continues, if_pos continues, attemptOnce]
    cases prepared : s.prepare codec config call env with
    | inl state => exact prepare_inl prepared
    | inr ready =>
      obtain ⟨s', route, request⟩ := ready
      obtain ⟨attempts, id, lastErr, requestID⟩ := prepare_inr prepared
      simp only
      cases submitted : env.submit route.pg (s'.object route) request with
      | error cause => exact submitFailed_round route (ended_attempts attempts requestID _) id lastErr
      | ok message =>
        simp only
        cases decoded : s'.decode codec call env route message with
        | error rejection => exact .rejects _ (ended_attempts attempts requestID _) rfl (rejection_unknown rejection)
        | ok reply => exact settle_round attempts requestID rfl route
  · rw [if_neg continues, if_neg continues]
    cases last : s.lastErr with
    | some err => exact .stops _ rfl rfl fun unknown => by simpa [last, GoError.Is] using unknown
    | none => exact .stops _ rfl rfl fun unknown => by simp [last] at unknown

end RetryState

end RadosGo
