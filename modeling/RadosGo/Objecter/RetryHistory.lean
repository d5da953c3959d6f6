import RadosGo.Library.History
import RadosGo.Objecter.RetryRound

namespace RadosGo

/-- The attempt ended without a word on what became of the operation. -/
def Attempt.unknown (attempt : Attempt) : Bool :=
  match attempt.ending with
  | .failed cause => cause.Is .outcomeUnknown
  | _ => false

/-- The outcome is unknown, or the reply was thrown away. -/
def Attempt.ambiguous (attempt : Attempt) : Bool := attempt.unknown || attempt.ending == .malformed

/-- Once the outcome of a transaction is unknown, no attempt is made under another one. -/
def SameOperation : List Attempt → Prop := Throughout fun attempt older => ∀ earlier ∈ older,
  earlier.unknown = true → attempt.transactionID = earlier.transactionID

/-- The error of a call with an ambiguous attempt is the errno of a reply to the
transaction of that attempt, or says that the outcome is unknown. -/
def CallState.ReportsOutcome (c : CallState) : Prop := ∀ attempt ∈ c.attempts, attempt.ambiguous = true →
  ∀ result err, c.outcome = some (result, some err) → err.Is .outcomeUnknown = true ∨
    ∃ reply code, ⟨attempt.transactionID, .answered reply⟩ ∈ c.attempts ∧ reply.Carries code ∧ err = .errno code

section Conditions

variable (codec : RequestCodec) (config : RetryConfig) (call : Call)

/-- No reply asks for the operation to be sent again once an outcome is unknown. -/
def Steady (c : CallState) (env : Surroundings) : Prop :=
  ∀ reply, c.received codec config call env = some reply → call.restarts reply = true →
    ∀ attempt ∈ c.attempts, attempt.unknown = false

/-- Beside that, no read is answered with more data than it asked for or than
fits its destination, and no context ends just before the data are copied. -/
structure Careful (c : CallState) (env : Surroundings) : Prop where
  steady : Steady codec config call c env
  reads : ∀ reply, c.received codec config call env = some reply → call.accepts reply = true →
    call.overread reply = false
  fits : call.readInto = true → ∀ reply, c.received codec config call env = some reply → call.succeeds reply = true →
    env.ctxErrOnCopy = none → reply.firstData.length ≤ call.destination
  copies : call.readInto = true → ∀ reply, c.received codec config call env = some reply →
    call.succeeds reply = true →
    env.ctxErrOnCopy ≠ none → ∀ attempt ∈ c.attempts, attempt.unknown = false

end Conditions

variable {codec : RequestCodec} {config : RetryConfig} {call : Call} {c : CallState} {env : Surroundings}

/-- A call that still runs goes on under the transaction whose outcome is unknown. -/
structure Identified (c : CallState) : Prop where
  same : SameOperation c.attempts
  current : c.outcome = none → ∀ attempt ∈ c.attempts, attempt.unknown = true →
    attempt.transactionID = c.transactionID

theorem Identified.round (identified : Identified c) (running : c.outcome = none)
    (steady : Steady codec config call c env) : Identified (c.toRetryState.round codec config call env) := by
  have current := identified.current running
  have attempted : ∀ ending, SameOperation (⟨c.transactionID, ending⟩ :: c.attempts) := fun ending =>
    throughout_cons.mpr ⟨fun earlier member unknown => (current earlier member unknown).symm, identified.same⟩
  have spec := c.toRetryState.round_spec codec config call env
  generalize c.toRetryState.round codec config call env = next at spec ⊢
  cases spec with
  | skips same _ id _ =>
    refine ⟨same ▸ identified.same, fun _ attempt member unknown => ?_⟩
    rw [id]
    exact current attempt (same ▸ member) unknown
  | stops err same returned _ => exact ⟨same ▸ identified.same, fun unfinished => by simp [returned] at unfinished⟩
  | retries cause noted _ id _ =>
    refine ⟨noted ▸ attempted _, fun _ attempt member unknown => ?_⟩
    rw [noted] at member
    rw [id]
    rcases List.mem_cons.mp member with rfl | older
    · rfl
    · exact current attempt older unknown
  | fails cause err noted returned _ =>
    exact ⟨noted ▸ attempted _, fun unfinished => by simp [returned] at unfinished⟩
  | rejects err noted returned _ => exact ⟨noted ▸ attempted _, fun unfinished => by simp [returned] at unfinished⟩
  | overreads reply is noted returned _ => exact ⟨noted ▸ attempted _, fun unfinished => absurd unfinished returned⟩
  | restarts reply is again noted =>
    refine ⟨noted ▸ attempted _, fun _ attempt member unknown => ?_⟩
    rw [noted] at member
    rcases List.mem_cons.mp member with rfl | older
    · cases unknown
    · rw [steady reply is again attempt older] at unknown
      cases unknown
  | finishes reply is noted returned _ => exact ⟨noted ▸ attempted _, fun unfinished => absurd unfinished returned⟩

theorem begins (config : RetryConfig) (call : Call) (transactionID nextTransaction : Nat) :
    (executeRoutedResultInto config call transactionID nextTransaction).attempts = [] := by
  unfold executeRoutedResultInto
  simp only
  split
  · split
    · rfl
    · split <;> rfl
  · split <;> rfl

variable {admissible : CallState → Surroundings → Prop}

theorem identified_of_reaches (reach : (callRuns codec config call).Reaches admissible c)
    (steady : ∀ c env, admissible c env → Steady codec config call c env) : Identified c := by
  refine reach.invariant Identified ?_ ?_
  · rintro first ⟨transactionID, nextTransaction, rfl⟩
    have none := begins config call transactionID nextTransaction
    exact ⟨by rw [none]; trivial, by rw [none]; exact fun _ => nofun⟩
  · rintro before env after identified ⟨running, -, rfl⟩ admits
    exact identified.round running (steady before env admits)

/-- A call that still runs remembers an unknown outcome in its last error. -/
structure Remembers (c : CallState) : Prop where
  lastErr : c.outcome = none → ∀ attempt ∈ c.attempts, attempt.unknown = true →
    errorIs c.lastErr .outcomeUnknown = true
  wellFormed : c.outcome = none → ∀ attempt ∈ c.attempts, attempt.ending ≠ .malformed
  reports : c.ReportsOutcome

theorem Remembers.finished (returned : c.outcome ≠ none) (reports : c.ReportsOutcome) : Remembers c :=
  ⟨fun unfinished => absurd unfinished returned, fun unfinished => absurd unfinished returned, reports⟩

/-- A call that returns tells its unknown outcome. -/
theorem Remembers.returned {result : CallResult} {err : GoError} (returned : c.outcome = some (result, some err))
    (unknown : ∀ attempt ∈ c.attempts, attempt.ambiguous = true → err.Is .outcomeUnknown = true) : Remembers c := by
  refine .finished (by rw [returned]; nofun) fun attempt member ambiguous result' err' same => .inl ?_
  rw [returned] at same
  cases same
  exact unknown attempt member ambiguous

theorem Remembers.round (remembers : Remembers c) (identified : Identified c) (running : c.outcome = none)
    (sensitive : call.outcomeSensitive = true) (careful : Careful codec config call c env) :
    Remembers (c.toRetryState.round codec config call env) := by
  have lastErr := remembers.lastErr running
  have wellFormed := remembers.wellFormed running
  have earlier : ∀ attempt ∈ c.attempts, attempt.ambiguous = true → attempt.unknown = true := by
    intro attempt member ambiguous
    simpa [Attempt.ambiguous, wellFormed attempt member] using ambiguous
  have spec := c.toRetryState.round_spec codec config call env
  generalize c.toRetryState.round codec config call env = next at spec ⊢
  cases spec with
  | skips same unfinished id kept =>
    refine ⟨fun _ attempt member unknown => ?_, fun _ attempt member =>
      ?_, fun attempt member _ result err returned => ?_⟩
    · exact kept (lastErr attempt (same ▸ member) unknown)
    · exact wellFormed attempt (same ▸ member)
    · simp [unfinished] at returned
  | stops err same returned kept =>
    refine .returned returned fun attempt member ambiguous => kept ?_
    rw [same] at member
    exact lastErr attempt member (earlier attempt member ambiguous)
  | retries cause noted unfinished id kept =>
    refine ⟨fun _ attempt member unknown => kept ?_, fun _ attempt member => ?_, fun _ _ _ _ _ returned => ?_⟩
    · rw [noted] at member
      rcases List.mem_cons.mp member with rfl | older
      · exact .inr ⟨sensitive, unknown⟩
      · exact .inl (lastErr attempt older unknown)
    · rw [noted] at member
      rcases List.mem_cons.mp member with rfl | older
      · nofun
      · exact wellFormed attempt older
    · simp [unfinished] at returned
  | fails cause err noted returned kept =>
    refine .returned returned fun attempt member ambiguous => kept ?_
    rw [noted] at member
    rcases List.mem_cons.mp member with rfl | older
    · exact .inr ⟨sensitive, by simpa [Attempt.ambiguous, Attempt.unknown] using ambiguous⟩
    · exact .inl (lastErr attempt older (earlier attempt older ambiguous))
  | rejects err noted returned unknown => exact .returned returned fun _ _ _ => unknown sensitive
  | overreads reply is noted returned bare =>
    rcases bare with ⟨accepts, long⟩ | ⟨readInto, succeeds, inTime, long⟩
    · simp [careful.reads reply is accepts] at long
    · exact absurd (careful.fits readInto reply is succeeds inTime) (Nat.not_le.mpr long)
  | restarts reply is again noted =>
    have steady := careful.steady reply is again
    refine ⟨fun _ attempt member unknown => ?_, fun _ attempt member => ?_, fun attempt member ambiguous => ?_⟩
    all_goals
      rw [noted] at member
      rcases List.mem_cons.mp member with rfl | older
    · cases unknown
    · simp [steady attempt older] at unknown
    · nofun
    · exact wellFormed attempt older
    · cases ambiguous
    · have unknown := earlier attempt older ambiguous
      simp [steady attempt older] at unknown
  | finishes reply is noted returned definite =>
    refine .finished returned fun attempt member ambiguous result err same => ?_
    rw [noted] at member
    rcases List.mem_cons.mp member with rfl | older
    · cases ambiguous
    have unknown := earlier attempt older ambiguous
    rcases definite result err same with reported | ⟨code, isErrno, carried⟩ | ⟨readInto, succeeds, ended⟩
    · exact .inl reported
    · refine .inr ⟨reply, code, ?_, carried, isErrno⟩
      rw [noted, identified.current running attempt older unknown]
      exact List.mem_cons_self
    · rw [careful.copies readInto reply is succeeds ended attempt older] at unknown
      cases unknown

/-- A codec for one write to one object, whose replies carry their result as the
length of their front. -/
def plainRequests : RequestCodec where
  encodeRequest request := .ok { header := { transactionID := request.transactionID } }
  encodeImmutableRequest request := .ok { header := { transactionID := request.transactionID } }
  decodeReply message := .ok
    { object := [0x6f], pg := ⟨1, 0, -1⟩, flags := 4, result := -(message.front.length : Int)
      operations := [{ operation := 0x2201, code := 0 }] }
  decodeOwnedReply _ := .error Sentinel.malformedReply
  encodeRequest_id := fun _ _ same => by cases same; rfl
  encodeImmutableRequest_id := fun _ _ same => by cases same; rfl

def threeAttempts : RetryConfig := ⟨false, 3, 16, 1⟩

def plainWrite : Call where
  target := { poolID := 1, object := [0x6f] }
  operations := [{ code := 0x2201 }]
  outcomeSensitive := true
  durable := true
  initialFlags := 0x24
  retainOperations := true
  destination := 0
  readInto := false
  immutable := true
  boundedByContext := false

/-- Surroundings in which only the counter and the answer of the session matter. -/
def submitting (nextTransaction : Nat) (submitted : Except GoError Message) : Surroundings where
  waitForRoute _ := .ok { epoch := 1, pg := ⟨1, 0, -1⟩, rawHash := 0, primary := 0, addresses := [{}] }
  getSessionContext _ := none
  clientGlobalID := 1
  beginRoutedAttempt _ := none
  submit _ _ _ := submitted
  waitForPrimaryChange _ _ := (false, none)
  nextTransaction := nextTransaction

def connectionLost (nextTransaction : Nat) : Surroundings :=
  submitting nextTransaction (.error (GoError.errorf2 Sentinel.outcomeUnknown Sentinel.sessionDisconnected))

def replying (nextTransaction errno : Nat) : Surroundings :=
  submitting nextTransaction (.ok { front := List.replicate errno 0 })

def afterAttempts (envs : List Surroundings) : CallState :=
  envs.foldl (fun c env => c.toRetryState.round plainRequests threeAttempts plainWrite env)
    (executeRoutedResultInto threeAttempts plainWrite 7 8)

theorem afterAttempts_reached {envs : List Surroundings}
    (follows : (callRuns plainRequests threeAttempts plainWrite).Follows admissible
      (fun c env => c.toRetryState.round plainRequests threeAttempts plainWrite env)
      (executeRoutedResultInto threeAttempts plainWrite 7 8) envs) :
    (callRuns plainRequests threeAttempts plainWrite).Reaches admissible (afterAttempts envs) := by
  have starts : (callRuns plainRequests threeAttempts plainWrite).start
    (executeRoutedResultInto threeAttempts plainWrite 7 8) := ⟨7, 8, rfl⟩
  exact (System.Reaches.start starts).follow follows

/-- No call makes another attempt under a new transaction once the outcome of
one is unknown. -/
theorem unknown_outcome_keeps_transaction
    (reach : (callRuns codec config call).Reaches (Steady codec config call) c) : SameOperation c.attempts :=
  (identified_of_reaches reach fun _ _ => id).same

/-- Two connections are lost under one transaction. -/
theorem unknown_outcome_keeps_transaction_twice :
    (afterAttempts [connectionLost 8, connectionLost 8]).attempts.length = 2 ∧
      SameOperation (afterAttempts [connectionLost 8, connectionLost 8]).attempts :=
  ⟨rfl, unknown_outcome_keeps_transaction (afterAttempts_reached
    ⟨⟨rfl, by decide, rfl⟩, nofun, ⟨rfl, by decide, rfl⟩, nofun, trivial⟩)⟩

/-- A reply that asks for another try makes the call submit the operation under
a new transaction although the outcome of the first attempt is unknown. -/
theorem unknown_outcome_resubmitted :
    ∃ c, (callRuns plainRequests threeAttempts plainWrite).Reaches (fun _ _ => True) c ∧
    plainWrite.outcomeSensitive = true ∧ ¬SameOperation c.attempts := by
  refine ⟨afterAttempts [connectionLost 8, replying 10 11, connectionLost 11], afterAttempts_reached
    ⟨⟨rfl, by decide, rfl⟩, trivial, ⟨rfl, by decide, rfl⟩, trivial, ⟨rfl, by decide, rfl⟩, trivial, trivial⟩, rfl,
    fun same => ?_⟩
  have kept : (10 : Nat) = 7 := (throughout_cons.mp same).1 _ (.tail _ (.head _)) rfl
  cases kept

/-- An unknown outcome is reported, however many attempts follow it. -/
theorem unknown_outcome_reported (sensitive : call.outcomeSensitive = true)
    (reach : (callRuns codec config call).Reaches (Careful codec config call) c) : c.ReportsOutcome := by
  suffices Identified c ∧ Remembers c from this.2.reports
  refine reach.invariant (fun c => Identified c ∧ Remembers c) ?_ ?_
  · rintro first ⟨transactionID, nextTransaction, rfl⟩
    have none := begins config call transactionID nextTransaction
    refine ⟨identified_of_reaches (.start ⟨_, _, rfl⟩) fun _ _ (careful : Careful codec config call _ _) =>
      careful.steady, ?_⟩
    exact ⟨by simp [none], by simp [none], by simp [CallState.ReportsOutcome, none]⟩
  · rintro before env after ⟨identified, remembers⟩ ⟨running, -, rfl⟩ careful
    exact ⟨identified.round running careful.steady, remembers.round identified running sensitive careful⟩

/-- The second attempt is answered with an error of the OSD. -/
theorem unknown_outcome_reported_errno :
    (afterAttempts [connectionLost 8, replying 8 2]).outcome.isSome = true ∧
      (afterAttempts [connectionLost 8, replying 8 2]).ReportsOutcome := by
  have answered : Careful plainRequests threeAttempts plainWrite (afterAttempts [connectionLost 8])
    (replying 8 2) := by
    refine ⟨fun reply is again => ?_, fun reply is _ => ?_, nofun, nofun⟩
    · cases is
      exact absurd again (by decide)
    · cases is
      rfl
  exact ⟨rfl, unknown_outcome_reported rfl (afterAttempts_reached
    ⟨⟨rfl, by decide, rfl⟩, ⟨nofun, nofun, nofun, nofun⟩, ⟨rfl, by decide, rfl⟩, answered, trivial⟩)⟩

/-- After such a reply, the end of the context is all that the call reports. -/
theorem unknown_outcome_forgotten :
    ∃ c, (callRuns plainRequests threeAttempts plainWrite).Reaches (fun _ _ => True) c ∧
    plainWrite.outcomeSensitive = true ∧ ¬c.ReportsOutcome := by
  refine ⟨afterAttempts [connectionLost 8, replying 10 11, { connectionLost 11 with ctxErr := some .canceled }],
    afterAttempts_reached
      ⟨⟨rfl, by decide, rfl⟩, trivial, ⟨rfl, by decide, rfl⟩, trivial, ⟨rfl, by decide, rfl⟩, trivial, trivial⟩, rfl,
    fun reports => ?_⟩
  rcases reports _ (.tail _ (.head _)) rfl {} _ rfl with reported | ⟨_, _, _, _, isErrno⟩
  · cases reported
  · cases isErrno

/-- The attempt leaves open what is to become of the operation. -/
def Call.repeats (call : Call) (attempt : Attempt) : Bool :=
  match attempt.ending with
  | .failed _ => true
  | .malformed => false
  | .answered reply => call.restarts reply

/-- A call makes no attempt behind one that was answered for good or with a reply that it rejects. -/
theorem answered_not_repeated (reach : (callRuns codec config call).Reaches (fun _ _ => True) c) :
    Throughout (fun _ older => ∀ earlier ∈ older, call.repeats earlier = true) c.attempts ∧
      (c.outcome = none → ∀ attempt ∈ c.attempts, call.repeats attempt = true) := by
  induction reach with
  | start first =>
    obtain ⟨transactionID, nextTransaction, rfl⟩ := first
    simp [begins]
  | @next before after env _ step _ ih =>
    obtain ⟨running, -, rfl⟩ := step
    have open' := ih.2 running
    have spec := before.toRetryState.round_spec codec config call env
    generalize before.toRetryState.round codec config call env = next at spec ⊢
    cases spec with
    | skips same | stops _ same =>
      rw [same]
      exact ⟨ih.1, fun _ => open'⟩
    | retries _ noted | restarts _ _ again noted =>
      rw [noted]
      exact ⟨⟨open', ih.1⟩, fun _ => List.forall_mem_cons.mpr ⟨by first | rfl | exact again, open'⟩⟩
    | fails _ _ noted returned
    | rejects _ noted returned
    | overreads _ _ noted returned
    | finishes _ _ noted returned =>
      rw [noted]
      exact ⟨⟨open', ih.1⟩, fun unfinished => by simp_all⟩

/-- The answer to the second attempt is the last one. -/
theorem answered_not_repeated_errno : Throughout (fun _ older => ∀ earlier ∈ older, plainWrite.repeats earlier = true)
    (afterAttempts [connectionLost 8, replying 8 2]).attempts :=
  And.left (answered_not_repeated (afterAttempts_reached
    ⟨⟨rfl, by decide, rfl⟩, trivial, ⟨rfl, by decide, rfl⟩, trivial, trivial⟩))

end RadosGo
