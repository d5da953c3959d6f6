import RadosGo.Objecter.OsdCommand

namespace RadosGo

namespace OsdCommandState

/-- An OSD may have executed what was submitted. Other errors of sessions and replies of `-EAGAIN` rule that out. -/
def mayHaveExecuted (config : OsdCommandConfig) : Except GoError Message → Bool
  | .error err => err.Is .outcomeUnknown
  | .ok reply =>
    match Osd.decodeCommandReply reply config.maxBytes with
    | .error _ => true
    | .ok decoded => decoded.result ≠ -11

/-- The reply cannot be decoded or answers another transaction. -/
def rejected (config : OsdCommandConfig) (transactionID : Nat) : Except GoError Message → Bool
  | .error _ => false
  | .ok reply =>
    match Osd.decodeCommandReply reply config.maxBytes with
    | .error _ => true
    | .ok decoded => decoded.transactionID ≠ transactionID ∧ decoded.result ≠ -11

/-- An error is the errno of a reply, or says that the outcome is unknown, or nothing has been executed. -/
def ReportsExecution (config : OsdCommandConfig) (c : OsdCommandState) : Prop :=
  ∀ result err, c.outcome = some (result, some err) → err.Is .outcomeUnknown = true ∨
    (∃ reply decoded, .ok reply ∈ c.submissions ∧ Osd.decodeCommandReply reply config.maxBytes = .ok decoded ∧
      err = .errno decoded.result) ∨
    ∀ submission ∈ c.submissions, mayHaveExecuted config submission = false

variable {config : OsdCommandConfig} {call : OsdCommandCall} {env : OsdCommandSurroundings} {s c : OsdCommandState}

theorem rejected_mayHaveExecuted {transactionID : Nat} {submission : Except GoError Message}
    (isRejected : rejected config transactionID submission = true) : mayHaveExecuted config submission = true := by
  cases submission with
  | error err => cases isRejected
  | ok reply =>
    rw [rejected] at isRejected
    rw [mayHaveExecuted]
    split at isRejected
    · rfl
    · exact decide_eq_true (of_decide_eq_true isRejected).2

/-- An error that is about the form of a reply. -/
def Formal (err : GoError) : Prop := err.Is .outcomeUnknown = false ∧ ∀ code, err ≠ .errno code

theorem formal_sentinel {name : Sentinel} (known : (GoError.sentinel name).Is .outcomeUnknown = false) :
    Formal (.sentinel name) := ⟨known, fun _ same => by cases same⟩

theorem formal_errorf {cause : GoError} (known : cause.Is .outcomeUnknown = false) (detail : String) :
    Formal (cause.errorf detail) := ⟨known, fun _ same => by cases same⟩

theorem meets_decodeCommandReply (message : Message) (maxBytes : Nat) :
    Meets Formal (Osd.decodeCommandReply message maxBytes) fun _ => True := by
  fun_cases Osd.decodeCommandReply message maxBytes
  case case9 => trivial
  all_goals first | exact formal_sentinel rfl | exact formal_errorf rfl _

/-- What a round does to what has been submitted, and how it returns when an OSD may have executed that. -/
inductive RoundSpec (config : OsdCommandConfig) (s t : OsdCommandState) : Prop
  | quiet (same : t.submissions = s.submissions)
  | idle (submission : Except GoError Message) (added : t.submissions = submission :: s.submissions)
      (idle : mayHaveExecuted config submission = false)
  | unknown (cause err : GoError) (result : CommandResult) (added : t.submissions = .error cause :: s.submissions)
      (outcome : t.outcome = some (result, some err)) (unknown : err.Is .outcomeUnknown = true)
  | rejects (reply : Message) (err : GoError) (result : CommandResult)
      (added : t.submissions = .ok reply :: s.submissions)
      (isRejected : rejected config s.transactionID (.ok reply) = true)
        (outcome : t.outcome = some (result, some err))
      (formal : Formal err)
  | answers (reply : Message) (decoded : Osd.CommandReply) (err : Option GoError) (result : CommandResult)
      (added : t.submissions = .ok reply :: s.submissions)
      (decodes : Osd.decodeCommandReply reply config.maxBytes = .ok decoded)
        (own : decoded.transactionID = s.transactionID)
      (outcome : t.outcome = some (result, err)) (errno : ∀ e, err = some e → e = .errno decoded.result)

theorem submitFailed_spec (err : GoError) :
    RoundSpec config s ({ s with submissions := .error err :: s.submissions }.submitFailed call env err) := by
  cases known : err.Is .outcomeUnknown with
  | false =>
    refine .idle (.error err) ?_ known
    unfold submitFailed
    repeat' split
    all_goals rfl
  | true =>
    unfold submitFailed
    rw [known]
    split
    · exact .unknown err err {} rfl rfl known
    · split
      · refine .unknown err _ {} rfl rfl ?_
        rw [preserveOutcomeUnknown_is, known, Bool.or_true]
      · exact .unknown err err {} rfl rfl known

theorem settle_spec (reply : Message) :
    RoundSpec config s ({ s with submissions := .ok reply :: s.submissions }.settle config reply) := by
  unfold settle
  split
  · next err failed =>
    refine .rejects reply err {} rfl ?_ rfl ((meets_decodeCommandReply reply config.maxBytes).of_error failed)
    rw [rejected, failed]
  · next decoded decodes =>
    have idle : decoded.result = -11 → mayHaveExecuted config (.ok reply) = false := by
      intro busy
      rw [mayHaveExecuted, decodes]
      exact decide_eq_false (not_not_intro busy)
    by_cases busy : decoded.result = -11
    · refine .idle (.ok reply) ?_ (idle busy)
      split <;> rfl
    · split
      · next foreign =>
        refine .rejects reply _ {} rfl ?_ rfl (formal_errorf rfl _)
        rw [rejected, decodes]
        exact decide_eq_true ⟨foreign, busy⟩
      · next own =>
        split
        · refine .answers reply decoded _ _ rfl decodes (not_not.mp own) rfl ?_
          exact fun e same => (Option.some.inj same).symm
        · exact .answers reply decoded none _ rfl decodes (not_not.mp own) rfl fun e none => by cases none

theorem prepare_submissions {t : OsdCommandState} (stops : s.prepare config call env = .inl t) :
    t.submissions = s.submissions := by
  unfold prepare at stops
  repeat' split at stops
  all_goals first | cases stops; rfl | cases stops

theorem round_spec : RoundSpec config s (s.round config call env) := by
  unfold round
  split
  · unfold attemptOnce
    split
    · next stops => exact .quiet (prepare_submissions stops)
    · dsimp only
      split
      · next err failed =>
        rw [failed]
        exact submitFailed_spec err
      · next reply ok =>
        rw [ok]
        exact settle_spec reply
  · exact .quiet rfl

theorem submitFailed_transactionID (err : GoError) :
    (s.submitFailed call env err).transactionID = s.transactionID := by
  unfold submitFailed
  repeat' split
  all_goals rfl

theorem settle_transactionID (reply : Message) : (s.settle config reply).transactionID = s.transactionID := by
  unfold settle
  repeat' split
  all_goals rfl

theorem prepare_transactionID {t : OsdCommandState} (stops : s.prepare config call env = .inl t) :
    t.transactionID = s.transactionID := by
  unfold prepare at stops
  repeat' split at stops
  all_goals first | cases stops; rfl | cases stops

theorem round_transactionID : (s.round config call env).transactionID = s.transactionID := by
  unfold round
  split
  · unfold attemptOnce
    split
    · next stops => exact prepare_transactionID stops
    · dsimp only
      split
      · exact submitFailed_transactionID _
      · exact settle_transactionID _
  · rfl

/-- No submission of the call has been executed. -/
def Unexecuted (config : OsdCommandConfig) (submissions : List (Except GoError Message)) : Prop :=
  ∀ submission ∈ submissions, mayHaveExecuted config submission = false

theorem Unexecuted.cons {submission : Except GoError Message} {older : List (Except GoError Message)}
    (unexecuted : Unexecuted config older) (idle : mayHaveExecuted config submission = false) :
    Unexecuted config (submission :: older) := List.forall_mem_cons.mpr ⟨idle, unexecuted⟩

theorem Unexecuted.unrejected {submissions : List (Except GoError Message)}
    (unexecuted : Unexecuted config submissions)
    (transactionID : Nat) : ∀ submission ∈ submissions, rejected config transactionID submission = false := by
  intro submission member
  cases isRejected : rejected config transactionID submission with
  | false => rfl
  | true => exact absurd (rejected_mayHaveExecuted isRejected) (by rw [unexecuted submission member]; decide)

theorem Unexecuted.reports (unexecuted : Unexecuted config c.submissions) : c.ReportsExecution config :=
  fun _ _ _ => .inr (.inr unexecuted)

/-- What holds in every state of a call. -/
structure Honest (config : OsdCommandConfig) (c : OsdCommandState) : Prop where
  running : c.outcome = none → Unexecuted config c.submissions
  before : Throughout (fun _ older => Unexecuted config older) c.submissions
  reports : c.ReportsExecution config ↔
    ∀ submission ∈ c.submissions, rejected config c.transactionID submission = false

theorem honest_of_unexecuted (unexecuted : Unexecuted config c.submissions)
    (before : Throughout (fun _ older => Unexecuted config older) c.submissions) : Honest config c :=
  ⟨fun _ => unexecuted, before, iff_of_true unexecuted.reports (unexecuted.unrejected _)⟩

theorem Honest.round (honest : Honest config s) (running : s.outcome = none) :
    Honest config (s.round config call env) := by
  have unexecuted := honest.running running
  have sameID : (s.round config call env).transactionID = s.transactionID := round_transactionID
  have before {submission : Except GoError Message}
    (added : (s.round config call env).submissions = submission :: s.submissions) :
      Throughout (fun _ older => Unexecuted config older) (s.round config call env).submissions := by
    rw [added]
    exact ⟨unexecuted, honest.before⟩
  cases (round_spec : RoundSpec config s (s.round config call env)) with
  | quiet same => exact honest_of_unexecuted (same ▸ unexecuted) (same ▸ honest.before)
  | idle submission added idle => exact honest_of_unexecuted (added ▸ unexecuted.cons idle) (before added)
  | unknown cause err result added outcome unknown =>
    refine ⟨fun still => ?_, before added, iff_of_true ?_ ?_⟩
    · rw [outcome] at still
      cases still
    · intro result' err' returned
      rw [outcome] at returned
      cases returned
      exact .inl unknown
    · rw [added]
      exact List.forall_mem_cons.mpr ⟨rfl, unexecuted.unrejected _⟩
  | rejects reply err result added isRejected outcome formal =>
    have isNewest : .ok reply ∈ (s.round config call env).submissions := added ▸ List.mem_cons_self
    refine ⟨fun still => ?_, before added, iff_of_false ?_ ?_⟩
    · rw [outcome] at still
      cases still
    · intro reports
      rcases reports result err outcome with unknown | ⟨_, decoded, _, _, errno⟩ | idle
      · rw [formal.1] at unknown
        cases unknown
      · exact formal.2 _ errno
      · have idle := idle _ isNewest
        rw [rejected_mayHaveExecuted isRejected] at idle
        cases idle
    · intro unrejected
      have known := unrejected _ isNewest
      rw [sameID, isRejected] at known
      cases known
  | answers reply decoded err result added decodes own outcome errno =>
    refine ⟨fun still => ?_, before added, iff_of_true ?_ ?_⟩
    · rw [outcome] at still
      cases still
    · intro result' err' returned
      rw [outcome] at returned
      obtain ⟨-, isErr⟩ := Prod.mk.inj (Option.some.inj returned)
      exact .inr (.inl ⟨reply, decoded, added ▸ List.mem_cons_self, decodes, errno err' isErr⟩)
    · rw [added]
      refine List.forall_mem_cons.mpr ⟨?_, unexecuted.unrejected _⟩
      rw [rejected, decodes, sameID]
      exact decide_eq_false fun foreign => foreign.1 own

theorem honest_submitCommand (nextTransaction : Nat) : Honest config (submitCommand nextTransaction) := by
  have nothing : (submitCommand nextTransaction).submissions = [] := by
    unfold submitCommand
    split <;> rfl
  refine honest_of_unexecuted ?_ ?_
  · rw [nothing]
    exact fun _ member => absurd member List.not_mem_nil
  · rw [nothing]
    trivial

theorem Honest.of_reaches (reach : (commandRuns config call).Reaches (fun _ _ => True) c) : Honest config c := by
  refine reach.invariant _ ?_ ?_
  · rintro s ⟨nextTransaction, rfl⟩
    exact honest_submitCommand nextTransaction
  · rintro s env t honest ⟨running, rfl⟩ -
    exact honest.round running

/-- A call submits again only after errors that leave no outcome unknown and replies of `-EAGAIN`. Its errors tell
whether a submission may have been executed exactly when it rejects no reply. -/
theorem command_reports_iff (reach : (commandRuns config call).Reaches (fun _ _ => True) c) :
    Throughout (fun _ older => (∀ err, .error err ∈ older → err.Is .outcomeUnknown = false) ∧
      ∀ reply decoded, .ok reply ∈ older → Osd.decodeCommandReply reply config.maxBytes = .ok decoded →
        decoded.result = -11) c.submissions ∧
    (c.ReportsExecution config ↔
      ∀ submission ∈ c.submissions, rejected config c.transactionID submission = false) := by
  have honest := Honest.of_reaches reach
  refine ⟨honest.before.mono fun _ older unexecuted => ⟨fun err member => unexecuted _ member, ?_⟩, honest.reports⟩
  intro reply decoded member decodes
  have idle := unexecuted _ member
  rw [mayHaveExecuted, decodes] at idle
  exact not_not.mp (of_decide_eq_false idle)

def twoTries : OsdCommandConfig := ⟨false, 2, 64⟩

def helpCommand : OsdCommandCall := ⟨[[0x68, 0x65, 0x6c, 0x70]], [], List.replicate 16 0, false, false⟩

/-- Surroundings in which a session answers with a reply of the given front. -/
def answering (front : Bytes) : OsdCommandSurroundings where
  waitForResolvedRoute := .ok { epoch := 1, pg := ⟨1, 0, -1⟩, rawHash := 0, primary := 0, addresses := [{}] }
  getSessionContext _ := none
  beginRoutedAttempt _ := none
  submit request := .ok
    { header := { transactionID := request.header.transactionID, type := Osd.messageCommandReply, version := 1 }
      front := front
      lengths := { front := front.length } }

def afterAnswers (fronts : List Bytes) : OsdCommandState :=
  (fronts.map answering).foldl (fun c env => c.round twoTries helpCommand env) (submitCommand 7)

theorem afterAnswers_reached {fronts : List Bytes}
    (follows : (commandRuns twoTries helpCommand).Follows (fun _ _ => True)
      (fun c env => c.round twoTries helpCommand env) (submitCommand 7) (fronts.map answering)) :
    (commandRuns twoTries helpCommand).Reaches (fun _ _ => True) (afterAnswers fronts) := by
  have starts : (commandRuns twoTries helpCommand).start (submitCommand 7) := ⟨7, rfl⟩
  exact (System.Reaches.start starts).follow follows

def busyFront : Bytes := [0xf5, 0xff, 0xff, 0xff, 0, 0, 0, 0]

/-- The OSD is busy at first, then it says that there is no such thing. -/
theorem command_reports_iff_busyFront :
    (afterAnswers [busyFront, [0xfe, 0xff, 0xff, 0xff, 0, 0, 0, 0]]).submissions.length = 2 ∧
      (afterAnswers [busyFront, [0xfe, 0xff, 0xff, 0xff, 0, 0, 0, 0]]).ReportsExecution twoTries := by
  refine ⟨by decide +kernel, (command_reports_iff (afterAnswers_reached ?_)).2.mpr (by decide +kernel)⟩
  exact ⟨⟨rfl, rfl⟩, trivial, ⟨by decide +kernel, rfl⟩, trivial, trivial⟩

/-- A front that ends too early is all the error is about. -/
theorem command_execution_unreported : ∃ c, (commandRuns twoTries helpCommand).Reaches (fun _ _ => True) c ∧
    ¬c.ReportsExecution twoTries := by
  refine ⟨afterAnswers [[0, 0]], afterAnswers_reached ⟨⟨rfl, rfl⟩, trivial, trivial⟩, fun reports => ?_⟩
  rcases reports {} _ rfl with unknown | ⟨_, _, _, _, errno⟩ | idle
  · cases unknown
  · cases errno
  · cases idle _ (.head _)

end OsdCommandState

end RadosGo
