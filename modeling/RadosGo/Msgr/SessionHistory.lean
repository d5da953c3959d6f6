import RadosGo.Msgr.LedgerReplay
import RadosGo.Msgr.RunRefinement

namespace RadosGo

/-- What holds of the ledger of a session in every history. -/
structure Ledger.Sound (l : Ledger) : Prop where
  held : l.InCustody
  recorded : l.Recorded
  numbered : l.Numbered
  order : l.OnTransport
  increasing : Increasing l.journal
  faithful : Faithful l.journal
  headed : l.Headed

namespace Ledger

variable {allowed : Ledger → Action → Prop} {l : Ledger}

theorem initial_sound : Ledger.initial.Sound where
  held := ⟨.nil, nofun, ⟨nofun, .nil, nofun, nofun, fun _ => ⟨nofun, nofun⟩, .nil⟩⟩
  recorded := ⟨nofun, nofun, nofun, fun _ ⟨_, noted, _⟩ => nomatch noted⟩
  numbered := ⟨.nil, nofun, fun _ => Nat.one_pos, nofun, fun _ _ ⟨_, noted, _⟩ => (nomatch noted), nofun, nofun⟩
  order := ⟨nofun, nofun⟩
  increasing := trivial
  faithful := trivial
  headed := ⟨nofun, fun _ _ ⟨_, noted, _⟩ => nomatch noted⟩

theorem Sound.act {action : Action} (sound : l.Sound) (can : l.Can action) : (l.act action).Sound where
  held := inCustody_act sound.held can
  recorded := recorded_act sound.held sound.recorded can
  numbered := numbered_act sound.held sound.recorded sound.numbered can
  order := onTransport_act sound.held sound.numbered sound.order can
  increasing := increasing_act sound.numbered sound.order can sound.increasing
  faithful := faithful_act sound.recorded sound.numbered can sound.faithful
  headed := headed_act sound.held sound.headed can

variable (reach : histories.Reaches allowed l)
include reach

theorem sound_of_reaches : l.Sound := by
  refine reach.invariant Sound ?_ ?_
  · rintro first rfl
    exact initial_sound
  · rintro before action after sound ⟨can, rfl⟩ -
    exact sound.act can

/-- Answers are honest as long as no request expires after it was handed over. -/
theorem honest_of_reaches (notExpired : ∀ l p cause remains, ¬allowed l (.expire p cause remains)) :
    Honest l.journal := by
  refine (reach.invariant (fun l => l.Sound ∧ Honest l.journal) ?_ ?_).2
  · rintro first rfl
    exact ⟨initial_sound, trivial⟩
  · rintro before action after ⟨sound, honest⟩ ⟨can, rfl⟩ allow
    refine ⟨sound.act can, honest_act sound.recorded can (fun p cause remains same => ?_) honest⟩
    exact notExpired before p cause remains (same ▸ allow)

/-- The replay list is exact as long as no acknowledgment overtakes a request. -/
theorem replaying_of_reaches (inOrder : ∀ l sequence, allowed l (.acknowledge sequence) → ¬l.Overtaken sequence) :
    l.Replaying ∧ NeverResent l.journal := by
  refine (reach.invariant (fun l => l.Sound ∧ l.Replaying ∧ NeverResent l.journal) ?_ ?_).2
  · rintro first rfl
    refine ⟨initial_sound, ⟨?_, ?_, ?_, ?_, ?_, ?_⟩, trivial⟩
    all_goals simp [initial]
  · rintro before action after ⟨sound, replaying, never⟩ ⟨can, rfl⟩ allow
    refine ⟨sound.act can, ?_, neverResent_act replaying can never⟩
    exact replaying_act sound.held sound.recorded sound.numbered replaying can fun sequence same =>
      inOrder before sequence (same ▸ allow)

end Ledger

namespace SessionOwner

variable {codec : FrameCodec} {o : SessionOwner}

variable {admissible : SessionOwner → Move → Prop} {moves : List Move}

theorem sound_of_reaches (reach : (runs codec).Reaches admissible o) : o.Wf ∧ o.ledger.Closed ∧ o.ledger.Sound := by
  obtain ⟨wf, history⟩ := runs_refine (fun _ _ => True) (fun _ _ _ => trivial) (fun _ _ _ _ _ _ => trivial) reach
  exact ⟨wf, Ledger.closed_of_reaches history, Ledger.sound_of_reaches history⟩

/-- The number in the payload of a frame. -/
def frameNumber (frame : Frame) : Nat := bigEndian (frame.segments.flatMap (·.data))

/-- A codec with one-number payloads, for the sessions below. -/
def plainCodec : FrameCodec where
  encodeControl payload _ :=
    match payload with
    | .ack sequence => .ok { tag := .ack, segments := [⟨8, [UInt8.ofNat sequence]⟩] }
    | .clientIdent _ => .ok { tag := .clientIdent, segments := [] }
    | _ => .ok { tag := .sessionReconnect, segments := [] }
  decodeControl frame _ :=
    match frame.tag with
    | .ack => .ok (.ack (frameNumber frame))
    | .sessionReconnectOK => .ok (.sessionReconnectOK (frameNumber frame))
    | .sessionReset => .ok (.sessionReset (frameNumber frame != 0))
    | .serverIdent =>
      .ok (.serverIdent { addresses := [⟨2, 0, 2, List.replicate 14 0⟩], cookie := frameNumber frame })
    | _ => .error Sentinel.unsupportedPayload
  decodeMessage frame _ := .ok { header := { sequence := frameNumber frame } }

def plainAmbient : Ambient where
  cookie := .ok 1
  nextGlobal after := .ok (after + 1)
  resize _ := none
  bufferBytes _ := 0

def plainConfig : SessionConfig where
  limits := ⟨4096, 8192, 16, 4096⟩
  maxQueuedMessages := 4
  maxRetainedBytes := 4096
  retained_fits := by decide
  maxInFlightTransactions := 2
  maxReconnectAttempts := 3
  maxHandshakeTransitions := 8
  reconnectPolicy := .replayPending
  clientIdent := { targetAddress := ⟨2, 0, 2, List.replicate 14 0⟩, globalSequence := 1 }
  clientCookie := 11
  serverCookie := 22
  globalSequence := 1

def plainOwner : SessionOwner := (initial plainConfig (some {})).startTransport {} .ready

def afterMoves (moves : List Move) : SessionOwner := moves.foldl (step plainCodec) plainOwner

/-- The owner reads a control frame with a number in it. -/
def Move.read (generation : Nat) (tag : Tag) (number : UInt8) : Move :=
  .receive plainAmbient (.frame generation (.ok { tag := tag, segments := [⟨8, [number]⟩] }))

/-- A request is submitted and written. -/
def requestWritten : List Move :=
  [.receive plainAmbient (.submit .submit { header := { transactionID := 7 } }), .dispatch]

/-- A second request is submitted and written behind the first. -/
def secondWritten : List Move :=
  [.receive plainAmbient (.written 1 (some 0) none),
    .receive plainAmbient (.submit .submit { header := { transactionID := 8 } }), .dispatch]

/-- The transport is lost, and the owner asks the server to resume. -/
def transportLost : List Move :=
  [.receive plainAmbient (.fault 1 Sentinel.sessionDisconnected),
    .receive plainAmbient (.connected { generation := 2, transport := some {} }), .dispatch,
    .receive plainAmbient (.written 3 none none)]

theorem afterMoves_reached (follows : (runs plainCodec).Follows admissible (step plainCodec) plainOwner moves) :
    (runs plainCodec).Reaches admissible (afterMoves moves) := by
  have starts : (runs plainCodec).start plainOwner := ⟨plainAmbient, plainConfig, some {}, rfl⟩
  exact (System.Reaches.start starts).follow follows

/-- A request which completes with an error learns that its outcome is unknown
exactly when its message was handed to the write pump before. -/
theorem completion_reports_outcome (reach : (runs codec).Reaches (fun o move => ¬o.ExpiresIn move) o) :
    Honest o.journal := by
  have history := (runs_refine (fun _ action => ∀ p cause remains, action ≠ .expire p cause remains) ?_ ?_ reach).2
  · exact Ledger.honest_of_reaches history fun _ p cause remains allow => allow p cause remains rfl
  · rintro l action quiet p cause remains rfl
    exact quiet
  · rintro before move admits l action permitted p cause remains rfl
    exact admits permitted

/-- The condition is exact: every dispatch which it excludes hides an outcome. -/
theorem expires_hides_outcome (reach : (runs codec).Reaches admissible o) (expires : o.Expires) :
    ¬Honest (o.step codec .dispatch).journal := by
  obtain ⟨wf, -, sound⟩ := sound_of_reaches reach
  obtain ⟨p, selected, cause, application, executed, dispatched⟩ := expires.dispatch codec
  have member : p ∈ o.pending.toList := (selectWrite_mem ((nextPendingWrite_eq wf).symm.trans selected)).1
  have hides := Ledger.not_honest_expire p cause (o.data p).released sound.recorded ⟨member, application, executed⟩
  have journal : (o.finish p { err := some cause.error }).journal =
      (o.ledger.act (.expire p cause (o.data p).released)).journal := rfl
  rwa [step, dispatched, journal]

/-- A request that waits to be sent again when its caller cancels it. -/
theorem completion_reports_outcome_cancelled :
    Honest (afterMoves (requestWritten ++ transportLost ++ [.receive plainAmbient (.cancel 0 .canceled)])).journal :=
  completion_reports_outcome (afterMoves_reached (by decide))

/-- A dispatch answers a request that waits to be sent again with the bare error
of its context. -/
theorem expired_request_hides_outcome : ∃ o, (runs plainCodec).Reaches (fun _ _ => True) o ∧ ¬Honest o.journal := by
  refine ⟨afterMoves (requestWritten ++ transportLost ++
    [.read 3 .sessionReconnectOK 0, .receive plainAmbient (.contextEnded 0 .canceled), .dispatch]),
    afterMoves_reached (by decide), fun honest => ?_⟩
  have reported := ((throughout_cons.mp honest).1 _ _ _ rfl rfl rfl).mpr
  -- Behind the answer come the acknowledgment, the reconnect frame, the new transport and the write of the request.
  cases reported ⟨_, .tail _ (.tail _ (.tail _ (.head _))), rfl⟩

/-- A move accepts no acknowledgment of a request that waits to be sent again. -/
def InOrder (codec : FrameCodec) (o : SessionOwner) (move : Move) : Prop :=
  ∀ sequence, o.AcceptsIn codec move sequence → ¬o.book.Overtaken sequence

theorem replaying_of_reaches (reach : (runs codec).Reaches (InOrder codec) o) :
    o.ledger.Replaying ∧ NeverResent o.journal := by
  have history := (runs_refine (fun l action => ∀ sequence, action = .acknowledge sequence → ¬l.Overtaken sequence)
    ?_ ?_ reach).2
  · exact Ledger.replaying_of_reaches history fun _ sequence allow => allow sequence rfl
  · rintro l action quiet sequence rfl
    exact quiet.elim
  · rintro before move inOrder l action permitted sequence rfl
    obtain ⟨accepts, same⟩ := permitted
    rw [same]
    exact inOrder sequence accepts

/-- A request is not handed to the write pump again once it was acknowledged. -/
theorem acknowledged_never_resent (reach : (runs codec).Reaches (InOrder codec) o) : NeverResent o.journal :=
  (replaying_of_reaches reach).2

/-- Where no request waits to be sent again, no acknowledgment overtakes one. -/
theorem inOrder_of_settled (settled : ∀ p ∈ o.pending.toList, ¬(o.data p).Waiting) (move : Move) :
    o.InOrder codec move :=
  fun _ _ ⟨p, live, waiting, _⟩ => settled p live waiting

theorem settled_reached
    (follows : (runs plainCodec).Follows (fun o _ => ∀ p ∈ o.pending.toList, ¬(o.data p).Waiting)
      (step plainCodec) plainOwner moves) :
    (runs plainCodec).Reaches (InOrder plainCodec) (afterMoves moves) :=
  (afterMoves_reached follows).mono fun _ move settled => inOrder_of_settled settled move

/-- A request is acknowledged, then its transport is lost and the session resumes. -/
def acknowledgedAndResumed : List Move :=
  requestWritten ++ [.read 1 .ack 1] ++ transportLost ++ [.read 3 .sessionReconnectOK 1, .dispatch]

theorem acknowledged_never_resent_resumed : 0 ∈ (afterMoves acknowledgedAndResumed).pending.toList ∧
    NeverResent (afterMoves acknowledgedAndResumed).journal :=
  ⟨by decide, acknowledged_never_resent (settled_reached (by decide))⟩

/-- A request that waits to be sent again is sent although the server, when it
resumes the session, acknowledges it. -/
theorem acknowledged_request_resent : ∃ o, (runs plainCodec).Reaches (fun _ _ => True) o ∧
    ¬NeverResent o.journal := by
  refine ⟨afterMoves (requestWritten ++ transportLost ++ [.read 3 .sessionReconnectOK 1, .dispatch]),
    afterMoves_reached (by decide), fun never => ?_⟩
  have resent := (throughout_cons.mp never).1
  exact resent 3 0 _ ⟨rfl, rfl⟩ ⟨[], 1, _, rfl, _, ⟨_, .tail _ (.tail _ (.head _)), 1, rfl, rfl⟩, by decide⟩

/-- The replay list is increasing, and holds the live requests which were handed
over since it was last emptied and which are not acknowledged. An acknowledgment
takes exactly the requests off it whose number it covers. -/
theorem replay_list_exact (reach : (runs codec).Reaches (InOrder codec) o) :
    (o.replay.toList.Pairwise fun p q => (o.data p).seq < (o.data q).seq) ∧
      (∀ p, p ∈ o.replay.toList ↔ p ∈ o.pending.toList ∧ (o.data p).seq ≠ 0 ∧
        HandedOver (sinceDrop o.journal) (o.data p).request.id ∧ ¬Acknowledged o.journal (o.data p).request.id) ∧
      ∀ sequence, (o.toRequestTable.trimReplay sequence).replay.toList =
        o.replay.toList.filter fun p => sequence < (o.data p).seq := by
  obtain ⟨wf, -, -⟩ := sound_of_reaches reach
  obtain ⟨replaying, -⟩ := replaying_of_reaches reach
  refine ⟨replaying.sorted, fun p => ?_, fun sequence => ?_⟩
  · constructor
    · intro listed
      have live := replaying.live p listed
      exact ⟨live, replaying.numbered p listed, (replaying.listed p live).mp listed⟩
    · rintro ⟨live, -, outstanding⟩
      exact (replaying.listed p live).mpr outstanding
  · obtain ⟨-, bookEq⟩ := RequestTable.dropReplayWhile_spec wf.table
      (fun p => decide ((o.data p).seq ≤ sequence)) (RequestTable.replay_length wf.table)
    exact (congrArg RequestBook.replay bookEq).trans (dropWhile_eq_filter sequence replaying.sorted)

/-- Two requests, of which the first is acknowledged. -/
def firstAcknowledged : List Move := requestWritten ++ secondWritten ++ [.read 1 .ack 1]

theorem replay_list_exact_second : (afterMoves firstAcknowledged).replay.toList = [1] ∧
    ((afterMoves firstAcknowledged).toRequestTable.trimReplay 2).replay.toList =
      [1].filter fun p => 2 < ((afterMoves firstAcknowledged).data p).seq :=
  ⟨by decide, (replay_list_exact (settled_reached (by decide))).2.2 2⟩

/-- After a partial reset the server identifies itself. -/
def partiallyReset : List Move :=
  requestWritten ++ transportLost ++ [.read 3 .sessionReset 0, .dispatch,
    .receive plainAmbient (.written 3 none none), .read 3 .serverIdent 5]

/-- The replay list is emptied while a request still waits to be sent again. -/
theorem waiting_request_not_listed : ∃ o, (runs plainCodec).Reaches (fun _ _ => True) o ∧
    ∃ p ∈ o.pending.toList, (o.data p).seq ≠ 0 ∧ HandedOver o.journal (o.data p).request.id ∧
      ¬Acknowledged o.journal (o.data p).request.id ∧ p ∉ o.replay.toList := by
  refine ⟨afterMoves partiallyReset, afterMoves_reached (by decide), 0, by decide, by decide,
    ⟨_, .tail _ (.tail _ (.tail _ (.tail _ (.head _)))), rfl⟩, ?_, by decide⟩
  rintro ⟨newer, sequence, before, cut, -⟩
  have noted : .acknowledged sequence ∈ (afterMoves partiallyReset).journal :=
    mem_of_mem_since (cut ▸ List.mem_append_right newer List.mem_cons_self)
  have others : ((afterMoves partiallyReset).journal.all fun note =>
      match note with
      | .acknowledged _ => false
      | _ => true) = true := by decide
  cases List.all_eq_true.mp others _ noted

/-- Every command is answered at most once, an accepted command is held until it
is answered, and a session that has failed or stopped holds none. -/
theorem commands_answered_once (reach : (runs codec).Reaches (fun _ _ => True) o) :
    (o.journal.filterMap Note.answeredTo).Nodup ∧
      (∀ command, .accepted command ∈ o.journal → command.id ∉ o.journal.filterMap Note.answeredTo →
        ∃ p ∈ o.pending.toList, (o.data p).request = command ∧ o.byRequest command.id = some p) ∧
      (∀ id ∈ o.journal.filterMap Note.answeredTo,
        o.byRequest id = none ∧ ∀ p ∈ o.pending.toList, (o.data p).request.id ≠ id) ∧
      (o.state = .stopped ∨ o.terminalErr ≠ none →
        ∀ command, .accepted command ∈ o.journal → command.id ∈ o.journal.filterMap Note.answeredTo) := by
  obtain ⟨wf, closed, sound⟩ := sound_of_reaches reach
  have custody := sound.held.custody
  have owed_iff : ∀ command, (∃ p ∈ o.pending.toList, (o.data p).request = command) ↔
      .accepted command ∈ o.journal ∧ command.id ∉ o.journal.filterMap Note.answeredTo := fun command =>
    List.mem_map.symm.trans (custody.owed_iff command)
  have absent : ∀ id ∈ o.journal.filterMap Note.answeredTo, ∀ p ∈ o.pending.toList, (o.data p).request.id ≠ id := by
    rintro id answered p live rfl
    exact ((owed_iff _).mp ⟨p, live, rfl⟩).2 answered
  refine ⟨custody.once, fun command accepted unanswered => ?_, fun id answered => ?_, fun shut command accepted => ?_⟩
  · obtain ⟨p, live, rfl⟩ := (owed_iff command).mpr ⟨accepted, unanswered⟩
    exact ⟨p, live, rfl, (wf.table.byRequest _ p).mpr ⟨live, rfl⟩⟩
  · exact ⟨wf.table.byRequest.none_iff.mpr (absent id answered), absent id answered⟩
  · by_contra unanswered
    obtain ⟨p, live, -⟩ := (owed_iff command).mpr ⟨accepted, unanswered⟩
    have shut : o.terminalErr ≠ none ∨ o.stage = .stopped := shut.symm.imp_right fun stopped => by
      simp [stage, stopped]
    have empty : o.pending.toList = [] := closed.empty shut
    rw [empty] at live
    cases live

/-- Two requests are written before the session stops. -/
def bothStopped : List Move := requestWritten ++ secondWritten ++ [.receive plainAmbient .stop]

theorem commands_answered_once_stopped : (afterMoves bothStopped).state = .stopped ∧
    ((afterMoves bothStopped).journal.filterMap Note.answeredTo).Nodup :=
  ⟨by decide, (commands_answered_once (afterMoves_reached (by decide))).1⟩

/-- The bookkeeping of the pending requests: the array, the indices stored in it
and the links hold the same requests, the two maps find exactly them, and every
counter equals what it counts, within its limit. -/
structure Bookkept (o : SessionOwner) : Prop where
  pending : o.pending.Holds o.pending.toList
  byRequest : ∀ id p, o.byRequest id = some p ↔ p ∈ o.pending.toList ∧ (o.data p).request.id = id
  byTID : ∀ id p, o.byTID id = some p ↔ p ∈ o.pending.toList ∧ (o.data p).message.header.transactionID = id
  inFlight : o.inFlight = (o.pending.toList.countP fun p => (o.data p).sent && !(o.data p).request.control : Nat)
  inFlight_le : o.inFlight ≤ o.config.maxInFlightTransactions
  admitted : ∀ p ∈ o.pending.toList,
    admissionMessageBytes (o.data p).message o.config.limits = .ok (o.data p).bytes
  retained : o.retainedBytes =
    ((o.pending.toList.filter fun p => !(o.data p).request.control).map fun p => (o.data p).bytes).sum
  retained_le : o.retainedBytes ≤ o.config.maxRetainedBytes
  controlBytes : o.controlBytes =
    ((o.pending.toList.filter fun p => (o.data p).request.control).map fun p => (o.data p).bytes).sum
  controlBytes_le : o.controlBytes ≤ 2 ^ 20
  applications_le : (o.pending.toList.countP fun p => !(o.data p).request.control) ≤ o.config.maxQueuedMessages
  controlCount : o.controlCount = (o.pending.toList.countP fun p => (o.data p).request.control : Nat)
  controlCount_le : o.controlCount ≤ 16
  controlQueue_le : o.controlQueue.length + (if o.pendingAck ≠ 0 then 1 else 0) ≤ o.config.maxQueuedMessages

theorem Wf.bookkept (wf : o.Wf) : o.Bookkept := by
  have table := wf.table
  have inFlight := load_eq_countP RequestData.inFlight o.data o.pending.toList
  have applications := load_eq_countP RequestData.application o.data o.pending.toList
  have controls := load_eq_countP (fun node : RequestData => node.request.control) o.data o.pending.toList
  have retained := load_eq_sum_filter RequestData.application (·.bytes) o.data o.pending.toList
  have controlBytes := load_eq_sum_filter (fun node : RequestData => node.request.control) (·.bytes) o.data
    o.pending.toList
  exact {
    pending := table.pending
    byRequest := table.byRequest
    byTID := table.byTID
    inFlight := table.inFlight.trans (congrArg Nat.cast inFlight)
    inFlight_le := by rw [table.inFlight]; exact_mod_cast table.inFlight_le
    admitted := table.admitted
    retained := table.retained.trans retained
    retained_le := table.retained_le
    controlBytes := table.controlBytes.trans controlBytes
    controlBytes_le := table.controlBytes_le
    applications_le := applications ▸ table.applications_le
    controlCount := table.controlCount.trans (congrArg Nat.cast controls)
    controlCount_le := by rw [table.controlCount]; exact_mod_cast table.controlCount_le
    controlQueue_le := wf.controls }

/-- In every state a session reaches, its tables and counters agree. -/
theorem bookkeeping_consistent (reach : (runs codec).Reaches (fun _ _ => True) o) : o.Bookkept :=
  (sound_of_reaches reach).1.bookkept

theorem bookkeeping_consistent_inFlight : (afterMoves (requestWritten ++ secondWritten)).inFlight = 2 ∧
    (afterMoves (requestWritten ++ secondWritten)).Bookkept :=
  ⟨by decide, bookkeeping_consistent (afterMoves_reached (by decide))⟩

/-- On one transport the numbers increase. As long as the numbering goes on, a
number belongs to one request, and whatever is sent again for a request is the
same as before. The numbers are those in the header of the frame which is
handed over. -/
theorem sequence_order (reach : (runs codec).Reaches (fun _ _ => True) o) :
    Increasing o.journal ∧ Faithful o.journal ∧
      ∀ request task, SentIn o.journal request task → task.Headed := by
  obtain ⟨-, -, sound⟩ := sound_of_reaches reach
  exact ⟨sound.increasing, sound.faithful, sound.headed.written⟩

/-- Both requests are sent again on the next transport. -/
def bothResumed : List Move :=
  requestWritten ++ secondWritten ++ transportLost ++ [.read 3 .sessionReconnectOK 0, .dispatch,
    .receive plainAmbient (.written 3 (some 0) none), .dispatch]

theorem sequence_order_resumed :
    Increasing (afterMoves bothResumed).journal ∧ Faithful (afterMoves bothResumed).journal ∧
      ∀ request task, SentIn (afterMoves bothResumed).journal request task → task.Headed :=
  sequence_order (afterMoves_reached (by decide))

/-- The request which the owner writes next is the waiting one of the least number. A fresh one is written only when
none waits, and an application only when no fresh one was admitted before it. -/
theorem next_write_in_order (reach : (runs codec).Reaches (fun _ _ => True) o) {p : Nat}
    (next : o.nextPendingWrite = some p) : Selected o.data o.pending.toList p := by
  obtain ⟨wf, -, sound⟩ := sound_of_reaches reach
  rw [nextPendingWrite_eq wf] at next
  exact selectWrite_selected sound.numbered.fifo next

/-- Of the two requests which wait for the next transport, the first goes first. -/
theorem next_write_in_order_waiting :
    Selected (afterMoves (requestWritten ++ secondWritten ++ transportLost)).data
      (afterMoves (requestWritten ++ secondWritten ++ transportLost)).pending.toList 0 :=
  next_write_in_order (afterMoves_reached (by decide)) (by decide)

end SessionOwner

end RadosGo
