import RadosGo.Msgr.DispatchRefinement

namespace RadosGo

theorem Ledger.closed_of_reaches {allowed : Ledger → Action → Prop} {l : Ledger}
    (reach : Ledger.histories.Reaches allowed l) : l.Closed := by
  refine reach.invariant Closed ?_ ?_
  · rintro first rfl
    exact ⟨fun _ => rfl, nofun⟩
  · rintro before action after closed ⟨can, rfl⟩ -
    exact closed_act closed can

namespace SessionOwner

variable {o o' : SessionOwner} {expiring : Prop} {accepted : Nat → Prop} {b : RequestBook}

/-- The check of `acceptAcknowledgment`: only what has been sent can be acknowledged. -/
def Accepts (o : SessionOwner) (sequence : Nat) : Prop :=
  o.sequenceExhausted = false → sequence < o.nextOutbound ∨ sequence = 0

/-- The acknowledgment which the owner accepts from a frame: that of a new
message, that of a ready transport, or that which ends a reconnect. -/
inductive Acknowledges (codec : FrameCodec) (ambient : Ambient) (o : SessionOwner) (frame : Frame) : Nat → Prop
  | message (message : Message) (tag : frame.tag = .message) (ready : o.state = .ready)
      (decoded : codec.decodeMessage frame o.config.limits = .ok message)
      (new : o.lastInbound < message.header.sequence) (accepts : o.Accepts message.header.ackSequence) :
      Acknowledges codec ambient o frame message.header.ackSequence
  | ack {sequence : Nat} (tag : frame.tag ≠ .message) (charged : chargeCopies ambient frame = none)
      (decoded : codec.decodeControl frame o.config.limits = .ok (.ack sequence)) (ready : o.state = .ready)
      (accepts : o.Accepts sequence) : Acknowledges codec ambient o frame sequence
  | reconnected {sequence : Nat} (tag : frame.tag ≠ .message) (charged : chargeCopies ambient frame = none)
      (decoded : codec.decodeControl frame o.config.limits = .ok (.sessionReconnectOK sequence))
      (reconnecting : o.state = .reconnecting) (allowed : o.transitions < o.config.maxHandshakeTransitions)
      (accepts : o.Accepts sequence) : Acknowledges codec ambient o frame sequence

variable {sequence : Nat}

theorem acceptAcknowledgment_refines (wf : o.Wf)
    (trusted : o.Accepts sequence → Refines (Ledger.Permitted expiring accepted b) o o') :
    Refines (Ledger.Permitted expiring accepted b) o (o.acceptAcknowledgment sequence o') := by
  unfold acceptAcknowledgment
  split
  · exact (handleFault_refines wf _).permitted
  · rename_i accepts
    refine trusted fun notExhausted => ?_
    simp only [notExhausted, true_and, not_and_or, not_le, not_not] at accepts
    exact accepts

theorem acknowledge_refines (wf : o.Wf) (accepts : o.Accepts sequence) (isAccepted : accepted sequence) :
    Refines (Ledger.Permitted expiring accepted o.book) o (o.acknowledge sequence) := by
  obtain ⟨kept, bookEq⟩ := RequestTable.acknowledge_spec wf.table sequence
  refine .single (.acknowledge sequence) ⟨kept, wf.controls, wf.connecting⟩ rfl accepts ⟨isAccepted, rfl⟩ ?_
  exact congrArg (fun book => Ledger.mk book o.status) bookEq

theorem readyControl_refines {name : String} (wf : o.Wf)
    (allowed : o.state = .ready → Refines (Ledger.Permitted expiring accepted b) o o') :
    Refines (Ledger.Permitted expiring accepted b) o (o.readyControl name o') := by
  unfold readyControl
  split
  · rename_i ready
    exact allowed ready
  · exact (handleFault_refines wf _).permitted

/-- A transition is counted before it is made. -/
theorem transitionAllowed_refines {want : SessionState} {change : SessionOwner → SessionOwner} (wf : o.Wf)
    (allowed : o.state = want → o.transitions < o.config.maxHandshakeTransitions →
      ∀ o₁, o₁ = { o with transitions := o.transitions + 1 } → o₁.Wf →
        Refines (Ledger.Permitted expiring accepted b) o₁ (change o₁)) :
    Refines (Ledger.Permitted expiring accepted b) o (o.transitionAllowed want change) := by
  have counted : Refines Ledger.Quietly o { o with transitions := o.transitions + 1 } :=
    .silent ⟨wf.table, wf.controls, wf.connecting⟩ rfl rfl
  unfold transitionAllowed
  simp only
  split
  · exact (handleFault_refines wf _).permitted
  rename_i state
  split
  · exact (counted.trans (handleFault_refines counted.wf _)).permitted
  · rename_i within
    exact counted.permitted.trans (allowed (Decidable.not_not.mp state) (Nat.not_lt.mp within) _ rfl counted.wf)

theorem queueIncoming_refines (ambient : Ambient) (wf : o.Wf) (message : Message) :
    Refines Ledger.Quietly o (o.queueIncoming ambient message) := by
  unfold queueIncoming
  simp only
  split
  · split
    · exact failTerminal_refines wf (by simp)
    · exact .silent ⟨wf.table, wf.controls, wf.connecting⟩ rfl rfl
  · split
    · exact .silent ⟨wf.table, wf.controls, wf.connecting⟩ rfl rfl
    · exact failTerminal_refines wf (by simp)

variable {message : Message} {config : SessionConfig} {transport : Option Transport}

theorem replied_member (wf : o.Wf) {p : Nat} (found : o.replied message = some p) : p ∈ o.pending.toList := by
  simp only [replied, Option.filter_eq_some_iff] at found
  exact ((wf.table.byTID _ p).mp found.1).1

theorem honestAnswer_reply (node : RequestData) (message : Message) : HonestAnswer node { message := message } :=
  fun _ _ failed => by cases failed

theorem receiveMessage_refines (codec : FrameCodec) (ambient : Ambient) (wf : o.Wf)
    (accepts : o.Accepts message.header.ackSequence)
    (isAccepted : o.lastInbound < message.header.sequence → accepted message.header.ackSequence) :
    Refines (Ledger.Permitted expiring accepted o.book) o (o.receiveMessage codec ambient message) := by
  unfold receiveMessage
  simp only
  split
  · exact wf.refines_refl
  rename_i new
  have received : Refines (Ledger.Permitted expiring accepted o.book) o
      { o with lastInbound := message.header.sequence } :=
    .silent ⟨wf.table, wf.controls, wf.connecting⟩ rfl rfl
  have trimmed := received.trans
    (acknowledge_refines received.wf accepts (isAccepted (Nat.lt_of_not_le new)))
  split
  · rename_i p found
    have answered := trimmed.trans
      (finish_refines trimmed.wf (replied_member trimmed.wf found) (honestAnswer_reply _ message)).permitted
    exact answered.trans (queueAcknowledgment_refines codec answered.wf _).permitted
  · have queued := trimmed.trans (queueAcknowledgment_refines codec trimmed.wf message.header.sequence).permitted
    split
    · exact queued
    · exact queued.trans (queueIncoming_refines ambient queued.wf _).permitted

theorem reconnectOK_refines (wf : o.Wf) (reconnecting : o.state = .reconnecting)
    (accepts : o.Accepts sequence) (isAccepted : accepted sequence) :
    Refines (Ledger.Permitted expiring accepted o.book) o
      (({ (o.acknowledge sequence).prepareReplay with partialReset := false, reconnectAttempts := 0 }
        |>.setState .ready).completeRenewal) := by
  have trimmed : Refines (Ledger.Permitted expiring accepted o.book) o _ := acknowledge_refines wf accepts isAccepted
  have notReady : (o.acknowledge sequence).stage ≠ .ready := by
    have : (o.acknowledge sequence).state = .reconnecting := reconnecting
    simp only [stage, this]
    split <;> simp
  have prepared := trimmed.trans (prepareReplay_refines trimmed.wf notReady).permitted
  have counted : Refines (Ledger.Permitted expiring accepted o.book) o
      { (o.acknowledge sequence).prepareReplay with partialReset := false, reconnectAttempts := 0 } :=
    prepared.trans (.silent ⟨prepared.wf.table, prepared.wf.controls, prepared.wf.connecting⟩ rfl rfl)
  have ready := counted.trans (establish_refines counted.wf (.inr reconnecting)).permitted
  exact ready.trans (completeRenewal_refines ready.wf)

/-- A server that is not ready takes the owner offline for another attempt. -/
theorem handleWait_refines (wf : o.Wf) : Refines Ledger.Quietly o
    (if o.state ≠ .connecting ∧ o.state ≠ .reconnecting then
      o.handleFault (GoError.errorf Sentinel.malformed ("wait in state " ++ toString o.state.code))
    else ({ o with transitions := o.transitions + 1 }.setState .wait).handleFault Sentinel.sessionDisconnected) := by
  split
  · exact handleFault_refines wf _
  · rename_i shaking
    have offline : Refines Ledger.Quietly o ({ o with transitions := o.transitions + 1 }.setState .wait) := by
      have shaking : o.state = .connecting ∨ o.state = .reconnecting := by
        rwa [← not_or, not_not] at shaking
      exact .single .offline ⟨wf.table, wf.controls, fun pending => (wf.not_pending shaking pending).elim⟩ rfl trivial
        trivial rfl
    exact offline.trans (handleFault_refines offline.wf _)

theorem handleControl_refines (codec : FrameCodec) (ambient : Ambient) (wf : o.Wf) {payload : Control}
    (acked : ∀ sequence, payload = .ack sequence → o.state = .ready → o.Accepts sequence → accepted sequence)
    (reconnected : ∀ sequence, payload = .sessionReconnectOK sequence → o.state = .reconnecting →
      o.transitions < o.config.maxHandshakeTransitions → o.Accepts sequence → accepted sequence) :
    Refines (Ledger.Permitted expiring accepted o.book) o (o.handleControl codec ambient payload) := by
  unfold handleControl
  cases payload with
  | ack sequence =>
    exact readyControl_refines wf fun ready => acceptAcknowledgment_refines wf fun accepts =>
      acknowledge_refines wf accepts (acked sequence rfl ready accepts)
  | keepalive2 timestamp => exact readyControl_refines wf fun _ => (queueControl_refines codec wf _).permitted
  | keepalive2Ack timestamp => exact readyControl_refines wf fun _ => wf.refines_refl
  | sessionReset full =>
    refine transitionAllowed_refines wf fun reconnecting _ o₁ counted wf₁ => ?_
    exact (handleReset_refines codec ambient wf₁ (by rw [counted]; exact reconnecting) full).permitted
  | sessionRetry connectSequence =>
    refine transitionAllowed_refines wf fun _ _ o₁ _ wf₁ => ?_
    split
    · exact (failTerminal_refines wf₁ (by simp)).permitted
    · have retried : Refines Ledger.Quietly o₁ { o₁ with connectSeq := connectSequence + 1 } :=
        .silent ⟨wf₁.table, wf₁.controls, wf₁.connecting⟩ rfl rfl
      exact (retried.trans (sendReconnect_refines codec retried.wf)).permitted
  | sessionRetryGlobal globalSequence =>
    refine transitionAllowed_refines wf fun _ _ o₁ _ wf₁ => ?_
    split
    · exact (failTerminal_refines wf₁ (by simp)).permitted
    · rename_i next _
      have retried : Refines Ledger.Quietly o₁ { o₁ with globalSeq := next } :=
        .silent ⟨wf₁.table, wf₁.controls, wf₁.connecting⟩ rfl rfl
      exact (retried.trans (sendReconnect_refines codec retried.wf)).permitted
  | wait => exact (handleWait_refines wf).permitted
  | sessionReconnectOK sequence =>
    refine transitionAllowed_refines wf fun reconnecting within o₁ counted wf₁ => ?_
    subst counted
    exact acceptAcknowledgment_refines wf₁ fun accepts =>
      reconnectOK_refines wf₁ reconnecting accepts (reconnected sequence rfl reconnecting within accepts)
  | serverIdent ident => exact (handleServerIdent_refines wf ident).permitted
  | identMissingFeatures features => exact (failTerminal_refines wf (by simp)).permitted
  | clientIdent _ | sessionReconnect _ | authentication _ => exact (handleFault_refines wf _).permitted

theorem handleFrame_refines (codec : FrameCodec) (ambient : Ambient) (wf : o.Wf) (frame : Frame) :
    Refines (Ledger.Permitted expiring (o.Acknowledges codec ambient frame) o.book) o
      (o.handleFrame codec ambient frame) := by
  unfold handleFrame
  split
  · rename_i tag
    split
    · exact (handleFault_refines wf _).permitted
    rename_i ready
    have ready : o.state = .ready := Decidable.not_not.mp ready
    split
    · exact (handleFault_refines wf _).permitted
    · rename_i message decoded
      exact acceptAcknowledgment_refines wf fun accepts =>
        receiveMessage_refines codec ambient wf accepts fun new =>
          Acknowledges.message message tag ready decoded new accepts
  · rename_i tag
    split
    · rename_i failure _
      exact (failTerminal_refines wf failure.known).permitted
    rename_i charged
    split
    · exact (handleFault_refines wf _).permitted
    · rename_i payload decoded
      refine handleControl_refines codec ambient wf (fun sequence isAck => ?_) fun sequence isReconnect => ?_
      · exact .ack tag charged (isAck ▸ decoded)
      · exact .reconnected tag charged (isReconnect ▸ decoded)

theorem completeOneWay_refines (wf : o.Wf) (request : Option Nat) :
    Refines Ledger.Quietly o (o.completeOneWay request) := by
  unfold completeOneWay
  split
  · exact wf.refines_refl
  · rename_i p found
    obtain ⟨id, -, found⟩ := Option.bind_eq_some_iff.mp found
    split
    · exact finish_refines wf ((wf.table.byRequest id p).mp found).1 (honestAnswer_reply _ {})
    · exact wf.refines_refl

theorem handleWritten_refines (wf : o.Wf) (generation : Nat) (request : Option Nat) (err : Option GoError) :
    Refines Ledger.Quietly o (o.handleWritten generation request err) := by
  have idle : Refines Ledger.Quietly o { o with writeBusy := false } :=
    .silent ⟨wf.table, wf.controls, wf.connecting⟩ rfl rfl
  unfold handleWritten
  split
  · cases err with
    | some err => exact idle.trans (handleFault_refines idle.wf err)
    | none => exact idle.trans (completeOneWay_refines idle.wf request)
  · exact wf.refines_refl

/-- A stopped owner has answered every request. -/
theorem stop_refines (wf : o.Wf) : Refines Ledger.Quietly o o.stop := by
  have invalidated := invalidateControls_refines wf
  have emptied : Refines Ledger.Quietly o (o.invalidateControls.failAll Sentinel.sessionClosed) :=
    invalidated.trans (failAll_refines invalidated.wf rfl)
  refine emptied.trans (.single .stop ⟨emptied.wf.table, ?_, fun _ running => absurd rfl running⟩ rfl ?_ trivial rfl)
  · exact (clearPendingAcknowledgment_wf emptied.wf).controls
  · exact o.invalidateControls.toRequestTable.failAll_empty Sentinel.sessionClosed

/-- The acknowledgment which a move makes the owner accept. -/
def AcceptsIn (codec : FrameCodec) (o : SessionOwner) : Move → Nat → Prop
  | .receive ambient (.frame generation (.ok frame)), sequence =>
    generation = o.generation ∧ o.terminalErr = none ∧ o.Acknowledges codec ambient frame sequence
  | _, _ => False

/-- A move lets a request expire that was handed over before. -/
def ExpiresIn (o : SessionOwner) : Move → Prop
  | .dispatch => o.Expires
  | .receive _ _ => False

instance (o : SessionOwner) : (move : Move) → Decidable (o.ExpiresIn move)
  | .dispatch => inferInstanceAs (Decidable o.Expires)
  | .receive _ _ => .isFalse id

theorem handleRead_refines (codec : FrameCodec) (ambient : Ambient) (wf : o.Wf) (generation : Nat)
    (read : Except ForeignError Frame) :
    Refines (Ledger.Permitted expiring (o.AcceptsIn codec (.receive ambient (.frame generation read))) o.book) o
      (o.handleRead codec ambient generation read) := by
  unfold handleRead
  split
  · rename_i current
    split
    · rename_i failure
      split
      · exact (failTerminal_refines wf failure.known).permitted
      · exact (handleFault_refines wf _).permitted
    · rename_i frame
      exact (handleFrame_refines codec ambient wf frame).mono
        (Ledger.Permitted.imp fun _ acknowledges => ⟨current.1, current.2, acknowledges⟩)
  · exact wf.refines_refl

theorem handle_refines (codec : FrameCodec) (ambient : Ambient) (wf : o.Wf)
    (known : ∀ err, o.terminalErr = some err → err.Is .outcomeUnknown = false) (notStopped : o.state ≠ .stopped)
    (input : Input) : Refines (Ledger.Permitted expiring (o.AcceptsIn codec (.receive ambient input)) o.book) o
      (o.handle codec ambient input) := by
  cases input with
  | submit kind message => exact (submit_refines wf known notStopped kind message).permitted
  | cancel request err => exact (cancel_refines wf request err).permitted
  | snapshot => exact wf.refines_refl
  | stop => exact (stop_refines wf).permitted
  | frame generation read => exact handleRead_refines codec ambient wf generation read
  | written generation request err => exact (handleWritten_refines wf generation request err).permitted
  | fault generation err =>
    simp only [handle]
    split
    · exact (handleFault_refines wf err).permitted
    · exact wf.refines_refl
  | renewal generation =>
    simp only [handle]
    split
    · exact .silent ⟨wf.table, wf.controls, wf.connecting⟩ rfl rfl
    · exact wf.refines_refl
  | connected result => exact (handleConnected_refines codec ambient wf notStopped result).permitted
  | acknowledgmentTimer => exact (flushPendingAcknowledgment_refines codec wf).permitted
  | delivered =>
    simp only [handle]
    split <;> exact .silent ⟨wf.table, wf.controls, wf.connecting⟩ rfl rfl
  | contextEnded request cause => exact .silent ⟨wf.table, wf.controls, wf.connecting⟩ rfl rfl

/-- Every step of an owner is a sequence of changes of its ledger. -/
theorem step_refines (codec : FrameCodec) (wf : o.Wf)
    (known : ∀ err, o.terminalErr = some err → err.Is .outcomeUnknown = false) (notStopped : o.state ≠ .stopped)
    (move : Move) : Refines (Ledger.Permitted (o.ExpiresIn move) (o.AcceptsIn codec move) o.book) o
      (o.step codec move) := by
  cases move with
  | dispatch => exact dispatch_refines codec wf
  | receive ambient input => exact handle_refines codec ambient wf known notStopped input

theorem initial_ledger (config : SessionConfig) (transport : Option Transport) :
    (initial config transport).ledger = Ledger.initial := rfl

theorem initial_owner_wf (config : SessionConfig) (transport : Option Transport) : (initial config transport).Wf :=
  ⟨RequestTable.initial_wf, Nat.zero_le _, nofun⟩

/-- A transport which the caller provides is ready at once. -/
theorem startReady_refines (wf : o.Wf) (idle : o.connectPending = false) (transport : Transport) :
    Refines Ledger.Quietly o (o.startTransport transport .ready) := by
  have shaking := startTransport_refines wf idle transport (.inl rfl : SessionState.connecting = .connecting ∨ _)
  exact shaking.trans (establish_refines shaking.wf (.inl rfl))

theorem reaches_of_initial (refines : Refines Ledger.Quietly (initial config transport) o) :
    o.Wf ∧ Ledger.histories.Reaches Ledger.Quietly o.ledger :=
  ⟨refines.wf, (System.Reaches.start (initial_ledger config transport)).extend refines.path⟩

theorem newSession_refines {ambient : Ambient} (built : newSession ambient config transport = .ok o) :
    o.Wf ∧ Ledger.histories.Reaches Ledger.Quietly o.ledger := by
  revert built
  fun_cases newSession ambient config transport
  all_goals rintro ⟨⟩
  · next provided _ => exact reaches_of_initial (startReady_refines (initial_owner_wf _ (some provided)) rfl provided)
  · exact reaches_of_initial (beginReconnect_refines (initial_owner_wf _ none) rfl rfl)

/-- Runs of sessions are histories of ledgers, in which only those requests
expire and only those acknowledgments are accepted that the moves account for. -/
theorem runs_refine {codec : FrameCodec} {admissible : SessionOwner → Move → Prop} (allowed : Ledger → Action → Prop)
    (quiet : ∀ l action, l.Quietly action → allowed l action)
    (permitted : ∀ o move, admissible o move → ∀ l action,
      l.Permitted (o.ExpiresIn move) (o.AcceptsIn codec move) o.book action → allowed l action)
    (reach : (runs codec).Reaches admissible o) : o.Wf ∧ Ledger.histories.Reaches allowed o.ledger := by
  refine reach.refine ?_ ?_
  · rintro first ⟨ambient, config, transport, built⟩
    obtain ⟨wf, history⟩ := newSession_refines built
    exact ⟨wf, history.mono quiet⟩
  · rintro before move after wf history ⟨notStopped, -, rfl⟩ admits
    have refines := step_refines codec wf (Ledger.closed_of_reaches history).known notStopped move
    exact ⟨refines.wf, refines.path.mono (permitted before move admits)⟩

end SessionOwner

end RadosGo
