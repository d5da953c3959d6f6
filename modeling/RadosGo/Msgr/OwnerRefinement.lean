import RadosGo.Msgr.TableRefinement

namespace RadosGo

namespace SessionOwner

/-- How far the transport of an owner has come. Without a write-task channel
nothing is written to it any more, whatever state the owner is in. -/
def stage (o : SessionOwner) : Stage :=
  match o.state with
  | .stopped => .stopped
  | .ready => if o.writeTasks then .ready else .offline
  | .connecting | .reconnecting => if o.writeTasks then .handshake else .offline
  | .disconnected | .wait => .offline

def status (o : SessionOwner) : OwnerStatus where
  counter := o.toSequenceCounter
  generation := o.generation
  stage := o.stage
  terminalErr := o.terminalErr

def ledger (o : SessionOwner) : Ledger := o.toRequestTable.ledger o.status

/-- The invariant of the session owner. -/
structure Wf (o : SessionOwner) : Prop where
  table : o.toRequestTable.Wf o.config.toSessionBounds
  controls : o.queuedControls ≤ o.config.maxQueuedMessages
  connecting : o.connectPending = true → o.state ≠ .stopped → o.state = .disconnected ∧ o.terminalErr = none

/-- A function of the owner keeps the invariant, and what it does is a sequence
of allowed changes of the ledger. -/
structure Refines (allowed : Ledger → Action → Prop) (o o' : SessionOwner) : Prop where
  wf : o'.Wf
  bounds : o'.config.toSessionBounds = o.config.toSessionBounds
  path : Ledger.histories.Path allowed o.ledger o'.ledger

variable {allowed allowed' : Ledger → Action → Prop} {o o' o'' : SessionOwner}

theorem Wf.refines_refl (wf : o.Wf) : Refines allowed o o := ⟨wf, rfl, .refl⟩

/-- No other transport is being dialled during a handshake. -/
theorem Wf.not_pending (wf : o.Wf) (shaking : o.state = .connecting ∨ o.state = .reconnecting) :
    ¬o.connectPending = true := by
  intro pending
  rcases shaking with state | state
  all_goals
    have offline := (wf.connecting pending (by rw [state]; nofun)).1
    rw [state] at offline
    cases offline

theorem Refines.trans (first : Refines allowed o o') (second : Refines allowed o' o'') : Refines allowed o o'' :=
  ⟨second.wf, second.bounds.trans first.bounds, first.path.trans second.path⟩

theorem Refines.mono (refines : Refines allowed o o') (weaker : ∀ l action, allowed l action → allowed' l action) :
    Refines allowed' o o' := ⟨refines.wf, refines.bounds, refines.path.mono weaker⟩

/-- What the ledger does not show may change freely. -/
theorem Refines.silent (wf : o'.Wf) (bounds : o'.config.toSessionBounds = o.config.toSessionBounds)
    (same : o'.ledger = o.ledger) : Refines allowed o o' := ⟨wf, bounds, same ▸ .refl⟩

/-- One change of the ledger. -/
theorem Refines.single (action : Action) (wf : o'.Wf) (bounds : o'.config.toSessionBounds = o.config.toSessionBounds)
    (can : o.ledger.Can action) (permitted : allowed o.ledger action) (leads : o'.ledger = o.ledger.act action) :
    Refines allowed o o' := ⟨wf, bounds, .single ⟨can, leads⟩ permitted⟩

/-- Quiet changes of the request table are quiet changes of its owner. -/
theorem Refines.ofTable (refines : RequestTable.Refines o.config.toSessionBounds o.status o.toRequestTable
      o'.toRequestTable) (bounds : o'.config.toSessionBounds = o.config.toSessionBounds)
    (status : o'.status = o.status)
    (controls : o'.queuedControls ≤ o.config.maxQueuedMessages)
    (connecting : o'.connectPending = true → o'.state ≠ .stopped →
      o'.state = .disconnected ∧ o'.terminalErr = none) :
    Refines Ledger.Quietly o o' where
  wf := ⟨bounds ▸ refines.wf, by rw [congrArg SessionBounds.maxQueuedMessages bounds]; exact controls, connecting⟩
  bounds := bounds
  path := by
    rw [show o'.ledger = o'.toRequestTable.ledger o.status from by rw [← status]; rfl]
    exact refines.path

variable {err : GoError} {transport : Transport}

theorem refreshClientCookie_known {ambient : Ambient} (failed : ambient.refreshClientCookie = .error err) :
    err.Is .outcomeUnknown = false := by
  unfold Ambient.refreshClientCookie at failed
  split at failed
  · cases failed
    simp
  · split at failed <;> cases failed
    simp

theorem stage_offline (notStopped : o.state ≠ .stopped) (closed : o.writeTasks = false) : o.stage = .offline := by
  cases state : o.state <;> simp_all [stage]

section

variable (wf : o.Wf)
include wf

theorem clearPendingAcknowledgment_wf : o.clearPendingAcknowledgment.Wf where
  table := wf.table
  controls := Nat.le_trans (Nat.le_add_right _ _) wf.controls
  connecting := wf.connecting

theorem clearPendingAcknowledgment_refines : Refines allowed o o.clearPendingAcknowledgment :=
  .silent (clearPendingAcknowledgment_wf wf) rfl rfl

theorem invalidateControls_refines : Refines Ledger.Quietly o o.invalidateControls :=
  .ofTable (RequestTable.invalidateControls_refines wf.table) rfl rfl wf.controls wf.connecting

theorem failAll_refines (known : err.Is .outcomeUnknown = false) : Refines Ledger.Quietly o (o.failAll err) :=
  .ofTable (RequestTable.failAll_refines wf.table known) rfl rfl wf.controls wf.connecting

theorem failSentUnknown_refines (cause : GoError) : Refines Ledger.Quietly o (o.failSentUnknown cause) :=
  .ofTable (RequestTable.failSentUnknown_refines wf.table cause) rfl rfl wf.controls wf.connecting

theorem prepareReplay_refines (notReady : o.stage ≠ .ready) : Refines Ledger.Quietly o o.prepareReplay :=
  .ofTable (RequestTable.prepareReplay_refines wf.table notReady) rfl rfl wf.controls wf.connecting

theorem finish_refines {p : Nat} {result : SubmitResult} (member : p ∈ o.pending.toList)
    (honest : HonestAnswer (o.data p) result) : Refines Ledger.Quietly o (o.finish p result) :=
  .ofTable (RequestTable.finish_refines wf.table member honest) rfl rfl wf.controls wf.connecting

theorem refuse_refines {command : SubmitCommand} (next : command.id = o.commands)
    (known : err.Is .outcomeUnknown = false) : Refines Ledger.Quietly o (o.refuse command err) :=
  .ofTable (RequestTable.refuse_refines wf.table next known) rfl rfl wf.controls wf.connecting

/-- Closing a transport takes the owner offline. -/
theorem closeTransport_refines : Refines Ledger.Quietly o o.closeTransport := by
  have closed : o.closeTransport.Wf :=
    ⟨wf.table, Nat.le_trans (Nat.add_le_add_right (Nat.zero_le _) _) wf.controls, wf.connecting⟩
  by_cases stopped : o.state = .stopped
  · refine .silent closed rfl ?_
    simp [ledger, status, stage, closeTransport, stopped]
  · have after : o.closeTransport.stage = .offline := stage_offline stopped rfl
    refine .single .offline closed rfl trivial trivial ?_
    simp only [ledger, status, after]
    rfl

/-- Every request is answered, then the owner closes and goes offline. -/
theorem Refines.shutdown (known : err.Is .outcomeUnknown = false)
    (table : o'.toRequestTable = o.toRequestTable.failAll err)
    (bounds : o'.config.toSessionBounds = o.config.toSessionBounds)
    (status : o'.status = { o.status with stage := .offline, terminalErr := some err })
    (controls : o'.controlQueue = [])
    (noAck : o'.pendingAck = 0) (idle : o'.connectPending = false) : Refines Ledger.Quietly o o' := by
  have emptied : RequestTable.Refines _ o.status _ _ := RequestTable.failAll_refines wf.table known
  have queue := o.toRequestTable.failAll_empty err
  have closes := ((o.toRequestTable.failAll err).ledger o.status).path_act (.close err) ⟨queue, known⟩ trivial
  have leaves := (((o.toRequestTable.failAll err).ledger o.status).act (.close err)).path_act .offline trivial trivial
  refine ⟨⟨by rw [table, bounds]; exact emptied.wf, by simp [queuedControls, controls, noAck], by simp [idle]⟩,
    bounds, ?_⟩
  have final : o'.ledger = (((o.toRequestTable.failAll err).ledger o.status).act (.close err)).act .offline := by
    rw [ledger, status, table]
    rfl
  rw [final]
  exact (emptied.path.trans closes).trans leaves

/-- The owner fails for good: every request is answered, and the transport is gone. -/
theorem failTerminal_refines (known : err.Is .outcomeUnknown = false) :
    Refines Ledger.Quietly o (o.failTerminal err) := by
  have cleared := clearPendingAcknowledgment_wf wf
  have retired : Refines Ledger.Quietly o
      { o.clearPendingAcknowledgment.releaseReceiveQueue with generation := addUint64 o.generation 1 } :=
    .single .retire ⟨cleared.table, cleared.controls, cleared.connecting⟩ rfl trivial trivial rfl
  have invalidated := retired.trans (invalidateControls_refines retired.wf)
  exact invalidated.trans (.shutdown invalidated.wf known rfl rfl rfl rfl rfl rfl)

/-- The numbering starts again with no request left. -/
theorem renumber_refines (known : err.Is .outcomeUnknown = false) (notReady : o.stage ≠ .ready) :
    Refines Ledger.Quietly o (o.renumber err) := by
  have emptied : RequestTable.Refines _ o.status _ _ := RequestTable.failAll_refines wf.table known
  have queue := o.toRequestTable.failAll_empty err
  have restarts := ((o.toRequestTable.failAll err).ledger o.status).path_act .renumber ⟨queue, notReady⟩ trivial
  exact ⟨⟨{ emptied.wf with }, wf.controls, wf.connecting⟩, rfl, emptied.path.trans restarts⟩

theorem resetForNewIdentity_refines (notReady : o.stage ≠ .ready) :
    Refines Ledger.Quietly o o.resetForNewIdentity := by
  have cleared := clearPendingAcknowledgment_wf wf
  have forgotten : Refines Ledger.Quietly o { o.clearPendingAcknowledgment with
      serverCookie := 0, serverFlags := 0, connectSeq := 0, lastInbound := 0 } :=
    .silent ⟨cleared.table, cleared.controls, cleared.connecting⟩ rfl rfl
  have known : GoError.Is Sentinel.sessionDisconnected .outcomeUnknown = false := rfl
  have renumbered := forgotten.trans (renumber_refines forgotten.wf known notReady)
  exact renumbered.trans
    (.silent ⟨renumbered.wf.table, renumbered.wf.controls, renumbered.wf.connecting⟩ rfl rfl)

theorem beginReconnect_refines (offline : o.state = .disconnected) (running : o.terminalErr = none) :
    Refines Ledger.Quietly o o.beginReconnect := by
  unfold beginReconnect
  split
  · exact failTerminal_refines wf (by simp)
  · exact .single .retire ⟨wf.table, wf.controls, fun _ _ => ⟨offline, running⟩⟩ rfl trivial trivial rfl

theorem settleFault_refines (err : GoError) (notReady : o.stage ≠ .ready) :
    Refines Ledger.Quietly o (o.settleFault err) := by
  unfold settleFault
  split
  · have failed := failSentUnknown_refines wf err
    exact failed.trans (resetForNewIdentity_refines failed.wf notReady)
  split
  · exact failAll_refines wf (by simp)
  split
  · exact failSentUnknown_refines wf err
  · exact prepareReplay_refines wf notReady

end

/-- Settling the requests leaves the connection of the owner alone. -/
theorem settleFault_connection (o : SessionOwner) (err : GoError) :
    (o.settleFault err).state = o.state ∧ (o.settleFault err).terminalErr = o.terminalErr ∧
      (o.settleFault err).connectPending = o.connectPending ∧ (o.settleFault err).writeTasks = o.writeTasks := by
  unfold settleFault
  split
  · exact ⟨rfl, rfl, rfl, rfl⟩
  split
  · exact ⟨rfl, rfl, rfl, rfl⟩
  split <;> exact ⟨rfl, rfl, rfl, rfl⟩

/-- An owner without a transport starts to look for a new one. -/
theorem disconnect_refines (wf : o.Wf) (notStopped : o.state ≠ .stopped) (closed : o.writeTasks = false)
    (running : o.terminalErr = none) : Refines Ledger.Quietly o (o.setState .disconnected).beginReconnect := by
  have down : (o.setState .disconnected).Wf := ⟨wf.table, wf.controls, fun _ _ => ⟨rfl, running⟩⟩
  have left : Refines Ledger.Quietly o (o.setState .disconnected) := by
    refine .silent down rfl ?_
    simp only [ledger, status, stage_offline notStopped closed]
    rfl
  exact left.trans (beginReconnect_refines down rfl running)

/-- A fault, in whatever state it strikes. -/
theorem handleFault_refines (wf : o.Wf) (err : GoError) : Refines Ledger.Quietly o (o.handleFault err) := by
  unfold handleFault
  split
  · exact wf.refines_refl
  · rename_i strikes
    simp only [not_or, Bool.not_eq_true, Option.isSome_eq_false_iff, Option.isNone_iff_eq_none] at strikes
    obtain ⟨running, notStopped, -⟩ := strikes
    have cleared : Refines Ledger.Quietly o _ := clearPendingAcknowledgment_refines wf
    have invalidated := cleared.trans (invalidateControls_refines cleared.wf)
    have closed := invalidated.trans (closeTransport_refines invalidated.wf)
    have offline : o.clearPendingAcknowledgment.invalidateControls.closeTransport.stage = .offline :=
      stage_offline notStopped rfl
    have settled := closed.trans (settleFault_refines closed.wf err (by rw [offline]; nofun))
    obtain ⟨state, terminal, -, tasks⟩ :=
      settleFault_connection o.clearPendingAcknowledgment.invalidateControls.closeTransport err
    exact settled.trans (disconnect_refines settled.wf (by rw [state]; exact notStopped) tasks
      (terminal.trans running))

theorem queueControl_refines (codec : FrameCodec) (wf : o.Wf) (payload : Control) :
    Refines Ledger.Quietly o (o.queueControl codec payload) := by
  unfold queueControl
  split
  · exact handleFault_refines wf _
  split
  · exact handleFault_refines wf _
  · rename_i room
    refine .silent ⟨wf.table, ?_, wf.connecting⟩ rfl rfl
    simp only [queuedControls, List.length_append, List.length_singleton] at room ⊢
    omega

theorem flushPendingAcknowledgment_refines (codec : FrameCodec) (wf : o.Wf) :
    Refines Ledger.Quietly o (o.flushPendingAcknowledgment codec) := by
  have cleared : Refines Ledger.Quietly o _ := clearPendingAcknowledgment_refines wf
  unfold flushPendingAcknowledgment
  simp only
  split
  · exact cleared.trans (queueControl_refines codec cleared.wf _)
  · exact cleared

theorem queueAcknowledgment_refines (codec : FrameCodec) (wf : o.Wf) (sequence : Nat) :
    Refines Ledger.Quietly o (o.queueAcknowledgment codec sequence) := by
  have counts : ∀ ack : Nat, ({ o with pendingAck := ack } : SessionOwner).queuedControls ≤
    o.controlQueue.length + 1 := by
    intro ack
    simp only [queuedControls]
    split <;> omega
  unfold queueAcknowledgment
  split
  · exact queueControl_refines codec wf _
  split
  · rename_i waiting
    have full : o.controlQueue.length + 1 ≤ o.config.maxQueuedMessages := by
      have := wf.controls
      rwa [queuedControls, if_pos waiting] at this
    exact .silent ⟨wf.table, Nat.le_trans (counts sequence) full, wf.connecting⟩ rfl rfl
  split
  · exact handleFault_refines wf _
  · rename_i room
    exact .silent ⟨wf.table, Nat.le_trans (counts sequence) (Nat.lt_of_not_le room), wf.connecting⟩ rfl rfl

theorem queueClientIdent_refines (codec : FrameCodec) (wf : o.Wf) :
    Refines Ledger.Quietly o (o.queueClientIdent codec) := queueControl_refines codec wf _

theorem sendReconnect_refines (codec : FrameCodec) (wf : o.Wf) :
    Refines Ledger.Quietly o (o.sendReconnect codec) := by
  have emptied : Refines Ledger.Quietly o { o with controlQueue := [] } :=
    .silent ⟨wf.table, Nat.le_trans (Nat.add_le_add_right (Nat.zero_le _) _) wf.controls, wf.connecting⟩ rfl rfl
  exact emptied.trans (queueControl_refines codec emptied.wf _)

/-- A new transport begins with a handshake. -/
theorem startTransport_refines (wf : o.Wf) (idle : o.connectPending = false) (transport : Transport)
    {state : SessionState} (shaking : state = .connecting ∨ state = .reconnecting) :
    Refines Ledger.Quietly o (o.startTransport transport state) := by
  refine .single .start ⟨{ wf.table with }, wf.controls, fun pending => absurd (idle.symm.trans pending) nofun⟩
    rfl trivial
    trivial ?_
  rcases shaking with rfl | rfl <;> rfl

theorem resumeTransport_refines (codec : FrameCodec) (ambient : Ambient) (wf : o.Wf)
    (idle : o.connectPending = false) (transport : Transport) :
    Refines Ledger.Quietly o (o.resumeTransport codec ambient transport) := by
  unfold resumeTransport
  split
  · split
    · exact failTerminal_refines wf (by simp)
    · have counted : Refines Ledger.Quietly o { o with connectSeq := o.connectSeq + 1 } :=
        .silent ⟨wf.table, wf.controls, wf.connecting⟩ rfl rfl
      have started := counted.trans (startTransport_refines counted.wf idle transport (.inr rfl))
      exact started.trans (sendReconnect_refines codec started.wf)
  · split
    · rename_i err failed
      exact failTerminal_refines wf (refreshClientCookie_known failed)
    · rename_i cookie _
      have renewed : Refines Ledger.Quietly o { o with clientCookie := cookie, connectSeq := 0 } :=
        .silent ⟨wf.table, wf.controls, wf.connecting⟩ rfl rfl
      have started := renewed.trans (startTransport_refines renewed.wf idle transport (.inl rfl))
      exact started.trans (queueClientIdent_refines codec started.wf)

theorem adoptCredential_refines (wf : o.Wf) (transport : Transport) :
    Refines allowed o (o.adoptCredential transport) := by
  unfold adoptCredential
  split <;> exact .silent ⟨wf.table, wf.controls, wf.connecting⟩ rfl rfl

theorem adoptCredential_connection (o : SessionOwner) (transport : Transport) :
    (o.adoptCredential transport).connectPending = o.connectPending ∧
      (o.adoptCredential transport).stage = o.stage := by
  unfold adoptCredential
  split <;> exact ⟨rfl, rfl⟩

/-- The identity of a new transport, while the owner is not ready. -/
theorem adoptIdentity_refines (wf : o.Wf) (notReady : o.stage ≠ .ready) (run : o.adoptIdentity transport = .ok o') :
    Refines Ledger.Quietly o o' ∧ o'.connectPending = o.connectPending := by
  unfold adoptIdentity at run
  split at run
  · cases run
    exact ⟨adoptCredential_refines wf transport, (adoptCredential_connection o transport).1⟩
  · rename_i globalID _
    have identified : Refines Ledger.Quietly o (o.adoptGlobalID globalID) :=
      .silent ⟨wf.table, wf.controls, wf.connecting⟩ rfl rfl
    have credited := identified.trans (adoptCredential_refines identified.wf transport)
    obtain ⟨pending, stage⟩ := adoptCredential_connection (o.adoptGlobalID globalID) transport
    split at run
    · cases run
    split at run
    · cases run
      exact ⟨credited.trans (resetForNewIdentity_refines credited.wf (by rw [stage]; exact notReady)), pending⟩
    · cases run
      exact ⟨credited, pending⟩

theorem adoptIdentity_known (run : o.adoptIdentity transport = .error err) : err.Is .outcomeUnknown = false := by
  unfold adoptIdentity at run
  split at run
  · cases run
  split at run
  · cases run
    rfl
  split at run <;> cases run

theorem adoptTransport_refines (codec : FrameCodec) (ambient : Ambient) (wf : o.Wf) (idle : o.connectPending = false)
    (running : o.terminalErr = none) (offline : o.state = .disconnected) (transport : Transport) :
    Refines Ledger.Quietly o (o.adoptTransport codec ambient transport) := by
  have opened : Refines Ledger.Quietly o { o with terminalErr := none, transitions := 0 } :=
    .silent ⟨wf.table, wf.controls, fun _ _ => ⟨offline, rfl⟩⟩ rfl (by simp only [ledger, status, running]; rfl)
  unfold adoptTransport
  simp only
  split
  · exact opened.trans (failTerminal_refines opened.wf (by simp))
  · rename_i globalSeq _
    have counted : Refines Ledger.Quietly o { o with
        terminalErr := none, transitions := 0, globalSeq := globalSeq, connectedOnce := true } :=
      opened.trans (.silent ⟨opened.wf.table, opened.wf.controls, opened.wf.connecting⟩ rfl rfl)
    split
    · rename_i failed
      exact counted.trans (failTerminal_refines counted.wf (adoptIdentity_known failed))
    · rename_i adopted run
      obtain ⟨adopts, pending⟩ := adoptIdentity_refines counted.wf (by simp [stage, offline]) run
      have adopts := counted.trans adopts
      exact adopts.trans (resumeTransport_refines codec ambient adopts.wf (pending.trans idle) transport)

theorem handleConnected_refines (codec : FrameCodec) (ambient : Ambient) (wf : o.Wf)
    (notStopped : o.state ≠ .stopped) (result : ConnectResult) :
    Refines Ledger.Quietly o (o.handleConnected codec ambient result) := by
  unfold handleConnected
  split
  · exact wf.refines_refl
  · rename_i expected
    simp only [not_or, Bool.not_eq_false] at expected
    obtain ⟨offline, running⟩ := wf.connecting expected.2 notStopped
    have settled : Refines Ledger.Quietly o { o with connectPending := false } :=
      .silent ⟨wf.table, wf.controls, nofun⟩ rfl rfl
    simp only
    split
    · exact settled.trans (adoptTransport_refines codec ambient settled.wf rfl running offline _)
    · exact settled.trans (beginReconnect_refines settled.wf offline running)

theorem forgetSession_refines (wf : o.Wf) : Refines Ledger.Quietly o o.forgetSession := by
  have cleared : Refines Ledger.Quietly o _ := clearPendingAcknowledgment_refines wf
  have invalidated := cleared.trans (invalidateControls_refines cleared.wf)
  exact invalidated.trans
    (.silent ⟨invalidated.wf.table, invalidated.wf.controls, invalidated.wf.connecting⟩ rfl rfl)

/-- A reset goes on with the handshake on the same transport. -/
theorem reconnecting_refines (wf : o.Wf) (shaking : o.state = .reconnecting) :
    Refines Ledger.Quietly o (o.setState .connecting) := by
  refine .silent ⟨wf.table, wf.controls, fun pending => (wf.not_pending (.inr shaking) pending).elim⟩ rfl ?_
  simp only [ledger, status, stage, setState, shaking]
  rfl

theorem handleReset_refines (codec : FrameCodec) (ambient : Ambient) (wf : o.Wf) (shaking : o.state = .reconnecting)
    (full : Bool) : Refines Ledger.Quietly o (o.handleReset codec ambient full) := by
  have forgotten := forgetSession_refines wf
  have notReady : o.forgetSession.stage ≠ .ready := by
    have : o.forgetSession.state = .reconnecting := shaking
    simp only [stage, this]
    split <;> nofun
  unfold handleReset
  simp only
  split
  · split
    · rename_i failed
      exact forgotten.trans (failTerminal_refines forgotten.wf (refreshClientCookie_known failed))
    · rename_i cookie _
      have renewed : Refines Ledger.Quietly o { o.forgetSession with clientCookie := cookie } :=
        forgotten.trans (.silent ⟨forgotten.wf.table, forgotten.wf.controls, forgotten.wf.connecting⟩ rfl rfl)
      have known : GoError.Is Sentinel.sessionDisconnected .outcomeUnknown = false := rfl
      have renumbered := renewed.trans (renumber_refines renewed.wf known notReady)
      have cleared : Refines Ledger.Quietly o
          { ({ o.forgetSession with clientCookie := cookie } : SessionOwner).renumber
            Sentinel.sessionDisconnected with
            partialReset := false } :=
        renumbered.trans (.silent ⟨renumbered.wf.table, renumbered.wf.controls, renumbered.wf.connecting⟩ rfl rfl)
      have connecting := cleared.trans (reconnecting_refines cleared.wf shaking)
      exact connecting.trans (queueClientIdent_refines codec connecting.wf)
  · have marked : Refines Ledger.Quietly o { o.forgetSession with partialReset := true } :=
      forgotten.trans (.silent ⟨forgotten.wf.table, forgotten.wf.controls, forgotten.wf.connecting⟩ rfl rfl)
    have prepared := marked.trans (prepareReplay_refines marked.wf notReady)
    have connecting := prepared.trans (reconnecting_refines prepared.wf shaking)
    exact connecting.trans (queueClientIdent_refines codec connecting.wf)

theorem completeRenewal_refines (wf : o.Wf) : Refines allowed o o.completeRenewal := by
  unfold completeRenewal
  split
  · exact wf.refines_refl
  · exact .silent ⟨wf.table, wf.controls, wf.connecting⟩ rfl rfl

/-- A handshake ends with a ready transport. -/
theorem establish_refines (wf : o.Wf) (shaking : o.state = .connecting ∨ o.state = .reconnecting) :
    Refines Ledger.Quietly o (o.setState .ready) := by
  have ready : (o.setState .ready).Wf := ⟨wf.table, wf.controls, fun pending => (wf.not_pending shaking pending).elim⟩
  cases tasks : o.writeTasks with
  | true =>
    refine .single .establish ready rfl ?_ trivial ?_
    · rcases shaking with state | state <;> simp [Ledger.Can, ledger, RequestTable.ledger, status, stage,
        state, tasks]
    · simp [Ledger.act, ledger, RequestTable.ledger, status, stage, setState, tasks]
  | false =>
    refine .silent ready rfl ?_
    rcases shaking with state | state <;> simp [ledger, status, stage, setState, state, tasks]

theorem handleServerIdent_refines (wf : o.Wf) (ident : ServerIdent) :
    Refines Ledger.Quietly o (o.handleServerIdent ident) := by
  have counted : Refines Ledger.Quietly o { o with transitions := o.transitions + 1 } :=
    .silent ⟨wf.table, wf.controls, wf.connecting⟩ rfl rfl
  unfold handleServerIdent
  split
  · exact handleFault_refines wf _
  rename_i shaking
  have shaking : o.state = .connecting := Decidable.not_not.mp shaking
  simp only
  split
  · exact counted.trans (handleFault_refines counted.wf _)
  split
  · exact counted.trans (failTerminal_refines counted.wf (by simp))
  split
  · exact counted.trans (failTerminal_refines counted.wf (by simp))
  split
  · exact counted.trans (handleFault_refines counted.wf _)
  · have adopted : Refines Ledger.Quietly o { o with
        transitions := o.transitions + 1, serverCookie := ident.cookie, serverFlags := ident.flags,
        partialReset := false, reconnectAttempts := 0 } := .silent ⟨wf.table, wf.controls, wf.connecting⟩ rfl rfl
    have failed := adopted.trans (failSentUnknown_refines adopted.wf Sentinel.sessionDisconnected)
    have ready := failed.trans (establish_refines failed.wf (.inl shaking))
    exact ready.trans (completeRenewal_refines ready.wf)

end SessionOwner

end RadosGo
