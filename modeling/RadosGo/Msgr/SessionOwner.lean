import RadosGo.Msgr.RequestTable
import RadosGo.Library.System

namespace RadosGo

open Sentinel

inductive ReconnectPolicy where
  | failPending
  | replayPending
  deriving DecidableEq, Repr

inductive SessionState where
  | disconnected
  | connecting
  | reconnecting
  | ready
  | wait
  | stopped
  deriving DecidableEq, Repr

/-- The number `%d` prints for a session state. -/
def SessionState.code : SessionState → Nat
  | disconnected => 0
  | connecting => 1
  | reconnecting => 2
  | ready => 3
  | wait => 4
  | stopped => 5

/-- The limits of a session that the requests of its owner are held to. -/
structure SessionBounds where
  limits : Limits
  maxQueuedMessages : Nat
  maxRetainedBytes : Nat
  retained_fits : maxRetainedBytes < 2 ^ 64
  maxInFlightTransactions : Nat

structure SessionConfig extends SessionBounds where
  receiveBudget : Bool := false
  maxQueuedReceiveBytes : Nat := 0
  maxReconnectAttempts : Nat
  maxHandshakeTransitions : Nat
  reconnectPolicy : ReconnectPolicy
  clientIdent : ClientIdent := {}
  clientCookie : Nat := 0
  serverCookie : Nat := 0
  globalSequence : Nat := 0
  connectSequence : Nat := 0

def maxControlMessages : Nat := 16

def maxControlRetainedBytes : Nat := 2 ^ 20

/-- What the owner asks a freshly authenticated transport. -/
structure Transport where
  authenticatedGlobalID : Option Nat := none
  credentialIdentity : Option Nat := none
  deriving DecidableEq, Repr

/-- The answers which the surroundings give while one event is handled: the
cookie and global sequence sources, the receive budget, and the memory that
the buffers of a received message without a lease occupy. -/
structure Ambient where
  cookie : Except GoError Nat
  nextGlobal : Nat → Except GoError Nat
  resize : Nat → Option ForeignError
  bufferBytes : Message → Nat

def Ambient.receiveMessageBytes (ambient : Ambient) (message : Message) : Nat :=
  message.receiveLease.getD (ambient.bufferBytes message)

def Ambient.nextGlobalSequence (ambient : Ambient) (after : Nat) : Except GoError Nat := do
  let next ← ambient.nextGlobal after
  if next ≤ after then
    .error (GoError.errorf malformed ("global sequence " ++ toString next ++
      " does not advance past " ++ toString after))
  else .ok next

def Ambient.refreshClientCookie (ambient : Ambient) : Except GoError Nat :=
  match ambient.cookie with
  | .error err => .error (GoError.errorf sessionDisconnected ("generate client cookie: " ++ err.text))
  | .ok cookie =>
    if cookie = 0 then .error (GoError.errorf malformed "client cookie must be nonzero") else .ok cookie

/-- The outbound sequence numbers still to be given out. -/
structure SequenceCounter where
  nextOutbound : Nat
  sequenceExhausted : Bool
  deriving DecidableEq, Repr

def SequenceCounter.allocateSequence (counter : SequenceCounter) : Except GoError (Nat × SequenceCounter) :=
  if counter.sequenceExhausted then .error transitionLimit
  else
    let sequence := if counter.nextOutbound = 0 then 1 else counter.nextOutbound
    if sequence = maxUint64 then .ok (sequence, ⟨0, true⟩) else .ok (sequence, ⟨sequence + 1, false⟩)

theorem SequenceCounter.allocateSequence_ok {counter counter' : SequenceCounter} {seq : Nat}
    (run : counter.allocateSequence = .ok (seq, counter')) :
    counter.sequenceExhausted = false ∧ seq = (if counter.nextOutbound = 0 then 1 else counter.nextOutbound) ∧
      counter' = if seq = maxUint64 then ⟨0, true⟩ else ⟨seq + 1, false⟩ := by
  unfold allocateSequence at run
  by_cases exhausted : counter.sequenceExhausted = true
  · simp [exhausted] at run
  · simp only [exhausted, Bool.false_eq_true, if_false] at run
    generalize (if counter.nextOutbound = 0 then 1 else counter.nextOutbound) = next at run
    split at run <;> cases run <;> simp_all

theorem SequenceCounter.allocateSequence_error {counter : SequenceCounter} {err : GoError}
    (run : counter.allocateSequence = .error err) : err = transitionLimit := by
  unfold allocateSequence at run
  by_cases exhausted : counter.sequenceExhausted = true
  · simpa [exhausted] using run.symm
  · simp only [exhausted, Bool.false_eq_true, if_false] at run
    generalize (if counter.nextOutbound = 0 then 1 else counter.nextOutbound) = next at run
    split at run <;> cases run

/-- The transaction identifiers still to be given out. -/
structure TransactionCounter where
  nextTID : Nat
  tidExhausted : Bool
  deriving DecidableEq, Repr

/-- Takes the next identifier that no pending request uses. The comparison with
the largest identifier is the source's equality test on 64-bit values. -/
def TransactionCounter.takeTID (taken : Nat → Bool) (counter : TransactionCounter) :
    Except GoError Nat × TransactionCounter :=
  if counter.tidExhausted then (.error transitionLimit, counter)
  else
    let transactionID := if counter.nextTID = 0 then 1 else counter.nextTID
    if transactionID < maxUint64 then
      if taken transactionID then takeTID taken ⟨transactionID + 1, false⟩
      else (.ok transactionID, ⟨transactionID + 1, false⟩)
    else if taken transactionID then (.error transitionLimit, ⟨0, true⟩)
    else (.ok transactionID, ⟨0, true⟩)
termination_by maxUint64 - counter.nextTID
decreasing_by
  simp_wf
  rename_i below _
  simp only [transactionID] at below
  split at below <;> simp_all <;> omega

/-- The state of the goroutine that owns a messenger session. The write-task
channel is kept as whether it exists; `contexts` holds the ends of the
callers' contexts, as `ctx.Err()` reports them. -/
structure SessionOwner extends RequestTable, SequenceCounter, TransactionCounter where
  config : SessionConfig
  contexts : Nat → Option ContextError
  receiveQueue : List (Message × Nat)
  receiveBytes : Nat
  incoming : List Message
  controlGeneration : Nat
  state : SessionState
  transport : Option Transport
  generation : Nat
  writeTasks : Bool
  writeBusy : Bool
  nextWriteID : Nat
  controlQueue : List Frame
  pendingAck : Nat
  lastInbound : Nat
  clientCookie : Nat
  serverCookie : Nat
  globalSeq : Nat
  connectSeq : Nat
  authenticatedGlobalID : Nat
  serverFlags : Nat
  connectedOnce : Bool
  reconnectAttempts : Nat
  transitions : Nat
  connectPending : Bool
  partialReset : Bool
  terminalErr : Option GoError
  renewalPending : Bool
  renewalInProgress : Bool
  credentialID : Option Nat
  credentialChanged : Bool

namespace SessionOwner

def setState (o : SessionOwner) (state : SessionState) : SessionOwner := { o with state := state }

def clearPendingAcknowledgment (o : SessionOwner) : SessionOwner := { o with pendingAck := 0 }

def releaseReceiveQueue (o : SessionOwner) : SessionOwner := { o with receiveQueue := [], receiveBytes := 0 }

def finish (o : SessionOwner) (p : Nat) (result : SubmitResult) : SessionOwner :=
  { o with toRequestTable := o.toRequestTable.finish p result }

def failAll (o : SessionOwner) (err : GoError) : SessionOwner :=
  { o with toRequestTable := o.toRequestTable.failAll err }

def failSentUnknown (o : SessionOwner) (cause : GoError) : SessionOwner :=
  { o with toRequestTable := o.toRequestTable.failSentUnknown cause }

def prepareReplay (o : SessionOwner) : SessionOwner :=
  { o with toRequestTable := o.toRequestTable.prepareReplay }

def acknowledge (o : SessionOwner) (sequence : Nat) : SessionOwner :=
  { o with toRequestTable := o.toRequestTable.acknowledge sequence }

def refuse (o : SessionOwner) (command : SubmitCommand) (err : GoError) : SessionOwner :=
  { o with toRequestTable := o.toRequestTable.refuse command err }

def invalidateControls (o : SessionOwner) : SessionOwner :=
  let o := { o.releaseReceiveQueue with controlGeneration := addUint64 o.controlGeneration 1 }
  { o with toRequestTable := o.toRequestTable.invalidateControls }

/-- Closing the transport ends its write pump and forgets the write under way. -/
def closeTransport (o : SessionOwner) : SessionOwner :=
  { o with
    transport := none
    writeTasks := false
    writeBusy := false
    controlQueue := [] }

def failTerminal (o : SessionOwner) (err : GoError) : SessionOwner :=
  let o := o.clearPendingAcknowledgment.releaseReceiveQueue
  let o := { o with generation := addUint64 o.generation 1 }
  let o := { o.invalidateControls with terminalErr := some err }
  let o := { o.closeTransport with connectPending := false }
  (o.failAll err).setState .disconnected

/-- The outbound numbering starts again, with no request left to number. -/
def renumber (o : SessionOwner) (err : GoError) : SessionOwner :=
  let o := { o with nextOutbound := 1, sequenceExhausted := false, nextTID := 1, tidExhausted := false }
  let o := o.failAll err
  { o with journal := .renumbered :: o.journal }

def resetForNewIdentity (o : SessionOwner) : SessionOwner :=
  let o := { o.clearPendingAcknowledgment with
    serverCookie := 0, serverFlags := 0, connectSeq := 0, lastInbound := 0 }
  { o.renumber sessionDisconnected with partialReset := false }

def beginReconnect (o : SessionOwner) : SessionOwner :=
  if o.config.maxReconnectAttempts > 0 ∧ o.reconnectAttempts ≥ o.config.maxReconnectAttempts then
    o.failTerminal reconnectExhausted
  else
    { o with
      reconnectAttempts := o.reconnectAttempts + 1
      connectPending := true
      generation := addUint64 o.generation 1 }

/-- The fate of the requests when their transport is lost. -/
def settleFault (o : SessionOwner) (err : GoError) : SessionOwner :=
  if o.serverFlags % 2 = connectionFlagLossy then (o.failSentUnknown err).resetForNewIdentity
  else if o.config.reconnectPolicy = .failPending then
    o.failAll (GoError.errorfText sessionDisconnected err)
  else if o.serverCookie = 0 then o.failSentUnknown err
  else o.prepareReplay

def handleFault (o : SessionOwner) (err : GoError) : SessionOwner :=
  if o.terminalErr.isSome ∨ o.state = .stopped ∨ (o.state = .disconnected ∧ o.connectPending = true) then o
  else
    let o := o.clearPendingAcknowledgment.invalidateControls.closeTransport
    ((o.settleFault err).setState .disconnected).beginReconnect

/-- The control frames which wait to be written, a pending acknowledgment included. -/
def queuedControls (o : SessionOwner) : Nat := o.controlQueue.length + if o.pendingAck ≠ 0 then 1 else 0

def queueControl (codec : FrameCodec) (o : SessionOwner) (payload : Control) : SessionOwner :=
  match codec.encodeControl payload o.config.limits with
  | .error err => o.handleFault err
  | .ok frame =>
    if o.queuedControls ≥ o.config.maxQueuedMessages then
      o.handleFault queueSaturated
    else { o with controlQueue := o.controlQueue ++ [frame] }

def flushPendingAcknowledgment (codec : FrameCodec) (o : SessionOwner) : SessionOwner :=
  let sequence := o.pendingAck
  let o := o.clearPendingAcknowledgment
  if sequence ≠ 0 then o.queueControl codec (.ack sequence) else o

def queueAcknowledgment (codec : FrameCodec) (o : SessionOwner) (sequence : Nat) : SessionOwner :=
  if o.state ≠ .ready then o.queueControl codec (.ack sequence)
  else if o.pendingAck ≠ 0 then { o with pendingAck := sequence }
  else if o.controlQueue.length ≥ o.config.maxQueuedMessages then o.handleFault queueSaturated
  else { o with pendingAck := sequence }

def queueClientIdent (codec : FrameCodec) (o : SessionOwner) : SessionOwner :=
  o.queueControl codec
    (.clientIdent { o.config.clientIdent with cookie := o.clientCookie, globalSequence := o.globalSeq })

def sendReconnect (codec : FrameCodec) (o : SessionOwner) : SessionOwner :=
  let o := { o with controlQueue := [] }
  o.queueControl codec (.sessionReconnect
    { addresses := o.config.clientIdent.addresses
      clientCookie := o.clientCookie
      serverCookie := o.serverCookie
      globalSequence := o.globalSeq
      connectSequence := o.connectSeq
      messageSequence := o.lastInbound })

def startTransport (o : SessionOwner) (transport : Transport) (state : SessionState) : SessionOwner :=
  let o := { o with
    transport := some transport
    generation := addUint64 o.generation 1
    writeTasks := true
    journal := .started :: o.journal }
  o.setState state

def completeRenewal (o : SessionOwner) : SessionOwner :=
  if !o.renewalInProgress || !o.credentialChanged then o
  else { o with renewalInProgress := false, credentialChanged := false }

/-- The choice between resuming the session and asking for a new one. -/
def resumeTransport (codec : FrameCodec) (ambient : Ambient) (o : SessionOwner) (transport : Transport) :
    SessionOwner :=
  if o.serverCookie ≠ 0 then
    if o.connectSeq = maxUint64 then o.failTerminal transitionLimit
    else
      let o := { o with connectSeq := o.connectSeq + 1 }
      (o.startTransport transport .reconnecting).sendReconnect codec
  else
    match ambient.refreshClientCookie with
    | .error err => o.failTerminal err
    | .ok cookie =>
      let o := { o with clientCookie := cookie, connectSeq := 0 }
      (o.startTransport transport .connecting).queueClientIdent codec

def adoptCredential (o : SessionOwner) (transport : Transport) : SessionOwner :=
  match transport.credentialIdentity with
  | none => { o with credentialChanged := true }
  | some id => { o with credentialChanged := decide (o.credentialID ≠ some id), credentialID := some id }

def adoptGlobalID (o : SessionOwner) (globalID : Nat) : SessionOwner :=
  { o with
    config := { o.config with clientIdent := { o.config.clientIdent with globalID := globalID } }
    authenticatedGlobalID := globalID }

/-- The credential and the identity under which the new transport authenticated. -/
def adoptIdentity (o : SessionOwner) (transport : Transport) : Except GoError SessionOwner :=
  match transport.authenticatedGlobalID with
  | none => .ok (o.adoptCredential transport)
  | some globalID =>
    if globalID > 2 ^ 63 - 1 then .error malformed
    else if o.authenticatedGlobalID ≠ 0 ∧ o.authenticatedGlobalID ≠ globalID then
      .ok ((o.adoptGlobalID globalID).adoptCredential transport).resetForNewIdentity
    else .ok ((o.adoptGlobalID globalID).adoptCredential transport)

/-- The part of `handleConnected` behind its checks of the result. -/
def adoptTransport (codec : FrameCodec) (ambient : Ambient) (o : SessionOwner) (transport : Transport) :
    SessionOwner :=
  let o := { o with terminalErr := none, transitions := 0 }
  match if o.connectedOnce then ambient.nextGlobalSequence o.globalSeq else .ok o.globalSeq with
  | .error _ => o.failTerminal transitionLimit
  | .ok globalSeq =>
    let o := { o with globalSeq := globalSeq, connectedOnce := true }
    match o.adoptIdentity transport with
    | .error err => o.failTerminal err
    | .ok o => o.resumeTransport codec ambient transport

structure ConnectResult where
  generation : Nat
  transport : Option Transport := none
  err : Option GoError := none

def handleConnected (codec : FrameCodec) (ambient : Ambient) (o : SessionOwner) (result : ConnectResult) :
    SessionOwner :=
  if result.generation ≠ o.generation ∨ o.connectPending = false then o
  else
    let o := { o with connectPending := false }
    match result.err, result.transport with
    | none, some transport => o.adoptTransport codec ambient transport
    | _, _ => o.beginReconnect

/-- What both kinds of reset discard. -/
def forgetSession (o : SessionOwner) : SessionOwner :=
  { o.clearPendingAcknowledgment.invalidateControls with
    serverCookie := 0, serverFlags := 0, connectSeq := 0, lastInbound := 0 }

def handleReset (codec : FrameCodec) (ambient : Ambient) (o : SessionOwner) (full : Bool) : SessionOwner :=
  let o := o.forgetSession
  if full then
    match ambient.refreshClientCookie with
    | .error err => o.failTerminal err
    | .ok cookie =>
      let o := { o with clientCookie := cookie }.renumber sessionDisconnected
      ({ o with partialReset := false }.setState .connecting).queueClientIdent codec
  else (({ o with partialReset := true }.prepareReplay).setState .connecting).queueClientIdent codec

def readyControl (o : SessionOwner) (name : String) (accepted : SessionOwner) : SessionOwner :=
  if o.state = .ready then accepted
  else o.handleFault (GoError.errorf malformed (name ++ " in state " ++ toString o.state.code))

def transitionAllowed (o : SessionOwner) (want : SessionState) (allowed : SessionOwner → SessionOwner) :
    SessionOwner :=
  if o.state ≠ want then
    o.handleFault (GoError.errorf malformed ("transition in state " ++ toString o.state.code))
  else
    let o := { o with transitions := o.transitions + 1 }
    if o.transitions > o.config.maxHandshakeTransitions then o.handleFault transitionLimit
    else allowed o

def acceptAcknowledgment (o : SessionOwner) (sequence : Nat) (accepted : SessionOwner) : SessionOwner :=
  if o.sequenceExhausted = false ∧ sequence ≥ o.nextOutbound ∧ sequence ≠ 0 then
    o.handleFault (GoError.errorf malformed ("acknowledgment " ++ toString sequence ++
      " exceeds highest outbound sequence"))
  else accepted

def hexadecimal (value : Nat) : String := "0x" ++ String.ofList (Nat.toDigits 16 value)

/-- The bits of `a` which are not in `b`, the operator `&^`. -/
def andNot (a b : Nat) : Nat := a ^^^ (a &&& b)

def handleServerIdent (o : SessionOwner) (ident : ServerIdent) : SessionOwner :=
  if o.state ≠ .connecting then
    o.handleFault (GoError.errorf malformed ("server ident in state " ++ toString o.state.code))
  else
    let o := { o with transitions := o.transitions + 1 }
    let unsupported := andNot ident.requiredFeatures o.config.clientIdent.supportedFeatures
    let missing := andNot o.config.clientIdent.requiredFeatures ident.supportedFeatures
    if o.transitions > o.config.maxHandshakeTransitions then o.handleFault transitionLimit
    else if unsupported ≠ 0 then
      o.failTerminal (GoError.errorf unsupportedFeature
        ("server requires unsupported features " ++ hexadecimal unsupported))
    else if missing ≠ 0 then
      o.failTerminal (GoError.errorf unsupportedFeature
        ("server lacks required features " ++ hexadecimal missing))
    else if !containsEntityEndpoint ident.addresses o.config.clientIdent.targetAddress then
      o.handleFault (GoError.errorf malformed "server ident does not contain target address")
    else
      let o := { o with
        serverCookie := ident.cookie
        serverFlags := ident.flags
        partialReset := false
        reconnectAttempts := 0 }
      ((o.failSentUnknown sessionDisconnected).setState .ready).completeRenewal

end SessionOwner

end RadosGo
