import RadosGo.Msgr.SessionOwner

namespace RadosGo

open Sentinel

/-- The type name which `%T` prints for a control payload. -/
def Control.typeName : Control → String
  | clientIdent _ => "msgr.ClientIdent"
  | serverIdent _ => "msgr.ServerIdent"
  | identMissingFeatures _ => "msgr.IdentMissingFeatures"
  | sessionReconnect _ => "msgr.SessionReconnect"
  | sessionReset _ => "msgr.SessionReset"
  | sessionRetry _ => "msgr.SessionRetry"
  | sessionRetryGlobal _ => "msgr.SessionRetryGlobal"
  | sessionReconnectOK _ => "msgr.SessionReconnectOK"
  | wait => "msgr.Wait"
  | keepalive2 _ => "msgr.Keepalive2"
  | keepalive2Ack _ => "msgr.Keepalive2Ack"
  | ack _ => "msgr.Ack"
  | authentication name => name

def messageOSDBackoff : Nat := 61

def validateControlMessage (message : Message) : Except GoError Unit :=
  if message.header.type ≠ messageOSDBackoff ∨ message.header.version ≠ 1 ∨ message.header.compatVersion > 1 ∨
      message.front.length < 29 ∨ message.front[28]? ≠ some 2 ∨ message.middle ≠ [] ∨ message.data ≠ [] then
    .error (GoError.errorf unsupportedPayload
      "control lane requires a version 1 OSD backoff ACK without middle or data")
  else .ok ()

/-- A write task of one transport for a request, or for none. -/
def Note.isWrite (note : Note) (generation : Nat) (request : Option Nat) : Bool :=
  match note with
  | .wrote old task => old == generation && task.request == request
  | _ => false

namespace SessionOwner

def submitSaturated (o : SessionOwner) (command : SubmitCommand) (messageBytes : Nat) : Bool :=
  if command.control then
    decide (o.controlCount ≥ maxControlMessages ∨ o.controlBytes > maxControlRetainedBytes ∨
      messageBytes > maxControlRetainedBytes - o.controlBytes)
  else
    decide ((o.pending.array.length : Int) - o.controlCount ≥ o.config.maxQueuedMessages ∨
      o.retainedBytes > o.config.maxRetainedBytes ∨
      messageBytes > o.config.maxRetainedBytes - o.retainedBytes)

/-- The end of `submit`, with the transaction identifier fixed. -/
def register (o : SessionOwner) (command : SubmitCommand) (message : Message) (messageBytes : Nat) : SessionOwner :=
  { o with toRequestTable := o.toRequestTable.register command message messageBytes }

/-- The owner keeps a copy of a message that was not transferred to it. -/
def ownMessage (message : Message) : Message :=
  { (if message.transferred then message else cloneMessage message) with transferred := false }

def submit (o : SessionOwner) (kind : SubmitKind) (message : Message) : SessionOwner :=
  let command : SubmitCommand := ⟨o.commands, kind⟩
  if command.controlGeneration ≠ 0 ∧ command.controlGeneration ≠ o.controlGeneration then
    o.refuse command controlInvalidated
  else
    match o.contexts command.id, o.terminalErr with
    | some cause, _ => o.refuse command cause.error
    | none, some err => o.refuse command err
    | none, none =>
      match (if command.control then validateControlMessage message else .ok ()),
        admissionMessageBytes message o.config.limits with
      | .error err, _ => o.refuse command err
      | .ok _, .error err => o.refuse command err
      | .ok _, .ok messageBytes =>
        if o.submitSaturated command messageBytes then o.refuse command queueSaturated
        else
          let message := ownMessage message
          if message.header.transactionID = 0 then
            match o.toTransactionCounter.takeTID fun id => (o.byTID id).isSome with
            | (.error err, counter) =>
              { o with toTransactionCounter := counter }.failTerminal err |>.refuse command err
            | (.ok transactionID, counter) =>
              let message := { message with header := { message.header with transactionID := transactionID } }
              { o with toTransactionCounter := counter }.register command message messageBytes
          else if (o.byTID message.header.transactionID).isSome then
            o.refuse command (GoError.errorf malformed
              ("duplicate transaction id " ++ toString message.header.transactionID))
          else o.register command message messageBytes

def cancel (o : SessionOwner) (request : Nat) (err : GoError) : SessionOwner :=
  match o.byRequest request with
  | none => o
  | some p =>
    o.finish p { err := some (if (o.data p).mayHaveExecuted then RequestTable.unknownOutcome err else err) }

def sendWrite (o : SessionOwner) (task : WriteTask) : SessionOwner :=
  { o with
    nextWriteID := addUint64 o.nextWriteID 1
    writeBusy := true
    journal := .wrote o.generation { task with id := addUint64 o.nextWriteID 1 } :: o.journal }

/-- The header numbers which `dispatch` writes into a message. -/
def numberMessage (message : Message) (fresh : Bool) (seq ackSequence : Nat) : Message :=
  { message with header := { message.header with
      sequence := if fresh then seq else message.header.sequence
      ackSequence := ackSequence } }

/-- Encodes the selected request under its sequence number and writes it. -/
def writeRequest (o : SessionOwner) (p : Nat) (seq : Nat) : SessionOwner :=
  let node := o.data p
  let message := numberMessage node.message (decide (node.seq = 0)) seq o.lastInbound
  match encodeMessage message o.config.limits with
  | .error err => o.finish p { err := some err }
  | .ok frame =>
    let o := { o.clearPendingAcknowledgment with toRequestTable := o.toRequestTable.handOver p seq message }
    o.sendWrite
      { id := 0
        frame := { frame with payloadLease := message.payloadLease }
        request := some node.request.id
        seq := seq
        transactionID := message.header.transactionID }

def dispatchPending (o : SessionOwner) (p : Nat) : SessionOwner :=
  let node := o.data p
  if node.request.controlGeneration ≠ 0 ∧ node.request.controlGeneration ≠ o.controlGeneration then
    o.finish p { err := some controlInvalidated }
  else if node.request.control = false ∧ o.inFlight ≥ o.config.maxInFlightTransactions then o
  else
    match o.contexts node.request.id with
    | some cause =>
      if node.request.control then o.cancel node.request.id cause.error
      else o.finish p { err := some cause.error }
    | none =>
      if node.seq = 0 then
        match o.toSequenceCounter.allocateSequence with
        | .error err => o.failTerminal err
        | .ok (seq, counter) => { o with toSequenceCounter := counter }.writeRequest p seq
      else o.writeRequest p node.seq

def dispatchRequest (o : SessionOwner) : SessionOwner :=
  let selected := o.nextPendingWrite
  if o.renewalPending && selected.all fun p => !(o.data p).request.control then
    if o.inFlight = 0 then { o with renewalPending := false }.handleFault sessionRenewal else o
  else
    match selected with
    | none => o
    | some p => o.dispatchPending p

/-- What `dispatch` does once the pending acknowledgment is flushed. -/
def dispatchWrite (o : SessionOwner) : SessionOwner :=
  match o.controlQueue with
  | frame :: rest => { o with controlQueue := rest }.sendWrite { id := 0, frame }
  | [] => if o.state ≠ .ready then o else o.dispatchRequest

def dispatch (codec : FrameCodec) (o : SessionOwner) : SessionOwner :=
  if o.writeBusy = true ∨ o.writeTasks = false ∨ o.state = .disconnected ∨ o.state = .wait ∨ o.state = .stopped
  then o
  else if o.renewalPending = true ∧ o.pendingAck ≠ 0 ∧ o.inFlight = 0 then
    (o.flushPendingAcknowledgment codec).dispatchWrite
  else o.dispatchWrite

/-- The end of `handleMessage`: an unsolicited message is queued for delivery. -/
def queueIncoming (ambient : Ambient) (o : SessionOwner) (message : Message) : SessionOwner :=
  if o.config.receiveBudget = true ∨ o.config.maxQueuedReceiveBytes ≠ 0 then
    let bytes := ambient.receiveMessageBytes message
    let limit := o.config.maxQueuedReceiveBytes
    if o.receiveQueue.length ≥ o.config.maxQueuedMessages ∨
        (limit ≠ 0 ∧ (o.receiveBytes > limit ∨ bytes > limit - o.receiveBytes)) then
      o.failTerminal (GoError.errorf queueSaturated "unsolicited receive queue is full")
    else { o with receiveQueue := o.receiveQueue ++ [(message, bytes)], receiveBytes := o.receiveBytes + bytes }
  else if o.incoming.length < o.config.maxQueuedMessages then { o with incoming := o.incoming ++ [message] }
  else o.failTerminal (GoError.errorf queueSaturated "unsolicited message queue is full")

/-- The pending request which an incoming message answers, if there is one. -/
def replied (o : SessionOwner) (message : Message) : Option Nat :=
  (o.byTID message.header.transactionID).filter fun p => !(o.data p).request.control

def receiveMessage (codec : FrameCodec) (ambient : Ambient) (o : SessionOwner) (message : Message) :
    SessionOwner :=
  let sequence := message.header.sequence
  if sequence ≤ o.lastInbound then o
  else
    let transportGeneration := o.controlGeneration
    let o := { o with lastInbound := sequence }
    let o := o.acknowledge message.header.ackSequence
    match o.replied message with
    | some p => (o.finish p { message := message }).queueAcknowledgment codec sequence
    | none =>
      let o := o.queueAcknowledgment codec sequence
      if o.controlGeneration ≠ transportGeneration then o
      else o.queueIncoming ambient { message with transportGeneration := transportGeneration }

def handleMessage (codec : FrameCodec) (ambient : Ambient) (o : SessionOwner) (message : Message) : SessionOwner :=
  o.acceptAcknowledgment message.header.ackSequence (o.receiveMessage codec ambient message)

def handleControl (codec : FrameCodec) (ambient : Ambient) (o : SessionOwner) (payload : Control) :
    SessionOwner :=
  match payload with
  | .ack sequence => o.readyControl "ack" (o.acceptAcknowledgment sequence (o.acknowledge sequence))
  | .keepalive2 timestamp => o.readyControl "keepalive2" (o.queueControl codec (.keepalive2Ack timestamp))
  | .keepalive2Ack _ => o.readyControl "keepalive2 ack" o
  | .sessionReset full => o.transitionAllowed .reconnecting fun o => o.handleReset codec ambient full
  | .sessionRetry connectSequence => o.transitionAllowed .reconnecting fun o =>
      if connectSequence = maxUint64 then o.failTerminal transitionLimit
      else { o with connectSeq := connectSequence + 1 }.sendReconnect codec
  | .sessionRetryGlobal globalSequence => o.transitionAllowed .reconnecting fun o =>
      match ambient.nextGlobalSequence (max o.globalSeq globalSequence) with
      | .error _ => o.failTerminal transitionLimit
      | .ok next => { o with globalSeq := next }.sendReconnect codec
  | .wait =>
    if o.state ≠ .connecting ∧ o.state ≠ .reconnecting then
      o.handleFault (GoError.errorf malformed ("wait in state " ++ toString o.state.code))
    else ({ o with transitions := o.transitions + 1 }.setState .wait).handleFault sessionDisconnected
  | .sessionReconnectOK messageSequence => o.transitionAllowed .reconnecting fun o =>
      o.acceptAcknowledgment messageSequence
        (({ (o.acknowledge messageSequence).prepareReplay with partialReset := false, reconnectAttempts := 0 }
          |>.setState .ready).completeRenewal)
  | .serverIdent ident => o.handleServerIdent ident
  | .identMissingFeatures features =>
    o.failTerminal (GoError.errorf unsupportedPayload
      ("server requires missing features " ++ hexadecimal features))
  | .clientIdent _ | .sessionReconnect _ | .authentication _ =>
    o.handleFault (GoError.errorf unsupportedPayload ("unexpected session control " ++ payload.typeName))

def copyBytes (frame : Frame) : Nat :=
  (frame.segments.map fun segment => 2 * segment.data.length + 64).sum

/-- Authentication frames are charged for the copies which decoding makes. -/
def chargeCopies (ambient : Ambient) (frame : Frame) : Option ForeignError :=
  match frame.receiveLease, frame.tag with
  | some bytes, .authRequest | some bytes, .authReplyMore | some bytes, .authRequestMore
  | some bytes, .authDone | some bytes, .authSignature => ambient.resize (bytes + copyBytes frame)
  | _, _ => none

def handleFrame (codec : FrameCodec) (ambient : Ambient) (o : SessionOwner) (frame : Frame) : SessionOwner :=
  if frame.tag = .message then
    if o.state ≠ .ready then
      o.handleFault (GoError.errorf malformed ("message in state " ++ toString o.state.code))
    else
      match codec.decodeMessage frame o.config.limits with
      | .error err => o.handleFault err
      | .ok message => o.handleMessage codec ambient { message with receiveLease := frame.receiveLease }
  else
    match chargeCopies ambient frame with
    | some failure => o.failTerminal failure.error
    | none =>
      match codec.decodeControl frame o.config.limits with
      | .error err => o.handleFault err
      | .ok payload => o.handleControl codec ambient payload

def stop (o : SessionOwner) : SessionOwner :=
  let o := (o.invalidateControls.setState .stopped).failAll sessionClosed
  { o.releaseReceiveQueue.clearPendingAcknowledgment with transport := none }

/-- What wakes the owner: a command of a caller, a report of one of its pumps,
the acknowledgment timer, or a consumer that takes an unsolicited message. The
end of a caller's context is not an event of the owner, but it reads it. -/
inductive Input where
  | submit (kind : SubmitKind) (message : Message)
  | cancel (request : Nat) (err : ContextError)
  | snapshot
  | stop
  | frame (generation : Nat) (read : Except ForeignError Frame)
  | written (generation : Nat) (request : Option Nat) (err : Option GoError)
  | fault (generation : Nat) (err : GoError)
  | renewal (generation : Nat)
  | connected (result : ConnectResult)
  | acknowledgmentTimer
  | delivered
  | contextEnded (request : Nat) (cause : ContextError)

def handleRead (codec : FrameCodec) (ambient : Ambient) (o : SessionOwner) (generation : Nat)
    (read : Except ForeignError Frame) : SessionOwner :=
  if generation = o.generation ∧ o.terminalErr = none then
    match read with
    | .error failure =>
      if failure.error.Is .receiveBudgetExceeded then o.failTerminal failure.error else o.handleFault failure.error
    | .ok frame => o.handleFrame codec ambient frame
  else o

/-- A written one-way request is answered, since no reply will come for it. -/
def completeOneWay (o : SessionOwner) (request : Option Nat) : SessionOwner :=
  match request.bind o.byRequest with
  | none => o
  | some p => if (o.data p).request.oneWay then o.finish p {} else o

def handleWritten (o : SessionOwner) (generation : Nat) (request : Option Nat) (err : Option GoError) :
    SessionOwner :=
  if generation = o.generation then
    let o := { o with writeBusy := false }
    match err with
    | some err => o.handleFault err
    | none => o.completeOneWay request
  else o

def handle (codec : FrameCodec) (ambient : Ambient) (o : SessionOwner) : Input → SessionOwner
  | .submit kind message => o.submit kind message
  | .cancel request err => o.cancel request err.error
  | .snapshot => o
  | .stop => o.stop
  | .frame generation read => o.handleRead codec ambient generation read
  | .written generation request err => o.handleWritten generation request err
  | .fault generation err => if generation = o.generation then o.handleFault err else o
  | .renewal generation =>
    if generation = o.generation then { o with renewalPending := true, renewalInProgress := true } else o
  | .connected result => o.handleConnected codec ambient result
  | .acknowledgmentTimer => o.flushPendingAcknowledgment codec
  | .delivered =>
    match o.receiveQueue with
    | (_, bytes) :: rest => { o with receiveQueue := rest, receiveBytes := o.receiveBytes - bytes }
    | [] => { o with incoming := o.incoming.tail }
  | .contextEnded request cause =>
    { o with contexts := Function.update o.contexts request ((o.contexts request).or (some cause)) }

/-- The write pump reports only writes which it was given. -/
def Arises (o : SessionOwner) : Input → Prop
  | .written generation request _ => ∃ note ∈ o.journal, note.isWrite generation request = true
  | _ => True

instance (o : SessionOwner) : (input : Input) → Decidable (o.Arises input)
  | .written _ _ _ => inferInstanceAs (Decidable (∃ note ∈ _, _))
  | .submit _ _ | .cancel _ _ | .snapshot | .stop | .frame _ _ | .fault _ _ | .renewal _ | .connected _
  | .acknowledgmentTimer | .delivered | .contextEnded _ _ => .isTrue trivial

/-- One half of an iteration of the owner's loop. -/
inductive Move where
  | dispatch
  | receive (ambient : Ambient) (input : Input)

def step (codec : FrameCodec) (o : SessionOwner) : Move → SessionOwner
  | .dispatch => o.dispatch codec
  | .receive ambient input => o.handle codec ambient input

def Possible (o : SessionOwner) : Move → Prop
  | .dispatch => True
  | .receive _ input => o.Arises input

instance (o : SessionOwner) : (move : Move) → Decidable (o.Possible move)
  | .dispatch => .isTrue trivial
  | .receive _ input => inferInstanceAs (Decidable (o.Arises input))

/-- The owner which `NewSession` builds from a checked configuration. -/
def initial (config : SessionConfig) (transport : Option Transport) : SessionOwner where
  toRequestTable := .initial
  nextOutbound := 1
  sequenceExhausted := false
  nextTID := 1
  tidExhausted := false
  config := config
  contexts := fun _ => none
  receiveQueue := []
  receiveBytes := 0
  incoming := []
  controlGeneration := 1
  state := .disconnected
  transport := transport
  generation := 0
  writeTasks := false
  writeBusy := false
  nextWriteID := 0
  controlQueue := []
  pendingAck := 0
  lastInbound := 0
  clientCookie := config.clientCookie
  serverCookie := config.serverCookie
  globalSeq := config.globalSequence
  connectSeq := config.connectSequence
  authenticatedGlobalID := 0
  serverFlags := 0
  connectedOnce := transport.isSome
  reconnectAttempts := 0
  transitions := 0
  connectPending := false
  partialReset := false
  terminalErr := none
  renewalPending := false
  renewalInProgress := false
  credentialID := transport.bind (·.credentialIdentity)
  credentialChanged := false

/-- `NewSession`, and what `run` does before its loop. -/
def newSession (ambient : Ambient) (config : SessionConfig) (transport : Option Transport) :
    Except GoError SessionOwner :=
  let ident := config.clientIdent
  if config.maxQueuedMessages = 0 ∨ config.maxRetainedBytes = 0 ∨ config.maxInFlightTransactions = 0 then
    .error (GoError.errorf queueSaturated "session limits must be positive")
  else if config.maxHandshakeTransitions = 0 then
    .error (GoError.errorf malformed "invalid session configuration")
  else if config.limits.maxSegmentBytes = 0 ∨ config.limits.maxFrameBytes = 0 then
    .error (GoError.errorf malformed "frame limits must be positive")
  else if config.globalSequence ≠ 0 ∧ ident.globalSequence ≠ 0 ∧
      config.globalSequence ≠ ident.globalSequence then
    .error (GoError.errorf malformed "conflicting global sequences")
  else
    let requested := if config.globalSequence = 0 then ident.globalSequence else config.globalSequence
    match ambient.nextGlobalSequence (requested - 1) with
    | .error err => .error err
    | .ok globalSequence =>
      let config := { config with
        globalSequence := globalSequence
        clientIdent := { ident with globalSequence := globalSequence } }
      let o := initial config transport
      match transport with
      | some transport => .ok (o.startTransport transport .ready)
      | none => .ok o.beginReconnect

/-- The runs of a session: dispatching and handling events, until it stops. -/
def runs (codec : FrameCodec) : System SessionOwner Move where
  start o := ∃ ambient config transport, newSession ambient config transport = .ok o
  step o move o' := o.state ≠ .stopped ∧ o.Possible move ∧ o' = o.step codec move

instance (codec : FrameCodec) (o : SessionOwner) (move : Move) :
    Decidable ((runs codec).step o move (o.step codec move)) :=
  decidable_of_iff (o.state ≠ .stopped ∧ o.Possible move) (by simp [runs])

end SessionOwner

end RadosGo
