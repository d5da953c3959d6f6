import RadosGo.Library.System
import RadosGo.Objecter.Request

namespace RadosGo

/-- What the retry loop reads of the configuration of its client. -/
structure RetryConfig where
  unlimitedRetries : Bool
  maxAttempts : Nat
  maxOperations : Nat
  clientIncarnation : Int

/-- The arguments of `executeRoutedResultInto`. Of the destination only the
length matters; `boundedByContext` tells whether the context has a deadline. -/
structure Call where
  target : Target
  operations : List Operation
  outcomeSensitive : Bool
  durable : Bool
  initialFlags : Nat
  retainOperations : Bool
  destination : Nat
  readInto : Bool
  immutable : Bool
  boundedByContext : Bool

/-- How an attempt that submitted a request ended. -/
inductive Ending where
  | failed (err : GoError)
  | malformed
  | answered (reply : Reply)
  deriving DecidableEq, Repr

/-- A submitted request, named by the transaction ID of its message. -/
structure Attempt where
  transactionID : Nat
  ending : Ending
  deriving DecidableEq, Repr

/-- The variables of the retry loop, the counter of the client as this call last
saw it, and the attempts so far, newest first. -/
structure RetryState where
  attempt : Nat
  transactionID : Nat
  currentTarget : Target
  requestFlags : Nat
  lastErr : Option GoError
  nextTransaction : Nat
  attempts : List Attempt

structure CallResult where
  data : Bytes := []
  version : Nat := 0
  operations : List (Bytes × Int) := []
  route : Option Route := none
  deriving DecidableEq, Repr

/-- A call in its loop, or with what it has returned. -/
structure CallState extends RetryState where
  outcome : Option (CallResult × Option GoError)

/-- What one attempt meets: the context each time it is asked, the routes, the
session and its answer, and the counter when other calls have used it. -/
structure Surroundings where
  ctxErr : Option ContextError := none
  waitForRoute : Target → Except GoError Route
  getSessionContext : Route → Option GoError
  clientGlobalID : Nat
  beginRoutedAttempt : Route → Option GoError
  submit : PG → HObject → Message → Except GoError Message
  remapped : Bool := false
  ctxErrOnRemap : Option ContextError := none
  done : Bool := false
  waitForPrimaryChange : Target → Route → Bool × Option GoError
  ctxErrOnFailure : Option ContextError := none
  ownsReplyMessages : Bool := true
  nextTransaction : Nat
  ctxErrOnCopy : Option ContextError := none

/-- A rejected reply: what it is rejected for, and the error for a call which
does not care about its outcome. -/
structure Rejection where
  cause : GoError
  plain : GoError

def malformedReply : Rejection := ⟨Sentinel.malformedReply, Sentinel.malformedReply⟩

def Rejection.error (rejection : Rejection) (call : Call) : GoError :=
  if call.outcomeSensitive then GoError.errorfText Sentinel.outcomeUnknown rejection.cause else rejection.plain

namespace RetryState

def again (s : RetryState) : CallState := { s with attempt := s.attempt + 1, outcome := none }

def returns (s : RetryState) (err : GoError) (result : CallResult := {}) : CallState :=
  { s with outcome := some (result, some err) }

/-- Every error before a reply goes through `preserveOutcomeUnknown`. -/
def returnsPreserving (s : RetryState) (err : GoError) : CallState :=
  s.returns (preserveOutcomeUnknown s.lastErr err)

def ended (s : RetryState) (message : Message) (ending : Ending) : RetryState :=
  { s with attempts := ⟨message.header.transactionID, ending⟩ :: s.attempts }

def request (s : RetryState) (config : RetryConfig) (call : Call) (route : Route) (clientGlobalID : Nat) :
    Request where
  mapEpoch := route.epoch
  pg := route.pg
  shard := route.shard
  sharded := route.sharded
  objectHash := route.rawHash
  poolID := s.currentTarget.poolID
  object := s.currentTarget.object
  locator := s.currentTarget.locator
  namespace_ := s.currentTarget.namespace_
  snapshot := s.currentTarget.snapshot
  snapshotSequence := s.currentTarget.snapshotSequence
  writeSnapshots := s.currentTarget.writeSnapshots
  transactionID := s.transactionID
  clientGlobalID := clientGlobalID
  clientIncarnation := config.clientIncarnation
  retry := toInt32 s.attempt
  flags := s.requestFlags
  explicitFlags := explicitCoordinationFlags call.operations
  features := featureOSDClient
  operations := call.operations

def object (s : RetryState) (route : Route) : HObject where
  key := s.currentTarget.locator
  object := s.currentTarget.object
  snapshot := s.currentTarget.snapshot
  hash := route.rawHash
  namespace_ := s.currentTarget.namespace_
  pool := s.currentTarget.poolID

/-- The flags of an attempt which repeats the request. -/
def retrying (s : RetryState) : RetryState :=
  if s.attempt > 0 then { s with requestFlags := s.requestFlags ||| flagRetry } else s

/-- The part of an attempt before the request is submitted. -/
def prepare (codec : RequestCodec) (config : RetryConfig) (call : Call) (s : RetryState) (env : Surroundings) :
    CallState ⊕ (RetryState × Route × Message) :=
  match env.ctxErr with
  | some cause => .inl (s.returnsPreserving cause.error)
  | none =>
    match env.waitForRoute s.currentTarget with
    | .error err => .inl (s.returnsPreserving err)
    | .ok route =>
      let s := s.retrying
      match env.getSessionContext route with
      | some err => .inl (if err.Is .staleMap then s.again else s.returnsPreserving err)
      | none =>
        let request := s.request config call route env.clientGlobalID
        match if call.immutable then codec.encodeImmutableRequest request else codec.encodeRequest request with
        | .error err => .inl (s.returnsPreserving err)
        | .ok message =>
          match env.beginRoutedAttempt route with
          | some err => .inl (s.returnsPreserving err)
          | none => .inr (s, route, message)

def remember (s : RetryState) (err : GoError) : RetryState :=
  { s with lastErr := some (preserveOutcomeUnknown s.lastErr err) }

/-- What follows a submission that failed. -/
def submitFailed (call : Call) (s : RetryState) (env : Surroundings) (route : Route) (err : GoError) : CallState :=
  let unknown := call.outcomeSensitive && err.Is .outcomeUnknown
  let marked := if unknown then s.remember err else s
  if env.remapped && env.ctxErrOnRemap.isNone then marked.again
  else if env.done then marked.returnsPreserving Sentinel.objecterClosed
  else if err.Is .queueSaturated then s.returnsPreserving err
  else if unknown then
    if !err.Is .reconnectExhausted && !err.Is .sessionDisconnected && !err.Is .staleMap then
      match env.waitForPrimaryChange s.currentTarget route with
      | (true, _) => marked.again
      | (false, some refreshErr) => marked.returns (.join (err.text ++ "\n" ++ refreshErr.text) err refreshErr)
      | (false, none) => marked.returns (.wrap err.text err)
    else marked.again
  else
    match env.ctxErrOnFailure with
    | some cause => s.returnsPreserving cause.error
    | none => (s.remember err).again

/-- The checks which bind a reply to its request. -/
def decode (codec : RequestCodec) (call : Call) (s : RetryState) (env : Surroundings) (route : Route)
    (message : Message) : Except Rejection Reply :=
  match if env.ownsReplyMessages && !call.retainOperations then codec.decodeOwnedReply message
    else codec.decodeReply message with
  | .error err => .error ⟨err, GoError.errorfText Sentinel.malformedReply err⟩
  | .ok reply =>
    if reply.object ≠ s.currentTarget.object ∨ reply.pg ≠ route.pg then .error malformedReply
    else if reply.retry ≥ 0 ∧ reply.retry ≠ toInt32 s.attempt then .error malformedReply
    else .ok reply

/-- A reply which asks for the operation to be sent again, as a new one if its
outcome matters. -/
def restart (call : Call) (s : RetryState) (env : Surroundings) : CallState :=
  if call.outcomeSensitive then
    match takeTransactionID env.nextTransaction with
    | .error err => s.returns err
    | .ok (transactionID, nextTransaction) =>
      { s with transactionID := transactionID, nextTransaction := nextTransaction }.again
  else s.again

def redirected (s : RetryState) (redirect : Redirect) : RetryState :=
  { s with
    currentTarget := { s.currentTarget with
      poolID := redirect.pool
      object := if redirect.object ≠ [] then redirect.object else s.currentTarget.object
      locator := redirect.locator
      namespace_ := redirect.namespace_ }
    requestFlags := s.requestFlags ||| flagRedirected ||| flagIgnoreCache ||| flagIgnoreOverlay
    lastErr := some (.plain "OSD redirected read") }

end RetryState

/-- The reply answers each operation with its own code. -/
def Call.answeredBy (call : Call) (reply : Reply) : Bool :=
  reply.operations.map (·.operation) == call.operations.map (·.code)

/-- A read that is answered with more data than it asked for. -/
def Call.overread (call : Call) (reply : Reply) : Bool :=
  (call.operations.zip reply.operations).any fun (operation, answer) =>
    operation.code == opRead && decide (answer.data.length > operation.length)

/-- The first operation that failed although it had to succeed. -/
def Call.failure (call : Call) (reply : Reply) : Option Int :=
  ((call.operations.zip reply.operations).find? fun (operation, answer) =>
    decide (answer.code < 0) && operation.flags &&& opFlagFailOK == 0).map (·.2.code)

/-- The data of the first operation. -/
def Reply.firstData (reply : Reply) : Bytes := (reply.operations.head?.map (·.data)).getD []

def Call.result (call : Call) (route : Route) (reply : Reply) : CallResult where
  version := reply.version
  route := some route
  operations := if call.retainOperations then reply.operations.map fun answer => (answer.data, answer.code) else []
  data := if call.retainOperations || !call.readInto then reply.firstData else []

namespace RetryState

/-- The end of the call with a reply that is complete. -/
def complete (call : Call) (s : RetryState) (env : Surroundings) (message : Message) (route : Route) (reply : Reply) :
    CallState :=
  let result := call.result route reply
  let answered := s.ended message (.answered reply)
  if reply.result < 0 then answered.returns (.errno reply.result) result
  else
    match call.failure reply with
    | some code => answered.returns (.errno code) result
    | none =>
      if call.readInto then
        match env.ctxErrOnCopy with
        | some cause => answered.returns cause.error
        | none =>
          if reply.firstData.length > call.destination then
            (s.ended message .malformed).returns Sentinel.malformedReply
          else { answered with outcome := some ({ result with data := reply.firstData }, none) }
      else { answered with outcome := some (result, none) }

/-- What follows a reply which belongs to the request. -/
def settle (call : Call) (s : RetryState) (env : Surroundings) (message : Message) (route : Route) (reply : Reply) :
    CallState :=
  let answered := s.ended message (.answered reply)
  let eagain : RetryState := { answered with lastErr := some (.errno (-11)) }
  match reply.redirect with
  | some redirect => (answered.redirected redirect).restart call env
  | none =>
    if reply.result = -11 then eagain.restart call env
    else if !call.answeredBy reply then (s.ended message .malformed).returns (malformedReply.error call)
    else if reply.operations.any fun answer => answer.code == -11 then eagain.restart call env
    else if call.durable ∧ reply.result = 0 ∧ toUint64 reply.flags &&& flagOnDisk = 0 then
      answered.returns (GoError.errorf Sentinel.outcomeUnknown "mutation reply is not durable")
    else if call.overread reply then (s.ended message .malformed).returns Sentinel.malformedReply
    else s.complete call env message route reply

def attemptOnce (codec : RequestCodec) (config : RetryConfig) (call : Call) (s : RetryState) (env : Surroundings) :
    CallState :=
  match s.prepare codec config call env with
  | .inl state => state
  | .inr (s, route, request) =>
    match env.submit route.pg (s.object route) request with
    | .error err => (s.ended request (.failed err)).submitFailed call env route err
    | .ok message =>
      match s.decode codec call env route message with
      | .error rejection => (s.ended request .malformed).returns (rejection.error call)
      | .ok reply => s.settle call env request route reply

/-- The loop goes on to another attempt. -/
def continues (config : RetryConfig) (call : Call) (s : RetryState) : Bool :=
  config.unlimitedRetries || call.boundedByContext || decide (s.attempt < config.maxAttempts)

/-- One round of the loop, with the test at its head. -/
def round (codec : RequestCodec) (config : RetryConfig) (call : Call) (s : RetryState) (env : Surroundings) :
    CallState :=
  if s.continues config call then
    s.attemptOnce codec config call env
  else
    match s.lastErr with
    | some err => s.returns (GoError.errorf2 Sentinel.recovery err)
    | none => s.returns (GoError.errorf Sentinel.recovery "%!w(<nil>)")

end RetryState

/-- The call before its first attempt, with the counter of the client. -/
def executeRoutedResultInto (config : RetryConfig) (call : Call) (transactionID nextTransaction : Nat) : CallState :=
  let flags := if call.operations.length > 1 then call.initialFlags ||| flagReturnVector else call.initialFlags
  let s : RetryState := ⟨0, transactionID, call.target, flags, none, nextTransaction, []⟩
  let limited (s : RetryState) : CallState :=
    if call.operations = [] ∨ call.operations.length > config.maxOperations then s.returns Sentinel.wireLimitExceeded
    else { s with outcome := none }
  if transactionID = 0 then
    match takeTransactionID nextTransaction with
    | .error err => s.returns err
    | .ok (taken, next) => limited { s with transactionID := taken, nextTransaction := next }
  else limited s

/-- The runs of one call. Other calls only ever advance the counter. -/
def callRuns (codec : RequestCodec) (config : RetryConfig) (call : Call) : System CallState Surroundings where
  start c := ∃ transactionID nextTransaction, c = executeRoutedResultInto config call transactionID nextTransaction
  step c env c' := c.outcome = none ∧ c.nextTransaction ≤ env.nextTransaction ∧
    c' = c.toRetryState.round codec config call env

end RadosGo
