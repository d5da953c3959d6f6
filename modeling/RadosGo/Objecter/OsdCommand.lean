import RadosGo.Library.Meets
import RadosGo.Library.History
import RadosGo.Library.System
import RadosGo.Objecter.Request

namespace RadosGo

namespace Osd

def messageCommand : Nat := 97
def messageCommandReply : Nat := 98

structure CommandRequest where
  fsid : Bytes
  transactionID : Nat
  command : List Bytes
  input : Bytes

structure CommandReply where
  transactionID : Nat
  result : Int
  status : Bytes
  output : Bytes
  deriving DecidableEq, Repr

def encodeCommandRequest (request : CommandRequest) (maxBytes : Nat) : Except GoError Message :=
  if maxBytes = 0 ∨ request.command.length = 0 ∨ request.command.length > maxUint32 ∨
    request.input.length > maxBytes then
    .error Sentinel.wireLimitExceeded
  else if ∃ argument ∈ request.command, argument.length > maxUint32 then .error Sentinel.wireLimitExceeded
  else
    match (request.command.foldl Encoder.string
      (((Encoder.newEncoder maxBytes).raw request.fsid).uint32 request.command.length)).bytesResult with
    | .error err => .error err
    | .ok front =>
      if front.length + request.input.length > maxBytes then .error Sentinel.wireLimitExceeded
      else .ok
        { header := { transactionID := request.transactionID, type := messageCommand, version := 1 }
          front := front
          data := request.input
          lengths := { front := front.length, data := request.input.length } }

/-- The front of a reply, and how many bytes are left behind it. -/
def decodeCommandFront : Decoding (Int × Bytes × Nat) := do
  let result ← Decoding.int32
  let status ← Decoding.string
  Decoding.finish
  return (result, status, ← Decoding.remaining)

def decodeCommandReply (message : Message) (maxBytes : Nat) : Except GoError CommandReply :=
  if maxBytes = 0 then .error Sentinel.wireLimitExceeded
  else if message.header.type ≠ messageCommandReply then
    .error (GoError.errorf Sentinel.malformedCommandReply s!"header type {message.header.type}")
  else if message.header.version < 1 ∨ message.header.compatVersion > 1 then
    .error (GoError.errorf Sentinel.unsupportedVersion
      s!"version {message.header.version} compat {message.header.compatVersion}")
  else if message.middle.length ≠ 0
    then .error (GoError.errorf Sentinel.malformedCommandReply "unexpected middle segment")
  else if message.front.length + message.data.length > maxBytes then .error Sentinel.wireLimitExceeded
  else if message.lengths ≠ { front := message.front.length % 2 ^ 32, data := message.data.length % 2 ^ 32 } then
    .error (GoError.errorf Sentinel.malformedCommandReply "segment length mismatch")
  else
    match (decodeCommandFront.eval (newDecoder message.front maxBytes)).1 with
    | .error err => .error (GoError.errorfText Sentinel.malformedCommandReply err)
    | .ok (result, status, remaining) =>
      if remaining ≠ 0 then .error
        (GoError.errorf Sentinel.malformedCommandReply s!"{remaining} trailing front bytes")
      else .ok { transactionID := message.header.transactionID, result, status, output := message.data }

end Osd

/-- What the retry loop of a command reads of the configuration of its client. -/
structure OsdCommandConfig where
  unlimitedRetries : Bool
  maxAttempts : Nat
  maxBytes : Nat

/-- The arguments of `submitCommand`, with the cluster that it has read from the map. -/
structure OsdCommandCall where
  command : List Bytes
  input : Bytes
  fsid : Bytes
  mapRouted : Bool
  boundedByContext : Bool

structure CommandResult where
  result : Int := 0
  status : Bytes := []
  output : Bytes := []
  deriving DecidableEq, Repr

/-- What one attempt meets: the context each time it is asked, the route, the session and its answer. -/
structure OsdCommandSurroundings where
  ctxErr : Option ContextError := none
  waitForResolvedRoute : Except GoError Route
  getSessionContext : Route → Option GoError
  beginRoutedAttempt : Route → Option GoError
  submit : Message → Except GoError Message
  remapped : Bool := false
  ctxErrOnRemap : Option ContextError := none
  ctxErrOnFailure : Option ContextError := none

/-- The variables of `submitCommand`, what the sessions answered, newest first, and what it has returned. -/
structure OsdCommandState where
  attempt : Nat := 0
  transactionID : Nat
  lastErr : Option GoError := none
  submissions : List (Except GoError Message) := []
  outcome : Option (CommandResult × Option GoError) := none

namespace OsdCommandState

def again (s : OsdCommandState) : OsdCommandState := { s with attempt := s.attempt + 1 }

def returns (s : OsdCommandState) (err : GoError) (result : CommandResult := {}) : OsdCommandState :=
  { s with outcome := some (result, some err) }

def returnsPreserving (s : OsdCommandState) (err : GoError) : OsdCommandState :=
  s.returns (preserveOutcomeUnknown s.lastErr err)

variable (config : OsdCommandConfig) (call : OsdCommandCall) (s : OsdCommandState) (env : OsdCommandSurroundings)

/-- The part of an attempt before the request is submitted. -/
def prepare : OsdCommandState ⊕ Message :=
  match env.ctxErr with
  | some cause => .inl (s.returnsPreserving cause.error)
  | none =>
    match env.waitForResolvedRoute with
    | .error err => .inl (s.returnsPreserving err)
    | .ok route =>
      match env.getSessionContext route with
      | some err => .inl (if err.Is .staleMap then s.again else s.returnsPreserving err)
      | none =>
        match Osd.encodeCommandRequest ⟨call.fsid, s.transactionID, call.command, call.input⟩ config.maxBytes with
        | .error err => .inl (s.returnsPreserving err)
        | .ok request =>
          match if call.mapRouted then env.beginRoutedAttempt route else none with
          | some err => .inl (s.returnsPreserving err)
          | none => .inr request

/-- What follows a submission that failed. -/
def submitFailed (err : GoError) : OsdCommandState :=
  if call.mapRouted && env.remapped && env.ctxErrOnRemap.isNone then
    if err.Is .outcomeUnknown then s.returns err else s.again
  else if err.Is .queueSaturated then s.returnsPreserving err
  else if err.Is .outcomeUnknown then s.returns err
  else
    match env.ctxErrOnFailure with
    | some cause => s.returnsPreserving cause.error
    | none => { s with lastErr := some (preserveOutcomeUnknown s.lastErr err) }.again

/-- What follows a reply. -/
def settle (reply : Message) : OsdCommandState :=
  match Osd.decodeCommandReply reply config.maxBytes with
  | .error err => s.returns err
  | .ok decoded =>
    if decoded.transactionID ≠ s.transactionID then
      s.returns (GoError.errorf Sentinel.malformedCommandReply
        s!"reply tid {decoded.transactionID} expected {s.transactionID}")
    else if decoded.result = -11 then { s with lastErr := some (.errno decoded.result) }.again
    else if decoded.result < 0 then s.returns (.errno decoded.result) ⟨decoded.result, decoded.status, decoded.output⟩
    else { s with outcome := some (⟨decoded.result, decoded.status, decoded.output⟩, none) }

def attemptOnce : OsdCommandState :=
  match s.prepare config call env with
  | .inl state => state
  | .inr request =>
    let submitted := env.submit request
    let s := { s with submissions := submitted :: s.submissions }
    match submitted with
    | .error err => s.submitFailed call env err
    | .ok reply => s.settle config reply

/-- One round of the loop, with the test at its head. -/
def round : OsdCommandState :=
  if config.unlimitedRetries || call.boundedByContext || decide (s.attempt < config.maxAttempts) then
    s.attemptOnce config call env
  else s.returns (GoError.errorf2 Sentinel.recovery (s.lastErr.getD Sentinel.recovery))

end OsdCommandState

/-- The call before its first attempt, with the counter of the client. -/
def submitCommand (nextTransaction : Nat) : OsdCommandState :=
  match takeTransactionID nextTransaction with
  | .error err => ({ transactionID := 0 } : OsdCommandState).returns err
  | .ok (transactionID, _) => { transactionID }

/-- The runs of one call. -/
def commandRuns (config : OsdCommandConfig) (call : OsdCommandCall) :
    System OsdCommandState OsdCommandSurroundings where
  start c := ∃ nextTransaction, c = submitCommand nextTransaction
  step c env c' := c.outcome = none ∧ c' = c.round config call env

end RadosGo
