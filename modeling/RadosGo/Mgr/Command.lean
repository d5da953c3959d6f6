import RadosGo.Library.System
import RadosGo.Msgr.Control

namespace RadosGo

/-- The manager map, as far as the choice of a manager looks at it. -/
structure MgrMap where
  epoch : Nat
  available : Bool
  activeGID : Nat
  activeName : List UInt8
  activeFeatures : Nat
  activeAddresses : List EntityAddr
  deriving DecidableEq, Repr

structure ActiveTarget where
  epoch : Nat
  gid : Nat
  name : List UInt8
  address : EntityAddr
  features : Nat
  deriving DecidableEq, Repr

def addressV2 : Nat := 2

def featureServerOctopusMask : Nat := 2 ^ 16 ||| 2 ^ 57 ||| 2 ^ 28

def hexadecimal (value : Nat) : String := "0x" ++ String.ofList (Nat.toDigits 16 value)

def selectEntityAddress (addresses : List EntityAddr) : Option EntityAddr :=
  addresses.find? fun address => address.type == addressV2 && address.addrPort.any fun endpoint => endpoint.port != 0

def currentTarget (mgrMap : Option MgrMap) : Except GoError ActiveTarget :=
  match mgrMap with
  | none => .error Sentinel.noActiveManager
  | some mgrMap =>
    if !mgrMap.available || mgrMap.activeGID == 0 || mgrMap.activeName == [] then .error Sentinel.noActiveManager
    else if mgrMap.activeFeatures &&& featureServerOctopusMask ≠ featureServerOctopusMask then
      .error (GoError.errorf Sentinel.unsupportedManagerFeatures
        ("active manager features " ++ hexadecimal mgrMap.activeFeatures))
    else
      match selectEntityAddress mgrMap.activeAddresses with
      | none => .error Sentinel.noActiveManager
      | some address =>
        .ok ⟨mgrMap.epoch, mgrMap.activeGID, mgrMap.activeName, address, mgrMap.activeFeatures⟩

def sameTarget (left right : ActiveTarget) : Bool :=
  left.gid == right.gid && left.name == right.name && left.address == right.address

/-- A session with a manager. Its number stands for the pointer. -/
structure ManagerSession where
  target : ActiveTarget
  session : Nat
  deriving DecidableEq, Repr

structure CommandReply where
  result : Int := 0
  status : List UInt8 := []
  data : List UInt8 := []
  deriving DecidableEq, Repr

structure CommandConfig where
  maxAttempts : Nat
  unlimitedRetries : Bool
  decodeCommandReply : Message → Except GoError CommandReply

/-- Why `submitPendingAware` gives a submission up. -/
inductive Abandonment where
  | context (cause : ContextError)
  | closed
  | moved
  deriving DecidableEq, Repr

/-- Where a call of `Command` stands. -/
inductive CommandPhase where
  | loop
  | waiting
  | connecting (target : ActiveTarget)
  | submitting (active : ManagerSession)
  | draining (active : ManagerSession) (why : Abandonment)
  | returned (reply : CommandReply) (err : Option GoError)
  deriving DecidableEq, Repr

/-- The history of a call, newest first: its submissions and what the sessions
answered. -/
inductive CommandNote where
  | submitted (submission : Nat) (active : ManagerSession)
  | answered (submission : Nat) (result : Except GoError Message)
  deriving DecidableEq, Repr

/-- One call of `Command` with what it shares: the manager map, its context, the
end of the client, and the channel on which the running submission answers. -/
structure CommandCall where
  config : CommandConfig
  tid : Nat
  mgrMap : Option MgrMap
  ctxErr : Option ContextError := none
  closed : Bool := false
  attempt : Nat := 0
  lastErr : Option GoError := none
  phase : CommandPhase := .loop
  submissions : Nat := 0
  result : Option (Except GoError Message) := none
  journal : List CommandNote := []

namespace CommandCall

def returns (s : CommandCall) (reply : CommandReply) (err : Option GoError) : CommandCall :=
  { s with phase := .returned reply err }

def fails (s : CommandCall) (err : GoError) : CommandCall := s.returns {} (some err)

def preserveContextErr (s : CommandCall) (err : GoError) : GoError :=
  match s.ctxErr with
  | some cause => cause.error
  | none => err

def exhausted (s : CommandCall) : GoError := s.lastErr.getD Sentinel.noActiveManager

/-- The head of the loop over the attempts. -/
def begin_ (s : CommandCall) : CommandCall :=
  if s.config.unlimitedRetries || s.attempt < s.config.maxAttempts then
    match currentTarget s.mgrMap with
    | .error err =>
      if err.Is .noActiveManager then { s with lastErr := some err, phase := .waiting } else s.fails err
    | .ok target => { s with phase := .connecting target }
  else s.fails s.exhausted

/-- A failed attempt is followed by another one, as long as there are any. -/
def retryOrBreak (s : CommandCall) (err : GoError) : CommandCall :=
  let s := { s with lastErr := some err }
  if s.config.unlimitedRetries || s.attempt + 1 < s.config.maxAttempts then { s with phase := .waiting }
  else s.fails err

def again (s : CommandCall) : CommandCall := { s with attempt := s.attempt + 1, phase := .loop }

/-- The session gets the request from a goroutine of its own. -/
def submit (s : CommandCall) (active : ManagerSession) : CommandCall :=
  { s with
    phase := .submitting active
    submissions := s.submissions + 1
    result := none
    journal := .submitted s.submissions active :: s.journal }

/-- What `getSession` returned. -/
def connected (s : CommandCall) : Except GoError ManagerSession → CommandCall
  | .ok active => s.submit active
  | .error err =>
    if err.Is .managerClosed || s.ctxErr.isSome then s.fails (s.preserveContextErr err) else s.retryOrBreak err

/-- What `submitPendingAware` returned, unless it asks for another attempt. -/
def settle (s : CommandCall) : Except GoError Message → CommandCall
  | .error err =>
    if err.Is .outcomeUnknown then s.fails err
    else if err.Is .managerClosed || s.ctxErr.isSome then s.fails (s.preserveContextErr err)
    else s.retryOrBreak err
  | .ok reply =>
    if reply.header.transactionID ≠ s.tid then
      s.fails (GoError.errorf Sentinel.wireMalformed ("manager command reply tid " ++
        toString reply.header.transactionID ++ " expected " ++ toString s.tid))
    else
      match s.config.decodeCommandReply reply with
      | .error err => s.fails err
      | .ok decoded => s.returns decoded (if decoded.result < 0 then some (.errno decoded.result) else none)

def errOf : Except GoError Message → Option GoError
  | .error err => some err
  | .ok _ => none

/-- The answer to a submission that was given up. -/
def drain (s : CommandCall) (why : Abandonment) (result : Except GoError Message) : CommandCall :=
  if errorIs (errOf result) .outcomeUnknown then s.settle result
  else
    match why with
    | .context cause => s.settle (.error cause.error)
    | .closed => s.settle (.error Sentinel.managerClosed)
    | .moved => { s with lastErr := some Sentinel.noActiveManager }.again

inductive CommandAction where
  | mapChanges (mgrMap : Option MgrMap)
  | contextEnds (cause : ContextError)
  | closes
  | begins
  | retries
  | waitCanceled
  | waitClosed
  | connects (outcome : Except GoError ManagerSession)
  | answers (result : Except GoError Message)
  | receives
  | contextDone
  | clientDone
  | ticks
  | drains

/-- One atomic action, if it is possible. Where a select has several ready cases
each of them is an action. -/
def step (s : CommandCall) : CommandAction → Option CommandCall
  | .mapChanges mgrMap => some { s with mgrMap := mgrMap }
  | .contextEnds cause => some { s with ctxErr := s.ctxErr.or (some cause) }
  | .closes => some { s with closed := true }
  | .begins => if s.phase = .loop then some s.begin_ else none
  | .retries => if s.phase = .waiting then some s.again else none
  | .waitCanceled => if s.phase = .waiting then s.ctxErr.map fun cause => s.fails cause.error else none
  | .waitClosed => if s.phase = .waiting ∧ s.closed then some (s.fails Sentinel.managerClosed) else none
  | .connects outcome =>
    match s.phase with
    | .connecting _ => some (s.connected outcome)
    | _ => none
  | .answers result =>
    match s.phase, s.result with
    | .submitting _, none | .draining _ _, none =>
      some { s with result := some result, journal := .answered (s.submissions - 1) result :: s.journal }
    | _, _ => none
  | .receives =>
    match s.phase, s.result with
    | .submitting _, some result => some (s.settle result)
    | _, _ => none
  | .contextDone =>
    match s.phase, s.ctxErr with
    | .submitting active, some cause => some { s with phase := .draining active (.context cause) }
    | _, _ => none
  | .clientDone =>
    match s.phase, s.closed with
    | .submitting active, true => some { s with phase := .draining active .closed }
    | _, _ => none
  | .ticks =>
    match s.phase with
    | .submitting active =>
      match currentTarget s.mgrMap with
      | .ok current =>
        if sameTarget current active.target then some s else some { s with phase := .draining active .moved }
      | .error _ => some { s with phase := .draining active .moved }
    | _ => none
  | .drains =>
    match s.phase, s.result with
    | .draining _ why, some result => some (s.drain why result)
    | _, _ => none

/-- The runs of a call whose request has been encoded. -/
def interleavings : System CommandCall CommandAction where
  start s := ∃ config tid mgrMap, s = { config := config, tid := tid, mgrMap := mgrMap }
  step s action s' := s.step action = some s'

end CommandCall

end RadosGo
