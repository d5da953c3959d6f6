import RadosGo.Library.Meets

namespace RadosGo

/-- The error variables which the messenger and its clients compare against
with `errors.Is`. -/
inductive Sentinel where
  | sessionClosed
  | sessionDisconnected
  | sessionRenewal
  | queueSaturated
  | transitionLimit
  | reconnectExhausted
  | outcomeUnknown
  | controlInvalidated
  | receiveBudgetExceeded
  | malformed
  | limitExceeded
  | unsupportedFeature
  | unsupportedPayload
  | wireMalformed
  | wireLimitExceeded
  | objecterClosed
  | noPrimary
  | recovery
  | staleMap
  | watchInterrupted
  | malformedReply
  | canceled
  | deadlineExceeded
  | managerClosed
  | noActiveManager
  | unsupportedManagerFeatures
  | unsupportedVersion
  | invalidArgument
  | unsupportedCrush
  | placement
  | invalidAddress
  | malformedMap
  | unsupportedPlacement
  | mapGap
  | foreignCluster
  | monitorRemoved
  | integrity
  | aborted
  | invalidSecret
  | counterExhausted
  | credentialNotFound
  | invalidCredential
  | invalidKeyring
  | malformedCommandReply
  | malformedPayload
  | invalidVersion
  | invalidMagic
  | unsupportedType
  | closed
  | subscriptionOverflow
  deriving DecidableEq, Repr

def Sentinel.text : Sentinel → String
  | sessionClosed => "messenger session closed"
  | sessionDisconnected => "messenger session disconnected"
  | sessionRenewal => "messenger session credential renewal"
  | queueSaturated => "messenger outbound queue saturated"
  | transitionLimit => "messenger handshake transition limit reached"
  | reconnectExhausted => "messenger reconnect attempts exhausted"
  | outcomeUnknown => "messenger request outcome unknown"
  | controlInvalidated => "messenger control generation invalidated"
  | receiveBudgetExceeded => "messenger receive budget exceeded\nmessenger outbound queue saturated"
  | malformed => "malformed messenger data"
  | limitExceeded => "messenger limit exceeded"
  | unsupportedFeature => "unsupported messenger feature"
  | unsupportedPayload => "unsupported messenger payload"
  | wireMalformed => "malformed encoding"
  | wireLimitExceeded => "encoding limit exceeded"
  | objecterClosed => "objecter closed"
  | noPrimary => "object has no acting primary"
  | recovery => "read recovery exhausted"
  | staleMap => "OSD supplied a newer map"
  | watchInterrupted => "watch interrupted; events may have been lost"
  | malformedReply => "malformed OSD reply"
  | canceled => "context canceled"
  | deadlineExceeded => "context deadline exceeded"
  | managerClosed => "manager client closed"
  | noActiveManager => "no active manager"
  | unsupportedManagerFeatures => "unsupported manager features"
  | unsupportedVersion => "unsupported compatible version"
  | invalidArgument => "rados: invalid argument"
  | unsupportedCrush => "unsupported CRUSH feature"
  | placement => "invalid CRUSH placement"
  | invalidAddress => "invalid entity address"
  | malformedMap => "malformed Ceph map"
  | unsupportedPlacement => "unsupported placement"
  | mapGap => "osdmap epoch gap"
  | foreignCluster => "monitor returned a foreign cluster fsid"
  | monitorRemoved => "active monitor removed from monmap"
  | integrity => "messenger integrity check failed"
  | aborted => "messenger frame aborted"
  | invalidSecret => "invalid messenger secure secret"
  | counterExhausted => "messenger secure counter exhausted"
  | credentialNotFound => "cephx credential not found"
  | invalidCredential => "invalid cephx credential"
  | invalidKeyring => "invalid cephx keyring"
  | malformedCommandReply => "malformed OSD command reply"
  | malformedPayload => "malformed cephx payload"
  | invalidVersion => "invalid cephx version"
  | invalidMagic => "invalid cephx encrypted magic"
  | unsupportedType => "unsupported cephx type"
  | closed => "rados: closed"
  | subscriptionOverflow => "cluster change subscription queue overflow"

/-- A Go error value. `wrap` has one wrapped cause, `join` has two: either two
`%w` verbs of `fmt.Errorf` or the two arguments of `errors.Join`. -/
inductive GoError where
  | sentinel (name : Sentinel)
  | errno (result : Int)
  | plain (message : String)
  | wrap (message : String) (cause : GoError)
  | join (message : String) (left right : GoError)
  deriving DecidableEq, Repr

instance : Coe Sentinel GoError := ⟨.sentinel⟩

namespace GoError

def text : GoError → String
  | sentinel name => name.text
  | errno result => "Ceph wire errno " ++ toString result
  | plain message => message
  | wrap message _ => message
  | join message _ _ => message

/-- `errors.Is`: the target is searched in the whole tree of causes. The
receive budget error is itself joined with the saturation error. -/
def Is : GoError → Sentinel → Bool
  | sentinel name, target =>
    name == target || (name == .receiveBudgetExceeded && target == .queueSaturated)
  | errno _, _ => false
  | plain _, _ => false
  | wrap _ cause, target => cause.Is target
  | join _ left right, target => left.Is target || right.Is target

/-- `fmt.Errorf("%w: ...", cause)` with the rest of the text spelled out. -/
def errorf (cause : GoError) (detail : String) : GoError :=
  wrap (cause.text ++ ": " ++ detail) cause

/-- `fmt.Errorf("%w: %w", left, right)`. -/
def errorf2 (left right : GoError) : GoError :=
  join (left.text ++ ": " ++ right.text) left right

/-- `fmt.Errorf("%w: %v", left, right)`: the second error is only printed. -/
def errorfText (left right : GoError) : GoError := left.errorf right.text

@[simp] theorem is_sentinel (name target : Sentinel) :
    (sentinel name).Is target =
      (name == target || (name == .receiveBudgetExceeded && target == .queueSaturated)) := rfl

@[simp] theorem is_errno (result : Int) (target : Sentinel) : (errno result).Is target = false := rfl

@[simp] theorem is_plain (message : String) (target : Sentinel) : (plain message).Is target = false := rfl

@[simp] theorem is_errorf (cause : GoError) (detail : String) (target : Sentinel) :
    (cause.errorf detail).Is target = cause.Is target := rfl

@[simp] theorem is_errorf2 (left right : GoError) (target : Sentinel) :
    (left.errorf2 right).Is target = (left.Is target || right.Is target) := rfl

@[simp] theorem is_errorfText (left right : GoError) (target : Sentinel) :
    (left.errorfText right).Is target = left.Is target := rfl

end GoError

/-- `errors.Is` on an error variable which may be nil. -/
def errorIs (err : Option GoError) (target : Sentinel) : Bool :=
  match err with
  | none => false
  | some value => value.Is target

@[simp] theorem errorIs_none (target : Sentinel) : errorIs none target = false := rfl

@[simp] theorem errorIs_some (value : GoError) (target : Sentinel) :
    errorIs (some value) target = value.Is target := rfl

/-- `errors.Join` of two errors: nil arguments are dropped. -/
def errorsJoin (left right : Option GoError) : Option GoError :=
  match left, right with
  | none, none => none
  | some value, none => some (.wrap value.text value)
  | none, some value => some (.wrap value.text value)
  | some first, some second => some (.join (first.text ++ "\n" ++ second.text) first second)

@[simp] theorem errorIs_errorsJoin (left right : Option GoError) (target : Sentinel) :
    errorIs (errorsJoin left right) target = (errorIs left target || errorIs right target) := by
  cases left <;> cases right <;> simp [errorsJoin, GoError.Is]

/-- The two values `ctx.Err()` takes once a context has ended. -/
inductive ContextError where
  | canceled
  | deadlineExceeded
  deriving DecidableEq, Repr

def ContextError.error : ContextError → GoError
  | canceled => Sentinel.canceled
  | deadlineExceeded => Sentinel.deadlineExceeded

@[simp] theorem ContextError.error_known (cause : ContextError) : cause.error.Is .outcomeUnknown = false := by
  cases cause <;> rfl

/-- An error made outside the session, by a transport or a receive budget.
Only the session owner itself ever makes the outcome-unknown error. -/
structure ForeignError where
  error : GoError
  known : error.Is .outcomeUnknown = false

/-- How a call ends that does not return its result. -/
inductive Fault where
  | err (cause : GoError)
  | panicked (message : String)
  deriving DecidableEq, Repr

end RadosGo
