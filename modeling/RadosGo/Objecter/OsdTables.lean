import RadosGo.Library.Threads
import RadosGo.Msgr.SessionOwner
import RadosGo.Objecter.OsdSession

namespace RadosGo

/-- The acknowledgment of a block, while it waits or is sent. -/
structure BackoffAck where
  backoff : Backoff
  bytes : Nat
  generation : Nat
  transportGeneration : Nat
  deriving DecidableEq, Repr

structure BackoffAckResult where
  err : GoError
  generation : Nat
  transportGeneration : Nat
  deriving DecidableEq, Repr

/-- The acknowledgments of a session, which have a mutex of their own, the failure which the
sender is about to report, the channel with room for one of them, and the one which the
receive loop has taken from it. -/
structure AckQueue where
  queue : List BackoffAck := []
  active : Option BackoffAck := none
  failing : Option BackoffAckResult := none
  count : Int := 0
  bytes : Nat := 0
  generation : Nat := 0
  results : Option BackoffAckResult := none
  received : Option BackoffAckResult := none

namespace AckQueue

def enqueueACK (acks : AckQueue) (backoff : Backoff) (front transportGeneration : Nat) : Except GoError AckQueue :=
  let retained := messageHeaderSize + front
  if acks.count ≥ maxControlMessages ∨ retained > subUint64 maxControlRetainedBytes acks.bytes then
    .error (.wrap ("backoff ACK reserve: " ++ Sentinel.queueSaturated.text) Sentinel.queueSaturated)
  else
    .ok { acks with
      queue := acks.queue ++ [⟨backoff, retained, acks.generation, transportGeneration⟩]
      count := acks.count + 1
      bytes := addUint64 acks.bytes retained }

def resetACKs (acks : AckQueue) (generation : Nat) : AckQueue :=
  { acks with
    queue := []
    count := acks.count - acks.queue.length
    bytes := acks.queue.foldl (fun bytes ack => subUint64 bytes ack.bytes) acks.bytes
    generation := generation }

/-- The sender takes the next acknowledgment, once it has reported its last failure. -/
def take (acks : AckQueue) : Option AckQueue :=
  match acks.active, acks.failing, acks.queue with
  | none, none, ack :: queue => some { acks with queue := queue, active := some ack }
  | _, _, _ => none

/-- The sender has written an acknowledgment or failed to. -/
def sent (acks : AckQueue) (err : Option GoError) : Option AckQueue :=
  acks.active.map fun ack =>
    { acks with
      active := none
      count := acks.count - 1
      bytes := subUint64 acks.bytes ack.bytes
      failing := if ack.generation = acks.generation
        then err.map fun err => ⟨err, ack.generation, ack.transportGeneration⟩ else none }

/-- The sender puts a failure into the channel, if there is room. -/
def report (acks : AckQueue) : Option AckQueue :=
  match acks.failing, acks.results with
  | some result, none => some { acks with failing := none, results := some result }
  | _, _ => none

/-- The receive loop takes a failure from the channel. -/
def receive (acks : AckQueue) : Option AckQueue :=
  match acks.results, acks.received with
  | some result, none => some { acks with results := none, received := some result }
  | _, _ => none

end AckQueue

/-- The history of the backoffs of a session, newest first. The sections are
those of the receive loop; a request is registered while its call has the mutex. -/
inductive BackoffNote where
  | locked
  | unlocked
  | installed (backoff : Backoff)
  | acknowledged (backoff : Backoff)
  | registered (pg : PG) (object : HObject) (backoffs : List Backoff)
  deriving DecidableEq, Repr

/-- An OSD session with the tables by placement group, which the calls and the
receive loop search, and with its acknowledgments. -/
structure OsdTables where
  session : OsdSession
  backoffsByPG : PG → List Backoff := fun _ => []
  submissionsByPG : Threads PG Nat := {}
  acks : AckQueue := {}
  log : List BackoffNote := []

/-- A backoff message, decoded, and the length of its encoded acknowledgment. -/
structure BackoffMessage where
  transportGeneration : Nat
  decoded : Except GoError Backoff
  ackFront : Nat

/-- What a transport with control generations answers while a message is handled. -/
structure ControlReads where
  dispatch : Nat
  reconcile : Nat
  current : Nat
  reconcileAgain : Nat
  currentAgain : Nat

/-- What the receive loop meets. The generations are missing on a transport
which has none. -/
inductive TableEvent where
  | backoff (message : BackoffMessage) (reads : Option ControlReads)
  | ackFailed (reads : Option (Nat × Nat))
  | reset (reads : Option Nat)
  | failed (err : GoError)
  | finished

/-- Between taking a failure from the channel and handling it the loop handles
nothing but a reset. -/
def TableEvent.due (event : TableEvent) (received : Option BackoffAckResult) : Bool :=
  match event with
  | .ackFailed _ => received.isSome
  | .reset _ => true
  | _ => received.isNone

namespace OsdTables

def note (t : OsdTables) (note : BackoffNote) : OsdTables := { t with log := note :: t.log }

def onSession (t : OsdTables) (session : OsdSession) : OsdTables := { t with session := session }

def blocked (t : OsdTables) (pg : PG) (object : HObject) : Bool :=
  (t.backoffsByPG pg).any fun backoff => backoff.contains object

/-- The list of the submissions for a placement group, followed from its head. -/
def listed (t : OsdTables) (pg : PG) : List Nat :=
  t.submissionsByPG.walk t.session.submissions.length (t.submissionsByPG.head pg)

def register (t : OsdTables) (call : Nat) : OsdTables :=
  { t with
    session := t.session.register call
    submissionsByPG := t.submissionsByPG.push (t.session.calls call).pg t.session.serials }

def enter (t : OsdTables) (call : Nat) : OsdTables :=
  match t.session.err with
  | some err => t.onSession (t.session.returns call (.error err))
  | none =>
    if t.blocked (t.session.calls call).pg (t.session.calls call).object
    then t.onSession (t.session.setPhase call (.waiting false)) else t.register call

/-- `removeSubmission` of a call that has its result. -/
def remove (t : OsdTables) (call serial : Nat) (result : Except GoError Message) : OsdTables :=
  match t.session.submissions.find? fun submission => submission.serial == serial with
  | none => t.onSession (t.session.remove call serial result)
  | some submission =>
    { t with
      session := t.session.remove call serial result
      submissionsByPG := t.submissionsByPG.remove submission.pg serial }

def removeBackoff (t : OsdTables) (id : Nat) : OsdTables × Option Backoff :=
  match t.session.removeBackoff id with
  | (session, none) => (t.onSession session, none)
  | (session, some backoff) =>
    ({ t with
        session := session
        backoffsByPG := Function.update t.backoffsByPG backoff.pg
          ((t.backoffsByPG backoff.pg).filter fun other => other.id != id) }, some backoff)

def addBackoff (t : OsdTables) (backoff : Backoff) : OsdTables × Option GoError :=
  match t.session.addBackoff backoff with
  | (session, some err) => (t.onSession session, some err)
  | (session, none) =>
    let t := (t.removeBackoff backoff.id).1
    ({ t with
      session := session
      backoffsByPG := Function.update t.backoffsByPG backoff.pg
        (backoff :: (t.backoffsByPG backoff.pg).filter fun other => other.id != backoff.id) }.note
          (.installed backoff), none)

def enqueueACK (t : OsdTables) (backoff : Backoff) (message : BackoffMessage) : Except GoError OsdTables :=
  match t.acks.enqueueACK backoff message.ackFront message.transportGeneration with
  | .error err => .error err
  | .ok acks => .ok ({ t with acks := acks }.note (.acknowledged backoff))

/-- The submissions in the list which the range of an unblocked backoff contains. -/
def unblocks (t : OsdTables) (blocked : Backoff) (submission : TargetSubmission) : Bool :=
  (t.listed blocked.pg).contains submission.serial && blocked.contains submission.object

def markResend (t : OsdTables) (blocked : Backoff) : OsdTables :=
  t.onSession { t.session with
    submissions := t.session.submissions.map fun submission =>
      if t.unblocks blocked submission then { submission with resend := true, canceled := true } else submission
    journal := ((t.session.submissions.filter (t.unblocks blocked)).map fun submission =>
      .marked submission.serial) ++ t.session.journal }

/-- The effect of a current backoff message, and the error it leads to. -/
def applyBackoff (t : OsdTables) (message : BackoffMessage) (backoff : Backoff) : OsdTables × Option GoError :=
  match backoff.operation with
  | .block =>
    match t.addBackoff backoff with
    | (t, some err) => (t, some err)
    | (t, none) =>
      match t.enqueueACK backoff message with
      | .error err => (t, some err)
      | .ok t => (t, none)
  | .unblock =>
    match t.removeBackoff backoff.id with
    | (t, some blocked) => (t.markResend blocked, none)
    | (t, none) => (t, none)

def clear (t : OsdTables) (generation : Nat) : OsdTables :=
  { t with session := t.session.reconcile, backoffsByPG := fun _ => [], acks := t.acks.resetACKs generation }

def reconcile (t : OsdTables) (reads : Option Nat) : OsdTables :=
  match reads with
  | some generation => if generation = t.acks.generation then t else t.clear generation
  | none => t.clear (addUint64 t.acks.generation 1)

/-- The reconciliation which only a transport with generations causes. -/
def reconcileScoped (t : OsdTables) (reads : Option Nat) : OsdTables :=
  match reads with
  | some generation => t.reconcile (some generation)
  | none => t

def fail (t : OsdTables) (err : GoError) : OsdTables := t.onSession (t.session.fail err)

/-- The end of the section of a backoff message, with the error so far. -/
def settle (t : OsdTables) (message : BackoffMessage) (reads : Option ControlReads) (current : Bool) :
    Option GoError → OsdTables
  | none => t
  | some err =>
    let t := t.reconcileScoped (reads.map ControlReads.reconcileAgain)
    let current := match reads with
      | some read => decide (message.transportGeneration = read.currentAgain)
      | none => current
    if current then t.fail err else t

def receiveBackoff (t : OsdTables) (message : BackoffMessage) (reads : Option ControlReads) : OsdTables :=
  let t := (t.note .locked).reconcileScoped (reads.map ControlReads.reconcile)
  let current := reads.all fun read => message.transportGeneration == read.current
  let applied := match message.decoded with
    | .error err => (t, some err)
    | .ok backoff => if current then t.applyBackoff message backoff else (t, none)
  (applied.1.settle message reads current applied.2).note .unlocked

/-- A failure to send an acknowledgment ends the session, unless its generation is over. -/
def receiveResult (t : OsdTables) (result : BackoffAckResult) (reads : Option (Nat × Nat)) : OsdTables :=
  let t := ({ t with acks := { t.acks with received := none } }.note .locked).reconcileScoped (reads.map Prod.fst)
  let current := decide (result.generation = t.acks.generation) &&
    reads.all fun read => result.transportGeneration == read.2
  (if current then t.fail result.err else t).note .unlocked

def receive (t : OsdTables) : TableEvent → OsdTables
  | .backoff message reads =>
    if reads.any fun read => message.transportGeneration == 0 || message.transportGeneration != read.dispatch
    then t else t.receiveBackoff message reads
  | .ackFailed reads =>
    match t.acks.received with
    | some result => t.receiveResult result reads
    | none => t
  | .reset reads => ((t.note .locked).reconcile reads).note .unlocked
  | .failed err => ((t.note .locked).fail err).note .unlocked
  | .finished =>
    { t with
      session := t.session.receive .finished
      backoffsByPG := fun _ => []
      acks := t.acks.resetACKs (addUint64 t.acks.generation 1) }

inductive TableAction where
  | session (action : OsdSession.SessionAction)
  | receives (event : TableEvent)
  | takesACK
  | sentACK (err : Option GoError)
  | reportsACK
  | receivesACK

/-- One atomic action, if it is possible. The messenger runs the callback of a
submission exactly when it registers the request. -/
def step (t : OsdTables) : TableAction → Option OsdTables
  | .session (.enter call) =>
    match (t.session.calls call).phase, t.session.holder with
    | .entering, none => some (t.enter call)
    | _, _ => none
  | .session (.removes call) =>
    match (t.session.calls call).phase, t.session.holder with
    | .completed serial result, none => some (t.remove call serial result)
    | _, _ => none
  | .session (.admitted call) =>
    if t.session.holder = some call then
      (t.session.step (.admitted call)).map fun session => (t.onSession session).note
        (.registered (t.session.calls call).pg (t.session.calls call).object t.session.backoffs)
    else none
  | .session (.receives _) => none
  | .session action => (t.session.step action).map t.onSession
  | .receives event => if t.session.holder = none ∧ event.due t.acks.received then some (t.receive event) else none
  | .takesACK => t.acks.take.map fun acks => { t with acks := acks }
  | .sentACK err => (t.acks.sent err).map fun acks => { t with acks := acks }
  | .reportsACK => t.acks.report.map fun acks => { t with acks := acks }
  | .receivesACK => t.acks.receive.map fun acks => { t with acks := acks }

/-- The runs of a session that starts without backoffs, calls and acknowledgments. -/
def interleavings : System OsdTables TableAction where
  start t := ∃ session generation, OsdSession.interleavings.start session ∧
    t = { session := session, acks := { generation := generation } }
  step t action t' := t.step action = some t'

end OsdTables

end RadosGo
