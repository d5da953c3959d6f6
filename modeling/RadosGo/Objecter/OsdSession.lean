import RadosGo.Library.System
import RadosGo.Objecter.Backoff

namespace RadosGo

/-- A registered submission. Its serial number stands for the pointer, since the
identifiers are used again once their counter has wrapped around. -/
structure TargetSubmission where
  serial : Nat
  id : Nat
  pg : PG
  object : HObject
  resend : Bool := false
  canceled : Bool := false
  deriving DecidableEq, Repr

/-- Where a call of `submitTarget` stands. -/
inductive Phase where
  | idle
  | entering
  | submitted (serial : Nat)
  | completed (serial : Nat) (result : Except GoError Message)
  | removed (serial : Nat) (resend : Bool) (result : Except GoError Message)
  | failing (err : GoError)
  | waiting (woken : Bool)
  | returned (result : Except GoError Message)
  deriving DecidableEq, Repr

structure TargetCall where
  pg : PG := ⟨0, 0, 0⟩
  object : HObject := {}
  ctxErr : Option ContextError := none
  phase : Phase := .idle
  deriving DecidableEq, Repr

/-- The history of the calls on a session, newest first: submissions and their
results, marks of the receive loop, ends of contexts, discarded results and
returns. -/
inductive TargetNote where
  | registered (call serial : Nat)
  | completed (call serial : Nat) (result : Except GoError Message)
  | marked (serial : Nat)
  | contextEnded (call : Nat)
  | discarded (call serial : Nat)
  | returned (call : Nat) (result : Except GoError Message)
  deriving DecidableEq, Repr

/-- An OSD session, shared by its calls and its receive loop. The mutex is held
by the call that has registered a submission until the messenger admits it. -/
structure OsdSession where
  err : Option GoError := none
  backoffs : List Backoff := []
  maxBackoffs : Nat
  maxBackoffBytes : Nat
  backoffBytes : Nat := 0
  submissions : List TargetSubmission := []
  nextSubmission : Nat := 0
  serials : Nat := 0
  rawDone : Bool := false
  holder : Option Nat := none
  calls : Nat → TargetCall := fun _ => {}
  journal : List TargetNote := []

namespace OsdSession

def setPhase (s : OsdSession) (call : Nat) (phase : Phase) : OsdSession :=
  { s with calls := Function.update s.calls call { s.calls call with phase := phase } }

def note (s : OsdSession) (note : TargetNote) : OsdSession := { s with journal := note :: s.journal }

def blocked (s : OsdSession) (pg : PG) (object : HObject) : Bool :=
  s.backoffs.any fun backoff => backoff.pg == pg && backoff.contains object

/-- `failure`: the error of the session, or another one while it has none. -/
def failure (s : OsdSession) (fallback : GoError) : GoError := s.err.getD fallback

/-- Wakes the calls that wait for a backoff of certain placement groups. -/
def wake (s : OsdSession) (pgs : PG → Bool) : OsdSession :=
  { s with calls := fun call =>
      match (s.calls call).phase with
      | .waiting _ => if pgs (s.calls call).pg then { s.calls call with phase := .waiting true } else s.calls call
      | _ => s.calls call }

def wakeBackoffPG (s : OsdSession) (pg : PG) : OsdSession := s.wake fun other => other == pg

def wakeAllBackoffs (s : OsdSession) : OsdSession := s.wake fun _ => true

def fail (s : OsdSession) (err : GoError) : OsdSession :=
  if s.err.isNone then { s with err := some err }.wakeAllBackoffs else s

def removeBackoff (s : OsdSession) (id : Nat) : OsdSession × Option Backoff :=
  match s.backoffs.find? fun backoff => backoff.id == id with
  | none => (s, none)
  | some backoff =>
    ({ s with
        backoffs := s.backoffs.filter fun other => other.id != id
        backoffBytes := s.backoffBytes - backoffCharge backoff }.wakeBackoffPG backoff.pg, some backoff)

/-- The limits on active backoffs; a backoff that is replaced does not count. -/
def backoffSaturated (s : OsdSession) (backoff : Backoff) : Bool :=
  let count := if s.maxBackoffs = 0 then 4096 else s.maxBackoffs
  let bytes := if s.maxBackoffBytes = 0 then 8 * 2 ^ 20 else s.maxBackoffBytes
  let previous := s.backoffs.find? fun other => other.id == backoff.id
  let retained := s.backoffBytes - (previous.map backoffCharge).getD 0
  decide ((previous.isNone ∧ s.backoffs.length ≥ count) ∨ retained > bytes ∨ backoffCharge backoff > bytes - retained)

def addBackoff (s : OsdSession) (backoff : Backoff) : OsdSession × Option GoError :=
  if s.backoffSaturated backoff then
    (s, some (.wrap ("active backoff state: " ++ Sentinel.queueSaturated.text) Sentinel.queueSaturated))
  else
    let s := (s.removeBackoff backoff.id).1
    ({ s with
      backoffs := backoff :: s.backoffs
      backoffBytes := s.backoffBytes + backoffCharge backoff }.wakeBackoffPG backoff.pg, none)

/-- A new control generation has no backoffs. -/
def reconcile (s : OsdSession) : OsdSession := { s with backoffs := [], backoffBytes := 0 }.wakeAllBackoffs

/-- The submissions which an unblocked range covers. -/
def covers (blocked : Backoff) (submission : TargetSubmission) : Bool :=
  submission.pg == blocked.pg && blocked.contains submission.object

/-- An unblock cancels the submissions of its range and has them sent again. -/
def markResend (s : OsdSession) (blocked : Backoff) : OsdSession :=
  { s with
    submissions := s.submissions.map fun submission =>
      if covers blocked submission then { submission with resend := true, canceled := true } else submission
    journal := ((s.submissions.filter (covers blocked)).map fun submission => .marked submission.serial) ++
      s.journal }

/-- What the receive loop meets. A backoff message comes with the result of
decoding it and encoding its answer, with the failure to queue that, and with
the comparisons of generations before and after. -/
inductive Received where
  | backoff (reconciles current : Bool) (decoded : Except GoError Backoff) (ackErr : Option GoError)
      (reconcilesAgain stillCurrent : Bool)
  | reset
  | failed (err : GoError)
  | finished

/-- The effect of a current backoff message, or the error it leads to. -/
def applyBackoff (s : OsdSession) (decoded : Except GoError Backoff) (ackErr : Option GoError) :
    OsdSession × Option GoError :=
  match decoded with
  | .error err => (s, some err)
  | .ok backoff =>
    match backoff.operation with
    | .block =>
      match s.addBackoff backoff with
      | (s, some err) => (s, some err)
      | (s, none) => (s, ackErr)
    | .unblock =>
      match s.removeBackoff backoff.id with
      | (s, some blocked) => (s.markResend blocked, none)
      | (s, none) => (s, none)

def receive (s : OsdSession) : Received → OsdSession
  | .backoff reconciles current decoded ackErr reconcilesAgain stillCurrent =>
    let s := if reconciles then s.reconcile else s
    if current then
      match s.applyBackoff decoded ackErr with
      | (s, none) => s
      | (s, some err) =>
        let s := if reconcilesAgain then s.reconcile else s
        if stillCurrent then s.fail err else s
    else s
  | .reset => s.reconcile
  | .failed err => s.fail err
  | .finished => { s.fail Sentinel.sessionClosed with backoffs := [], backoffBytes := 0 }

/-- The next identifier after `id` that is neither zero nor in use. -/
def freeSubmission (submissions : List TargetSubmission) : Nat → Nat → Nat
  | 0, id => id
  | fuel + 1, id =>
    let id := (id + 1) % 2 ^ 64
    if id = 0 ∨ submissions.any (fun submission => submission.id == id)
    then freeSubmission submissions fuel id else id

def returns (s : OsdSession) (call : Nat) (result : Except GoError Message) : OsdSession :=
  (s.setPhase call (.returned result)).note (.returned call result)

def newSubmission (s : OsdSession) (call : Nat) : TargetSubmission where
  serial := s.serials
  id := freeSubmission s.submissions (s.submissions.length + 2) s.nextSubmission
  pg := (s.calls call).pg
  object := (s.calls call).object

/-- `addSubmission`; the call keeps the mutex while it hands its request over. -/
def addSubmission (s : OsdSession) (call : Nat) : OsdSession :=
  { s with
    submissions := s.newSubmission call :: s.submissions
    nextSubmission := (s.newSubmission call).id
    serials := s.serials + 1
    holder := some call }

def register (s : OsdSession) (call : Nat) : OsdSession :=
  ((s.addSubmission call).setPhase call (.submitted s.serials)).note (.registered call s.serials)

/-- The head of the loop of `submitTarget`. -/
def enter (s : OsdSession) (call : Nat) : OsdSession :=
  match s.err with
  | some err => s.returns call (.error err)
  | none =>
    if s.blocked (s.calls call).pg (s.calls call).object then s.setPhase call (.waiting false) else s.register call

def unlock (s : OsdSession) (call : Nat) : OsdSession :=
  if s.holder = some call then { s with holder := none } else s

/-- `removeSubmission`, and what the submission was marked with. -/
def remove (s : OsdSession) (call serial : Nat) (result : Except GoError Message) : OsdSession :=
  let resend := s.submissions.any fun submission => submission.serial == serial && submission.resend
  let s := { s with submissions := s.submissions.filter fun submission => submission.serial != serial }
  s.setPhase call (.removed serial resend result)

/-- The end of the loop: a marked submission starts over while the context lives. -/
def conclude (s : OsdSession) (call serial : Nat) (resend : Bool) (result : Except GoError Message) : OsdSession :=
  if resend && (s.calls call).ctxErr.isNone then (s.setPhase call .entering).note (.discarded call serial)
  else
    match result with
    | .ok _ => s.returns call result
    | .error err => s.setPhase call (.failing err)

/-- The ways in which `waitBackoff` ends. -/
inductive Wakeup where
  | context
  | done
  | changed

inductive SessionAction where
  | submitTarget (call : Nat) (pg : PG) (object : HObject)
  | enter (call : Nat)
  | admitted (call : Nat)
  | completes (call : Nat) (result : Except GoError Message)
  | removes (call : Nat)
  | decides (call : Nat)
  | joins (call : Nat)
  | wakes (call : Nat) (wakeup : Wakeup)
  | contextEnds (call : Nat) (cause : ContextError)
  | receives (received : Received)
  | rawStops

/-- One atomic action, if it is possible. What takes the mutex waits for its holder. -/
def step (s : OsdSession) : SessionAction → Option OsdSession
  | .submitTarget call pg object =>
    match (s.calls call).phase with
    | .idle => some { s with calls := Function.update s.calls call { s.calls call with
        pg := pg, object := object, phase := .entering } }
    | _ => none
  | .enter call =>
    match (s.calls call).phase, s.holder with
    | .entering, none => some (s.enter call)
    | _, _ => none
  | .admitted call =>
    match (s.calls call).phase with
    | .submitted _ => some (s.unlock call)
    | _ => none
  | .completes call result =>
    match (s.calls call).phase with
    | .submitted serial => some (((s.unlock call).setPhase call (.completed serial result)).note
        (.completed call serial result))
    | _ => none
  | .removes call =>
    match (s.calls call).phase, s.holder with
    | .completed serial result, none => some (s.remove call serial result)
    | _, _ => none
  | .decides call =>
    match (s.calls call).phase with
    | .removed serial resend result => some (s.conclude call serial resend result)
    | _ => none
  | .joins call =>
    match (s.calls call).phase, s.holder with
    | .failing err, none =>
      let cause := s.failure err
      some (s.returns call (.error (.join (err.text ++ "\n" ++ cause.text) err cause)))
    | _, _ => none
  | .wakes call wakeup =>
    match (s.calls call).phase, wakeup with
    | .waiting _, .context => (s.calls call).ctxErr.map fun cause => s.returns call (.error cause.error)
    | .waiting _, .done =>
      if s.rawDone ∧ s.holder = none then some (s.returns call (.error (s.failure Sentinel.sessionClosed))) else none
    | .waiting true, .changed => some (s.setPhase call .entering)
    | _, _ => none
  | .contextEnds call cause =>
    some ({ s with calls := Function.update s.calls call { s.calls call with
      ctxErr := (s.calls call).ctxErr.or (some cause) } }.note (.contextEnded call))
  | .receives received => if s.holder = none then some (s.receive received) else none
  | .rawStops => some { s with rawDone := true }

/-- The runs of a session that starts empty. -/
def interleavings : System OsdSession SessionAction where
  start s := ∃ maxBackoffs maxBackoffBytes, s = { maxBackoffs := maxBackoffs, maxBackoffBytes := maxBackoffBytes }
  step s action s' := s.step action = some s'

end OsdSession

end RadosGo
