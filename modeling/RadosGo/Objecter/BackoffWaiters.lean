import RadosGo.Library.GoMap
import RadosGo.Objecter.OsdSession

namespace RadosGo

/-- The record of a placement group: the channel which its next change closes, and who holds the record. -/
structure BackoffWaiters where
  changed : Nat := 0
  count : Int := 0
  deriving DecidableEq, Repr

/-- Where a call stands that waits for the backoffs of a placement group. -/
inductive WaiterPhase where
  | idle
  | looking
  | blocked (record channel : Nat)
  | leaving (record : Nat) (err : Option GoError)
  | proceeds
  | returned (err : GoError)
  deriving DecidableEq, Repr

/-- The record that a call has to give back. -/
def WaiterPhase.record : WaiterPhase → Option Nat
  | .blocked record _ | .leaving record _ => some record
  | _ => none

structure Waiter where
  pg : PG := ⟨0, 0, 0⟩
  object : HObject := {}
  ctxErr : Option ContextError := none
  phase : WaiterPhase := .idle
  deriving DecidableEq, Repr

/-- A session with the channels on which calls wait for its backoffs. Records and channels are numbered. -/
structure WaitSession where
  session : OsdSession
  backoffWaiters : GoMap PG Nat := ∅
  records : Nat → BackoffWaiters := fun _ => {}
  newRecord : Nat := 0
  newChannel : Nat := 0
  closed : Finset Nat := ∅
  waiters : Nat → Waiter := fun _ => {}

namespace WaitSession

def onSession (w : WaitSession) (session : OsdSession) : WaitSession := { w with session := session }

def setWaiter (w : WaitSession) (call : Nat) (waiter : Waiter) : WaitSession :=
  { w with waiters := Function.update w.waiters call waiter }

def setPhase (w : WaitSession) (call : Nat) (phase : WaiterPhase) : WaitSession :=
  w.setWaiter call { w.waiters call with phase := phase }

/-- The record and the channel that the call waits on, and the session with them. -/
def subscribeBackoff (w : WaitSession) (pg : PG) : Nat × Nat × WaitSession :=
  match w.backoffWaiters.lookup pg with
  | some record =>
    (record, (w.records record).changed, { w with
      records := Function.update w.records record { w.records record with count := (w.records record).count + 1 } })
  | none =>
    (w.newRecord, w.newChannel, { w with
      backoffWaiters := w.backoffWaiters.insert pg w.newRecord
      records := Function.update w.records w.newRecord ⟨w.newChannel, 1⟩
      newRecord := w.newRecord + 1
      newChannel := w.newChannel + 1 })

/-- The deferred function of `waitBackoff`. -/
def unsubscribe (w : WaitSession) (pg : PG) (record : Nat) : WaitSession :=
  let count := (w.records record).count - 1
  { w with
    records := Function.update w.records record { w.records record with count := count }
    backoffWaiters := if count = 0 then w.backoffWaiters.erase pg else w.backoffWaiters }

def wakeBackoffPG (w : WaitSession) (pg : PG) : WaitSession :=
  match w.backoffWaiters.lookup pg with
  | none => w
  | some record =>
    { w with
      closed := insert (w.records record).changed w.closed
      records := Function.update w.records record { w.records record with changed := w.newChannel }
      newChannel := w.newChannel + 1 }

/-- The loop meets the placement groups in the given order. -/
def wakeAllBackoffs (w : WaitSession) (order : List PG) : WaitSession := order.foldl wakeBackoffPG w

/-- The part of `Wait` and `submitTarget` in which the session is locked. -/
def look (w : WaitSession) (call : Nat) : WaitSession :=
  match w.session.err with
  | some err => w.setPhase call (.returned err)
  | none =>
    if w.session.blocked (w.waiters call).pg (w.waiters call).object then
      let (record, channel, w) := w.subscribeBackoff (w.waiters call).pg
      w.setPhase call (.blocked record channel)
    else w.setPhase call .proceeds

/-- What the `select` of `waitBackoff` returns for a ready channel. -/
def ready (w : WaitSession) (call channel : Nat) : OsdSession.Wakeup → Option (Option GoError)
  | .context => (w.waiters call).ctxErr.map fun cause => some cause.error
  | .done => if w.session.rawDone then some (some (w.session.failure Sentinel.sessionClosed)) else none
  | .changed => if channel ∈ w.closed then some none else none

def leave (w : WaitSession) (call record : Nat) (err : Option GoError) : WaitSession :=
  (w.unsubscribe (w.waiters call).pg record).setPhase call (err.elim .looking .returned)

def removeBackoff (w : WaitSession) (id : Nat) : WaitSession × Option Backoff :=
  match w.session.removeBackoff id with
  | (session, none) => (w.onSession session, none)
  | (session, some backoff) => ((w.onSession session).wakeBackoffPG backoff.pg, some backoff)

def addBackoff (w : WaitSession) (backoff : Backoff) : WaitSession × Option GoError :=
  match w.session.addBackoff backoff with
  | (session, some err) => (w.onSession session, some err)
  | (session, none) => (((w.removeBackoff backoff.id).1.onSession session).wakeBackoffPG backoff.pg, none)

/-- The backoffs are forgotten and everyone is woken. -/
def reconcile (w : WaitSession) (order : List PG) : WaitSession :=
  (w.onSession w.session.reconcile).wakeAllBackoffs order

def fail (w : WaitSession) (err : GoError) (order : List PG) : WaitSession :=
  if w.session.err.isNone then (w.onSession (w.session.fail err)).wakeAllBackoffs order else w

/-- The end of the receive loop, which forgets the backoffs of the failed session. -/
def finish (w : WaitSession) : WaitSession := w.onSession { w.session with backoffs := [], backoffBytes := 0 }

inductive Action where
  | calls (call : Nat) (pg : PG) (object : HObject)
  | looks (call : Nat)
  | selects (call : Nat) (wakeup : OsdSession.Wakeup)
  | leaves (call : Nat)
  | contextEnds (call : Nat) (cause : ContextError)
  | rawStops
  | addBackoff (backoff : Backoff)
  | removeBackoff (id : Nat)
  | reconcile (order : List PG)
  | fail (err : GoError) (order : List PG)
  | finish

/-- The sections of the mutex, and what calls meet outside of it. The sections of the receive loop are made of the
last five. -/
inductive Step (w : WaitSession) : Action → WaitSession → Prop where
  | calls {call : Nat} (idle : (w.waiters call).phase = .idle) (pg : PG) (object : HObject) :
      Step w (.calls call pg object) (w.setWaiter call { w.waiters call with pg, object, phase := .looking })
  | looks {call : Nat} (looking : (w.waiters call).phase = .looking) : Step w (.looks call) (w.look call)
  | selects {call record channel : Nat} {wakeup : OsdSession.Wakeup} {err : Option GoError}
      (blocked : (w.waiters call).phase = .blocked record channel) (ready : w.ready call channel wakeup = some err) :
      Step w (.selects call wakeup) (w.setPhase call (.leaving record err))
  | leaves {call record : Nat} {err : Option GoError} (leaving : (w.waiters call).phase = .leaving record err) :
      Step w (.leaves call) (w.leave call record err)
  | contextEnds (call : Nat) (cause : ContextError) : Step w (.contextEnds call cause)
      (w.setWaiter call { w.waiters call with ctxErr := (w.waiters call).ctxErr.or (some cause) })
  | rawStops : Step w .rawStops (w.onSession { w.session with rawDone := true })
  | addBackoff {backoff : Backoff} {next : WaitSession} (added : w.addBackoff backoff = (next, none)) :
      Step w (.addBackoff backoff) next
  | removeBackoff (id : Nat) : Step w (.removeBackoff id) (w.removeBackoff id).1
  | reconcile {order : List PG} (orders : w.backoffWaiters.IsOrder order) :
      Step w (.reconcile order) (w.reconcile order)
  | fail {order : List PG} (orders : w.backoffWaiters.IsOrder order) (err : GoError) :
      Step w (.fail err order) (w.fail err order)
  | finish (failed : w.session.err ≠ none) : Step w .finish w.finish

/-- The runs of a session that starts empty. -/
def interleavings : System WaitSession Action where
  start w := ∃ session, OsdSession.interleavings.start session ∧ w = { session := session }
  step := Step

end WaitSession

end RadosGo
