import RadosGo.Library.CloseOnce
import RadosGo.Mgr.Command

namespace RadosGo

/-- Where a goroutine of `createSession` stands. After its decision it has at most one session to stop: the one it
created and did not install, or the one it replaced. -/
inductive ManagerPhase where
  | starting (stale : Option Nat)
  | checking
  | building
  | deciding (created : Option Nat) (err : Option GoError)
  | stopping (unwanted : Option Nat) (err : Option GoError)
  | finishing (err : Option GoError)
  | finished
  deriving DecidableEq

/-- A `sessionCreation` with its goroutine. Its context is canceled when it is abandoned. -/
structure ManagerCreation where
  target : ActiveTarget
  waiters : Nat := 0
  completed : Bool := false
  abandoned : Bool := false
  result : Option ManagerSession := none
  err : Option GoError := none
  phase : ManagerPhase

/-- A call of `getSession`. -/
inductive ManagerCall where
  | idle
  | waiting (target : ActiveTarget) (creation : Nat)
  | returned (target : ActiveTarget) (result : Except GoError (Option ManagerSession))

/-- A call of `invalidate`. -/
inductive ManagerInvalidation where
  | idle
  | stopping (failed : Nat)
  | returned
  deriving DecidableEq

inductive ManagerWorker where
  | creation (n : Nat)
  | invalidation (call : Nat)
  deriving DecidableEq

/-- The installed session of a manager client with all that work on it. Sessions and creations are numbered;
`installations` has every entry that was ever installed. -/
structure SessionSlot where
  gate : CloseOnce ManagerWorker (Option Nat) := {}
  mgrMap : Option MgrMap := none
  session : Option ManagerSession := none
  creations : List Nat := []
  stopped : Finset Nat := ∅
  nextSession : Nat := 0
  nextCreation : Nat := 0
  creation : Nat → Option ManagerCreation := fun _ => none
  calls : Nat → ManagerCall := fun _ => .idle
  invalidations : Nat → ManagerInvalidation := fun _ => .idle
  installations : List ManagerSession := []

namespace SessionSlot

inductive Action where
  | mapChanges (mgrMap : Option MgrMap)
  | gets (call : Nat) (target : ActiveTarget) (ctxErr : Option ContextError)
  | leaves (call : Nat) (ctxErr : Option ContextError)
  | stopsStale (n : Nat)
  | checks (n : Nat)
  | builds (n : Nat) (created : Bool) (err : Option GoError)
  | decides (n : Nat)
  | stopsUnwanted (n : Nat)
  | finishes (n : Nat)
  | invalidates (call : Nat) (active : ManagerSession)
  | stopsFailed (call : Nat)
  | closes (call : Nat)
  | stopsTaken (call : Nat)
  | waits (call : Nat)
  | joins (call : Nat)

variable (s : SessionSlot)

def setCreation (n : Nat) (creation : ManagerCreation) : SessionSlot :=
  { s with creation := Function.update s.creation n (some creation) }

def setCall (call : Nat) (phase : ManagerCall) : SessionSlot := { s with calls := Function.update s.calls call phase }

def setInvalidation (call : Nat) (phase : ManagerInvalidation) : SessionSlot :=
  { s with invalidations := Function.update s.invalidations call phase }

def setClosing (call : Nat) (phase : Closing (Option Nat)) : SessionSlot :=
  { s with gate := s.gate.setClosing call phase }

def stopAny (session : Option Nat) : SessionSlot :=
  { s with stopped :=
    match session with
    | none => s.stopped
    | some session => insert session s.stopped }

def install (entry : ManagerSession) : SessionSlot :=
  { s with session := some entry, installations := entry :: s.installations }

def remove : SessionSlot := { s with session := none }

def add (worker : ManagerWorker) : SessionSlot := { s with gate := s.gate.add worker }

def done (worker : ManagerWorker) : SessionSlot := { s with gate := s.gate.done worker }

/-- Some of the creations are abandoned. -/
def abandon (which : Nat → ManagerCreation → Bool) : SessionSlot :=
  { s with creation := fun n => (s.creation n).map fun creation =>
      if which n creation then { creation with abandoned := true } else creation }

/-- The creation is for the current target and has not been abandoned. -/
def isPending (current : Except GoError ActiveTarget) (creation : ManagerCreation) : Bool :=
  match current with
  | .ok current => sameTarget creation.target current && !creation.abandoned
  | .error _ => false

/-- The loop over the creations: the last one that is pending, and all the others abandoned. -/
def pending (current : Except GoError ActiveTarget) : Option Nat :=
  s.creations.reverse.find? fun n => (s.creation n).any (isPending current)

def abandonOthers (current : Except GoError ActiveTarget) : SessionSlot :=
  s.abandon fun n creation => decide (n ∈ s.creations) && !isPending current creation

/-- Another caller waits for a creation. -/
def await (call : Nat) (target : ActiveTarget) (n : Nat) : SessionSlot :=
  match s.creation n with
  | some creation =>
    (s.setCreation n { creation with waiters := creation.waiters + 1 }).setCall call (.waiting target n)
  | none => s

def startCreation (target : ActiveTarget) : SessionSlot :=
  let n := s.nextCreation
  let stale := s.session.map ManagerSession.session
  let s := { s.remove with nextCreation := n + 1, creations := s.creations ++ [n] }
  (s.add (.creation n)).setCreation n { target, phase := .starting stale }

/-- What follows when there is no error: the installed session, or a creation to wait for. -/
def joinSession (call : Nat) (target : ActiveTarget) (pending : Option Nat) : SessionSlot :=
  match s.session.filter fun entry => sameTarget entry.target target, pending with
  | some entry, _ => s.setCall call (.returned target (.ok (some entry)))
  | none, some n => s.await call target n
  | none, none => (s.startCreation target).await call target s.nextCreation

/-- The first locked part of `getSession`. -/
def getSession (call : Nat) (target : ActiveTarget) (ctxErr : Option ContextError) : SessionSlot :=
  if s.gate.closed then s.setCall call (.returned target (.error Sentinel.managerClosed))
  else
    match ctxErr with
    | some cause => s.setCall call (.returned target (.error cause.error))
    | none =>
      let current := currentTarget s.mgrMap
      let pending := s.pending current
      let s := s.abandonOthers current
      match current with
      | .error err => s.setCall call (.returned target (.error err))
      | .ok current =>
        if !sameTarget current target then s.setCall call (.returned target (.error Sentinel.noActiveManager))
        else s.joinSession call target pending

/-- The second locked part of `getSession`. -/
def leave (call : Nat) (target : ActiveTarget) (n : Nat) (creation : ManagerCreation) (ctxErr : Option ContextError) :
    SessionSlot :=
  let waiters := creation.waiters - 1
  let abandoned := creation.abandoned || decide (waiters = 0) && !creation.completed
  let result := if s.gate.closed then .error (Sentinel.managerClosed : GoError)
    else
      match ctxErr, creation.err with
      | some cause, _ => .error cause.error
      | none, some err => .error err
      | none, none => .ok creation.result
  (s.setCreation n { creation with waiters, abandoned }).setCall call (.returned target result)

/-- The error with which a creation goes on. -/
def decision (creation : ManagerCreation) (err : Option GoError) : Option GoError :=
  if s.gate.closed then some Sentinel.managerClosed
  else if creation.abandoned then some Sentinel.noActiveManager
  else
    match err with
    | some err => some err
    | none =>
      match currentTarget s.mgrMap with
      | .error err => some err
      | .ok current => if sameTarget current creation.target then none else some Sentinel.noActiveManager

/-- The locked part of `createSession` after the factory. -/
def settle (n : Nat) (creation : ManagerCreation) (created : Option Nat) (err : Option GoError) : SessionSlot :=
  match s.decision creation err, created with
  | none, some session =>
    match s.session.filter fun entry => sameTarget entry.target creation.target with
    | some entry => s.setCreation n { creation with result := some entry, phase := .stopping created none }
    | none =>
      let entry : ManagerSession := ⟨creation.target, session⟩
      let replaced := s.session.map ManagerSession.session
      (s.install entry).setCreation n { creation with result := some entry, phase := .stopping replaced none }
  | err, created => s.setCreation n { creation with phase := .stopping created err }

/-- `createSession` with an error when the factory has returned neither a session nor an error. -/
def factoryErr (created : Bool) (err : Option GoError) : Option GoError :=
  if err.isNone && !created then
    some (GoError.errorf Sentinel.wireMalformed "manager factory returned no session")
  else err

/-- The locked part of `invalidate`. -/
def invalidate (call : Nat) (active : ManagerSession) : SessionSlot :=
  match s.session.filter fun entry =>
    decide (entry.session = active.session) && sameTarget entry.target active.target with
  | some entry => (s.remove.add (.invalidation call)).setInvalidation call (.stopping entry.session)
  | none => s.setInvalidation call .returned

/-- The locked part of `Close`. -/
def close (call : Nat) : SessionSlot :=
  if s.gate.closed then s.setClosing call .joining
  else
    { s.remove with gate := s.gate.begin_ call (s.session.map ManagerSession.session) }.abandon fun n _ =>
      decide (n ∈ s.creations)

/-- One atomic action, if it is possible. -/
def step : Action → Option SessionSlot
  | .mapChanges mgrMap => some { s with mgrMap }
  | .gets call target ctxErr =>
    match s.calls call with
    | .idle => some (s.getSession call target ctxErr)
    | _ => none
  | .leaves call ctxErr =>
    match s.calls call with
    | .waiting target n =>
      match s.creation n with
      | some creation =>
        if creation.completed || ctxErr.isSome || s.gate.closed
        then some (s.leave call target n creation ctxErr) else none
      | none => none
    | _ => none
  | .stopsStale n =>
    match s.creation n with
    | some creation =>
      match creation.phase with
      | .starting stale => some ((s.stopAny stale).setCreation n { creation with phase := .checking })
      | _ => none
    | none => none
  | .checks n =>
    match s.creation n with
    | some creation =>
      match creation.phase with
      | .checking => some (s.setCreation n { creation with
          phase := if creation.abandoned then .deciding none (some ContextError.canceled.error) else .building })
      | _ => none
    | none => none
  | .builds n created err =>
    match s.creation n with
    | some creation =>
      match creation.phase with
      | .building =>
        if created then some ({ s with nextSession := s.nextSession + 1 }.setCreation n { creation with
          phase := .deciding (some s.nextSession) (factoryErr created err) })
        else some (s.setCreation n { creation with phase := .deciding none (factoryErr created err) })
      | _ => none
    | none => none
  | .decides n =>
    match s.creation n with
    | some creation =>
      match creation.phase with
      | .deciding created err => some (s.settle n creation created err)
      | _ => none
    | none => none
  | .stopsUnwanted n =>
    match s.creation n with
    | some creation =>
      match creation.phase with
      | .stopping unwanted err => some ((s.stopAny unwanted).setCreation n { creation with phase := .finishing err })
      | _ => none
    | none => none
  | .finishes n =>
    match s.creation n with
    | some creation =>
      match creation.phase with
      | .finishing err =>
        some (({ s with creations := s.creations.erase n }.setCreation n { creation with
          err, completed := true, phase := .finished }).done (.creation n))
      | _ => none
    | none => none
  | .invalidates call active =>
    match s.invalidations call with
    | .idle => some (s.invalidate call active)
    | _ => none
  | .stopsFailed call =>
    match s.invalidations call with
    | .stopping failed => some (((s.stopAny (some failed)).setInvalidation call .returned).done (.invalidation call))
    | _ => none
  | .closes call =>
    match s.gate.closings call with
    | .idle => some (s.close call)
    | _ => none
  | .stopsTaken call =>
    match s.gate.closings call with
    | .stopping (some session) => some ((s.stopAny (some session)).setClosing call (.stopping none))
    | _ => none
  | .waits call =>
    match s.gate.closings call with
    | .stopping none => if s.gate.workers = ∅ then some { s with gate := s.gate.finish call } else none
    | _ => none
  | .joins call =>
    match s.gate.closings call with
    | .joining => if s.gate.closeDone then some (s.setClosing call .returned) else none
    | _ => none

/-- The runs of a new client. -/
def interleavings : System SessionSlot Action where
  start s := ∃ mgrMap, s = { mgrMap }
  step s action s' := s.step action = some s'

end SessionSlot

end RadosGo
