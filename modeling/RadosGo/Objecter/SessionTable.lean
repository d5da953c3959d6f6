import RadosGo.Library.CloseOnce
import RadosGo.Library.GoMap
import RadosGo.Library.System
import RadosGo.Errors

namespace RadosGo

/-- Where an OSD is reached: the address and the generation of `sessionTarget`. -/
structure SessionTarget where
  address : String
  generation : Nat
  deriving DecidableEq, Repr

/-- Sessions are numbered in the order in which the factory returns them. -/
structure SessionEntry where
  target : SessionTarget
  session : Nat
  deriving DecidableEq, Repr

/-- Where a goroutine of `createSession` stands. -/
inductive CreationPhase where
  | starting (old : Option Nat)
  | checking
  | building
  | deciding (created : Option Nat) (err : Option GoError)
  | stopping (created : Nat) (err : GoError)
  | finishing (created : Option Nat) (err : Option GoError)
  | finished
  deriving DecidableEq

/-- A `sessionCreation` with its goroutine. Its channel `done` is closed when the goroutine has finished. -/
structure SessionCreation where
  osd : Int := 0
  target : SessionTarget := ⟨"", 0⟩
  superseded : Bool := false
  phase : CreationPhase := .finished
  result : Option Nat := none
  err : Option GoError := none

/-- A call of `getSessionContext`. -/
inductive SessionCall where
  | idle
  | entering (osd : Int)
  | waiting (osd : Int) (creation : Nat) (matched : Bool)
  | returned (result : Except GoError (Option Nat))

/-- A call of `invalidate`. -/
inductive Invalidation where
  | idle
  | entering (osd : Int) (failed : Nat)
  | waiting (osd : Int) (failed : Nat) (creation : Nat)
  | stopping (failed : Nat)
  | returned
  deriving DecidableEq

/-- The goroutine of `dispatchNotifications` which a creation starts. -/
inductive Dispatcher where
  | idle
  | running (osd : Int) (active : Nat)
  | stopping (active : Nat)
  | ended
  deriving DecidableEq

/-- The goroutine of `watchOSDMaps`, in `invalidateUnusableSessions` with what is left of the two copied tables. -/
inductive MapWatcher where
  | waiting
  | sweeping (creations : GoMap Int Nat) (sessions : GoMap Int SessionEntry)
  | invalidating (call : Nat) (sessions : GoMap Int SessionEntry)
  | ended

/-- Who has been added to the wait group of the client and is not done. -/
inductive SessionWorker where
  | creation (n : Nat)
  | invalidation (call : Nat)
  | dispatcher (n : Nat)
  | watcher
  deriving DecidableEq

/-- The sessions of a client of the objecter with all that work on them. -/
structure SessionTable where
  gate : CloseOnce SessionWorker (GoMap Int SessionEntry) := {}
  sessions : GoMap Int SessionEntry := ∅
  creations : GoMap Int Nat := ∅
  stopped : Finset Nat := ∅
  nextSession : Nat := 0
  nextCreation : Nat := 0
  creation : Nat → SessionCreation := fun _ => {}
  calls : Nat → SessionCall := fun _ => .idle
  invalidations : Nat → Invalidation := fun _ => .idle
  dispatchers : Nat → Dispatcher := fun _ => .idle
  watcher : MapWatcher := .ended

namespace SessionTable

/-- Why a waiting call goes on. -/
inductive Wakeup where
  | context (cause : ContextError)
  | closed
  | done
  deriving DecidableEq

inductive Action where
  | asks (call : Nat) (osd : Int)
  | enters (call : Nat) (ctxErr : Option ContextError) (target : Except GoError SessionTarget)
  | wakes (call : Nat) (reason : Wakeup) (ctxErr : Option ContextError) (target : Except GoError SessionTarget)
  | supersedes (osd : Int)
  | stopsOld (n : Nat)
  | checks (n : Nat)
  | builds (n : Nat) (created : Bool) (err : Option GoError)
  | decides (n : Nat) (target : Except GoError SessionTarget)
  | stopsCreated (n : Nat)
  | finishes (n : Nat) (notifies : Bool)
  | invalidates (call : Nat) (osd : Int) (failed : Nat)
  | looks (call : Nat)
  | resumes (call : Nat)
  | stopsFailed (call : Nat)
  | clientDone (n : Nat)
  | notificationsEnd (n : Nat)
  | stopsActive (n : Nat)
  | mapChanges
  | judgesCreation (osd : Int) (unusable : Bool)
  | judgesSession (osd : Int) (unusable : Bool) (call : Nat)
  | invalidated
  | sweepEnds
  | watchEnds
  | closes (call : Nat)
  | stopsTaken (call : Nat) (osd : Int)
  | waits (call : Nat)
  | joins (call : Nat)

variable (s : SessionTable)

def setCreation (n : Nat) (creation : SessionCreation) : SessionTable :=
  { s with creation := Function.update s.creation n creation }

def setPhase (n : Nat) (phase : CreationPhase) : SessionTable := s.setCreation n { s.creation n with phase }

def setCall (call : Nat) (phase : SessionCall) : SessionTable :=
  { s with calls := Function.update s.calls call phase }

def setInvalidation (call : Nat) (phase : Invalidation) : SessionTable :=
  { s with invalidations := Function.update s.invalidations call phase }

def setDispatcher (n : Nat) (phase : Dispatcher) : SessionTable :=
  { s with dispatchers := Function.update s.dispatchers n phase }

def setClosing (call : Nat) (phase : Closing (GoMap Int SessionEntry)) : SessionTable :=
  { s with gate := s.gate.setClosing call phase }

def stop (session : Nat) : SessionTable := { s with stopped := insert session s.stopped }

def stopAny : Option Nat → SessionTable
  | none => s
  | some session => s.stop session

def add (worker : SessionWorker) : SessionTable := { s with gate := s.gate.add worker }

def done (worker : SessionWorker) : SessionTable := { s with gate := s.gate.done worker }

/-- The entry for an OSD leaves the table. -/
def remove (osd : Int) : SessionTable := { s with sessions := s.sessions.erase osd }

def install (osd : Int) (entry : SessionEntry) : SessionTable := { s with sessions := s.sessions.insert osd entry }

def removeCreation (osd : Int) : SessionTable := { s with creations := s.creations.erase osd }

def supersede (n : Nat) : SessionTable := s.setCreation n { s.creation n with superseded := true }

def supersedeCreation (osd : Int) : SessionTable :=
  match s.creations.lookup osd with
  | some n => s.supersede n
  | none => s

/-- The end of the locked part of `getSessionContext`. -/
def startCreation (call : Nat) (osd : Int) (target : SessionTarget) : SessionTable :=
  let n := s.nextCreation
  let old := (s.sessions.lookup osd).map SessionEntry.session
  let s := { s with nextCreation := n + 1, creations := s.creations.insert osd n }
  (((s.remove osd).add (.creation n)).setCreation n { osd, target, phase := .starting old }).setCall call
    (.waiting osd n true)

/-- The locked part of `getSessionContext`. -/
def getSession (call : Nat) (osd : Int) (target : SessionTarget) : SessionTable :=
  if s.gate.closed then s.setCall call (.returned (.error Sentinel.objecterClosed))
  else
    match s.creations.lookup osd with
    | some n =>
      if (s.creation n).target = target then s.setCall call (.waiting osd n true)
      else (s.supersede n).setCall call (.waiting osd n false)
    | none =>
      match s.sessions.lookup osd with
      | some entry =>
        if entry.target = target then s.setCall call (.returned (.ok (some entry.session)))
        else s.startCreation call osd target
      | none => s.startCreation call osd target

def creationResult (n : Nat) (ctxErr : Option ContextError) (target : Except GoError SessionTarget) :
    Except GoError (Option Nat) :=
  if s.gate.closed then .error Sentinel.objecterClosed
  else
    match ctxErr, (s.creation n).err with
    | some cause, _ => .error cause.error
    | none, some err => .error err
    | none, none =>
      match target with
      | .ok target =>
        if target = (s.creation n).target then .ok (s.creation n).result else .error Sentinel.staleMap
      | .error _ => .error Sentinel.staleMap

/-- The error with which a creation goes on. -/
def decision (n : Nat) (created : Option Nat) (err : Option GoError) (target : Except GoError SessionTarget) :
    Option GoError :=
  let err := if s.gate.closed then some (Sentinel.objecterClosed : GoError)
    else if (s.creation n).superseded || !(decide (target.toOption = some (s.creation n).target)) then
      some (Sentinel.staleMap : GoError)
    else err
  if err.isNone && created.isNone then some (Sentinel.sessionClosed : GoError) else err

/-- The locked part of `createSession` after the factory. -/
def settle (n : Nat) (created : Option Nat) (err : Option GoError) (target : Except GoError SessionTarget) :
    SessionTable :=
  match s.decision n created err target, created with
  | none, some session =>
    (s.install (s.creation n).osd ⟨(s.creation n).target, session⟩).setPhase n (.finishing created none)
  | some err, some session => s.setPhase n (.stopping session err)
  | err, none => s.setPhase n (.finishing none err)

/-- The end of `createSession`. -/
def finish (n : Nat) (created : Option Nat) (err : Option GoError) (notifies : Bool) : SessionTable :=
  let err := if s.gate.closed && err.isNone then some (Sentinel.objecterClosed : GoError) else err
  let osd := (s.creation n).osd
  let s' := match err, created, notifies with
    | none, some session, true => (s.add (.dispatcher n)).setDispatcher n (.running osd session)
    | _, _, _ => s
  let finished := { s.creation n with phase := .finished, err, result := if err.isNone then created else none }
  ((s'.removeCreation osd).setCreation n finished).done (.creation n)

/-- The locked part of `invalidate`. -/
def lookFor (call : Nat) (osd : Int) (failed : Nat) : SessionTable :=
  match s.creations.lookup osd with
  | some n => s.setInvalidation call (.waiting osd failed n)
  | none =>
    if (s.sessions.lookup osd).map SessionEntry.session = some failed then
      ((s.remove osd).add (.invalidation call)).setInvalidation call (.stopping failed)
    else s.setInvalidation call .returned

/-- The locked part of `interruptSessionWatches`. -/
def interruptSessionWatches (n : Nat) (osd : Int) (active : Nat) : SessionTable :=
  if s.gate.closed || !decide ((s.sessions.lookup osd).map SessionEntry.session = some active) then
    (s.setDispatcher n .ended).done (.dispatcher n)
  else (s.remove osd).setDispatcher n (.stopping active)

/-- The locked part of `Close`. -/
def close (call : Nat) : SessionTable :=
  if s.gate.closed then s.setClosing call .joining
  else { s with gate := s.gate.begin_ call s.sessions, sessions := ∅ }

/-- One atomic action, if it is possible. The contexts, what `sessionTarget` and the factory return, and what the map
says about an OSD are part of the action. -/
def step : Action → Option SessionTable
  | .asks call osd =>
    match s.calls call with
    | .idle => some (s.setCall call (.entering osd))
    | _ => none
  | .enters call ctxErr target =>
    match s.calls call with
    | .entering osd =>
      match ctxErr, target with
      | some cause, _ => some (s.setCall call (.returned (.error cause.error)))
      | none, .error err => some (s.setCall call (.returned (.error err)))
      | none, .ok target => some (s.getSession call osd target)
    | _ => none
  | .wakes call reason ctxErr target =>
    match s.calls call with
    | .waiting osd n matched =>
      match reason with
      | .context cause => some (s.setCall call (.returned (.error cause.error)))
      | .closed => if s.gate.closed then some (s.setCall call (.returned (.error Sentinel.objecterClosed))) else none
      | .done =>
        if (s.creation n).phase ≠ .finished then none
        else if matched then some (s.setCall call (.returned (s.creationResult n ctxErr target)))
        else some (s.setCall call (.entering osd))
    | _ => none
  | .supersedes osd => some (s.supersedeCreation osd)
  | .stopsOld n =>
    match (s.creation n).phase with
    | .starting old => some ((s.stopAny old).setPhase n .checking)
    | _ => none
  | .checks n =>
    match (s.creation n).phase with
    | .checking =>
      some (s.setPhase n (if s.gate.closed then .deciding none (some Sentinel.objecterClosed) else .building))
    | _ => none
  | .builds n created err =>
    match (s.creation n).phase with
    | .building =>
      some (if created then { s with nextSession := s.nextSession + 1 }.setPhase n
        (.deciding (some s.nextSession) err) else s.setPhase n (.deciding none err))
    | _ => none
  | .decides n target =>
    match (s.creation n).phase with
    | .deciding created err => some (s.settle n created err target)
    | _ => none
  | .stopsCreated n =>
    match (s.creation n).phase with
    | .stopping created err => some ((s.stop created).setPhase n (.finishing (some created) (some err)))
    | _ => none
  | .finishes n notifies =>
    match (s.creation n).phase with
    | .finishing created err => some (s.finish n created err notifies)
    | _ => none
  | .invalidates call osd failed =>
    match s.invalidations call with
    | .idle => some (s.setInvalidation call (.entering osd failed))
    | _ => none
  | .looks call =>
    match s.invalidations call with
    | .entering osd failed => some (s.lookFor call osd failed)
    | _ => none
  | .resumes call =>
    match s.invalidations call with
    | .waiting osd failed n =>
      if (s.creation n).phase = .finished then some (s.setInvalidation call (.entering osd failed)) else none
    | _ => none
  | .stopsFailed call =>
    match s.invalidations call with
    | .stopping failed => some (((s.stop failed).setInvalidation call .returned).done (.invalidation call))
    | _ => none
  | .clientDone n =>
    match s.dispatchers n with
    | .running _ _ => if s.gate.closed then some ((s.setDispatcher n .ended).done (.dispatcher n)) else none
    | _ => none
  | .notificationsEnd n =>
    match s.dispatchers n with
    | .running osd active => some (s.interruptSessionWatches n osd active)
    | _ => none
  | .stopsActive n =>
    match s.dispatchers n with
    | .stopping active => some (((s.stop active).setDispatcher n .ended).done (.dispatcher n))
    | _ => none
  | .mapChanges =>
    match s.watcher with
    | .waiting => some { s with watcher := .sweeping s.creations s.sessions }
    | _ => none
  | .judgesCreation osd unusable =>
    match s.watcher with
    | .sweeping creations sessions =>
      match creations.lookup osd with
      | some n =>
        let s' := { s with watcher := .sweeping (creations.erase osd) sessions }
        some (if unusable && decide (s.creations.lookup osd = some n) then s'.supersede n else s')
      | none => none
    | _ => none
  | .judgesSession osd unusable call =>
    match s.watcher with
    | .sweeping creations sessions =>
      match sessions.lookup osd, s.invalidations call with
      | some entry, .idle =>
        if creations ≠ ∅ then none
        else if unusable then
          some ({ s with watcher := .invalidating call (sessions.erase osd) }.setInvalidation call
            (.entering osd entry.session))
        else some { s with watcher := .sweeping ∅ (sessions.erase osd) }
      | _, _ => none
    | _ => none
  | .invalidated =>
    match s.watcher with
    | .invalidating call sessions =>
      if s.invalidations call = .returned then some { s with watcher := .sweeping ∅ sessions } else none
    | _ => none
  | .sweepEnds =>
    match s.watcher with
    | .sweeping creations sessions =>
      if creations = ∅ ∧ sessions = ∅ then some { s with watcher := .waiting } else none
    | _ => none
  | .watchEnds =>
    match s.watcher with
    | .waiting => some ({ s with watcher := .ended }.done .watcher)
    | _ => none
  | .closes call =>
    match s.gate.closings call with
    | .idle => some (s.close call)
    | _ => none
  | .stopsTaken call osd =>
    match s.gate.closings call with
    | .stopping sessions =>
      match sessions.lookup osd with
      | some entry => some ((s.stop entry.session).setClosing call (.stopping (sessions.erase osd)))
      | none => none
    | _ => none
  | .waits call =>
    match s.gate.closings call with
    | .stopping sessions =>
      if sessions = ∅ ∧ s.gate.workers = ∅ then some { s with gate := s.gate.finish call } else none
    | _ => none
  | .joins call =>
    match s.gate.closings call with
    | .joining => if s.gate.closeDone then some (s.setClosing call .returned) else none
    | _ => none

/-- The runs of a new client, whose source of maps may be one that can be watched. -/
def interleavings : System SessionTable Action where
  start s := s = {} ∨ s = { watcher := .waiting, gate := { workers := {.watcher} } }
  step s action s' := s.step action = some s'

end SessionTable

end RadosGo
