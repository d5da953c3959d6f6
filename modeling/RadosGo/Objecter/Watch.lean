import RadosGo.Wire.Codec

namespace RadosGo

structure WatchNotification where
  cookie : UInt64 := 0
  version : UInt64 := 0
  notifyID : UInt64 := 0
  opcode : UInt8
  data : Bytes := []
  result : Int32 := 0
  notifierGID : UInt64 := 0
  deriving DecidableEq, Repr

def watchEventNotify : UInt8 := 1

def watchEventComplete : UInt8 := 2

def watchEventDisconnect : UInt8 := 3

def maxWatchQueue : Nat := 65536

/-- The `stopOnce` of a watch, with the place in the function which runs under it.
An error is the argument of `stop`; `Close` has none. -/
inductive StopOnce where
  | fresh
  | stopping (err : Option GoError)
  | closing
  | leaving (err : Option GoError)
  | finished (err : Option GoError)
  deriving DecidableEq, Repr

/-- Where the notification loop of a session stands. -/
inductive DispatchPhase where
  | idle
  | received (notification : WatchNotification)
  | admitting (notification : WatchNotification)
  | saturated
  | stopping
  deriving DecidableEq, Repr

/-- The watch of the objecter: its channels of events and errors, of which the
second has one slot, whether the client still knows it, and the notification
loops of the sessions. -/
structure ObjecterWatch where
  cookie : UInt64
  queue : Nat
  registered : Bool := true
  events : List WatchNotification := []
  errors : Option GoError := none
  stopOnce : StopOnce := .fresh
  dispatch : Nat → DispatchPhase := fun _ => .idle

namespace ObjecterWatch

/-- Whether the channel `done` is closed. -/
def isDone (watch : ObjecterWatch) : Bool :=
  match watch.stopOnce with
  | .finished _ => true
  | _ => false

/-- The error with which the watch was stopped, as opposed to closed. -/
def stoppedWith (watch : ObjecterWatch) : Option GoError :=
  match watch.stopOnce with
  | .stopping err | .leaving err | .finished err => err
  | .fresh | .closing => none

def setDispatch (watch : ObjecterWatch) (session : Nat) (phase : DispatchPhase) : ObjecterWatch :=
  { watch with dispatch := Function.update watch.dispatch session phase }

/-- A select with a default sends into the only slot of the channel if it is free. -/
def offerError (watch : ObjecterWatch) (err : Option GoError) : ObjecterWatch :=
  { watch with errors := watch.errors.or err }

def reportInterruption (watch : ObjecterWatch) (err : Option GoError) : ObjecterWatch :=
  watch.offerError (errorsJoin (some Sentinel.watchInterrupted) err)

/-- A call of `stop` that gets to run the function. -/
def stop (watch : ObjecterWatch) (err : Option GoError) : Option ObjecterWatch :=
  match watch.stopOnce with
  | .fresh => some { watch with stopOnce := .stopping err }
  | _ => none

def saturationError : Option GoError :=
  errorsJoin (some Sentinel.watchInterrupted) (some Sentinel.queueSaturated)

/-- The steps of the notification loops by name; the calls which other parts of
the client make at any time (`interrupted`, `unregistered`, `stopped`, `closes`); and
the steps of the function that runs under `stopOnce`. -/
inductive InnerAction where
  | notified (session : Nat) (notification : WatchNotification)
  | examines (session : Nat)
  | admits (session : Nat)
  | skips (session : Nat)
  | saturates (session : Nat)
  | removes (session : Nat)
  | stops (session : Nat)
  | interrupted (err : Option GoError)
  | unregistered
  | stopped (err : GoError)
  | closes
  | reports
  | closesDone
  deriving DecidableEq, Repr

/-- One atomic action on the watch, if it is possible. -/
def step (watch : ObjecterWatch) : InnerAction → Option ObjecterWatch
  | .notified session notification =>
    -- Completions go to the call of `Notify`; a watch is looked up by its cookie.
    if watch.dispatch session = .idle ∧ notification.opcode ≠ watchEventComplete ∧
        watch.registered ∧ notification.cookie = watch.cookie
    then some (watch.setDispatch session (.received notification)) else none
  | .examines session =>
    match watch.dispatch session with
    | .received notification =>
      if notification.opcode = watchEventDisconnect
      then some ((watch.reportInterruption (some Sentinel.sessionClosed)).setDispatch session .idle)
      else some (watch.setDispatch session (if watch.isDone then .idle else .admitting notification))
    | _ => none
  | .admits session =>
    match watch.dispatch session with
    | .admitting notification =>
      if watch.events.length < watch.queue
      then some ({ watch with events := watch.events ++ [notification] }.setDispatch session .idle) else none
    | _ => none
  | .skips session =>
    match watch.dispatch session with
    | .admitting _ => if watch.isDone then some (watch.setDispatch session .idle) else none
    | _ => none
  | .saturates session =>
    match watch.dispatch session with
    | .admitting _ =>
      if watch.events.length < watch.queue ∨ watch.isDone then none else some (watch.setDispatch session .saturated)
    | _ => none
  | .removes session =>
    if watch.dispatch session = .saturated
    then some ({ watch with registered := false }.setDispatch session .stopping)
    else none
  | .stops session =>
    -- The loop goes on once the function has run, whoever has run it.
    if watch.dispatch session = .stopping
    then if watch.isDone then some (watch.setDispatch session .idle) else watch.stop saturationError
    else none
  | .interrupted err => some (watch.reportInterruption err)
  | .unregistered => some { watch with registered := false }
  | .stopped err => watch.stop (some err)
  | .closes => if watch.stopOnce = .fresh then some { watch with stopOnce := .closing } else none
  | .reports =>
    match watch.stopOnce with
    | .stopping err => some { watch.offerError err with stopOnce := .leaving err }
    | .closing => some { watch with registered := false, stopOnce := .leaving none }
    | _ => none
  | .closesDone =>
    match watch.stopOnce with
    | .leaving err => some { watch with stopOnce := .finished err }
    | _ => none

/-- An offered error never displaces one. -/
theorem offerError_errors {watch : ObjecterWatch} {err : Option GoError} (waits : watch.errors ≠ none) :
    (watch.offerError err).errors ≠ none := by
  obtain ⟨old, eq⟩ := Option.ne_none_iff_exists'.mp waits
  simp [offerError, eq]

/-- What a step does to the function under `stopOnce`: nothing, or one step of it. -/
inductive StopMoves (s t : ObjecterWatch) : Prop
  | stays : t.stopOnce = s.stopOnce → StopMoves s t
  | enters (err : Option GoError) : s.stopOnce = .fresh → t.stopOnce = .stopping err → StopMoves s t
  | enters_close : s.stopOnce = .fresh → t.stopOnce = .closing → StopMoves s t
  | reports (err : Option GoError) : s.stopOnce = .stopping err → t.stopOnce = .leaving err →
      (err ≠ none → t.errors ≠ none) → StopMoves s t
  | removes : s.stopOnce = .closing → t.stopOnce = .leaving none → StopMoves s t
  | closes (err : Option GoError) : s.stopOnce = .leaving err → t.stopOnce = .finished err → StopMoves s t

/-- A step loses no error, and moves the stopping function on by at most one place. -/
theorem step_effect {s t : ObjecterWatch} {action : InnerAction} (step : s.step action = some t) :
    (s.errors ≠ none → t.errors ≠ none) ∧ StopMoves s t := by
  have entered : ∀ err, s.stop err = some t → (s.errors ≠ none → t.errors ≠ none) ∧ StopMoves s t := by
    intro err stop
    unfold ObjecterWatch.stop at stop
    split at stop
    case h_1 fresh =>
      cases stop
      exact ⟨id, .enters err fresh rfl⟩
    case h_2 => cases stop
  revert step
  fun_cases s.step action
  any_goals exact entered _
  all_goals rintro ⟨⟩
  any_goals exact ⟨offerError_errors, .stays rfl⟩
  any_goals exact ⟨id, .stays rfl⟩
  · next fresh => exact ⟨id, .enters_close fresh rfl⟩
  · next err stopping =>
    refine ⟨offerError_errors, .reports err stopping rfl fun given => ?_⟩
    simp [offerError, given]
  · next closing => exact ⟨id, .removes closing rfl⟩
  · next err leaving => exact ⟨id, .closes err leaving rfl⟩

end ObjecterWatch

end RadosGo
