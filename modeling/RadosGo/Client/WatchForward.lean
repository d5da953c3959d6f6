import RadosGo.Library.Fairness
import RadosGo.Objecter.Watch

namespace RadosGo

structure WatchEvent where
  notifyID : UInt64
  cookie : UInt64
  notifier : UInt64
  data : Bytes
  deriving DecidableEq, Repr

/-- Where the goroutine of `forward` stands. -/
inductive ForwardPhase where
  | absent
  | selecting
  | received (event : WatchNotification)
  | sending (event : WatchEvent)
  | forwarding (err : GoError) (last : Bool)
  | draining
  | returning
  | closedErrors
  | finished
  deriving DecidableEq, Repr

/-- The watch of the public client. Its channel of events is not buffered and its
channel of errors has one slot; the rest is what their consumers have received. -/
structure Watch where
  inner : ObjecterWatch
  wrapError : GoError → GoError
  forward : ForwardPhase := .absent
  errors : Option GoError := none
  events : List WatchEvent := []
  received : List GoError := []
  sawClosed : Bool := false

namespace Watch

def converted (event : WatchNotification) : WatchEvent where
  notifyID := event.notifyID
  cookie := event.cookie
  notifier := event.notifierGID
  data := event.data

/-- The channel of errors has one slot: a second error is dropped. -/
def forwardError (watch : Watch) (err : GoError) : Watch :=
  { watch with errors := watch.errors.or (some (watch.wrapError err)) }

inductive WatchAction where
  | inner (action : ObjecterWatch.InnerAction)
  | starts
  | takesEvent
  | takesError
  | seesDone
  | checks
  | delivers
  | abandons
  | forwards
  | drains
  | closesErrors
  | closesEvents
  | reads
  | readsClosed
  deriving DecidableEq, Repr

/-- One atomic action, if it is possible. The inner channel of events is never
closed. -/
def step (watch : Watch) : WatchAction → Option Watch
  | .inner action => (watch.inner.step action).map fun inner => { watch with inner }
  | .starts => if watch.forward = .absent then some { watch with forward := .selecting } else none
  -- The three cases of the select; any of those which are ready may be taken.
  | .takesEvent =>
    match watch.forward, watch.inner.events with
    | .selecting, event :: rest =>
      some { watch with inner := { watch.inner with events := rest }, forward := .received event }
    | _, _ => none
  | .takesError =>
    match watch.forward, watch.inner.errors with
    | .selecting, some err =>
      some { watch with inner := { watch.inner with errors := none }, forward := .forwarding err false }
    | _, _ => none
  | .seesDone =>
    if watch.forward = .selecting ∧ watch.inner.isDone then some { watch with forward := .draining } else none
  -- An event has been received.
  | .checks =>
    match watch.forward with
    | .received event =>
      some { watch with forward := if watch.inner.isDone then .returning else .sending (converted event) }
    | _ => none
  | .delivers =>
    match watch.forward with
    | .sending event => some { watch with forward := .selecting, events := watch.events ++ [event] }
    | _ => none
  | .abandons =>
    match watch.forward with
    | .sending _ => if watch.inner.isDone then some { watch with forward := .returning } else none
    | _ => none
  | .forwards =>
    match watch.forward with
    | .forwarding err last =>
      some { watch.forwardError err with forward := if last then .returning else .selecting }
    | _ => none
  | .drains =>
    match watch.forward, watch.inner.errors with
    | .draining, some err =>
      some { watch with inner := { watch.inner with errors := none }, forward := .forwarding err true }
    | .draining, none => some { watch with forward := .returning }
    | _, _ => none
  -- The deferred calls, and the consumer of the errors.
  | .closesErrors => if watch.forward = .returning then some { watch with forward := .closedErrors } else none
  | .closesEvents => if watch.forward = .closedErrors then some { watch with forward := .finished } else none
  | .reads =>
    match watch.errors with
    | some err => some { watch with errors := none, received := watch.received ++ [err] }
    | none => none
  | .readsClosed =>
    if watch.errors = none ∧ (watch.forward = .closedErrors ∨ watch.forward = .finished) ∧ watch.sawClosed = false
    then some { watch with sawClosed := true } else none

/-- What the actions do, each in the states in which it is possible. -/
inductive Effect (s : Watch) : WatchAction → Watch → Prop
  | inner {action inner} : s.inner.step action = some inner → Effect s (.inner action) { s with inner }
  | starts : s.forward = .absent → Effect s .starts { s with forward := .selecting }
  | takesEvent {event rest} : s.forward = .selecting → s.inner.events = event :: rest →
      Effect s .takesEvent { s with inner := { s.inner with events := rest }, forward := .received event }
  | takesError {err} : s.forward = .selecting → s.inner.errors = some err →
      Effect s .takesError { s with inner := { s.inner with errors := none }, forward := .forwarding err false }
  | seesDone : s.forward = .selecting → s.inner.isDone = true → Effect s .seesDone { s with forward := .draining }
  | leaves {event} : s.forward = .received event → s.inner.isDone = true →
      Effect s .checks { s with forward := .returning }
  | goesOn {event} : s.forward = .received event → s.inner.isDone = false →
      Effect s .checks { s with forward := .sending (converted event) }
  | delivers {event} : s.forward = .sending event →
      Effect s .delivers { s with forward := .selecting, events := s.events ++ [event] }
  | abandons {event} : s.forward = .sending event → s.inner.isDone = true →
      Effect s .abandons { s with forward := .returning }
  | forwards {err last} : s.forward = .forwarding err last →
      Effect s .forwards { s.forwardError err with forward := if last then .returning else .selecting }
  | drains {err} : s.forward = .draining → s.inner.errors = some err →
      Effect s .drains { s with inner := { s.inner with errors := none }, forward := .forwarding err true }
  | drained : s.forward = .draining → s.inner.errors = none → Effect s .drains { s with forward := .returning }
  | closesErrors : s.forward = .returning → Effect s .closesErrors { s with forward := .closedErrors }
  | closesEvents : s.forward = .closedErrors → Effect s .closesEvents { s with forward := .finished }
  | reads {err} : s.errors = some err →
      Effect s .reads { s with errors := none, received := s.received ++ [err] }
  | readsClosed : s.errors = none → s.forward = .closedErrors ∨ s.forward = .finished →
      Effect s .readsClosed { s with sawClosed := true }

theorem step_effect {s t : Watch} {action : WatchAction} (step : s.step action = some t) : Effect s action t := by
  revert step
  fun_cases s.step action
  any_goals rintro ⟨⟩
  · intro step
    obtain ⟨inner, moved, rfl⟩ := Option.map_eq_some_iff.mp step
    exact .inner moved
  · next absent => exact .starts absent
  · next event selecting => exact .takesEvent selecting event
  · next err selecting => exact .takesError selecting err
  · next ready => exact .seesDone ready.1 ready.2
  · next received =>
    cases done : s.inner.isDone with
    | true => exact .leaves received done
    | false => exact .goesOn received done
  · next sending => exact .delivers sending
  · next sending done => exact .abandons sending done
  · next forwarding => exact .forwards forwarding
  · next err draining => exact .drains draining err
  · next empty draining => exact .drained draining empty
  · next returning => exact .closesErrors returning
  · next closed => exact .closesEvents closed
  · next err => exact .reads err
  · next ready => exact .readsClosed ready.1 ready.2.1

/-- The runs from the moment at which the client has entered the watch. -/
def interleavings : System Watch WatchAction where
  start watch := ∃ cookie queue wrapError, 0 < queue ∧ queue ≤ maxWatchQueue ∧
    watch = { inner := { cookie := cookie, queue := queue }, wrapError := wrapError }
  step s action t := s.step action = some t

/-- The steps of the function under `stopOnce`. -/
def Stopper (action : WatchAction) : Prop := action = .inner .reports ∨ action = .inner .closesDone

/-- The steps which `forward` makes without a consumer of its events. -/
def Forwarder (action : WatchAction) : Prop :=
  action ∈ [.takesEvent, .takesError, .seesDone, .checks, .abandons, .forwards, .drains, .closesErrors, .closesEvents]

/-- The steps of a consumer that reads the errors until their channel is closed. -/
def Reader (action : WatchAction) : Prop := action = .reads ∨ action = .readsClosed

end Watch

end RadosGo
