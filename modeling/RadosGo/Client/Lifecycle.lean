import RadosGo.Objecter.Mutations

namespace RadosGo

/-- The context of an operation. Once it has ended it tells whether a call on the
client ended it, by canceling the client's lifetime. -/
inductive ContextState where
  | live
  | ended (cause : ContextError) (lifetimeCanceledBy : Option Nat)
  deriving DecidableEq, Repr

/-- A call that changes an object: its context, the reply of the OSD, and what it
returned. -/
structure MutationCall where
  began : Bool := false
  deadline : Bool := false
  context : ContextState := .live
  reply : Option Reply := none
  result : Option (Except GoError Reply) := none
  deriving DecidableEq, Repr

/-- Where a call of `Shutdown` or `Close` stands. -/
inductive LifecyclePhase where
  | idle
  | joining
  | canceling
  | beginning
  | flushing
  | finishing (err : Option GoError)
  | waiting (err : Option GoError)
  | returned (err : Option GoError)
  deriving DecidableEq, Repr

/-- A call of `Shutdown` or `Close`, and the end of its bounded context. -/
structure LifecycleCall where
  phase : LifecyclePhase := .idle
  expired : Option ContextError := none
  deriving DecidableEq, Repr

/-- A connected client with its objecter. The lifetime is canceled by the call whose
number is kept. -/
structure RadosClient where
  operationTimeout : Nat
  objects : Mutations
  closing : Bool := false
  closed : Bool := false
  closeDone : Bool := false
  workers : Nat := 0
  canceledBy : Option Nat := none
  mutations : Nat → MutationCall := fun _ => {}
  calls : Nat → LifecycleCall := fun _ => {}

namespace RadosClient

def setMutation (s : RadosClient) (op : Nat) (mutation : MutationCall) : RadosClient :=
  { s with mutations := Function.update s.mutations op mutation }

def setPhase (s : RadosClient) (call : Nat) (phase : LifecyclePhase) : RadosClient :=
  { s with calls := Function.update s.calls call { s.calls call with phase := phase } }

/-- Whether a bounded context has a deadline. -/
def boundedContext (hasDeadline : Bool) (timeout : Nat) : Bool := hasDeadline || timeout != 0

/-- The sequence under which the mutation of a call has been admitted. -/
def sequence (s : RadosClient) (op : Nat) : Option Nat :=
  match s.objects.admissions op with
  | .returned (.ok (sequence, _)) => some sequence
  | _ => none

def replyResult (reply : Reply) : Except GoError Reply :=
  if reply.result < 0 then .error (.errno reply.result) else .ok reply

def errOf : Except GoError Reply → Option GoError
  | .error err => some err
  | .ok _ => none

/-- A call returns: its context is no longer of interest and it is not a worker. -/
def returns (s : RadosClient) (op : Nat) (result : Except GoError Reply) : RadosClient :=
  { s.setMutation op { s.mutations op with result := some result } with workers := s.workers - 1 }

/-- The call returns, and its mutation is no longer pending. -/
def complete (s : RadosClient) (op sequence : Nat) (result : Except GoError Reply) : RadosClient :=
  { s with objects := s.objects.completeMutation sequence (errOf result) }.returns op result

/-- Canceling a context again changes nothing. -/
def cancelLifetime (s : RadosClient) (call : Nat) : RadosClient :=
  { s with canceledBy := s.canceledBy.or (some call) }

/-- The locked part of `finishClose`, the end of the lifetime and the end of the
objecter. -/
def finishClose (s : RadosClient) (call : Nat) : RadosClient :=
  let s := { s with closed := true }.cancelLifetime call
  { s with objects := s.objects.close }

/-- The steps of the objecter which the calls can make now. -/
def permits (s : RadosClient) : Mutations.MutationAction → Bool
  | .enters _ | .wakes _ | .takesTransactionID => true
  | .cancels op cause =>
    match (s.mutations op).context with
    | .ended cause' _ => cause == cause'
    | .live => false
  | .flushStarts call | .flushChecks call | .flushWakes call => (s.calls call).phase == .flushing
  | .flushCancels call cause => (s.calls call).phase == .flushing && (s.calls call).expired == some cause
  | .starts _ _ | .completes _ _ | .beginsShutdown | .closes => false

/-- `Shutdown` and `Close` start with the same test; only the first call goes on. -/
def claim (s : RadosClient) (call : Nat) (phase : LifecyclePhase) : RadosClient :=
  if s.closed || s.closing then s.setPhase call .joining else { s with closing := true }.setPhase call phase

inductive ClientAction where
  | begins (op : Nat) (hasDeadline : Bool) (operations : List Nat)
  | objects (action : Mutations.MutationAction)
  | refused (op : Nat)
  | replies (op : Nat) (reply : Reply)
  | finishes (op : Nat)
  | fails (op : Nat) (err : GoError)
  | expires (op : Nat) (cause : ContextError)
  | lifetimeCancels (op : Nat)
  | shutdown (call : Nat)
  | close (call : Nat)
  | cancelsLifetime (call : Nat)
  | beginsShutdown (call : Nat)
  | flushed (call : Nat)
  | finishesClose (call : Nat)
  | waited (call : Nat)
  | joined (call : Nat)
  | joinExpires (call : Nat)
  | callExpires (call : Nat) (cause : ContextError)
  deriving DecidableEq, Repr

/-- One atomic action, if it is possible. The function which `operationContext`
registers with the lifetime runs in a goroutine of its own. -/
def step (s : RadosClient) : ClientAction → Option RadosClient
  | .begins op hasDeadline operations =>
    if s.closing || s.closed || (s.mutations op).began then none
    else (s.objects.step (.starts op operations)).map fun objects =>
      { s with objects, workers := s.workers + 1 }.setMutation op
        { began := true, deadline := boundedContext hasDeadline s.operationTimeout }
  | .objects action =>
    if s.permits action then (s.objects.step action).map fun objects => { s with objects } else none
  | .refused op =>
    match s.objects.admissions op, (s.mutations op).result with
    | .returned (.error err), none => some (s.returns op (.error err))
    | _, _ => none
  | .replies op reply =>
    match s.sequence op, (s.mutations op).result, (s.mutations op).reply with
    | some _, none, none => some (s.setMutation op { s.mutations op with reply := some reply })
    | _, _, _ => none
  | .finishes op =>
    match s.sequence op, (s.mutations op).result, (s.mutations op).reply with
    | some sequence, none, some reply => some (s.complete op sequence (replyResult reply))
    | _, _, _ => none
  | .fails op err =>
    -- The loop of attempts gives up without a reply, or because its context has ended.
    match s.sequence op, (s.mutations op).result with
    | some sequence, none =>
      if (s.mutations op).reply = none ∨ (s.mutations op).context ≠ .live
      then some (s.complete op sequence (.error err)) else none
    | _, _ => none
  | .expires op cause =>
    match (s.mutations op).context with
    | .live => some (s.setMutation op { s.mutations op with context := .ended cause none })
    | .ended _ _ => none
  | .lifetimeCancels op =>
    match s.canceledBy, (s.mutations op).began, (s.mutations op).result, (s.mutations op).context with
    | some call, true, none, .live =>
      some (s.setMutation op { s.mutations op with context := .ended .canceled (some call) })
    | _, _, _, _ => none
  | .shutdown call => if (s.calls call).phase = .idle then some (s.claim call .canceling) else none
  | .close call => if (s.calls call).phase = .idle then some (s.claim call (.finishing none)) else none
  | .cancelsLifetime call =>
    if (s.calls call).phase = .canceling then some ((s.cancelLifetime call).setPhase call .beginning) else none
  | .beginsShutdown call =>
    if (s.calls call).phase = .beginning
    then some ({ s with objects := s.objects.beginShutdown }.setPhase call .flushing) else none
  | .flushed call =>
    match (s.calls call).phase, s.objects.flushes call with
    | .flushing, .returned err => some (s.setPhase call (.finishing err))
    | _, _ => none
  | .finishesClose call =>
    match (s.calls call).phase with
    | .finishing err => some ((s.finishClose call).setPhase call (.waiting err))
    | _ => none
  | .waited call =>
    match (s.calls call).phase, s.workers with
    | .waiting err, 0 => some ({ s with closeDone := true }.setPhase call (.returned err))
    | _, _ => none
  | .joined call =>
    if (s.calls call).phase = .joining ∧ s.closeDone then some (s.setPhase call (.returned none)) else none
  | .joinExpires call =>
    match (s.calls call).phase, (s.calls call).expired with
    | .joining, some cause => some (s.setPhase call (.returned (some cause.error)))
    | _, _ => none
  | .callExpires call cause =>
    some { s with calls := Function.update s.calls call { s.calls call with
      expired := (s.calls call).expired.or (some cause) } }

/-- The runs of a client that has just connected. -/
def interleavings : System RadosClient ClientAction where
  start s := ∃ operationTimeout limits, s = { operationTimeout := operationTimeout, objects := { limits := limits } }
  step s action s' := s.step action = some s'

end RadosClient

end RadosGo
