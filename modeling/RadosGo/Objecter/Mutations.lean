import RadosGo.Library.System
import RadosGo.Msgr.RequestTable
import RadosGo.Objecter.Request

namespace RadosGo

/-- The limits on pending mutations in a client's configuration. -/
structure MutationLimits where
  maxMutations : Nat
  maxMutationBytes : Nat
  bytes_lt : maxMutationBytes < 2 ^ 64

/-- Where a call that admits a mutation stands. Who waits holds the channel that
was current when it looked, known by its number. -/
inductive AdmissionPhase where
  | idle
  | entering (bytes : Nat)
  | waiting (bytes changed : Nat)
  | returned (result : Except GoError (Nat × Nat))
  deriving DecidableEq, Repr

/-- Where a call of `Flush` stands. -/
inductive FlushPhase where
  | idle
  | checking (watermark : Nat)
  | waiting (watermark changed : Nat)
  | returned (err : Option GoError)
  deriving DecidableEq, Repr

/-- The history of the mutations, newest first. -/
inductive MutationNote where
  | admitted (sequence bytes : Nat)
  | handedOut (transactionID : Nat)
  | completed (sequence : Nat) (err : Option GoError)
  | watermark (flush sequence : Nat)
  | flushed (flush : Nat) (err : Option GoError)
  deriving DecidableEq, Repr

/-- The part of the objecter that admits mutations. The sizes of the pending ones
are kept by sequence. Waiters are woken by closing a channel and making another
one, which takes the next number. -/
structure Mutations where
  limits : MutationLimits
  closed : Bool := false
  mutationClosed : Bool := false
  nextTransaction : Nat := 1
  nextMutation : Nat := 0
  pendingMutations : List (Nat × Nat) := []
  retainedMutationBytes : Nat := 0
  unknownMutation : Nat := 0
  mutationChanged : Nat := 0
  admissions : Nat → AdmissionPhase := fun _ => .idle
  flushes : Nat → FlushPhase := fun _ => .idle
  journal : List MutationNote := []

namespace Mutations

def note (s : Mutations) (note : MutationNote) : Mutations := { s with journal := note :: s.journal }

def setAdmission (s : Mutations) (call : Nat) (phase : AdmissionPhase) : Mutations :=
  { s with admissions := Function.update s.admissions call phase }

def setFlush (s : Mutations) (flush : Nat) (phase : FlushPhase) : Mutations :=
  { s with flushes := Function.update s.flushes flush phase }

def notifyMutationWaitersLocked (s : Mutations) : Mutations := { s with mutationChanged := s.mutationChanged + 1 }

/-- The bytes of a mutation, from the lengths of its operations' data. -/
def mutationBytes (operations : List Nat) : Except GoError Nat :=
  operations.foldlM (fun bytes length =>
    if length > maxUint64 - bytes then .error Sentinel.wireLimitExceeded else .ok (bytes + length)) 0

def takeTransactionIDLocked (s : Mutations) : Mutations × Nat :=
  let transactionID := if s.nextTransaction = 0 then 1 else s.nextTransaction
  ({ s with nextTransaction := transactionID + 1 }.note (.handedOut transactionID), transactionID)

def takeTransactionID (s : Mutations) : Except GoError (Mutations × Nat) :=
  if s.nextTransaction = maxUint64 then .error Sentinel.wireLimitExceeded else .ok s.takeTransactionIDLocked

def hasRoom (s : Mutations) (bytes : Nat) : Prop :=
  s.pendingMutations.length < s.limits.maxMutations ∧
    bytes ≤ subUint64 s.limits.maxMutationBytes s.retainedMutationBytes

instance (s : Mutations) (bytes : Nat) : Decidable (s.hasRoom bytes) := inferInstanceAs (Decidable (_ ∧ _))

/-- The mutation gets its sequence, its transaction ID and its place in the table. -/
def addMutation (s : Mutations) (call bytes : Nat) : Mutations :=
  let sequence := s.nextMutation + 1
  let taken := s.takeTransactionIDLocked
  ({ taken.1 with
      nextMutation := sequence
      pendingMutations := (sequence, bytes) :: s.pendingMutations
      retainedMutationBytes := addUint64 s.retainedMutationBytes bytes }.note (.admitted sequence bytes)).setAdmission
    call (.returned (.ok (sequence, taken.2)))

/-- One round of the loop of `admitMutationOperations`. -/
def admitMutationOperations (s : Mutations) (call bytes : Nat) : Mutations :=
  if s.closed || s.mutationClosed then s.setAdmission call (.returned (.error Sentinel.objecterClosed))
  else if s.hasRoom bytes then
    if s.nextMutation = maxUint64 ∨ s.nextTransaction = maxUint64 then
      s.setAdmission call (.returned (.error Sentinel.wireLimitExceeded))
    else s.addMutation call bytes
  else s.setAdmission call (.waiting bytes s.mutationChanged)

/-- Only the smallest sequence with an unknown outcome is kept. -/
def noteUnknown (s : Mutations) (sequence : Nat) (err : Option GoError) : Nat :=
  if errorIs err .outcomeUnknown ∧ (s.unknownMutation = 0 ∨ sequence < s.unknownMutation) then sequence
  else s.unknownMutation

def completeMutation (s : Mutations) (sequence : Nat) (err : Option GoError) : Mutations :=
  match s.pendingMutations.lookup sequence with
  | none => s
  | some bytes =>
    ({ s with
        pendingMutations := s.pendingMutations.filter fun pending => pending.1 != sequence
        retainedMutationBytes := subUint64 s.retainedMutationBytes bytes
        unknownMutation := s.noteUnknown sequence err }.note (.completed sequence err)).notifyMutationWaitersLocked

def unknownUpTo (s : Mutations) (watermark : Nat) : Bool :=
  s.unknownMutation != 0 && decide (s.unknownMutation ≤ watermark)

def pendingUpTo (s : Mutations) (watermark : Nat) : Bool :=
  s.pendingMutations.any fun pending => decide (pending.1 ≤ watermark)

def returnFlush (s : Mutations) (flush : Nat) (err : Option GoError) : Mutations :=
  (s.setFlush flush (.returned err)).note (.flushed flush err)

/-- One round of the loop of `Flush`. -/
def checkFlush (s : Mutations) (flush watermark : Nat) : Mutations :=
  if s.pendingUpTo watermark then s.setFlush flush (.waiting watermark s.mutationChanged)
  else s.returnFlush flush (if s.unknownUpTo watermark then some Sentinel.outcomeUnknown else none)

def cancelFlush (s : Mutations) (flush watermark : Nat) (cause : ContextError) : Mutations :=
  s.returnFlush flush (if s.unknownUpTo watermark then errorsJoin (some Sentinel.outcomeUnknown) (some cause.error)
    else some cause.error)

def beginShutdown (s : Mutations) : Mutations :=
  if s.mutationClosed then s else { s with mutationClosed := true }.notifyMutationWaitersLocked

def close (s : Mutations) : Mutations :=
  if s.closed then s else { s with closed := true, mutationClosed := true }.notifyMutationWaitersLocked

inductive MutationAction where
  | starts (call : Nat) (operations : List Nat)
  | enters (call : Nat)
  | wakes (call : Nat)
  | cancels (call : Nat) (cause : ContextError)
  | completes (sequence : Nat) (err : Option GoError)
  | flushStarts (flush : Nat)
  | flushChecks (flush : Nat)
  | flushWakes (flush : Nat)
  | flushCancels (flush : Nat) (cause : ContextError)
  | takesTransactionID
  | beginsShutdown
  | closes
  deriving DecidableEq, Repr

/-- One atomic action, if it is possible. -/
def step (s : Mutations) : MutationAction → Option Mutations
  | .starts call operations =>
    match s.admissions call with
    | .idle =>
      match mutationBytes operations with
      | .error err => some (s.setAdmission call (.returned (.error err)))
      | .ok bytes =>
        if bytes > s.limits.maxMutationBytes then
          some (s.setAdmission call (.returned (.error Sentinel.wireLimitExceeded)))
        else some (s.setAdmission call (.entering bytes))
    | _ => none
  | .enters call =>
    match s.admissions call with
    | .entering bytes => some (s.admitMutationOperations call bytes)
    | _ => none
  | .wakes call =>
    match s.admissions call with
    | .waiting bytes changed =>
      if changed < s.mutationChanged then some (s.setAdmission call (.entering bytes)) else none
    | _ => none
  | .cancels call cause =>
    match s.admissions call with
    | .waiting _ _ => some (s.setAdmission call (.returned (.error cause.error)))
    | _ => none
  | .completes sequence err => some (s.completeMutation sequence err)
  | .flushStarts flush =>
    match s.flushes flush with
    | .idle => some ((s.setFlush flush (.checking s.nextMutation)).note (.watermark flush s.nextMutation))
    | _ => none
  | .flushChecks flush =>
    match s.flushes flush with
    | .checking watermark => some (s.checkFlush flush watermark)
    | _ => none
  | .flushWakes flush =>
    match s.flushes flush with
    | .waiting watermark changed =>
      if changed < s.mutationChanged then some (s.setFlush flush (.checking watermark)) else none
    | _ => none
  | .flushCancels flush cause =>
    match s.flushes flush with
    | .waiting watermark _ => some (s.cancelFlush flush watermark cause)
    | _ => none
  | .takesTransactionID =>
    match s.takeTransactionID with
    | .ok taken => some taken.1
    | .error _ => some s
  | .beginsShutdown => some s.beginShutdown
  | .closes => some s.close

/-- The runs of an objecter that has just been made. -/
def interleavings : System Mutations MutationAction where
  start s := ∃ limits, s = { limits := limits }
  step s action s' := s.step action = some s'

end Mutations

end RadosGo
