import RadosGo.Msgr.Control
import RadosGo.Library.Chain

namespace RadosGo

/-- The four ways in which a request enters the session owner. -/
inductive SubmitKind where
  | submit
  | send
  | sendControl
  | sendControlGeneration (generation : Nat)
  deriving DecidableEq, Repr, Inhabited

/-- A submit command, named by the identity of its pointer. -/
structure SubmitCommand where
  id : Nat
  kind : SubmitKind
  deriving DecidableEq, Repr, Inhabited

namespace SubmitCommand

def oneWay (command : SubmitCommand) : Bool :=
  match command.kind with
  | .submit => false
  | _ => true

def control (command : SubmitCommand) : Bool :=
  match command.kind with
  | .sendControl | .sendControlGeneration _ => true
  | _ => false

def controlGeneration (command : SubmitCommand) : Nat :=
  match command.kind with
  | .sendControlGeneration generation => generation
  | _ => 0

/-- Only control requests are bound to a control generation. -/
theorem control_of_generation {command : SubmitCommand} (bound : command.controlGeneration ≠ 0) :
    command.control = true := by
  obtain ⟨id, kind⟩ := command
  cases kind <;> simp_all [controlGeneration, control]

end SubmitCommand

structure SubmitResult where
  message : Message := {}
  err : Option GoError := none
  deriving DecidableEq, Repr

structure WriteTask where
  id : Nat
  frame : Frame
  request : Option Nat := none
  seq : Nat := 0
  transactionID : Nat := 0
  deriving DecidableEq, Repr

/-- The history of an owner: what it sends on result and write-task channels,
which acknowledgments it accepts, and when it drops the replay list, starts the
outbound numbering again or starts a transport. The newest note comes first. -/
inductive Note where
  | accepted (command : SubmitCommand)
  | answered (command : SubmitCommand) (result : SubmitResult)
  | wrote (generation : Nat) (task : WriteTask)
  | acknowledged (sequence : Nat)
  | replayDropped
  | renumbered
  | started
  deriving DecidableEq, Repr

/-- The fields of a pending request beside its links and indices. -/
structure RequestData where
  request : SubmitCommand := default
  message : Message := {}
  bytes : Nat := 0
  seq : Nat := 0
  sent : Bool := false
  mayHaveExecuted : Bool := false
  deriving DecidableEq, Repr

/-- What `removePending` leaves of a request: a leased payload is given back. -/
def RequestData.released (node : RequestData) : RequestData :=
  if node.message.payloadLease.isNone then node
  else { node with message := { node.message with payloadLease := none, data := [] } }

/-- The requests of an owner. Pointers to pending requests are numbers in the
order of allocation, and every field of the requests is a map from them. -/
structure RequestTable where
  data : Nat → RequestData
  inReplay : Nat → Bool
  pending : Chain Nat
  replay : Chain Nat
  byRequest : Nat → Option Nat
  byTID : Nat → Option Nat
  retainedBytes : Nat
  controlCount : Int
  controlBytes : Nat
  inFlight : Int
  leases : Nat → Int
  allocated : Nat
  commands : Nat
  journal : List Note

/-- Unsigned 64-bit addition and subtraction wrap around. -/
def addUint64 (a b : Nat) : Nat := (a + b) % 2 ^ 64

def subUint64 (a b : Nat) : Nat := (a + 2 ^ 64 - b) % 2 ^ 64

theorem subUint64_eq {a b : Nat} (fits : a < 2 ^ 64) (enough : b ≤ a) : subUint64 a b = a - b := by
  have shift : a + 2 ^ 64 - b = (a - b) + 2 ^ 64 := by omega
  rw [subUint64, shift, Nat.add_mod_right, Nat.mod_eq_of_lt (by omega)]

theorem addUint64_eq {a b : Nat} (fits : a + b < 2 ^ 64) : addUint64 a b = a + b := Nat.mod_eq_of_lt fits

/-- The three requests which the selection loop remembers. -/
structure WriteCandidates where
  replay : Option Nat := none
  control : Option Nat := none
  application : Option Nat := none

def WriteCandidates.visit (data : Nat → RequestData) (found : WriteCandidates) (p : Nat) : WriteCandidates :=
  if (data p).sent then found
  else if (data p).seq ≠ 0 then
    match found.replay with
    | none => { found with replay := some p }
    | some best => if (data p).seq < (data best).seq then { found with replay := some p } else found
  else if (data p).request.control then
    if found.control.isNone then { found with control := some p } else found
  else if found.application.isNone then { found with application := some p }
  else found

/-- `nextPendingWrite` on the requests in list order: without control requests
the first unsent one, otherwise the oldest replay, then control, then the rest. -/
def selectWrite (data : Nat → RequestData) (withoutControl : Bool) (nodes : List Nat) : Option Nat :=
  if withoutControl then nodes.find? fun p => !(data p).sent
  else
    let found := nodes.foldl (WriteCandidates.visit data) {}
    (found.replay.or found.control).or found.application

namespace RequestTable

def initial : RequestTable where
  data := fun _ => {}
  inReplay := fun _ => false
  pending := .empty
  replay := .empty
  byRequest := fun _ => none
  byTID := fun _ => none
  retainedBytes := 0
  controlCount := 0
  controlBytes := 0
  inFlight := 0
  leases := fun _ => 1
  allocated := 0
  commands := 0
  journal := []

def answer (t : RequestTable) (command : SubmitCommand) (result : SubmitResult) : RequestTable :=
  { t with journal := .answered command result :: t.journal }

/-- A command which is answered without ever becoming a pending request. -/
def refuse (t : RequestTable) (command : SubmitCommand) (err : GoError) : RequestTable :=
  { t with
    journal := .answered command { err := some err } :: t.journal
    commands := t.commands + 1 }

/-- The end of `submit`: a new pending request enters the array, the list and
both maps, and is charged to its reserve. -/
def register (t : RequestTable) (command : SubmitCommand) (message : Message) (bytes : Nat) : RequestTable :=
  let p := t.allocated
  { t with
    data := Function.update t.data p { request := command, message := message, bytes := bytes }
    inReplay := Function.update t.inReplay p false
    pending := t.pending.append p
    byRequest := Function.update t.byRequest command.id (some p)
    byTID := Function.update t.byTID message.header.transactionID (some p)
    retainedBytes := if command.control then t.retainedBytes else addUint64 t.retainedBytes bytes
    controlCount := if command.control then t.controlCount + 1 else t.controlCount
    controlBytes := if command.control then addUint64 t.controlBytes bytes else t.controlBytes
    leases := match message.payloadLease with
      | none => t.leases
      | some lease => Function.update t.leases lease (t.leases lease + 1)
    allocated := t.allocated + 1
    commands := t.commands + 1
    journal := .accepted command :: t.journal }

def addReplay (t : RequestTable) (p : Nat) : RequestTable :=
  { t with
    inReplay := Function.update t.inReplay p true
    replay := if t.inReplay p then t.replay else t.replay.append p }

def removeReplay (t : RequestTable) (target : Nat) : RequestTable :=
  { t with
    inReplay := Function.update t.inReplay target false
    replay := if t.inReplay target then t.replay.remove target else t.replay }

def removePending (t : RequestTable) (target : Nat) : RequestTable :=
  let node := t.data target
  let t := { t with
    inFlight := if node.sent && !node.request.control then t.inFlight - 1 else t.inFlight
    pending := t.pending.remove target }
  let t := t.removeReplay target
  { t with
    byRequest := Function.update t.byRequest node.request.id none
    byTID := Function.update t.byTID node.message.header.transactionID none
    retainedBytes := if node.request.control then t.retainedBytes else subUint64 t.retainedBytes node.bytes
    controlCount := if node.request.control then t.controlCount - 1 else t.controlCount
    controlBytes := if node.request.control then subUint64 t.controlBytes node.bytes else t.controlBytes
    data := Function.update t.data target node.released
    leases := match node.message.payloadLease with
      | none => t.leases
      | some lease => Function.update t.leases lease (t.leases lease - 1) }

/-- A request leaves the table and its result channel gets the answer. -/
def finish (t : RequestTable) (p : Nat) (result : SubmitResult) : RequestTable :=
  (t.removePending p).answer (t.data p).request result

/-- Removes list heads for as long as they satisfy the test. -/
def dropReplayWhile (drop : Nat → Bool) : Nat → RequestTable → RequestTable
  | 0, t => t
  | fuel + 1, t =>
    match t.replay.head with
    | none => t
    | some head => if drop head then dropReplayWhile drop fuel (t.removeReplay head) else t

def trimReplay (t : RequestTable) (sequence : Nat) : RequestTable :=
  dropReplayWhile (fun p => decide ((t.data p).seq ≤ sequence)) t.replay.array.length t

/-- One accepted acknowledgment. -/
def acknowledge (t : RequestTable) (sequence : Nat) : RequestTable :=
  let t := t.trimReplay sequence
  { t with journal := .acknowledged sequence :: t.journal }

def unsend (t : RequestTable) (p : Nat) : RequestTable :=
  if (t.byRequest (t.data p).request.id).isSome && (t.data p).sent then
    { t with
      inFlight := if (t.data p).request.control then t.inFlight else t.inFlight - 1
      data := Function.update t.data p { t.data p with sent := false } }
  else t

def prepareReplay (t : RequestTable) : RequestTable := t.replay.array.foldl unsend t

def unknownOutcome (cause : GoError) : GoError := GoError.errorf2 Sentinel.outcomeUnknown cause

/-- The error with which `failAll` answers one request. -/
def failure (node : RequestData) (err : GoError) : GoError :=
  if node.mayHaveExecuted && !err.Is .outcomeUnknown then unknownOutcome err else err

def failAll (t : RequestTable) (err : GoError) : RequestTable :=
  let members := t.pending.array
  { t with
    journal := (members.map fun p =>
      Note.answered (t.data p).request { err := some (failure (t.data p) err) }).reverse ++ t.journal
    pending := t.pending.detach members
    replay := t.replay.detach members
    inReplay := fun p => if p ∈ members then false else t.inReplay p
    byRequest := fun _ => none
    byTID := fun _ => none
    retainedBytes := 0
    controlCount := 0
    controlBytes := 0
    inFlight := 0 }

def failSent (cause : GoError) (t : RequestTable) (p : Nat) : RequestTable :=
  if (t.data p).sent then t.finish p { err := some (unknownOutcome cause) } else t

def failSentUnknown (t : RequestTable) (cause : GoError) : RequestTable :=
  let t := t.pending.array.foldl (failSent cause) t
  let t := dropReplayWhile (fun _ => true) t.replay.array.length t
  { t with replay := { t.replay with array := [] }, journal := .replayDropped :: t.journal }

/-- The loop over the pending array, which swap-removes while it walks. -/
def invalidateFrom : Nat → Nat → RequestTable → RequestTable
  | 0, _, t => t
  | fuel + 1, index, t =>
    match t.pending.array[index]? with
    | none => t
    | some p =>
      if (t.data p).request.controlGeneration ≠ 0 then
        invalidateFrom fuel index (t.finish p { err := some Sentinel.controlInvalidated })
      else invalidateFrom fuel (index + 1) t

def invalidateControls (t : RequestTable) : RequestTable := invalidateFrom t.pending.array.length 0 t

def nextPendingWrite (t : RequestTable) : Option Nat :=
  selectWrite t.data (t.controlCount == 0) t.pending.toList

/-- The bookkeeping of `dispatch` for the request whose frame it is about to
write: it is sent, may have executed, and is listed for replay. -/
def handOver (t : RequestTable) (p : Nat) (seq : Nat) (message : Message) : RequestTable :=
  let node := t.data p
  let t := { t with
    inFlight := if node.request.control then t.inFlight else t.inFlight + 1
    data := Function.update t.data p
      { node with message := message, seq := seq, sent := true, mayHaveExecuted := true } }
  let t := t.addReplay p
  { t with
    leases := match message.payloadLease with
      | none => t.leases
      | some lease => Function.update t.leases lease (t.leases lease + 1) }

end RequestTable

end RadosGo
