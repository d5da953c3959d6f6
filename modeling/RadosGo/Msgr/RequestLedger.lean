import RadosGo.Library.History
import RadosGo.Msgr.SessionRun
import RadosGo.Msgr.WriteSelection

namespace RadosGo

/-- The requests of an owner without pointers: the live ones in the order of
their admission, and those listed for replay. -/
structure RequestBook where
  data : Nat → RequestData
  queue : List Nat
  replay : List Nat
  allocated : Nat
  commands : Nat
  journal : List Note

/-- How far the current transport of a session has come. -/
inductive Stage where
  | offline
  | handshake
  | ready
  | stopped
  deriving DecidableEq, Repr

/-- What decides, beside the requests, which changes an owner may make. -/
structure OwnerStatus where
  counter : SequenceCounter
  generation : Nat
  stage : Stage
  terminalErr : Option GoError

/-- The requests of an owner with their history, and the status of the owner. -/
structure Ledger extends RequestBook, OwnerStatus

/-- The frame of a request under the numbers in its header. -/
def requestFrame (message : Message) : Frame where
  tag := .message
  segments := (messageAlignments.zip (encodeMessageHeader message.header :: message.payload)).map
    fun entry => Segment.mk entry.1 entry.2
  payloadLease := message.payloadLease

/-- The write task of a request. -/
def requestTask (id seq : Nat) (request : SubmitCommand) (message : Message) : WriteTask where
  id := id
  frame := requestFrame message
  request := some request.id
  seq := seq
  transactionID := message.header.transactionID

namespace RequestBook

def refuse (b : RequestBook) (command : SubmitCommand) (err : GoError) : RequestBook :=
  { b with
    commands := b.commands + 1
    journal := .answered command { err := some err } :: b.journal }

def register (b : RequestBook) (command : SubmitCommand) (message : Message) (bytes : Nat) : RequestBook where
  data := Function.update b.data b.allocated { request := command, message := message, bytes := bytes }
  queue := b.queue ++ [b.allocated]
  replay := b.replay
  allocated := b.allocated + 1
  commands := b.commands + 1
  journal := .accepted command :: b.journal

/-- A request is answered and forgotten; `remains` is left in its memory. -/
def finish (b : RequestBook) (p : Nat) (result : SubmitResult) (remains : RequestData) : RequestBook :=
  { b with
    data := Function.update b.data p remains
    queue := b.queue.erase p
    replay := b.replay.erase p
    journal := .answered (b.data p).request result :: b.journal }

/-- The request as it stands once its frame is written. -/
def handed (b : RequestBook) (p seq ackSequence : Nat) : RequestData :=
  { b.data p with
    message := SessionOwner.numberMessage (b.data p).message (decide ((b.data p).seq = 0)) seq ackSequence
    seq := seq
    sent := true
    mayHaveExecuted := true }

def hand (b : RequestBook) (p seq ackSequence : Nat) : RequestBook :=
  { b with
    data := Function.update b.data p (b.handed p seq ackSequence)
    replay := if p ∈ b.replay then b.replay else b.replay ++ [p] }

def acknowledge (b : RequestBook) (sequence : Nat) : RequestBook :=
  { b with
    replay := b.replay.dropWhile fun p => (b.data p).seq ≤ sequence
    journal := .acknowledged sequence :: b.journal }

def unsend (b : RequestBook) (p : Nat) : RequestBook :=
  { b with data := Function.update b.data p { b.data p with sent := false } }

def dropReplay (b : RequestBook) : RequestBook :=
  { b with replay := [], journal := .replayDropped :: b.journal }

def note (b : RequestBook) (note : Note) : RequestBook := { b with journal := note :: b.journal }

section

variable (b : RequestBook)
include b

@[simp] theorem hand_request (p seq ackSequence q : Nat) :
    ((b.hand p seq ackSequence).data q).request = (b.data q).request := by
  by_cases same : q = p
  · subst same
    simp [hand, handed]
  · simp [hand, same]

@[simp] theorem unsend_request (p q : Nat) : ((b.unsend p).data q).request = (b.data q).request := by
  by_cases same : q = p
  · subst same
    simp [unsend]
  · simp [unsend, same]

theorem hand_data_self (p seq ackSequence : Nat) :
    (b.hand p seq ackSequence).data p = b.handed p seq ackSequence := Function.update_self ..

theorem hand_data_of_ne {p q : Nat} (seq ackSequence : Nat) (other : q ≠ p) :
    (b.hand p seq ackSequence).data q = b.data q := Function.update_of_ne other ..

theorem finish_data_of_ne {p q : Nat} (result : SubmitResult) (remains : RequestData) (other : q ≠ p) :
    (b.finish p result remains).data q = b.data q := Function.update_of_ne other ..

theorem register_data_of_ne {q : Nat} (command : SubmitCommand) (message : Message) (bytes : Nat)
    (other : q ≠ b.allocated) : (b.register command message bytes).data q = b.data q :=
  Function.update_of_ne other ..

end

/-- The request that `nextPendingWrite` selects. -/
def selected (b : RequestBook) : Option Nat :=
  selectWrite b.data (b.queue.all fun p => !(b.data p).request.control) b.queue

end RequestBook

/-- The smallest changes of an owner that its history can tell apart. -/
inductive Action where
  | refuse (command : SubmitCommand) (err : GoError)
  | register (command : SubmitCommand) (message : Message) (bytes : Nat)
  | finish (p : Nat) (result : SubmitResult) (remains : RequestData)
  | expire (p : Nat) (cause : ContextError) (remains : RequestData)
  | hand (p seq ackSequence id : Nat) (counter : SequenceCounter)
  | control (task : WriteTask)
  | acknowledge (sequence : Nat)
  | unsend (p : Nat)
  | dropReplay
  | renumber
  | offline
  | retire
  | start
  | establish
  | close (err : GoError)
  | stop

/-- An answer reports an unknown outcome exactly when the request may have executed. -/
def HonestAnswer (node : RequestData) (result : SubmitResult) : Prop :=
  node.request.control = false → ∀ err, result.err = some err → err.Is .outcomeUnknown = node.mayHaveExecuted

namespace Ledger

/-- The circumstances under which an owner makes a change. -/
def Can (l : Ledger) : Action → Prop
  | .refuse command err => command.id = l.commands ∧ err.Is .outcomeUnknown = false
  | .register command _ _ => command.id = l.commands ∧ l.terminalErr = none ∧ l.stage ≠ .stopped
  | .finish p result _ => p ∈ l.queue ∧ HonestAnswer (l.data p) result
  | .expire p _ _ => p ∈ l.queue ∧ (l.data p).request.control = false ∧ (l.data p).mayHaveExecuted = true
  | .hand p seq _ _ counter => l.stage = .ready ∧ l.selected = some p ∧
      (if (l.data p).seq = 0 then l.counter.allocateSequence = .ok (seq, counter)
        else seq = (l.data p).seq ∧ counter = l.counter)
  | .control task => task.request = none
  | .acknowledge sequence => l.counter.sequenceExhausted = false → sequence < l.counter.nextOutbound ∨ sequence = 0
  | .unsend p => p ∈ l.replay ∧ l.stage ≠ .ready
  | .dropReplay => ∀ p ∈ l.queue, (l.data p).sent = false
  | .renumber => l.queue = [] ∧ l.stage ≠ .ready
  | .offline => True
  | .retire => True
  | .start => True
  | .establish => l.stage = .handshake
  | .close err => l.queue = [] ∧ err.Is .outcomeUnknown = false
  | .stop => l.queue = []

def act (l : Ledger) : Action → Ledger
  | .refuse command err => { l with toRequestBook := l.refuse command err }
  | .register command message bytes => { l with toRequestBook := l.register command message bytes }
  | .finish p result remains => { l with toRequestBook := l.finish p result remains }
  | .expire p cause remains => { l with toRequestBook := l.finish p { err := some cause.error } remains }
  | .hand p seq ackSequence id counter =>
    { l with
      toRequestBook := (l.hand p seq ackSequence).note
        (.wrote l.generation (requestTask id seq (l.data p).request (l.handed p seq ackSequence).message))
      counter := counter }
  | .control task => { l with toRequestBook := l.note (.wrote l.generation task) }
  | .acknowledge sequence => { l with toRequestBook := l.acknowledge sequence }
  | .unsend p => { l with toRequestBook := l.unsend p }
  | .dropReplay => { l with toRequestBook := l.dropReplay }
  | .renumber => { l with toRequestBook := l.note .renumbered, counter := ⟨1, false⟩ }
  | .offline => { l with stage := .offline }
  | .retire => { l with generation := addUint64 l.generation 1 }
  | .start => { l with toRequestBook := l.note .started, generation := addUint64 l.generation 1, stage := .handshake }
  | .establish => { l with stage := .ready }
  | .close err => { l with terminalErr := some err }
  | .stop => { l with stage := .stopped }

def initial : Ledger where
  data := fun _ => {}
  queue := []
  replay := []
  allocated := 0
  commands := 0
  journal := []
  counter := ⟨1, false⟩
  generation := 0
  stage := .offline
  terminalErr := none

/-- The histories which owners can have, as far as single changes constrain them. -/
def histories : System Ledger Action where
  start l := l = initial
  step l action l' := l.Can action ∧ l' = l.act action

end Ledger

end RadosGo
