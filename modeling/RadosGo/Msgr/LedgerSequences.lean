import RadosGo.Msgr.LedgerAnswers

namespace RadosGo

/-- What every send of one request has to repeat. -/
structure SendContent where
  seq : Nat
  transactionID : Nat
  payload : List Segment
  lease : Option Nat
  deriving DecidableEq

def WriteTask.content (task : WriteTask) : SendContent :=
  ⟨task.seq, task.transactionID, task.frame.segments.tail, task.frame.payloadLease⟩

def RequestData.content (node : RequestData) : SendContent :=
  ⟨node.seq, node.message.header.transactionID, (requestFrame node.message).segments.tail, node.message.payloadLease⟩

/-- A note that hands the message of a request to a transport. -/
def Note.Sends (note : Note) (generation request : Nat) (task : WriteTask) : Prop :=
  note = .wrote generation task ∧ task.request = some request

def Note.isRenumbered : Note → Bool
  | .renumbered => true
  | _ => false

/-- The notes since the outbound numbering last started. -/
def epoch (journal : List Note) : List Note := since Note.isRenumbered journal

def Note.isStarted : Note → Bool
  | .started => true
  | _ => false

/-- The notes since a transport was last started. -/
def onTransport (journal : List Note) : List Note := since Note.isStarted journal

/-- A task for a request was written. -/
def SentIn (journal : List Note) (request : Nat) (task : WriteTask) : Prop :=
  ∃ note ∈ journal, ∃ generation, note.Sends generation request task

variable {journal : List Note} {task : WriteTask} {request : Nat}

theorem sentIn_cons {note : Note} : SentIn (note :: journal) request task ↔
      (∃ generation, note.Sends generation request task) ∨ SentIn journal request task := by
  simp [SentIn]

theorem sentIn_wrote {generation request : Nat} {task task' : WriteTask} :
    SentIn (.wrote generation task :: journal) request task' ↔
      (task' = task ∧ task.request = some request) ∨ SentIn journal request task' := by
  rw [sentIn_cons]
  refine or_congr_left ⟨?_, ?_⟩
  · rintro ⟨_, same, isRequest⟩
    obtain ⟨-, rfl⟩ := Note.wrote.inj same
    exact ⟨rfl, isRequest⟩
  · rintro ⟨rfl, isRequest⟩
    exact ⟨generation, rfl, isRequest⟩

theorem Note.not_sends {note : Note} (silent : note.request = none) (generation request : Nat) (task : WriteTask) :
    ¬note.Sends generation request task := by
  rintro ⟨rfl, same⟩
  simp [Note.request, same] at silent

theorem sentIn_silent {note : Note} (silent : note.request = none) :
    SentIn (note :: journal) request task ↔ SentIn journal request task := by
  rw [sentIn_cons, or_iff_right]
  rintro ⟨generation, sends⟩
  exact Note.not_sends silent generation request task sends

theorem SentIn.handedOver (sent : SentIn (epoch journal) request task) : HandedOver journal request := by
  obtain ⟨note, member, generation, rfl, same⟩ := sent
  exact ⟨_, mem_of_mem_since member, same⟩

/-- A note without a request changes nothing about what was sent since the
numbering or the transport started, unless it starts one. -/
theorem sentIn_since_silent {reset : Note → Bool} {note : Note}
    (silent : note.request = none) (running : reset note = false) :
    SentIn (since reset (note :: journal)) request task ↔ SentIn (since reset journal) request task := by
  rw [since_cons running, sentIn_silent silent]

def SequenceCounter.Issued (counter : SequenceCounter) (seq : Nat) : Prop :=
  counter.sequenceExhausted = false → seq < counter.nextOutbound

/-- A newly allocated number is above all numbers given out before. -/
theorem SequenceCounter.Issued.allocate {counter counter' : SequenceCounter} {seq : Nat}
    (run : counter.allocateSequence = .ok (seq, counter')) (positive : counter.Issued 0) (old : Nat) :
    counter'.Issued seq ∧ counter'.Issued 0 ∧ (counter.Issued old → old < seq ∧ counter'.Issued old) := by
  obtain ⟨running, number, rest⟩ := allocateSequence_ok run
  have zero := positive running
  have seqEq : seq = counter.nextOutbound := by rw [number, if_neg (by omega)]
  have bounded : ∀ n ≤ seq, counter'.Issued n := by
    intro n small
    rw [rest]
    split
    · simp [Issued]
    · simp only [Issued, forall_const]
      omega
  refine ⟨bounded seq (Nat.le_refl _), bounded 0 (Nat.zero_le _), fun issued => ?_⟩
  have := issued running
  exact ⟨by omega, bounded old (by omega)⟩

/-- The numbers of the live requests and of what was sent since the numbering started. -/
structure Ledger.Numbered (l : Ledger) : Prop where
  fifo : FifoNumbers l.data l.queue
  distinct : ∀ p ∈ l.queue, ∀ q ∈ l.queue, (l.data p).seq = (l.data q).seq → (l.data p).seq ≠ 0 → p = q
  positive : l.counter.Issued 0
  issued : ∀ p ∈ l.queue, l.counter.Issued (l.data p).seq
  sent_issued : ∀ request task, SentIn (epoch l.journal) request task → l.counter.Issued task.seq
  same : ∀ p ∈ l.queue, ∀ task, SentIn (epoch l.journal) (l.data p).request.id task →
    task.content = (l.data p).content
  owner : ∀ p ∈ l.queue, (l.data p).seq ≠ 0 → ∀ request task, SentIn (epoch l.journal) request task →
    task.seq = (l.data p).seq → request = (l.data p).request.id

namespace Ledger

variable {l l' : Ledger}

/-- Requests may leave, and change what no number depends on. -/
theorem Numbered.forget (numbered : l.Numbered) (fewer : l'.queue.Sublist l.queue)
    (data : ∀ p ∈ l'.queue, (l'.data p).content = (l.data p).content ∧ (l'.data p).request = (l.data p).request)
    (counter : l'.counter = l.counter)
    (sends : ∀ request task, SentIn (epoch l'.journal) request task ↔ SentIn (epoch l.journal) request task) :
    l'.Numbered := by
  have seqs : ∀ p ∈ l'.queue, (l'.data p).seq = (l.data p).seq := fun p member =>
    congrArg SendContent.seq (data p member).1
  constructor
  case fifo =>
    refine List.Pairwise.imp_of_mem (fun {p q} left right ordered => ?_) (List.Pairwise.sublist fewer numbered.fifo)
    rw [seqs p left, seqs q right, (data p left).2, (data q right).2]
    exact ordered
  case distinct =>
    intro p left q right
    rw [seqs p left, seqs q right]
    exact numbered.distinct p (fewer.subset left) q (fewer.subset right)
  case positive => rw [counter]; exact numbered.positive
  case issued =>
    intro p member
    rw [seqs p member, counter]
    exact numbered.issued p (fewer.subset member)
  case sent_issued =>
    intro request task sent
    rw [counter]
    exact numbered.sent_issued request task ((sends request task).mp sent)
  case same =>
    intro p member task sent
    rw [(data p member).1]
    rw [(data p member).2, sends] at sent
    exact numbered.same p (fewer.subset member) task sent
  case owner =>
    intro p member
    rw [seqs p member, (data p member).2]
    exact fun nonzero request task sent =>
      numbered.owner p (fewer.subset member) nonzero request task ((sends request task).mp sent)

theorem Numbered.register (numbered : l.Numbered) (held : l.InCustody) (recorded : l.Recorded)
    {command : SubmitCommand} (message : Message) (bytes : Nat) (next : command.id = l.commands) :
    (l.act (.register command message bytes)).Numbered := by
  have split := held.register_cases command message bytes
  have sends : ∀ request task, SentIn (epoch (.accepted command :: l.journal)) request task ↔
      SentIn (epoch l.journal) request task := fun request task => sentIn_since_silent rfl rfl
  have unsent : ∀ task, ¬SentIn (epoch l.journal) command.id task := fun task sent => by
    have := recorded.issued _ sent.handedOver
    omega
  constructor
  case fifo =>
    refine List.pairwise_append.mpr ⟨?_, by simp, fun p _ q new => ?_⟩
    · refine List.Pairwise.imp_of_mem (fun {p q} left right ordered => ?_) numbered.fifo
      simpa only [act, l.register_data_of_ne command message bytes (Nat.ne_of_lt (held.allocated p left)),
        l.register_data_of_ne command message bytes (Nat.ne_of_lt (held.allocated q right))] using ordered
    · obtain rfl := List.mem_singleton.mp new
      simp [act, RequestBook.register]
  case distinct =>
    intro p left q right same nonzero
    rcases split p left with ⟨oldLeft, dataLeft⟩ | ⟨-, dataLeft⟩
    · rcases split q right with ⟨oldRight, dataRight⟩ | ⟨-, dataRight⟩
      · simp only [act, dataLeft, dataRight] at same nonzero
        exact numbered.distinct p oldLeft q oldRight same nonzero
      · simp only [act, dataRight] at same
        exact absurd same nonzero
    · simp [act, dataLeft] at nonzero
  case positive => exact numbered.positive
  case issued =>
    intro p member
    rcases split p member with ⟨old, data⟩ | ⟨-, data⟩
    · simpa only [act, data] using numbered.issued p old
    · simpa only [act, data] using numbered.positive
  case sent_issued => exact fun request task sent => numbered.sent_issued request task ((sends request task).mp sent)
  case same =>
    intro p member task sent
    have sent := (sends _ task).mp sent
    rcases split p member with ⟨old, data⟩ | ⟨-, data⟩
    · simp only [act, data] at sent ⊢
      exact numbered.same p old task sent
    · simp only [act, data] at sent
      exact absurd sent (unsent task)
  case owner =>
    intro p member nonzero request task sent same
    rcases split p member with ⟨old, data⟩ | ⟨-, data⟩
    · simp only [act, data] at nonzero same ⊢
      exact numbered.owner p old nonzero request task ((sends request task).mp sent) same
    · simp [act, data] at nonzero

/-- The task of a request carries what the request then stores, and a request
that has its number keeps what it stores. -/
theorem content_handed (b : RequestBook) (p seq ackSequence id : Nat) :
    (requestTask id seq (b.data p).request (b.handed p seq ackSequence).message).content =
      (b.handed p seq ackSequence).content ∧
    (seq = (b.data p).seq → (b.handed p seq ackSequence).content = (b.data p).content) :=
  ⟨rfl, fun same => by subst same; rfl⟩

variable {p seq ackSequence id : Nat} {counter : SequenceCounter}

/-- The number under which a selected request is written. -/
theorem Numbered.hand_number (numbered : l.Numbered) (can : l.Can (.hand p seq ackSequence id counter)) :
    counter.Issued 0 ∧ (∀ old, l.counter.Issued old → counter.Issued old) ∧ counter.Issued seq ∧
      ((l.data p).seq ≠ 0 → seq = (l.data p).seq) ∧
      ((l.data p).seq = 0 → ∀ old, l.counter.Issued old → old < seq) := by
  have member := (selectWrite_mem can.2.1).1
  obtain ⟨-, -, number⟩ := can
  split at number
  · rename_i fresh
    obtain ⟨new, positive, -⟩ := SequenceCounter.Issued.allocate number numbered.positive 0
    have old := fun old => (SequenceCounter.Issued.allocate number numbered.positive old).2.2
    exact ⟨positive, fun n issued => (old n issued).2, new, fun nonzero => absurd fresh nonzero,
      fun _ n issued => (old n issued).1⟩
  · rename_i nonzero
    obtain ⟨rfl, rfl⟩ := number
    exact ⟨numbered.positive, fun _ issued => issued, numbered.issued p member, fun _ => rfl, fun fresh =>
      absurd fresh nonzero⟩

/-- What is sent since the numbering or the transport started, after one more message. -/
theorem sentIn_hand (reset : Note → Bool) (running : ∀ generation task, reset (.wrote generation task) = false)
    :
    SentIn (since reset (l.act (.hand p seq ackSequence id counter)).journal) request task ↔
      (request = (l.data p).request.id ∧
        task = requestTask id seq (l.data p).request (l.handed p seq ackSequence).message) ∨
      SentIn (since reset l.journal) request task := by
  simp only [act, RequestBook.note, RequestBook.hand]
  rw [since_cons (running _ _), sentIn_wrote]
  refine or_congr_left ⟨?_, ?_⟩
  · rintro ⟨rfl, isRequest⟩
    exact ⟨(Option.some.inj isRequest).symm, rfl⟩
  · rintro ⟨rfl, rfl⟩
    exact ⟨rfl, rfl⟩

theorem hand_others {q : Nat} (other : q ≠ p) : (l.act (.hand p seq ackSequence id counter)).data q = l.data q :=
  l.hand_data_of_ne seq ackSequence other

theorem hand_seq : ((l.act (.hand p seq ackSequence id counter)).data p).seq = seq :=
  congrArg RequestData.seq (l.hand_data_self p seq ackSequence)

theorem Numbered.hand (numbered : l.Numbered) (held : l.InCustody) (recorded : l.Recorded)
    (can : l.Can (.hand p seq ackSequence id counter)) : (l.act (.hand p seq ackSequence id counter)).Numbered := by
  have selected := selectWrite_selected numbered.fifo can.2.1
  obtain ⟨positive, grows, new, keeps, above⟩ := numbered.hand_number can
  have self : (l.act (.hand p seq ackSequence id counter)).data p = l.handed p seq ackSequence :=
    l.hand_data_self p seq ackSequence
  have contents := content_handed l.toRequestBook p seq ackSequence id
  have unsent : (l.data p).seq = 0 → ∀ task, ¬SentIn (epoch l.journal) (l.data p).request.id task := by
    intro fresh task sent
    have executed := (recorded.executed p selected.member).mpr sent.handedOver
    exact (recorded.numbered p selected.member).mpr executed fresh
  have apart : ∀ q ∈ l.queue, q ≠ p → (l.data q).seq ≠ seq := by
    intro q live other same
    by_cases fresh : (l.data p).seq = 0
    · exact Nat.ne_of_lt (above fresh _ (numbered.issued q live)) same
    · rw [keeps fresh] at same
      exact other (numbered.distinct q live p selected.member same (same ▸ fresh))
  constructor
  case fifo =>
    exact numbered.fifo.hand held.nodup selected recorded.sent rfl keeps
      fun fresh q live => above fresh _ (numbered.issued q live)
  case distinct =>
    intro q left r right same nonzero
    by_cases atQ : q = p
    · by_cases atR : r = p
      · rw [atQ, atR]
      · subst atQ
        rw [self, hand_others atR] at same
        exact absurd same.symm (apart r right atR)
    · by_cases atR : r = p
      · subst atR
        rw [self, hand_others atQ] at same
        exact absurd same (apart q left atQ)
      · rw [hand_others atQ, hand_others atR] at same
        rw [hand_others atQ] at nonzero
        exact numbered.distinct q left r right same nonzero
  case positive => exact positive
  case issued =>
    intro q live
    by_cases same : q = p
    · subst same
      rw [self]
      exact new
    · rw [hand_others same]
      exact grows _ (numbered.issued q live)
  case sent_issued =>
    intro request task sent
    rcases (sentIn_hand _ fun _ _ => rfl).mp sent with ⟨-, rfl⟩ | old
    · exact new
    · exact grows _ (numbered.sent_issued request task old)
  case same =>
    intro q live task sent
    by_cases same : q = p
    · subst same
      rw [self] at sent ⊢
      rcases (sentIn_hand _ fun _ _ => rfl).mp sent with ⟨-, rfl⟩ | old
      · exact contents.1
      · by_cases fresh : (l.data q).seq = 0
        · exact absurd old (unsent fresh task)
        · rw [contents.2 (keeps fresh)]
          exact numbered.same q live task old
    · rw [hand_others same] at sent ⊢
      rcases (sentIn_hand _ fun _ _ => rfl).mp sent with ⟨ids, -⟩ | old
      · exact absurd (held.id_injective live selected.member ids) same
      · exact numbered.same q live task old
  case owner =>
    intro q live nonzero request task sent number
    by_cases same : q = p
    · subst same
      rw [self] at number ⊢
      rcases (sentIn_hand _ fun _ _ => rfl).mp sent with ⟨rfl, -⟩ | old
      · rfl
      · by_cases fresh : (l.data q).seq = 0
        · exact absurd number (Nat.ne_of_lt (above fresh _ (numbered.sent_issued request task old)))
        · exact numbered.owner q live fresh request task old (number.trans (keeps fresh))
    · rw [hand_others same] at nonzero number ⊢
      rcases (sentIn_hand _ fun _ _ => rfl).mp sent with ⟨-, rfl⟩ | old
      · exact absurd number.symm (apart q live same)
      · exact numbered.owner q live nonzero request task old number

theorem Numbered.finish (numbered : l.Numbered) (held : l.InCustody) (p : Nat) (result : SubmitResult)
    (remains : RequestData) : { l with toRequestBook := l.finish p result remains }.Numbered := by
  refine numbered.forget List.erase_sublist (fun q member => ?_) rfl fun request task => sentIn_since_silent rfl rfl
  have same := l.finish_data_of_ne result remains (held.nodup.mem_erase_iff.mp member).1
  exact ⟨congrArg _ same, congrArg _ same⟩

theorem Numbered.unsend (numbered : l.Numbered) (p : Nat) : (l.act (.unsend p)).Numbered := by
  refine numbered.forget (List.Sublist.refl _) (fun q _ => ⟨?_, l.unsend_request p q⟩) rfl fun _ _ => Iff.rfl
  by_cases same : q = p
  · subst same
    simp [act, RequestBook.unsend, RequestData.content]
  · simp [act, RequestBook.unsend, same]

theorem Numbered.renumber (empty : l.queue = []) : (l.act .renumber).Numbered := by
  have queue : (l.act .renumber).queue = [] := empty
  have sends : epoch (l.act .renumber).journal = [] := since_reset rfl
  constructor
  case fifo => rw [FifoNumbers, queue]; exact .nil
  case positive => exact fun _ => Nat.one_pos
  case sent_issued => rw [sends]; simp [SentIn]
  all_goals rw [queue]; simp

theorem numbered_act {action : Action} (held : l.InCustody) (recorded : l.Recorded) (numbered : l.Numbered)
    (can : l.Can action) : (l.act action).Numbered := by
  cases action with
  | register command message bytes => exact numbered.register held recorded message bytes can.1
  | finish p result remains => exact numbered.finish held p result remains
  | expire p cause remains => exact numbered.finish held p _ remains
  | hand p seq ackSequence id counter => exact numbered.hand held recorded can
  | unsend p => exact numbered.unsend p
  | control task =>
    exact numbered.forget (List.Sublist.refl _) (fun _ _ => ⟨rfl, rfl⟩) rfl fun _ _ => sentIn_since_silent can rfl
  | refuse | acknowledge | dropReplay | start =>
    exact numbered.forget (List.Sublist.refl _) (fun _ _ => ⟨rfl, rfl⟩) rfl fun _ _ => sentIn_since_silent rfl rfl
  | renumber => exact Numbered.renumber can.1
  | offline | retire | establish | close | stop =>
    exact numbered.forget (List.Sublist.refl _) (fun _ _ => ⟨rfl, rfl⟩) rfl fun _ _ => Iff.rfl

end Ledger

/-- On one transport every message has a larger number than the ones before it. -/
def Increasing : List Note → Prop := Throughout fun note older => ∀ generation request task,
  note.Sends generation request task → ∀ request' task', SentIn (onTransport older) request' task' →
    task'.seq < task.seq

/-- Since the numbering started, a number belongs to one request, and whatever
was sent for a request before is sent again. -/
def Faithful : List Note → Prop := Throughout fun note older => ∀ generation request task,
  note.Sends generation request task → ∀ request' task', SentIn (epoch older) request' task' →
    (task'.seq = task.seq ↔ request' = request) ∧ (request' = request → task'.content = task.content)

theorem Increasing.note {note : Note} (increasing : Increasing journal) (silent : note.request = none) :
    Increasing (note :: journal) :=
  ⟨fun generation request task sends => absurd sends (Note.not_sends silent generation request task), increasing⟩

theorem Faithful.note {note : Note} (faithful : Faithful journal) (silent : note.request = none) :
    Faithful (note :: journal) :=
  ⟨fun generation request task sends => absurd sends (Note.not_sends silent generation request task), faithful⟩

/-- What was sent on the current transport is behind everything that waits for it. -/
structure Ledger.OnTransport (l : Ledger) : Prop where
  shaking : l.stage = .handshake → ∀ request task, ¬SentIn (onTransport l.journal) request task
  ahead : l.stage = .ready → ∀ request task, SentIn (onTransport l.journal) request task →
    l.counter.Issued task.seq ∧ ∀ p ∈ l.queue, (l.data p).Waiting → task.seq < (l.data p).seq

namespace Ledger

variable {l l' : Ledger}

theorem OnTransport.forget (order : l.OnTransport) (fewer : ∀ p ∈ l'.queue, (l'.data p).Waiting →
      p ∈ l.queue ∧ (l.data p).Waiting ∧ (l'.data p).seq = (l.data p).seq) (counter : l'.counter = l.counter)
    (stage : l'.stage = l.stage) (sends : ∀ request task,
      SentIn (onTransport l'.journal) request task ↔ SentIn (onTransport l.journal) request task) :
    l'.OnTransport := by
  constructor
  case shaking =>
    intro shaking request task sent
    exact order.shaking (stage ▸ shaking) request task ((sends request task).mp sent)
  case ahead =>
    intro ready request task sent
    obtain ⟨issued, behind⟩ := order.ahead (stage ▸ ready) request task ((sends request task).mp sent)
    refine ⟨counter ▸ issued, fun p member waiting => ?_⟩
    obtain ⟨live, still, same⟩ := fewer p member waiting
    rw [same]
    exact behind p live still

variable {p seq ackSequence id : Nat} {counter : SequenceCounter} {action : Action}

theorem OnTransport.hand (order : l.OnTransport) (numbered : l.Numbered)
    (can : l.Can (.hand p seq ackSequence id counter)) :
      (l.act (.hand p seq ackSequence id counter)).OnTransport := by
  have selected := selectWrite_selected numbered.fifo can.2.1
  obtain ⟨-, grows, new, keeps, -⟩ := numbered.hand_number can
  have ready : l.stage = .ready := can.1
  have waiting : ∀ q ∈ l.queue, ((l.hand p seq ackSequence).data q).Waiting → q ≠ p ∧ (l.data q).Waiting ∧
      (l.hand p seq ackSequence).data q = l.data q := by
    intro q _ waits
    have other : q ≠ p := by
      rintro rfl
      rw [l.hand_data_self] at waits
      exact absurd waits.1 (by simp [RequestBook.handed])
    exact ⟨other, l.hand_data_of_ne seq ackSequence other ▸ waits, l.hand_data_of_ne seq ackSequence other⟩
  constructor
  case shaking =>
    intro shaking
    simp [act, ready] at shaking
  case ahead =>
    intro _ request task sent
    rcases (sentIn_hand _ fun _ _ => rfl).mp sent with ⟨-, rfl⟩ | old
    · refine ⟨new, fun q live waits => ?_⟩
      obtain ⟨other, waits, same⟩ := waiting q live waits
      have nonzero : (l.data p).seq ≠ 0 := fun fresh => selected.none_waiting fresh q live waits
      have least := selected.least nonzero q live waits
      have distinct : (l.data p).seq ≠ (l.data q).seq := fun number =>
        other (numbered.distinct q live p selected.member number.symm waits.2)
      have number := keeps nonzero
      simp only [act, RequestBook.note, same, requestTask]
      omega
    · obtain ⟨issued, behind⟩ := order.ahead ready request task old
      refine ⟨grows _ issued, fun q live waits => ?_⟩
      obtain ⟨-, waits, same⟩ := waiting q live waits
      simp only [act, RequestBook.note, same]
      exact behind q live waits

/-- Away from a ready transport only what was sent matters. -/
theorem OnTransport.away (order : l.OnTransport) (stage : l'.stage = l.stage) (notReady : l.stage ≠ .ready)
    (sends : ∀ request task,
      SentIn (onTransport l'.journal) request task ↔ SentIn (onTransport l.journal) request task) :
    l'.OnTransport where
  shaking := fun shaking request task sent => order.shaking (stage ▸ shaking) request task ((sends _ _).mp sent)
  ahead := fun ready => absurd (stage ▸ ready) notReady

theorem OnTransport.finish (order : l.OnTransport) (held : l.InCustody) (p : Nat) (result : SubmitResult)
    (remains : RequestData) : { l with toRequestBook := l.finish p result remains }.OnTransport := by
  refine order.forget (fun q member waits => ?_) rfl rfl fun _ _ => sentIn_since_silent rfl rfl
  have same := l.finish_data_of_ne result remains (held.nodup.mem_erase_iff.mp member).1
  exact ⟨List.mem_of_mem_erase member, same ▸ waits, congrArg _ same⟩

theorem onTransport_act (held : l.InCustody) (numbered : l.Numbered) (order : l.OnTransport) (can : l.Can action) :
    (l.act action).OnTransport := by
  cases action with
  | register command message bytes =>
    refine order.forget (fun p member waits => ?_) rfl rfl fun _ _ => sentIn_since_silent rfl rfl
    rcases held.register_cases command message bytes p member with ⟨live, same⟩ | ⟨-, same⟩
    · simp only [act, same] at waits ⊢
      exact ⟨live, waits, trivial⟩
    · exact absurd waits.2 (by simp [act, same])
  | finish p result remains => exact order.finish held p result remains
  | expire p cause remains => exact order.finish held p _ remains
  | hand p seq ackSequence id counter => exact order.hand numbered can
  | unsend p => exact order.away rfl can.2 fun _ _ => Iff.rfl
  | renumber => exact order.away rfl can.2 fun _ _ => sentIn_since_silent rfl rfl
  | control task =>
    exact order.forget (fun _ live waits => ⟨live, waits, rfl⟩) rfl rfl fun _ _ => sentIn_since_silent can rfl
  | refuse | acknowledge | dropReplay =>
    exact order.forget (fun _ live waits => ⟨live, waits, rfl⟩) rfl rfl fun _ _ => sentIn_since_silent rfl rfl
  | offline | stop =>
    refine ⟨fun other => ?_, fun other => ?_⟩ <;> cases other
  | start =>
    -- Nothing was sent yet on the new transport.
    have none : onTransport (l.act .start).journal = [] := since_reset rfl
    refine ⟨fun _ request task sent => ?_, fun other => ?_⟩
    · simp [none, SentIn] at sent
    · cases other
  | establish =>
    refine ⟨fun other => ?_, fun _ request task sent => ?_⟩
    · cases other
    · exact absurd sent (order.shaking can request task)
  | retire | close => exact order.forget (fun _ live waits => ⟨live, waits, rfl⟩) rfl rfl fun _ _ => Iff.rfl

theorem increasing_act (numbered : l.Numbered) (order : l.OnTransport) (can : l.Can action)
    (increasing : Increasing l.journal) : Increasing (l.act action).journal := by
  cases action with
  | hand p seq ackSequence id counter =>
    have selected := selectWrite_selected numbered.fifo can.2.1
    obtain ⟨-, -, -, keeps, above⟩ := numbered.hand_number can
    refine ⟨fun generation request task sends request' task' old => ?_, increasing⟩
    obtain ⟨rfl, rfl⟩ := Note.wrote.inj sends.1
    obtain ⟨issued, behind⟩ := order.ahead can.1 request' task' old
    by_cases fresh : (l.data p).seq = 0
    · exact above fresh _ issued
    · simpa only [requestTask, keeps fresh] using behind p selected.member ⟨selected.unsent, fresh⟩
  | control task => exact increasing.note can
  | refuse | register | finish | expire | acknowledge | dropReplay | renumber | start => exact increasing.note rfl
  | unsend | offline | retire | establish | close | stop => exact increasing

theorem faithful_act (recorded : l.Recorded) (numbered : l.Numbered) (can : l.Can action)
    (faithful : Faithful l.journal) : Faithful (l.act action).journal := by
  cases action with
  | hand p seq ackSequence id counter =>
    have member := (selectWrite_mem can.2.1).1
    obtain ⟨-, -, -, keeps, above⟩ := numbered.hand_number can
    refine ⟨fun generation request task sends request' task' old => ?_, faithful⟩
    obtain ⟨same, isRequest⟩ := sends
    obtain ⟨rfl, rfl⟩ := Note.wrote.inj same
    cases isRequest
    by_cases fresh : (l.data p).seq = 0
    · have less : task'.seq < seq := above fresh _ (numbered.sent_issued request' task' old)
      have other : request' ≠ (l.data p).request.id := by
        rintro rfl
        exact (recorded.numbered p member).mpr ((recorded.executed p member).mpr old.handedOver) fresh
      exact ⟨iff_of_false (Nat.ne_of_lt less) other, fun same => absurd same other⟩
    · have contents := content_handed l.toRequestBook p seq ackSequence id
      have repeats : request' = (l.data p).request.id → task'.content =
          (requestTask id seq (l.data p).request (l.handed p seq ackSequence).message).content := by
        rintro rfl
        rw [contents.1, contents.2 (keeps fresh)]
        exact numbered.same p member task' old
      exact ⟨⟨fun number => numbered.owner p member fresh request' task' old (number.trans (keeps fresh)),
        fun same => congrArg SendContent.seq (repeats same)⟩, repeats⟩
  | control task => exact faithful.note can
  | refuse | register | finish | expire | acknowledge | dropReplay | renumber | start => exact faithful.note rfl
  | unsend | offline | retire | establish | close | stop => exact faithful

end Ledger

/-- The frame of a task begins with a header that carries the numbers of the task. -/
def WriteTask.Headed (task : WriteTask) : Prop := ∃ header : MessageHeader,
  task.frame.segments.head? = some ⟨8, encodeMessageHeader header⟩ ∧
    header.sequence = task.seq ∧ header.transactionID = task.transactionID

/-- A number that a live request has stands in the header which is stored for it, and every frame that was handed over
carries the numbers of its task. The second rests on the first, since a frame that is sent again is built from the
stored header. -/
structure Ledger.Headed (l : Ledger) : Prop where
  stored : ∀ p ∈ l.queue, (l.data p).seq ≠ 0 → (l.data p).message.header.sequence = (l.data p).seq
  written : ∀ request task, SentIn l.journal request task → task.Headed

namespace Ledger

variable {l l' : Ledger} {p seq ackSequence id : Nat} {counter : SequenceCounter} {action : Action}

theorem Headed.forget (headed : l.Headed) (data : ∀ p ∈ l'.queue, (l'.data p).seq ≠ 0 → p ∈ l.queue ∧
      (l'.data p).message = (l.data p).message ∧ (l'.data p).seq = (l.data p).seq)
    (sends : ∀ request task, SentIn l'.journal request task ↔ SentIn l.journal request task) : l'.Headed where
  stored := by
    intro p member nonzero
    obtain ⟨live, message, number⟩ := data p member nonzero
    rw [message, number]
    exact headed.stored p live (number ▸ nonzero)
  written := fun request task sent => headed.written request task ((sends request task).mp sent)

/-- A fresh request gets its number into its header, and a request that is sent again has it there. -/
theorem Headed.handed_sequence (headed : l.Headed) (can : l.Can (.hand p seq ackSequence id counter)) :
    (l.handed p seq ackSequence).message.header.sequence = seq := by
  obtain ⟨-, selected, number⟩ := can
  by_cases fresh : (l.data p).seq = 0
  · simp [RequestBook.handed, SessionOwner.numberMessage, fresh]
  · rw [if_neg fresh] at number
    simp only [RequestBook.handed, SessionOwner.numberMessage, fresh, decide_false, Bool.false_eq_true, if_false]
    rw [headed.stored p (selectWrite_mem selected).1 fresh, number.1]

theorem Headed.hand (headed : l.Headed) (can : l.Can (.hand p seq ackSequence id counter)) :
    (l.act (.hand p seq ackSequence id counter)).Headed where
  stored := by
    intro q live nonzero
    by_cases same : q = p
    · subst same
      simp only [act, RequestBook.note, l.hand_data_self]
      exact headed.handed_sequence can
    · simp only [act, RequestBook.note, l.hand_data_of_ne seq ackSequence same] at nonzero ⊢
      exact headed.stored q live nonzero
  written := by
    intro request task sent
    rcases sentIn_wrote.mp sent with ⟨rfl, -⟩ | old
    · exact ⟨(l.handed p seq ackSequence).message.header, rfl, headed.handed_sequence can, rfl⟩
    · exact headed.written request task old

theorem headed_act (held : l.InCustody) (headed : l.Headed) (can : l.Can action) : (l.act action).Headed := by
  have answered (p : Nat) (result : SubmitResult) (remains : RequestData) :
      { l with toRequestBook := l.finish p result remains }.Headed := by
    refine headed.forget (fun q member _ => ?_) fun _ _ => sentIn_silent rfl
    have same := l.finish_data_of_ne result remains (held.nodup.mem_erase_iff.mp member).1
    exact ⟨List.mem_of_mem_erase member, congrArg _ same, congrArg _ same⟩
  cases action with
  | register command message bytes =>
    refine headed.forget (fun q member nonzero => ?_) fun _ _ => sentIn_silent rfl
    rcases held.register_cases command message bytes q member with ⟨live, same⟩ | ⟨-, same⟩
    · exact ⟨live, congrArg _ same, congrArg _ same⟩
    · exact absurd (congrArg RequestData.seq same) nonzero
  | finish p result remains => exact answered p result remains
  | expire p cause remains => exact answered p _ remains
  | hand p seq ackSequence id counter => exact headed.hand can
  | unsend p =>
    refine headed.forget (fun q live _ => ⟨live, ?_⟩) fun _ _ => Iff.rfl
    by_cases same : q = p
    · subst same
      simp [act, RequestBook.unsend]
    · simp [act, RequestBook.unsend, same]
  | control task => exact headed.forget (fun _ live _ => ⟨live, rfl, rfl⟩) fun _ _ => sentIn_silent can
  | refuse | acknowledge | dropReplay | renumber | start =>
    exact headed.forget (fun _ live _ => ⟨live, rfl, rfl⟩) fun _ _ => sentIn_silent rfl
  | offline | retire | establish | close | stop => exact ⟨headed.stored, headed.written⟩

end Ledger

end RadosGo
