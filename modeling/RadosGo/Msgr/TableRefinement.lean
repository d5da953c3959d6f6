import RadosGo.Msgr.LedgerAnswers
import RadosGo.Msgr.TableInvariant

namespace RadosGo

/-- The changes which every part of an owner may make. The others are the
expiry of a request and the acceptance of an acknowledgment. -/
def Action.Quiet : Action → Prop
  | .expire _ _ _ | .acknowledge _ => False
  | _ => True

def Ledger.Quietly (_ : Ledger) (action : Action) : Prop := action.Quiet

theorem Ledger.path_act (l : Ledger) (action : Action) (can : l.Can action) (quiet : action.Quiet) :
    Ledger.histories.Path Ledger.Quietly l (l.act action) := .single ⟨can, rfl⟩ quiet

/-- Live requests may all be answered at once, their memory left alone. -/
theorem Ledger.path_finishAll (answer : Nat → SubmitResult) (xs : List Nat) (l : Ledger) (nodup : xs.Nodup)
    (live : ∀ p ∈ xs, p ∈ l.queue) (honest : ∀ p ∈ xs, HonestAnswer (l.data p) (answer p)) :
    Ledger.histories.Path Ledger.Quietly l { l with
      queue := xs.foldl List.erase l.queue
      replay := xs.foldl List.erase l.replay
      journal := (xs.map fun p => Note.answered (l.data p).request (answer p)).reverse ++ l.journal } := by
  induction xs generalizing l with
  | nil => exact .refl
  | cons p rest ih =>
    obtain ⟨notInRest, restNodup⟩ := List.nodup_cons.mp nodup
    refine (l.path_act (.finish p (answer p) (l.data p)) ⟨live p (by simp), honest p (by simp)⟩ trivial).trans ?_
    have same : (l.act (.finish p (answer p) (l.data p))).data = l.data := Function.update_eq_self p l.data
    have step := ih (l.act (.finish p (answer p) (l.data p))) restNodup
      (fun q member => (List.mem_erase_of_ne (ne_of_mem_of_not_mem member notInRest)).mpr (live q (by simp [member])))
      (fun q member => by rw [same]; exact honest q (by simp [member]))
    simp only [same] at step
    simpa [act, RequestBook.finish] using step

/-- Erasing a list of members that covers a list leaves nothing. -/
theorem foldl_erase_eq_nil {xs ys : List Nat} (nodup : ys.Nodup) (covers : ∀ y ∈ ys, y ∈ xs) :
    xs.foldl List.erase ys = [] := by
  rw [← List.diff_eq_foldl, List.eq_nil_iff_forall_not_mem]
  intro y member
  obtain ⟨listed, absent⟩ := nodup.mem_sdiff_iff.mp member
  exact absent (covers y listed)

namespace RequestTable

def ledger (t : RequestTable) (status : OwnerStatus) : Ledger where
  toRequestBook := t.book
  toOwnerStatus := status

/-- A change of the table keeps its invariant and is a sequence of quiet
changes of the ledger. -/
structure Refines (bounds : SessionBounds) (status : OwnerStatus) (t t' : RequestTable) : Prop where
  wf : t'.Wf bounds
  path : Ledger.histories.Path Ledger.Quietly (t.ledger status) (t'.ledger status)

variable {bounds : SessionBounds} {status : OwnerStatus} {t t' t'' : RequestTable}

theorem Wf.refines_refl (wf : t.Wf bounds) : Refines bounds status t t := ⟨wf, .refl⟩

theorem Refines.trans (first : Refines bounds status t t') (second : Refines bounds status t' t'') :
    Refines bounds status t t'' := ⟨second.wf, first.path.trans second.path⟩

/-- One quiet change of the ledger, described by the book it leads to. -/
theorem Refines.single (action : Action) (wf : t'.Wf bounds) (can : (t.ledger status).Can action)
    (quiet : action.Quiet) (leads : t'.ledger status = (t.ledger status).act action) :
    Refines bounds status t t' := ⟨wf, leads ▸ (t.ledger status).path_act action can quiet⟩

variable {command : SubmitCommand} {err : GoError} {p : Nat} {xs : List Nat}

theorem refuse_refines (wf : t.Wf bounds) (next : command.id = t.commands) (known : err.Is .outcomeUnknown = false) :
    Refines bounds status t (t.refuse command err) := by
  refine .single (.refuse command err) ?_ ⟨next, known⟩ trivial rfl
  exact { wf with issued := fun p member => Nat.lt_succ_of_lt (wf.issued p member) }

theorem finish_book (wf : t.Wf bounds) (member : p ∈ t.pending.toList) (result : SubmitResult) :
    (t.finish p result).book = t.book.finish p result (t.data p).released := by
  obtain ⟨pending, replay⟩ := wf.removePending_lists member
  simp only [book, RequestBook.finish, RequestBook.mk.injEq]
  exact ⟨rfl, pending.toList_eq, replay.toList_eq, rfl, rfl, rfl⟩

theorem finish_refines (wf : t.Wf bounds) {result : SubmitResult} (member : p ∈ t.pending.toList)
    (honest : HonestAnswer (t.data p) result) : Refines bounds status t (t.finish p result) := by
  refine .single (.finish p result (t.data p).released) ?_ ⟨member, honest⟩ trivial ?_
  · exact { wf.removePending member with }
  · simp only [ledger, finish_book wf member]
    rfl

theorem failure_is (node : RequestData) (known : err.Is .outcomeUnknown = false) :
    (failure node err).Is .outcomeUnknown = node.mayHaveExecuted := by
  cases executed : node.mayHaveExecuted <;> simp [failure, executed, known, unknownOutcome]

theorem failAll_refines (wf : t.Wf bounds) (known : err.Is .outcomeUnknown = false) :
    Refines bounds status t (t.failAll err) := by
  have members : ∀ p, p ∈ t.pending.array ↔ p ∈ t.pending.toList := fun p => wf.pending.perm.mem_iff
  have path := Ledger.path_finishAll (fun p => { err := some (failure (t.data p) err) }) t.pending.array
    (t.ledger status) (wf.pending.perm.nodup_iff.mpr wf.pending.nodup) (fun p member => (members p).mp member)
    (fun p _ _ cause same => by rw [← Option.some.inj same]; exact failure_is _ known)
  have noQueue : t.pending.array.foldl List.erase t.pending.toList = [] :=
    foldl_erase_eq_nil wf.pending.nodup fun p member => (members p).mpr member
  have noReplay : t.pending.array.foldl List.erase t.replay.toList = [] :=
    foldl_erase_eq_nil wf.replay.nodup fun p member => (members p).mpr (wf.live p member)
  have queue : (t.failAll err).pending.toList = [] := (Chain.detach_holds _ _).toList_eq
  have replay : (t.failAll err).replay.toList = [] := (Chain.detach_holds _ _).toList_eq
  refine ⟨wf.toLinked.failAll err, ?_⟩
  simp only [ledger, book, noQueue, noReplay, queue, replay] at path ⊢
  exact path

theorem failAll_empty (t : RequestTable) (err : GoError) : (t.failAll err).pending.toList = [] :=
  (Chain.detach_holds _ _).toList_eq

theorem register_refines (wf : t.Wf bounds) {message : Message} {bytes : Nat} (next : command.id = t.commands)
    (vacant : t.byTID message.header.transactionID = none) (room : t.Room bounds command.control bytes)
    (admitted : admissionMessageBytes message bounds.limits = .ok bytes) (running : status.terminalErr = none)
    (notStopped : status.stage ≠ .stopped) : Refines bounds status t (t.register command message bytes) := by
  refine .single (.register command message bytes) (wf.register next vacant room admitted) ⟨next, running, notStopped⟩
    trivial ?_
  have list := (wf.register_list command message bytes).toList_eq
  simp only [ledger, book, list]
  rfl

/-- Only control requests are bound to a generation, so their answers are not
held to the rule about unknown outcomes. -/
theorem invalidateFrom_refines (wf : t.Wf bounds) (fuel index : Nat) :
    Refines bounds status t (invalidateFrom fuel index t) := by
  induction fuel generalizing index t with
  | zero => exact wf.refines_refl
  | succ fuel ih =>
    unfold invalidateFrom
    split
    · exact wf.refines_refl
    · rename_i p atIndex
      split
      · rename_i bound
        have member : p ∈ t.pending.toList := wf.pending.perm.mem_iff.mp (List.mem_of_getElem? atIndex)
        have first : Refines bounds status t (t.finish p { err := some Sentinel.controlInvalidated }) :=
          finish_refines wf member fun application => by
            rw [SubmitCommand.control_of_generation bound] at application
            cases application
        exact first.trans (ih first.wf index)
      · exact ih wf (index + 1)

theorem invalidateControls_refines (wf : t.Wf bounds) : Refines bounds status t t.invalidateControls :=
  invalidateFrom_refines wf _ _

/-- The loop of `failSentUnknown` answers exactly the sent requests it visits. -/
theorem failSent_foldl (status : OwnerStatus) (wf : t.Wf bounds) (cause : GoError) (nodup : xs.Nodup)
    (live : ∀ p ∈ xs, p ∈ t.pending.toList) : Refines bounds status t (xs.foldl (failSent cause) t) ∧
      ∀ p ∈ (xs.foldl (failSent cause) t).pending.toList, p ∈ t.pending.toList ∧
        (xs.foldl (failSent cause) t).data p = t.data p ∧ (p ∈ xs → (t.data p).sent = false) := by
  induction xs generalizing t with
  | nil => exact ⟨wf.refines_refl, fun p member => ⟨member, rfl, nofun⟩⟩
  | cons q rest ih =>
    obtain ⟨notInRest, restNodup⟩ := List.nodup_cons.mp nodup
    rw [List.foldl_cons]
    by_cases sent : (t.data q).sent = true
    · have member := live q (by simp)
      have step : failSent cause t q = t.finish q { err := some (unknownOutcome cause) } := by simp [failSent, sent]
      have list : (failSent cause t q).pending.toList = t.pending.toList.erase q := by
        rw [step]
        exact (wf.removePending_lists member).1.toList_eq
      have first : Refines bounds status t (failSent cause t q) := by
        rw [step]
        refine finish_refines wf member fun _ err same => ?_
        rw [wf.executed q member sent, ← Option.some.inj same]
        simp [unknownOutcome]
      obtain ⟨others, kept⟩ := ih first.wf restNodup fun p listed => by
        rw [list]
        exact (List.mem_erase_of_ne (ne_of_mem_of_not_mem listed notInRest)).mpr (live p (by simp [listed]))
      refine ⟨first.trans others, fun p remains => ?_⟩
      obtain ⟨old, data, unsent⟩ := kept p remains
      rw [list] at old
      obtain ⟨other, old⟩ := wf.pending.nodup.mem_erase_iff.mp old
      have same : (failSent cause t q).data p = t.data p := by
        rw [step]
        exact removePending_data_of_ne other
      rw [same] at data unsent
      exact ⟨old, data, fun listed => unsent ((List.mem_cons.mp listed).resolve_left other)⟩
    · have step : failSent cause t q = t := by simp [failSent, sent]
      rw [step]
      obtain ⟨others, kept⟩ := ih wf restNodup fun p listed => live p (by simp [listed])
      refine ⟨others, fun p remains => ?_⟩
      obtain ⟨old, data, unsent⟩ := kept p remains
      refine ⟨old, data, fun listed => ?_⟩
      rcases List.mem_cons.mp listed with rfl | listed
      · simpa using sent
      · exact unsent listed

variable (wf : t.Wf bounds)
include wf

/-- Dropping list heads is dropping from the front of the list. -/
theorem dropReplayWhile_spec (drop : Nat → Bool) {fuel : Nat} (enough : t.replay.toList.length ≤ fuel) :
    (dropReplayWhile drop fuel t).Wf bounds ∧
      (dropReplayWhile drop fuel t).book = { t.book with replay := t.replay.toList.dropWhile drop } := by
  induction fuel generalizing t with
  | zero =>
    have empty : t.replay.toList = [] := List.length_eq_zero_iff.mp (by omega)
    refine ⟨wf, ?_⟩
    simp only [dropReplayWhile, book, empty, List.dropWhile_nil]
  | succ fuel ih =>
    have headEq := wf.replay.head_eq
    unfold dropReplayWhile
    cases list : t.replay.toList with
    | nil =>
      rw [list] at headEq
      simp only [headEq, List.head?_nil]
      exact ⟨wf, by simp only [book, list, List.dropWhile_nil]⟩
    | cons head rest =>
      rw [list] at headEq
      simp only [headEq, List.head?_cons]
      have erased : (t.removeReplay head).replay.toList = rest := by
        rw [(wf.replay_erase head).toList_eq, list, List.erase_cons_head]
      split
      · rename_i small
        obtain ⟨kept, bookEq⟩ := ih (wf.removeReplay head) (by rw [erased]; rw [list] at enough; simpa using enough)
        refine ⟨kept, bookEq.trans ?_⟩
        rw [erased, List.dropWhile_cons_of_pos small]
        rfl
      · rename_i large
        refine ⟨wf, ?_⟩
        rw [List.dropWhile_cons_of_neg large, ← list]
        rfl

theorem replay_length : t.replay.toList.length ≤ t.replay.array.length :=
  Nat.le_of_eq wf.replay.perm.length_eq.symm

theorem failSentUnknown_refines (cause : GoError) : Refines bounds status t (t.failSentUnknown cause) := by
  have members : ∀ p, p ∈ t.pending.array ↔ p ∈ t.pending.toList := fun p => wf.pending.perm.mem_iff
  obtain ⟨answered, kept⟩ := failSent_foldl status wf cause
    (wf.pending.perm.nodup_iff.mpr wf.pending.nodup) fun p member => (members p).mp member
  generalize afterLoop : t.pending.array.foldl (failSent cause) t = loop at answered kept
  obtain ⟨dropped, bookEq⟩ := dropReplayWhile_spec answered.wf (fun _ => true) (replay_length answered.wf)
  generalize afterDrop : dropReplayWhile (fun _ => true) loop.replay.array.length loop = last at dropped bookEq
  have drops : loop.replay.toList.dropWhile (fun _ => true) = [] :=
    List.dropWhile_eq_nil_iff.mpr fun _ _ => rfl
  rw [drops] at bookEq
  have noReplay : last.replay.toList = [] := congrArg RequestBook.replay bookEq
  have holds := dropped.replay
  rw [noReplay] at holds
  have array : last.replay.array = [] := holds.perm.eq_nil
  have result : t.failSentUnknown cause = { last with journal := .replayDropped :: last.journal } := by
    simp only [failSentUnknown, afterLoop, afterDrop]
    rw [show ({ last.replay with array := [] } : Chain Nat) = last.replay by rw [← array]]
  rw [result]
  refine answered.trans (.single .dropReplay { dropped with } (fun p member => ?_) trivial ?_)
  · obtain ⟨old, data, unsent⟩ := kept p member
    have same : (loop.ledger status).data p = t.data p := data
    rw [same]
    exact unsent ((members p).mpr old)
  · exact congrArg (fun b => Ledger.mk { b with journal := .replayDropped :: b.journal } status) bookEq

theorem unsend_refines (listed : p ∈ t.replay.toList) (notReady : status.stage ≠ .ready) :
    Refines bounds status t (t.unsend p) ∧ (t.unsend p).replay = t.replay := by
  have member := wf.live p listed
  have found : t.byRequest (t.data p).request.id = some p := (wf.byRequest _ p).mpr ⟨member, rfl⟩
  cases sent : (t.data p).sent with
  | false =>
    have step : t.unsend p = t := by simp [unsend, sent]
    rw [step]
    exact ⟨wf.refines_refl, rfl⟩
  | true =>
    have step : t.unsend p = { t with
        inFlight := if (t.data p).request.control then t.inFlight else t.inFlight - 1
        data := Function.update t.data p { t.data p with sent := false } } := by
      simp [unsend, sent, found]
    rw [step]
    have flying := wf.inFlight
    have charged := load_erase (fun node => if node.inFlight then 1 else 0) t.data member
    refine ⟨.single (.unsend p) (wf.rewrite member rfl rfl rfl (wf.admitted p member) nofun ?_ ?_)
      ⟨listed, notReady⟩ trivial rfl, rfl⟩
    · cases control : (t.data p).request.control <;> simp [RequestData.inFlight, control, sent]
    · have few := wf.inFlight_le
      cases (t.data p).request.control <;> simp only [Bool.false_eq_true, if_false, if_true] <;> omega

theorem unsend_foldl (listed : ∀ p ∈ xs, p ∈ t.replay.toList) (notReady : status.stage ≠ .ready) :
    Refines bounds status t (xs.foldl unsend t) := by
  induction xs generalizing t with
  | nil => exact wf.refines_refl
  | cons p rest ih =>
    obtain ⟨first, same⟩ := unsend_refines wf (listed p (by simp)) notReady
    exact first.trans (ih first.wf fun q member => by rw [same]; exact listed q (by simp [member]))

theorem prepareReplay_refines (notReady : status.stage ≠ .ready) : Refines bounds status t t.prepareReplay :=
  unsend_foldl wf (fun _ member => wf.replay.perm.mem_iff.mp member) notReady

theorem acknowledge_spec (sequence : Nat) :
    (t.acknowledge sequence).Wf bounds ∧ (t.acknowledge sequence).book = t.book.acknowledge sequence := by
  obtain ⟨kept, bookEq⟩ := dropReplayWhile_spec wf (fun p => decide ((t.data p).seq ≤ sequence)) (replay_length wf)
  refine ⟨{ kept with }, ?_⟩
  have notes : (t.acknowledge sequence).book =
      { (t.trimReplay sequence).book with journal := .acknowledged sequence :: (t.trimReplay sequence).journal } :=
        rfl
  have journal : (t.trimReplay sequence).journal = t.journal := congrArg RequestBook.journal bookEq
  rw [notes, journal, trimReplay, bookEq]
  rfl

theorem handOver_spec (seq ackSequence : Nat) (member : p ∈ t.pending.toList) (unsent : (t.data p).sent = false)
    (room : (t.data p).request.control = false → t.inFlight < bounds.maxInFlightTransactions) :
    (t.handOver p seq (t.book.handed p seq ackSequence).message).Wf bounds ∧
      (t.handOver p seq (t.book.handed p seq ackSequence).message).book = t.book.hand p seq ackSequence := by
  have flying := wf.inFlight
  have few := wf.inFlight_le
  have rewritten : ({ t with
      data := Function.update t.data p (t.book.handed p seq ackSequence)
      inFlight := if (t.data p).request.control then t.inFlight else t.inFlight + 1 } : RequestTable).Wf bounds := by
    refine wf.rewrite member rfl rfl rfl (admitted_congr (wf.admitted p member) rfl rfl rfl) (fun _ => rfl) ?_ ?_
    · cases control : (t.data p).request.control <;>
        simp [RequestData.inFlight, RequestBook.handed, book, control, unsent]
    · cases control : (t.data p).request.control with
      | true => simp only [if_true]; omega
      | false =>
        have := room control
        simp only [Bool.false_eq_true, if_false]
        omega
  have listed := rewritten.addReplay member
  refine ⟨{ listed with }, ?_⟩
  have replay := (rewritten.addReplay_list p).toList_eq
  exact congrArg (fun replay => { t.book.hand p seq ackSequence with replay := replay }) replay

end RequestTable

end RadosGo
