import RadosGo.Msgr.OwnerRefinement

namespace RadosGo

variable {err : GoError}

theorem checkedUint32Length_known {length : Nat} (failed : checkedUint32Length length = .error err) :
    err.Is .outcomeUnknown = false := by
  unfold checkedUint32Length at failed
  split at failed
  · cases failed
    rfl
  · cases failed

variable {limits : Limits} {segments : List Segment} {message : Message}

theorem segmentTotal_known {index total : Nat}
    (failed : segmentTotal limits index total segments = .error err) : err.Is .outcomeUnknown = false := by
  induction segments generalizing index total with
  | nil => cases failed
  | cons segment rest ih =>
    simp only [segmentTotal] at failed
    split at failed
    · cases failed
      simp
    split at failed
    · cases failed
      rfl
    · exact ih failed

theorem validateMessageSegments_known (failed : validateMessageSegments segments limits = .error err) :
    err.Is .outcomeUnknown = false := by
  rcases except_bind_error failed with early | ⟨_, -, failed⟩
  · exact segmentTotal_known early
  split at failed
  · cases failed
    rfl
  · cases failed

theorem messageSegments_known {invalid : Sentinel} {header : List UInt8}
    (failed : messageSegments invalid header message limits = .error err) (variable' : invalid ≠ .outcomeUnknown) :
    err.Is .outcomeUnknown = false := by
  unfold messageSegments at failed
  rcases except_bind_error failed with short | ⟨_, -, failed⟩
  · exact checkedUint32Length_known short
  rcases except_bind_error failed with short | ⟨_, -, failed⟩
  · exact checkedUint32Length_known short
  rcases except_bind_error failed with short | ⟨_, -, failed⟩
  · exact checkedUint32Length_known short
  simp only at failed
  split at failed
  · cases failed
    simpa using variable'
  split at failed
  · cases failed
    simpa using variable'
  rcases except_bind_error failed with long | ⟨_, -, failed⟩
  · exact validateMessageSegments_known long
  · cases failed

/-- A message that is refused for its size or shape is refused with a known error. -/
theorem admissionMessageBytes_known (failed : admissionMessageBytes message limits = .error err) :
    err.Is .outcomeUnknown = false := by
  rcases except_bind_error failed with refused | ⟨_, -, failed⟩
  · exact messageSegments_known refused nofun
  · cases failed

theorem validateControlMessage_known (failed : validateControlMessage message = .error err) :
    err.Is .outcomeUnknown = false := by
  unfold validateControlMessage at failed
  split at failed
  · cases failed
    simp
  · cases failed

theorem TransactionCounter.takeTID_spec (taken : Nat → Bool) (counter : TransactionCounter) :
    (∀ id, (counter.takeTID taken).1 = .ok id → taken id = false) ∧
      ∀ err, (counter.takeTID taken).1 = .error err → err.Is .outcomeUnknown = false := by
  fun_induction counter.takeTID taken with
  | case1 | case4 => exact ⟨nofun, fun err same => by obtain rfl := Except.error.inj same; rfl⟩
  | case2 _ _ _ _ _ ih => exact ih
  | case3 _ _ _ _ free => exact ⟨fun id same => by obtain rfl := Except.ok.inj same; simpa using free, nofun⟩
  | case5 _ _ _ _ free => exact ⟨fun id same => by obtain rfl := Except.ok.inj same; simpa using free, nofun⟩

/-- Beside the quiet changes, a step may let a request expire or accept an
acknowledgment, the latter on the requests it found. -/
def Ledger.Permitted (expiring : Prop) (accepted : Nat → Prop) (b : RequestBook) (l : Ledger) : Action → Prop
  | .expire _ _ _ => expiring
  | .acknowledge sequence => accepted sequence ∧ l.toRequestBook = b
  | _ => True

theorem Ledger.Quietly.permitted {expiring : Prop} {accepted : Nat → Prop} {b : RequestBook} (l : Ledger)
    (action : Action) (quiet : l.Quietly action) : l.Permitted expiring accepted b action := by
  cases action <;> first | exact trivial | exact quiet.elim

theorem Ledger.Permitted.imp {expiring : Prop} {accepted accepted' : Nat → Prop} {b : RequestBook}
    (weaker : ∀ sequence, accepted sequence → accepted' sequence) (l : Ledger) (action : Action)
    (permitted : l.Permitted expiring accepted b action) : l.Permitted expiring accepted' b action := by
  cases action
  case acknowledge sequence => exact ⟨weaker sequence permitted.1, permitted.2⟩
  all_goals exact permitted

namespace SessionOwner

variable {o o' : SessionOwner} {expiring : Prop} {accepted : Nat → Prop} {b : RequestBook}

theorem Refines.permitted (refines : Refines Ledger.Quietly o o') :
    Refines (Ledger.Permitted expiring accepted b) o o' := refines.mono Ledger.Quietly.permitted

variable {message : Message} {bytes p : Nat} {command : SubmitCommand}

/-- The copy which the owner keeps is admitted like the message itself. -/
theorem ownMessage_admitted {limits : Limits} (admitted : admissionMessageBytes message limits = .ok bytes) :
    admissionMessageBytes (ownMessage message) limits = .ok bytes := by
  refine admitted_congr admitted ?_ ?_ ?_ <;> unfold ownMessage <;> split <;> rfl

theorem room_of_not_saturated (room : o.submitSaturated command bytes = false) :
    o.toRequestTable.Room o.config.toSessionBounds command.control bytes := by
  unfold submitSaturated at room
  unfold RequestTable.Room
  cases control : command.control <;>
    simp only [control, Bool.false_eq_true, if_false, if_true, decide_eq_false_iff_not, not_or] at room ⊢ <;> omega

theorem invalidateFrom_commands (fuel index : Nat) (t : RequestTable) :
    (RequestTable.invalidateFrom fuel index t).commands = t.commands := by
  induction fuel generalizing index t with
  | zero => rfl
  | succ fuel ih =>
    unfold RequestTable.invalidateFrom
    split
    · rfl
    split
    · rw [ih]
      rfl
    · exact ih _ _

theorem failTerminal_commands (o : SessionOwner) (err : GoError) : (o.failTerminal err).commands = o.commands :=
  invalidateFrom_commands _ _ _

theorem register_refines (wf : o.Wf) (running : o.terminalErr = none) (notStopped : o.state ≠ .stopped)
    (next : command.id = o.commands) (vacant : o.byTID message.header.transactionID = none)
    (room : o.submitSaturated command bytes = false)
    (admitted : admissionMessageBytes message o.config.limits = .ok bytes) :
    Refines Ledger.Quietly o (o.register command message bytes) := by
  have started : o.stage ≠ .stopped := by
    cases state : o.state <;> simp only [stage, state] <;> (try split) <;> simp_all
  exact .ofTable (RequestTable.register_refines wf.table next vacant
    (room_of_not_saturated room) admitted running started)
    rfl rfl wf.controls wf.connecting

theorem submit_refines (wf : o.Wf) (known : ∀ err, o.terminalErr = some err → err.Is .outcomeUnknown = false)
    (notStopped : o.state ≠ .stopped) (kind : SubmitKind) (message : Message) :
    Refines Ledger.Quietly o (o.submit kind message) := by
  unfold submit
  simp only
  split
  · exact refuse_refines wf rfl rfl
  split
  · exact refuse_refines wf rfl (by simp)
  · rename_i failed
    exact refuse_refines wf rfl (known _ failed)
  · rename_i running
    split
    · rename_i refused
      refine refuse_refines wf rfl ?_
      split at refused
      · exact validateControlMessage_known refused
      · cases refused
    · rename_i refused
      exact refuse_refines wf rfl (admissionMessageBytes_known refused)
    · rename_i bytes _ admitted
      split
      · exact refuse_refines wf rfl rfl
      rename_i room
      have room : o.submitSaturated ⟨o.commands, kind⟩ bytes = false := by simpa using room
      split
      · split
        · rename_i err counter exhausted
          have counted : Refines Ledger.Quietly o { o with toTransactionCounter := counter } :=
            .silent ⟨wf.table, wf.controls, wf.connecting⟩ rfl rfl
          have unnamed : err.Is .outcomeUnknown = false :=
            (TransactionCounter.takeTID_spec _ _).2 err (congrArg Prod.fst exhausted)
          have failed := counted.trans (failTerminal_refines counted.wf unnamed)
          exact failed.trans (refuse_refines failed.wf (failTerminal_commands _ err).symm unnamed)
        · rename_i transactionID counter taken
          have counted : Refines Ledger.Quietly o { o with toTransactionCounter := counter } :=
            .silent ⟨wf.table, wf.controls, wf.connecting⟩ rfl rfl
          have free := (TransactionCounter.takeTID_spec _ _).1 transactionID (congrArg Prod.fst taken)
          exact counted.trans (register_refines counted.wf running notStopped rfl (by simpa using free) room
            (admitted_congr (ownMessage_admitted admitted) rfl rfl rfl))
      split
      · exact refuse_refines wf rfl (by simp)
      · rename_i free
        exact register_refines wf running notStopped rfl (by simpa using free) room (ownMessage_admitted admitted)

theorem cancel_refines (wf : o.Wf) (request : Nat) (cause : ContextError) :
    Refines Ledger.Quietly o (o.cancel request cause.error) := by
  unfold cancel
  split
  · exact wf.refines_refl
  · rename_i p found
    have member := ((wf.table.byRequest request p).mp found).1
    refine finish_refines wf member fun _ err same => ?_
    cases same
    split
    · rename_i executed
      simp [RequestTable.unknownOutcome, executed]
    · rename_i fresh
      simpa using fresh

/-- The owner selects what its book selects. -/
theorem nextPendingWrite_eq (wf : o.Wf) : o.nextPendingWrite = o.toRequestTable.book.selected := by
  have counts := wf.table.controlCount
  rw [load_eq_countP (fun node : RequestData => node.request.control)] at counts
  have lane : (o.controlCount == 0) = o.pending.toList.all fun p => !(o.data p).request.control := by
    rw [counts, Bool.eq_iff_iff]
    simp [List.countP_eq_zero]
  rw [RequestTable.nextPendingWrite, lane]
  rfl

/-- The selected request is encoded and written under its number. -/
theorem writeRequest_refines (wf : o.Wf) {seq : Nat} {counter : SequenceCounter} (ready : o.stage = .ready)
    (selected : o.nextPendingWrite = some p)
    (room : (o.data p).request.control = false → o.inFlight < o.config.maxInFlightTransactions)
    (number : if (o.data p).seq = 0 then o.toSequenceCounter.allocateSequence = .ok (seq, counter)
      else seq = (o.data p).seq ∧ counter = o.toSequenceCounter) :
    Refines Ledger.Quietly o (({ o with toSequenceCounter := counter } : SessionOwner).writeRequest p seq) := by
  rw [nextPendingWrite_eq wf] at selected
  obtain ⟨member, unsent⟩ := selectWrite_mem selected
  have encodes : encodeMessage (numberMessage (o.data p).message (decide ((o.data p).seq = 0)) seq o.lastInbound)
      o.config.limits = .ok _ := admitted_encodes (wf.table.admitted p member) rfl rfl rfl
  obtain ⟨table, book⟩ := RequestTable.handOver_spec wf.table seq o.lastInbound member unsent room
  unfold writeRequest
  simp only [encodes]
  refine .single (.hand p seq o.lastInbound (addUint64 o.nextWriteID 1) counter)
    ⟨{ table with }, ?_, wf.connecting⟩ rfl
    ⟨ready, selected, number⟩ trivial ?_
  · exact Nat.le_trans (Nat.le_add_right _ _) wf.controls
  · exact congrArg (fun b => Ledger.mk
      { b with journal := .wrote o.generation (requestTask (addUint64 o.nextWriteID 1) seq (o.data p).request
        (o.toRequestTable.book.handed p seq o.lastInbound).message) :: b.journal }
      { o.status with counter := counter }) book

/-- A request that may have executed gets the plain error of its context. -/
theorem expire_refines (wf : o.Wf) {cause : ContextError} (member : p ∈ o.pending.toList)
    (application : (o.data p).request.control = false) (executed : (o.data p).mayHaveExecuted = true)
    (expires : expiring) :
    Refines (Ledger.Permitted expiring accepted b) o (o.finish p { err := some cause.error }) := by
  have book := RequestTable.finish_book wf.table member { err := some cause.error }
  exact .single (.expire p cause (o.data p).released)
    ⟨{ wf.table.removePending member with }, wf.controls, wf.connecting⟩ rfl ⟨member, application, executed⟩ expires
    (congrArg (fun b => Ledger.mk b o.status) book)

theorem dispatchPending_refines (wf : o.Wf) (ready : o.stage = .ready) (selected : o.nextPendingWrite = some p)
    (expires : (o.data p).request.control = false → o.inFlight < o.config.maxInFlightTransactions →
      o.contexts (o.data p).request.id ≠ none → (o.data p).mayHaveExecuted = true → expiring) :
    Refines (Ledger.Permitted expiring accepted b) o (o.dispatchPending p) := by
  have member : p ∈ o.pending.toList := (selectWrite_mem (nextPendingWrite_eq wf ▸ selected)).1
  unfold dispatchPending
  simp only
  split
  · rename_i stale
    refine (finish_refines wf member fun application => ?_).permitted
    rw [SubmitCommand.control_of_generation stale.1] at application
    cases application
  split
  · exact wf.refines_refl
  rename_i room
  have room : (o.data p).request.control = false → o.inFlight < o.config.maxInFlightTransactions := fun application =>
    Int.not_le.mp fun full => room ⟨application, full⟩
  split
  · rename_i cause ended
    split
    · exact (cancel_refines wf _ cause).permitted
    · rename_i notControl
      have application : (o.data p).request.control = false := by simpa using notControl
      cases executed : (o.data p).mayHaveExecuted with
      | true =>
        exact expire_refines wf member application executed
          (expires application (room application) (by rw [ended]; nofun) executed)
      | false =>
        refine (finish_refines wf member fun _ err same => ?_).permitted
        cases same
        simp [executed]
  · split
    · rename_i fresh
      split
      · rename_i failed
        exact (failTerminal_refines wf (SequenceCounter.allocateSequence_error failed ▸ rfl)).permitted
      · rename_i allocated
        exact (writeRequest_refines wf ready selected room (by rw [if_pos fresh]; exact allocated)).permitted
    · rename_i numbered
      have written : Refines Ledger.Quietly o (({ o with toSequenceCounter := o.toSequenceCounter } :
          SessionOwner).writeRequest p (o.data p).seq) :=
        writeRequest_refines wf ready selected room (by rw [if_neg numbered]; exact ⟨rfl, rfl⟩)
      exact written.permitted

/-- The next dispatch selects an application request that was handed over
before and whose context has ended. -/
def Expires (o : SessionOwner) : Prop :=
  o.writeBusy = false ∧ o.writeTasks = true ∧ o.state = .ready ∧ o.controlQueue = [] ∧ o.renewalPending = false ∧
    o.inFlight < o.config.maxInFlightTransactions ∧
    ∃ p ∈ o.nextPendingWrite, (o.data p).request.control = false ∧ (o.data p).mayHaveExecuted = true ∧
      o.contexts (o.data p).request.id ≠ none

instance (o : SessionOwner) : Decidable o.Expires := inferInstanceAs (Decidable (_ ∧ _))

/-- What such a dispatch does: it answers with the bare error of the context. -/
theorem Expires.dispatch (expires : o.Expires) (codec : FrameCodec) :
    ∃ p ∈ o.nextPendingWrite, ∃ cause : ContextError, (o.data p).request.control = false ∧
      (o.data p).mayHaveExecuted = true ∧ o.dispatch codec = o.finish p { err := some cause.error } := by
  obtain ⟨idle, tasks, ready, empty, notRenewing, room, p, selected, application, executed, ended⟩ := expires
  obtain ⟨cause, ended⟩ := Option.ne_none_iff_exists'.mp ended
  refine ⟨p, selected, cause, application, executed, ?_⟩
  have selected : o.nextPendingWrite = some p := selected
  have unbound : (o.data p).request.controlGeneration = 0 := by
    by_contra bound
    simp [SubmitCommand.control_of_generation bound] at application
  have pending : o.dispatchPending p = o.finish p { err := some cause.error } := by
    simp [dispatchPending, unbound, application, ended, Int.not_le.mpr room]
  simp [SessionOwner.dispatch, dispatchWrite, dispatchRequest, idle, tasks, ready, empty, notRenewing,
    selected, pending]

theorem dispatchRequest_refines (wf : o.Wf) (ready : o.stage = .ready)
    (expires : o.renewalPending = false → o.inFlight < o.config.maxInFlightTransactions →
      ∀ p, o.nextPendingWrite = some p → (o.data p).request.control = false → (o.data p).mayHaveExecuted = true →
        o.contexts (o.data p).request.id ≠ none → expiring) :
    Refines (Ledger.Permitted expiring accepted b) o o.dispatchRequest := by
  unfold dispatchRequest
  simp only
  split
  · split
    · have renewing : Refines Ledger.Quietly o { o with renewalPending := false } :=
        .silent ⟨wf.table, wf.controls, wf.connecting⟩ rfl rfl
      exact (renewing.trans (handleFault_refines renewing.wf _)).permitted
    · exact wf.refines_refl
  · rename_i notRenewing
    split
    · exact wf.refines_refl
    · rename_i p selected
      refine dispatchPending_refines wf ready selected fun application room ended executed => ?_
      refine expires ?_ room p selected application executed ended
      simpa [selected, application] using notRenewing

/-- Control frames go first; requests only on a ready transport. -/
theorem dispatchWrite_refines (wf : o.Wf) (open' : o.state = .ready → o.writeTasks = true)
    (expires : o.state = .ready → o.controlQueue = [] → o.renewalPending = false →
      o.inFlight < o.config.maxInFlightTransactions →
      ∀ p, o.nextPendingWrite = some p → (o.data p).request.control = false → (o.data p).mayHaveExecuted = true →
        o.contexts (o.data p).request.id ≠ none → expiring) :
    Refines (Ledger.Permitted expiring accepted b) o o.dispatchWrite := by
  unfold dispatchWrite
  split
  · rename_i frame rest queued
    refine Refines.permitted (.single (.control { id := addUint64 o.nextWriteID 1, frame })
      ⟨{ wf.table with }, ?_, wf.connecting⟩ rfl rfl trivial rfl)
    have controls := wf.controls
    rw [queuedControls, queued] at controls
    exact Nat.le_trans (Nat.add_le_add_right (Nat.le_succ rest.length) _) controls
  · rename_i empty
    split
    · exact wf.refines_refl
    · rename_i ready
      have ready : o.state = .ready := Decidable.not_not.mp ready
      exact dispatchRequest_refines wf (by simp [stage, ready, open' ready]) (expires ready empty)

/-- A fault leaves the owner alone or takes it offline. -/
theorem handleFault_cases (o : SessionOwner) (err : GoError) :
    o.handleFault err = o ∨ ((o.handleFault err).state = .disconnected ∧
      (o.handleFault err).renewalPending = o.renewalPending) := by
  unfold handleFault
  split
  · exact .inl rfl
  · refine .inr ?_
    simp only [beginReconnect, settleFault]
    split <;> split <;> (try split) <;> (try split) <;> exact ⟨rfl, rfl⟩

theorem handleFault_open (o : SessionOwner) (err : GoError) : (o.handleFault err).renewalPending = o.renewalPending ∧
    ((o.handleFault err).state = .ready → (o.handleFault err).writeTasks = o.writeTasks) := by
  rcases o.handleFault_cases err with same | ⟨offline, renewal⟩
  · rw [same]
    exact ⟨rfl, fun _ => rfl⟩
  · exact ⟨renewal, fun ready => absurd (offline.symm.trans ready) nofun⟩

theorem flushPendingAcknowledgment_open (codec : FrameCodec) (o : SessionOwner) :
    (o.flushPendingAcknowledgment codec).renewalPending = o.renewalPending ∧
      ((o.flushPendingAcknowledgment codec).state = .ready →
        (o.flushPendingAcknowledgment codec).writeTasks = o.writeTasks) := by
  unfold flushPendingAcknowledgment queueControl
  simp only
  split
  · split
    · exact handleFault_open _ _
    · split
      · exact handleFault_open _ _
      · exact ⟨rfl, fun _ => rfl⟩
  · exact ⟨rfl, fun _ => rfl⟩

theorem dispatch_refines (codec : FrameCodec) (wf : o.Wf) :
    Refines (Ledger.Permitted o.Expires accepted b) o (o.dispatch codec) := by
  unfold dispatch
  split
  · exact wf.refines_refl
  · rename_i active
    simp only [not_or, Bool.not_eq_true, Bool.not_eq_false] at active
    obtain ⟨idle, tasks, -⟩ := active
    split
    · rename_i renewing
      have flushed := (flushPendingAcknowledgment_refines codec wf)
      obtain ⟨still, open'⟩ := flushPendingAcknowledgment_open codec o
      refine flushed.permitted.trans (dispatchWrite_refines flushed.wf (fun ready => (open' ready).trans tasks) ?_)
      intro _ _ notRenewing
      rw [still, renewing.1] at notRenewing
      cases notRenewing
    · exact dispatchWrite_refines wf (fun _ => tasks) fun ready empty notRenewing room p selected application
        executed ended =>
        ⟨idle, tasks, ready, empty, notRenewing, room, p, selected, application, executed, ended⟩

end SessionOwner

end RadosGo
