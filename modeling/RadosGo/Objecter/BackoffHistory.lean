import RadosGo.Objecter.OsdTablesIndex

namespace RadosGo

open OsdSession

namespace BackoffNote

/-- The notes which end or begin a section of the mutex. -/
def boundary : BackoffNote → Bool
  | locked | unlocked | registered .. => true
  | _ => false

/-- No request is registered whose object a backoff contains, and a block is
acknowledged only after it has been installed in the same section. -/
def Lawful : BackoffNote → List BackoffNote → Prop
  | registered pg object backoffs, _ => ∀ backoff ∈ backoffs, backoff.pg = pg → backoff.contains object = false
  | acknowledged backoff, older => installed backoff ∈ since boundary older
  | _, _ => True

end BackoffNote

namespace OsdTables

variable {t t' : OsdTables}

/-- What each part of the receive loop keeps. -/
structure Loop (P : OsdTables → Prop) : Prop where
  locked : ∀ {t}, P t → P (t.note .locked)
  unlocked : ∀ {t}, P t → P (t.note .unlocked)
  clear : ∀ {t} generation, P t → P (t.clear generation)
  fail : ∀ {t} err, P t → P (t.fail err)
  apply : ∀ {t} message backoff, P t → P (t.applyBackoff message backoff).1
  taken : ∀ {t}, P t → P { t with acks := { t.acks with received := none } }
  finished : ∀ {t}, P t → P (t.receive .finished)

namespace Loop

variable {P : OsdTables → Prop} (loop : Loop P)
include loop

theorem reconcile (reads : Option Nat) (holds : P t) : P (t.reconcile reads) := by
  unfold OsdTables.reconcile
  split
  · split
    · exact holds
    · exact loop.clear _ holds
  · exact loop.clear _ holds

theorem reconcileScoped (reads : Option Nat) (holds : P t) : P (t.reconcileScoped reads) := by
  unfold OsdTables.reconcileScoped
  split
  · exact loop.reconcile _ holds
  · exact holds

theorem fail_if (err : GoError) (fails : Bool) (holds : P t) : P (if fails = true then t.fail err else t) := by
  split
  · exact loop.fail err holds
  · exact holds

theorem settle (message : BackoffMessage) (reads : Option ControlReads) (current : Bool) (err : Option GoError)
    (holds : P t) : P (t.settle message reads current err) := by
  cases err with
  | none => exact holds
  | some err => exact loop.fail_if err _ (loop.reconcileScoped _ holds)

theorem receiveBackoff (message : BackoffMessage) (reads : Option ControlReads) (holds : P t) :
    P (t.receiveBackoff message reads) := by
  have reconciled := loop.reconcileScoped (reads.map ControlReads.reconcile) (loop.locked holds)
  refine loop.unlocked (loop.settle message reads _ _ ?_)
  split
  · exact reconciled
  · split
    · exact loop.apply message _ reconciled
    · exact reconciled

theorem receive (event : TableEvent) (holds : P t) : P (t.receive event) := by
  cases event with
  | backoff message reads =>
    simp only [OsdTables.receive]
    split
    · exact holds
    · exact loop.receiveBackoff message reads holds
  | ackFailed reads =>
    simp only [OsdTables.receive]
    split
    · exact loop.unlocked (loop.fail_if _ _ (loop.reconcileScoped _ (loop.locked (loop.taken holds))))
    · exact holds
  | reset reads => exact loop.unlocked (loop.reconcile reads (loop.locked holds))
  | failed err => exact loop.unlocked (loop.fail err (loop.locked holds))
  | finished => exact loop.finished holds

end Loop

/-- A state in a section of the receive loop. -/
structure Sound (t : OsdTables) : Prop where
  indexed : Indexed t
  free : t.session.holder = none
  lawful : Throughout BackoffNote.Lawful t.log

theorem Sound.note (sound : Sound t) (note : BackoffNote) (lawful : note.Lawful t.log) : Sound (t.note note) :=
  ⟨sound.indexed.same sound.indexed.reached rfl rfl rfl rfl, sound.free, lawful, sound.lawful⟩

theorem Sound.clear (sound : Sound t) (generation : Nat) : Sound (t.clear generation) where
  indexed := by
    refine ⟨reaches_receive sound.indexed.reached sound.free .reset, .nil, fun _ => rfl, ?_⟩
    exact (wakes_reconcile t.session).submissions ▸ sound.indexed.submissions
  free := (wakes_reconcile t.session).holder.trans sound.free
  lawful := sound.lawful

theorem fail_backoffs (s : OsdSession) (err : GoError) : (s.fail err).backoffs = s.backoffs := by
  unfold OsdSession.fail
  split <;> rfl

theorem Sound.fail (sound : Sound t) (err : GoError) : Sound (t.fail err) where
  indexed := sound.indexed.same (reaches_receive sound.indexed.reached sound.free (.failed err))
    (fail_backoffs t.session err) (wakes_fail t.session err).submissions rfl rfl
  free := (wakes_fail t.session err).holder.trans sound.free
  lawful := sound.lawful

theorem removed_none {id : Nat} (removed : t.removeBackoff id = (t', none)) : t' = t := by
  obtain ⟨inSession, -, -⟩ := t.removeBackoff_same id
  rw [removed] at inSession
  have absent := removeBackoff_snd t.session id
  rw [inSession] at absent
  unfold OsdTables.removeBackoff OsdSession.removeBackoff at removed
  simp only [← absent, Prod.mk.injEq, and_true] at removed
  exact removed.symm

variable {message : BackoffMessage} {backoff : Backoff} {action : OsdSession.SessionAction} {session : OsdSession}
  {call : Nat}

/-- The acknowledgment follows the installation at once. -/
theorem Sound.block (sound : Sound t) (isBlock : backoff.operation = .block) :
    Sound (t.applyBackoff message backoff).1 := by
  simp only [applyBackoff, isBlock]
  split
  · next rejected =>
    rw [addBackoff_error rejected]
    exact sound
  rename_i installed added
  obtain ⟨indexed, free, log⟩ := sound.indexed.addBackoff sound.free isBlock added
  have lawful : Throughout BackoffNote.Lawful installed.log := by
    rw [log]
    exact ⟨trivial, sound.lawful⟩
  split
  · exact ⟨indexed, free, lawful⟩
  · rename_i acknowledged enqueued
    unfold OsdTables.enqueueACK at enqueued
    split at enqueued
    · cases enqueued
    cases enqueued
    have acknowledges : BackoffNote.Lawful (.acknowledged backoff) installed.log := by
      have inside : BackoffNote.boundary (.installed backoff) = false := rfl
      simp only [BackoffNote.Lawful, log, since_cons inside]
      exact List.mem_cons_self
    exact ⟨indexed.same indexed.reached rfl rfl rfl rfl, free, acknowledges, lawful⟩

theorem Sound.unblock (sound : Sound t) (isUnblock : backoff.operation = .unblock) :
    Sound (t.applyBackoff message backoff).1 := by
  simp only [applyBackoff, isUnblock]
  split
  · rename_i next blocked removed
    obtain ⟨indexed, free, -, -, log⟩ := sound.indexed.unblock sound.free isUnblock removed
    exact ⟨indexed, free, log ▸ sound.lawful⟩
  · rename_i next removed
    rw [removed_none removed]
    exact sound

/-- Every submission in the range of a backoff that an unblock removes is marked,
since the list of its placement group has it. -/
theorem Sound.marks (sound : Sound t) (isUnblock : backoff.operation = .unblock) {blocked : Backoff}
    (installed : blocked ∈ t.session.backoffs)
    (gone : blocked ∉ (t.applyBackoff message backoff).1.session.backoffs) {submission : TargetSubmission}
    (member : submission ∈ t.session.submissions) (samePG : submission.pg = blocked.pg)
    (inRange : blocked.contains submission.object = true) :
    { submission with resend := true, canceled := true } ∈
      (t.applyBackoff message backoff).1.session.submissions := by
  simp only [applyBackoff, isUnblock] at gone ⊢
  obtain ⟨inSession, -, -⟩ := t.removeBackoff_same backoff.id
  have found := OsdSession.removeBackoff_snd t.session backoff.id
  have flat := OsdSession.removeBackoff_backoffs t.session backoff.id
  rw [inSession] at found flat
  cases removed : t.removeBackoff backoff.id with
  | mk next other =>
    rw [removed] at found flat gone
    cases other with
    | none => exact absurd (removed_none removed ▸ installed) gone
    | some other =>
      obtain ⟨-, -, marked, submissions, -⟩ := sound.indexed.unblock sound.free isUnblock removed
      -- The backoff that was removed is the one which is gone, since no two share an identifier.
      have same : blocked = other := by
        have kept : blocked ∉ next.session.backoffs := gone
        rw [flat, List.mem_filter] at kept
        have isID : blocked.id = backoff.id := by simpa [installed] using kept
        have sameID : other.id = backoff.id := by simpa using List.find?_some found.symm
        exact List.inj_on_of_nodup_map sound.indexed.ids installed (List.mem_of_find?_eq_some found.symm)
          (isID.trans sameID.symm)
      subst same
      have covered : OsdSession.covers blocked submission = true := by simp [OsdSession.covers, samePG, inRange]
      simp only [marked, OsdSession.markResend, submissions]
      exact List.mem_map.mpr ⟨submission, member, by simp [covered]⟩

theorem applyBackoff_unblock (isUnblock : backoff.operation = .unblock) :
    (t.applyBackoff message backoff).2 = none ∧ (t.applyBackoff message backoff).1.acks = t.acks := by
  have acks : (t.removeBackoff backoff.id).1.acks = t.acks := by
    unfold OsdTables.removeBackoff
    split <;> rfl
  simp only [applyBackoff, isUnblock]
  split
  all_goals
    rename_i removed
    rw [removed] at acks
    exact ⟨rfl, acks⟩

theorem reconcileScoped_same {reads : Option Nat}
    (same : (t.reconcileScoped reads).acks.generation = t.acks.generation) : t.reconcileScoped reads = t := by
  cases reads with
  | none => rfl
  | some generation =>
    simp only [reconcileScoped, reconcile] at same ⊢
    split at same
    · next here => rw [if_pos here]
    · next other => exact absurd same other

/-- A message takes a backoff away as an unblock. Had the loop forgotten all
backoffs instead, the acknowledgments would be of another generation. -/
structure TakesAway (message : BackoffMessage) (blocked : Backoff) (t t' : OsdTables) : Prop where
  unblocks : ∃ backoff, message.decoded = .ok backoff ∧ backoff.operation = .unblock
  installed : blocked ∈ t.session.backoffs
  gone : blocked ∉ t'.session.backoffs
  generation : t'.acks.generation = t.acks.generation

theorem receiveBackoff_unblock (decoded : message.decoded = .ok backoff) (isUnblock : backoff.operation = .unblock)
    (reads : Option ControlReads) :
    let u := (t.note .locked).reconcileScoped (reads.map ControlReads.reconcile)
    t.receiveBackoff message reads = u.note .unlocked ∨
      t.receiveBackoff message reads = (u.applyBackoff message backoff).1.note .unlocked := by
  intro u
  unfold receiveBackoff
  simp only [decoded]
  split
  · simp only [(applyBackoff_unblock isUnblock).1]
    exact .inr rfl
  · exact .inl rfl

theorem Sound.receives (sound : Sound t) {reads : Option ControlReads} {blocked : Backoff}
    (takes : TakesAway message blocked t (t.receive (.backoff message reads))) {submission : TargetSubmission}
    (member : submission ∈ t.session.submissions) (samePG : submission.pg = blocked.pg)
    (inRange : blocked.contains submission.object = true) :
    { submission with resend := true, canceled := true } ∈
      (t.receive (.backoff message reads)).session.submissions := by
  obtain ⟨⟨backoff, decoded, isUnblock⟩, installed, gone, generation⟩ := takes
  simp only [receive] at gone generation ⊢
  split at gone
  · exact absurd installed gone
  next dispatched =>
    rw [if_neg dispatched] at generation ⊢
    rcases receiveBackoff_unblock decoded isUnblock reads with same | same
    all_goals
      rw [same] at gone generation ⊢
      simp only [OsdTables.note, applyBackoff_unblock isUnblock] at generation
      rw [@reconcileScoped_same (t.note .locked) _ generation] at gone ⊢
    · exact absurd installed gone
    · exact (sound.note .locked trivial).marks isUnblock installed gone member samePG inRange

theorem sound_loop : Loop Sound where
  locked sound := sound.note .locked trivial
  unlocked sound := sound.note .unlocked trivial
  clear generation sound := sound.clear generation
  fail err sound := sound.fail err
  apply message backoff sound := by
    cases operation : backoff.operation with
    | block => exact sound.block operation
    | unblock => exact sound.unblock operation
  taken sound := ⟨sound.indexed.same sound.indexed.reached rfl rfl rfl rfl, sound.free, sound.lawful⟩
  finished {t} sound := by
    have failed := wakes_fail t.session Sentinel.sessionClosed
    refine ⟨⟨reaches_receive sound.indexed.reached sound.free .finished, .nil, fun _ => rfl, ?_⟩, ?_, sound.lawful⟩
    · exact failed.submissions ▸ sound.indexed.submissions
    · exact failed.holder.trans sound.free

/-- What holds between the actions, whoever has the mutex. -/
structure Between (t : OsdTables) : Prop where
  indexed : Indexed t
  lawful : Throughout BackoffNote.Lawful t.log

theorem Between.onSession (between : Between t) (step : t.session.step action = some session)
    (keeps : action.keeps = true) : Between (t.onSession session) := by
  have held := (replying_of_reaches between.indexed.reached).held
  obtain ⟨backoffs, submissions, -⟩ := step_keeps held step keeps
  exact ⟨between.indexed.same (.next between.indexed.reached step trivial) backoffs submissions rfl rfl,
    between.lawful⟩

theorem Between.enter (between : Between t) (entering : (t.session.calls call).phase = .entering)
    (free : t.session.holder = none) : Between (t.enter call) := by
  have step : t.session.step (.enter call) = some (t.session.enter call) := by
    simp only [OsdSession.step, entering, free]
  have reached := between.indexed.reached.next step trivial
  unfold OsdSession.enter at reached
  unfold OsdTables.enter
  split
  · rename_i failed
    simp only [failed] at reached
    exact ⟨between.indexed.same reached rfl rfl rfl rfl, between.lawful⟩
  rename_i alive
  simp only [alive] at reached
  rw [between.indexed.blocked_eq]
  split
  · rename_i isBlocked
    rw [if_pos isBlocked] at reached
    exact ⟨between.indexed.same reached rfl rfl rfl rfl, between.lawful⟩
  · rename_i isOpen
    rw [if_neg isOpen] at reached
    exact ⟨between.indexed.register reached, between.lawful⟩

theorem Between.remove (between : Between t) {serial : Nat} {result : Except GoError Message}
    (completed : (t.session.calls call).phase = .completed serial result) (free : t.session.holder = none) :
    Between (t.remove call serial result) := by
  have step : t.session.step (.removes call) = some (t.session.remove call serial result) := by
    simp only [OsdSession.step, completed, free]
  refine ⟨between.indexed.remove (.next between.indexed.reached step trivial), ?_⟩
  unfold OsdTables.remove
  split <;> exact between.lawful

/-- The callback runs while the call still has the mutex under which it looked
for backoffs. -/
theorem Between.registers (between : Between t) (isHolder : t.session.holder = some call)
    (step : t.session.step (.admitted call) = some session) : Between ((t.onSession session).note
      (.registered (t.session.calls call).pg (t.session.calls call).object t.session.backoffs)) := by
  have next := between.onSession step rfl
  refine ⟨next.indexed.same next.indexed.reached rfl rfl rfl rfl, ?_, between.lawful⟩
  intro backoff member samePG
  have unblocked := holderUnblocked_of_reaches between.indexed.reached call isHolder
  simp only [OsdSession.blocked, List.any_eq_false, Bool.and_eq_true, beq_iff_eq, not_and,
    Bool.not_eq_true] at unblocked
  exact unblocked backoff member samePG

theorem keeps_of_session (notEnter : ∀ call, action = .enter call → False)
    (notRemoves : ∀ call, action = .removes call → False)
    (notReceives : ∀ received, action = .receives received → False) : action.keeps = true := by
  cases action with
  | enter call => exact (notEnter call rfl).elim
  | removes call => exact (notRemoves call rfl).elim
  | receives received => exact (notReceives received rfl).elim
  | _ => rfl

theorem Between.step (between : Between t) {action : TableAction} (step : t.step action = some t') : Between t' := by
  have unchanged {acks : AckQueue} : Between { t with acks } :=
    ⟨between.indexed.same between.indexed.reached rfl rfl rfl rfl, between.lawful⟩
  revert step
  fun_cases t.step action
  any_goals rintro ⟨⟩
  any_goals intro step
  any_goals obtain ⟨next, inSession, rfl⟩ := Option.map_eq_some_iff.mp step
  any_goals exact unchanged
  · next free entering => exact between.enter entering free
  · next free completed => exact between.remove completed free
  · next isHolder => exact between.registers isHolder inSession
  · next notEnter notRemoves _ notReceives =>
    exact between.onSession inSession (keeps_of_session notEnter notRemoves notReceives)
  · next event free =>
    have sound : Sound t := ⟨between.indexed, free.1, between.lawful⟩
    exact ⟨(sound_loop.receive event sound).indexed, (sound_loop.receive event sound).lawful⟩

theorem between_of_reaches (reach : interleavings.Reaches (fun _ _ => True) t) : Between t := by
  refine reach.invariant Between ?_ ?_
  · rintro first ⟨session, generation, start, rfl⟩
    obtain ⟨maxBackoffs, maxBackoffBytes, rfl⟩ := start
    exact ⟨⟨.start ⟨_, _, rfl⟩, .nil, fun _ => rfl, Threads.empty_holds⟩, trivial⟩
  · rintro earlier action later between step -
    exact between.step step

/-- The check for backoffs, the registration of requests and the installation of
backoffs are tied together in every interleaving, and an unblock that removes a
backoff marks every submission in its range. -/
theorem backoffs_respected (reach : interleavings.Reaches (fun _ _ => True) t) :
    Throughout BackoffNote.Lawful t.log ∧
    ∀ message reads blocked t', t.step (.receives (.backoff message reads)) = some t' →
      TakesAway message blocked t t' →
      ∀ submission ∈ t.session.submissions, submission.pg = blocked.pg → blocked.contains submission.object = true →
        { submission with resend := true, canceled := true } ∈ t'.session.submissions := by
  have between := between_of_reaches reach
  refine ⟨between.lawful, fun message reads blocked t' step takes submission member samePG inRange => ?_⟩
  obtain ⟨⟨free, -⟩, same⟩ := Option.ite_none_right_eq_some.mp step
  cases same
  have sound : Sound t := ⟨between.indexed, free, between.lawful⟩
  exact sound.receives takes member samePG inRange

def next (t : OsdTables) (action : TableAction) : OsdTables := (t.step action).getD t

instance (t : OsdTables) (action : TableAction) : Decidable (interleavings.step t action (t.next action)) :=
  decidable_of_iff ((t.step action).isSome = true) (by
    cases result : t.step action <;> simp [interleavings, next, result])

/-- The OSD blocks the objects of the placement group, or unblocks them. -/
def backsOff (operation : BackoffOperation) : TableAction :=
  .receives (.backoff ⟨0, .ok ⟨⟨0, 0, 0⟩, operation, 7, {}, { max := true }⟩, 32⟩ none)

/-- Two requests are registered, one of them is blocked and unblocked, a third
one comes too late. -/
def blockedRequests : List TableAction :=
  [.session (.submitTarget 0 ⟨0, 0, 0⟩ {}), .session (.enter 0), .session (.admitted 0),
    .session (.submitTarget 1 ⟨0, 1, 0⟩ {}), .session (.enter 1), .session (.admitted 1), backsOff .block,
    .session (.submitTarget 2 ⟨0, 0, 0⟩ {}), .session (.enter 2)]

def whileBlocked : OsdTables :=
  blockedRequests.foldl next { session := { maxBackoffs := 0, maxBackoffBytes := 0 } }

def afterBlock : OsdTables := whileBlocked.next (backsOff .unblock)

theorem backoffs_respected_marked :
    (afterBlock.session.submissions.map TargetSubmission.resend = [false, true] ∧ whileBlocked.log.length = 6 ∧
      whileBlocked.acks.queue.length = 1) ∧ Throughout BackoffNote.Lawful whileBlocked.log ∧
      ⟨0, 1, ⟨0, 0, 0⟩, {}, true, true⟩ ∈ afterBlock.session.submissions := by
  have starts : interleavings.start { session := { maxBackoffs := 0, maxBackoffBytes := 0 } } :=
    ⟨_, 0, ⟨0, 0, rfl⟩, rfl⟩
  have follows : interleavings.Follows
    (fun _ _ => True) next { session := { maxBackoffs := 0, maxBackoffBytes := 0 } }
      blockedRequests := by decide
  obtain ⟨lawful, marks⟩ := backoffs_respected ((System.Reaches.start starts).follow follows)
  have takes : TakesAway ⟨0, .ok ⟨⟨0, 0, 0⟩, .unblock, 7, {}, { max := true }⟩, 32⟩
    ⟨⟨0, 0, 0⟩, .block, 7, {}, { max := true }⟩
      whileBlocked afterBlock := ⟨⟨_, rfl, rfl⟩, by decide, by decide, by decide⟩
  exact ⟨by decide, lawful, marks _ none _ _ rfl takes ⟨0, 1, ⟨0, 0, 0⟩, {}, false, false⟩ (by decide) rfl
    (by decide)⟩

end OsdTables

end RadosGo
