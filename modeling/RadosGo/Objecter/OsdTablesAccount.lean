import RadosGo.Objecter.BackoffHistory

namespace RadosGo

open List OsdSession

namespace AckQueue

variable {acks acks' : AckQueue}

/-- The acknowledgments that are accounted for: those in the queue and the one that is being sent. -/
def held (acks : AckQueue) : List BackoffAck := acks.queue ++ acks.active.toList

structure Counted (acks : AckQueue) : Prop where
  count : acks.count = acks.held.length
  bytes : acks.bytes = (acks.held.map BackoffAck.bytes).sum
  count_le : acks.count ≤ maxControlMessages
  bytes_le : acks.bytes ≤ maxControlRetainedBytes

theorem Counted.enqueueACK (counted : Counted acks) {backoff : Backoff} {front transportGeneration : Nat}
    (queued : acks.enqueueACK backoff front transportGeneration = .ok acks') : Counted acks' := by
  have bytes_le := counted.bytes_le
  have limit : maxControlRetainedBytes = 2 ^ 20 := rfl
  unfold AckQueue.enqueueACK at queued
  simp only at queued
  split at queued
  · cases queued
  rename_i room
  cases queued
  rw [subUint64_eq (by omega) bytes_le] at room
  push Not at room
  have sum : addUint64 acks.bytes (messageHeaderSize + front) = acks.bytes + (messageHeaderSize + front) :=
    Nat.mod_eq_of_lt (by omega)
  refine ⟨?_, ?_, ?_, ?_⟩
  · simp only [held, length_append, length_singleton, counted.count]
    omega
  · simp only [held, map_append, sum_append, map_cons, map_nil, sum_singleton]
    rw [sum, counted.bytes, held, map_append, sum_append]
    omega
  · simp only
    omega
  · simp only [sum]
    omega

theorem foldl_subUint64 {acks : List BackoffAck} {bytes rest : Nat} (fits : bytes < 2 ^ 64)
    (is : bytes = (acks.map BackoffAck.bytes).sum + rest) :
    acks.foldl (fun bytes ack => subUint64 bytes ack.bytes) bytes = rest := by
  induction acks generalizing bytes with
  | nil => simpa using is
  | cons ack acks ih =>
    rw [map_cons, sum_cons] at is
    rw [foldl_cons, subUint64_eq fits (by omega)]
    exact ih (by omega) (by omega)

/-- A reset gives back what is queued; the active acknowledgment is given back by its sender. -/
theorem Counted.resetACKs (counted : Counted acks) (generation : Nat) : Counted (acks.resetACKs generation) := by
  have ⟨count, bytes, count_le, bytes_le⟩ := counted
  have limit : maxControlRetainedBytes = 2 ^ 20 := rfl
  rw [held, map_append, sum_append] at bytes
  rw [held, length_append] at count
  have rest := foldl_subUint64 (by omega) bytes
  refine ⟨?_, ?_, ?_, ?_⟩
  · simp only [AckQueue.resetACKs, held, nil_append]
    omega
  · simpa only [AckQueue.resetACKs, held, nil_append] using rest
  · simp only [AckQueue.resetACKs]
    omega
  · simp only [AckQueue.resetACKs, rest]
    omega

theorem Counted.take (counted : Counted acks) (taken : acks.take = some acks') : Counted acks' := by
  unfold AckQueue.take at taken
  split at taken
  · rename_i ack queue inactive _ isQueue
    cases taken
    have moved : List.Perm (queue ++ [ack]) acks.held := by
      rw [held, isQueue, inactive, Option.toList_none, append_nil]
      exact perm_append_singleton ack queue
    refine ⟨?_, ?_, counted.count_le, counted.bytes_le⟩
    · exact counted.count.trans (congrArg _ moved.length_eq.symm)
    · exact counted.bytes.trans (moved.map BackoffAck.bytes).sum_eq.symm
  · cases taken

theorem Counted.sent (counted : Counted acks) {err : Option GoError} (sent : acks.sent err = some acks') :
    Counted acks' := by
  obtain ⟨ack, isActive, rfl⟩ := Option.map_eq_some_iff.mp sent
  have ⟨count, bytes, count_le, bytes_le⟩ := counted
  have limit : maxControlRetainedBytes = 2 ^ 20 := rfl
  rw [held, isActive, Option.toList_some, length_append, length_singleton] at count
  rw [held, isActive, Option.toList_some, map_append, sum_append, map_singleton, sum_singleton] at bytes
  have given : subUint64 acks.bytes ack.bytes = acks.bytes - ack.bytes := subUint64_eq (by omega) (by omega)
  refine ⟨?_, ?_, ?_, ?_⟩
  · simp only [held, Option.toList_none, append_nil]
    omega
  · simp only [held, Option.toList_none, append_nil, given]
    omega
  · simp only
    omega
  · simp only [given]
    omega

/-- A failure on its way to the receive loop holds nothing. -/
theorem Counted.moved (counted : Counted acks) (moved : acks.report = some acks' ∨ acks.receive = some acks') :
    Counted acks' := by
  rcases moved with moved | moved
  all_goals
    first | unfold AckQueue.report at moved | unfold AckQueue.receive at moved
    split at moved
    · cases moved
      exact ⟨counted.count, counted.bytes, counted.count_le, counted.bytes_le⟩
    · cases moved

end AckQueue

namespace OsdSession

variable {s s' : OsdSession} {action : SessionAction}

def backoffLimit (s : OsdSession) : Nat := if s.maxBackoffs = 0 then 4096 else s.maxBackoffs

def backoffByteLimit (s : OsdSession) : Nat := if s.maxBackoffBytes = 0 then 8 * 2 ^ 20 else s.maxBackoffBytes

/-- What the accounts of the backoffs are about. -/
def account (s : OsdSession) : List Backoff × Nat × Nat × Nat :=
  (s.backoffs, s.backoffBytes, s.maxBackoffs, s.maxBackoffBytes)

structure Charged (s : OsdSession) : Prop where
  bytes : s.backoffBytes = (s.backoffs.map backoffCharge).sum
  count_le : s.backoffs.length ≤ s.backoffLimit
  bytes_le : s.backoffBytes ≤ s.backoffByteLimit

theorem Charged.same (charged : Charged s) (same : s'.account = s.account) : Charged s' := by
  simp only [account, Prod.mk.injEq] at same
  obtain ⟨backoffs, bytes, maxBackoffs, maxBackoffBytes⟩ := same
  refine ⟨?_, ?_, ?_⟩
  · rw [backoffs, bytes]
    exact charged.bytes
  · rw [backoffs, backoffLimit, maxBackoffs]
    exact charged.count_le
  · rw [bytes, backoffByteLimit, maxBackoffBytes]
    exact charged.bytes_le

theorem account_unlock (s : OsdSession) (call : Nat) : (s.unlock call).account = s.account := by
  unfold unlock
  split <;> rfl

theorem account_fail (s : OsdSession) (err : GoError) : (s.fail err).account = s.account := by
  unfold fail
  split <;> rfl

theorem account_enter (s : OsdSession) (call : Nat) : (s.enter call).account = s.account := by
  unfold enter
  split
  · rfl
  · split <;> rfl

theorem account_conclude (s : OsdSession) (call serial : Nat) (resend : Bool) (result : Except GoError Message) :
    (s.conclude call serial resend result).account = s.account := by
  unfold conclude
  split
  · rfl
  · split <;> rfl

/-- Only the receive loop changes the backoffs. -/
theorem account_step (step : s.step action = some s') (notReceived : ∀ received, action ≠ .receives received) :
    s'.account = s.account := by
  revert step
  fun_cases s.step action
  any_goals rintro ⟨⟩
  any_goals rfl
  · exact account_enter s _
  · exact account_unlock s _
  · exact account_unlock s _
  · exact account_conclude s _ _ _ _
  · intro step
    obtain ⟨cause, -, rfl⟩ := Option.map_eq_some_iff.mp step
    rfl
  · next received _ => exact absurd rfl (notReceived received)

/-- A backoff takes its charge along. -/
theorem sum_without {backoffs : List Backoff} {backoff : Backoff} {id : Nat} (ids : (backoffs.map Backoff.id).Nodup)
    (found : backoffs.find? (fun backoff => backoff.id == id) = some backoff) :
    ((backoffs.filter fun other => other.id != id).map backoffCharge).sum + backoffCharge backoff =
      (backoffs.map backoffCharge).sum ∧
    (backoffs.filter fun other => other.id != id).length + 1 = backoffs.length := by
  have isId : backoff.id = id := by simpa using find?_some found
  have member := mem_of_find?_eq_some found
  have nodup : backoffs.Nodup := .of_map _ ids
  have rest : backoffs.filter (fun other => other.id != id) = backoffs.erase backoff := by
    rw [nodup.erase_eq_filter]
    refine filter_congr fun other inOther => ?_
    rw [Bool.eq_iff_iff, bne_iff_ne, bne_iff_ne, ← isId]
    exact not_congr ⟨inj_on_of_nodup_map ids inOther member, congrArg Backoff.id⟩
  have perm := perm_cons_erase member
  rw [rest]
  constructor
  · rw [(perm.map backoffCharge).sum_eq, map_cons, sum_cons, Nat.add_comm]
  · rw [perm.length_eq, length_cons]

theorem Charged.removeBackoff (charged : Charged s) (ids : (s.backoffs.map Backoff.id).Nodup) (id : Nat) :
    Charged (s.removeBackoff id).1 := by
  unfold OsdSession.removeBackoff
  split
  · exact charged
  · rename_i backoff found
    obtain ⟨sum, length⟩ := sum_without ids found
    have ⟨bytes, count_le, bytes_le⟩ := charged
    refine ⟨?_, ?_, ?_⟩
    · simp only [wakeBackoffPG, wake]
      omega
    · simp only [wakeBackoffPG, wake, backoffLimit] at count_le ⊢
      omega
    · simp only [wakeBackoffPG, wake, backoffByteLimit] at bytes_le ⊢
      omega

theorem Charged.addBackoff (charged : Charged s) (ids : (s.backoffs.map Backoff.id).Nodup) {backoff : Backoff}
    (added : s.addBackoff backoff = (s', none)) : Charged s' := by
  have ⟨bytes, count_le, bytes_le⟩ := charged
  unfold OsdSession.addBackoff at added
  split at added
  · cases added
  rename_i room
  obtain rfl := congrArg Prod.fst added
  simp only [backoffSaturated, decide_eq_true_eq, not_or, not_and, Nat.not_le, Nat.not_lt] at room
  obtain ⟨fewer, retained, charge⟩ := room
  have limits : (s.removeBackoff backoff.id).1.maxBackoffs = s.maxBackoffs ∧
      (s.removeBackoff backoff.id).1.maxBackoffBytes = s.maxBackoffBytes := by
    unfold OsdSession.removeBackoff
    split <;> exact ⟨rfl, rfl⟩
  obtain ⟨bytes', count_le', -⟩ := charged.removeBackoff ids backoff.id
  have left : (s.removeBackoff backoff.id).1.backoffBytes =
        s.backoffBytes - ((s.backoffs.find? fun other => other.id == backoff.id).map backoffCharge).getD 0 ∧
      (s.removeBackoff backoff.id).1.backoffs.length < s.backoffLimit := by
    unfold OsdSession.removeBackoff
    cases found : s.backoffs.find? fun other => other.id == backoff.id with
    | none =>
      rw [found] at fewer
      exact ⟨by simp, fewer rfl⟩
    | some previous =>
      obtain ⟨-, length⟩ := sum_without ids found
      simp only [wakeBackoffPG, wake, Option.map_some, Option.getD_some, true_and]
      omega
  rw [← left.1] at retained charge
  refine ⟨?_, ?_, ?_⟩
  · simp only [wakeBackoffPG, wake, map_cons, sum_cons, bytes']
    omega
  · simp only [wakeBackoffPG, wake, length_cons, backoffLimit, limits.1]
    exact left.2
  · simp only [wakeBackoffPG, wake, backoffByteLimit, limits.2]
    omega

theorem Charged.cleared (s : OsdSession) (empty : s.backoffs = []) (none : s.backoffBytes = 0) : Charged s := by
  refine ⟨?_, ?_, ?_⟩
  · simp [empty, none]
  · simp [empty]
  · simp [none]

end OsdSession

namespace OsdTables

variable {t t' : OsdTables}

/-- The accounts of the backoffs and of the acknowledgments are right. -/
structure Accounted (t : OsdTables) : Prop where
  charged : t.session.Charged
  counted : t.acks.Counted

namespace Accounted

variable (accounted : Accounted t)
include accounted

theorem note (note : BackoffNote) : Accounted (t.note note) := ⟨accounted.charged, accounted.counted⟩

theorem onSession {session : OsdSession} (same : session.account = t.session.account) :
    Accounted (t.onSession session) :=
  ⟨accounted.charged.same same, accounted.counted⟩

theorem removeBackoff (indexed : Indexed t) (id : Nat) : Accounted (t.removeBackoff id).1 := by
  have charged := accounted.charged.removeBackoff indexed.ids id
  have acks : (t.removeBackoff id).1.acks = t.acks := by
    unfold OsdTables.removeBackoff
    split <;> rfl
  rw [(t.removeBackoff_same id).1] at charged
  exact ⟨charged, acks ▸ accounted.counted⟩

theorem addBackoff (indexed : Indexed t) {backoff : Backoff} (added : t.addBackoff backoff = (t', none)) :
    Accounted t' := by
  unfold OsdTables.addBackoff at added
  split at added
  · cases added
  rename_i session inSession
  obtain rfl := congrArg Prod.fst added
  exact ⟨accounted.charged.addBackoff indexed.ids inSession, (accounted.removeBackoff indexed backoff.id).counted⟩

theorem applyBackoff (indexed : Indexed t) (message : BackoffMessage) (backoff : Backoff) :
    Accounted (t.applyBackoff message backoff).1 := by
  unfold OsdTables.applyBackoff
  split
  · split
    · next rejected =>
      rw [addBackoff_error rejected]
      exact accounted
    · rename_i installed added
      have later := accounted.addBackoff indexed added
      split
      · exact later
      · rename_i queued enqueued
        unfold OsdTables.enqueueACK at enqueued
        split at enqueued
        · cases enqueued
        · rename_i acks inQueue
          cases enqueued
          exact ⟨later.charged, later.counted.enqueueACK inQueue⟩
  · have removed := accounted.removeBackoff indexed backoff.id
    split
    · rename_i later blocked same
      rw [same] at removed
      exact ⟨removed.charged.same rfl, removed.counted⟩
    · rename_i later same
      rw [same] at removed
      exact removed

omit accounted in
theorem loop : Loop fun t => Sound t ∧ Accounted t where
  locked kept := ⟨sound_loop.locked kept.1, kept.2.note .locked⟩
  unlocked kept := ⟨sound_loop.unlocked kept.1, kept.2.note .unlocked⟩
  clear generation kept := ⟨sound_loop.clear generation kept.1, .cleared _ rfl rfl,
    kept.2.counted.resetACKs generation⟩
  fail err kept := ⟨sound_loop.fail err kept.1, kept.2.onSession (account_fail _ err)⟩
  apply message backoff kept :=
    ⟨sound_loop.apply message backoff kept.1, kept.2.applyBackoff kept.1.indexed message backoff⟩
  taken kept := ⟨sound_loop.taken kept.1, kept.2.charged, { kept.2.counted with }⟩
  finished kept := ⟨sound_loop.finished kept.1, .cleared _ rfl rfl, kept.2.counted.resetACKs _⟩

theorem step (between : Between t) {action : TableAction} (step : t.step action = some t') : Accounted t' := by
  revert step
  fun_cases t.step action
  any_goals rintro ⟨⟩
  any_goals intro step
  any_goals obtain ⟨next, taken, rfl⟩ := Option.map_eq_some_iff.mp step
  · unfold OsdTables.enter
    split
    · exact accounted.onSession rfl
    · split
      · exact accounted.onSession rfl
      · exact ⟨accounted.charged.same rfl, accounted.counted⟩
  · unfold OsdTables.remove
    split
    · exact accounted.onSession rfl
    · exact ⟨accounted.charged.same rfl, accounted.counted⟩
  · exact (accounted.onSession (account_step taken (by simp))).note _
  · next notReceives => exact accounted.onSession (account_step taken notReceives)
  · next event free => exact (loop.receive event ⟨⟨between.indexed, free.1, between.lawful⟩, accounted⟩).2
  · exact ⟨accounted.charged, accounted.counted.take taken⟩
  · exact ⟨accounted.charged, accounted.counted.sent taken⟩
  · exact ⟨accounted.charged, accounted.counted.moved (.inl taken)⟩
  · exact ⟨accounted.charged, accounted.counted.moved (.inr taken)⟩

end Accounted

/-- The identifiers of the registered submissions. -/
def ids (t : OsdTables) : List Nat := t.session.submissions.map TargetSubmission.id

theorem ids_removeBackoff (t : OsdTables) (id : Nat) : (t.removeBackoff id).1.ids = t.ids := by
  have wakes := wakes_removeBackoff t.session id
  rw [(t.removeBackoff_same id).1] at wakes
  exact congrArg (map TargetSubmission.id) wakes.submissions

theorem ids_markResend (t : OsdTables) (blocked : Backoff) : (t.markResend blocked).ids = t.ids := by
  simp only [ids, markResend, onSession, map_map]
  refine map_congr_left fun submission _ => ?_
  simp only [Function.comp_apply]
  split <;> rfl

theorem ids_applyBackoff (t : OsdTables) (message : BackoffMessage) (backoff : Backoff) :
    (t.applyBackoff message backoff).1.ids = t.ids := by
  unfold applyBackoff
  split
  · split
    · next rejected => rw [addBackoff_error rejected]
    · rename_i installed added
      have later : installed.ids = t.ids := by
        unfold addBackoff at added
        split at added
        · cases added
        · rename_i session inSession
          obtain rfl := congrArg Prod.fst added
          have wakes := wakes_addBackoff t.session backoff
          rw [inSession] at wakes
          exact congrArg (map TargetSubmission.id) wakes.submissions
      split
      · exact later
      · rename_i queued enqueued
        unfold enqueueACK at enqueued
        split at enqueued
        · cases enqueued
        · cases enqueued
          exact later
  · have removed := ids_removeBackoff t backoff.id
    split
    · rename_i later blocked same
      rw [same] at removed
      exact (ids_markResend later blocked).trans removed
    · rename_i later same
      rw [same] at removed
      exact removed

/-- The receive loop keeps the submissions, though it marks some. -/
theorem ids_loop (ids : List Nat) : Loop fun t => t.ids = ids where
  locked same := same
  unlocked same := same
  clear _ same := same
  fail {t} err same := by
    rw [← same]
    unfold fail OsdSession.fail
    split <;> rfl
  apply {t} message backoff same := (ids_applyBackoff t message backoff).trans same
  taken same := same
  finished {t} same := (congrArg (map TargetSubmission.id) (wakes_fail t.session _).submissions).trans same

/-- If the loop ends with an identifier that is not free, then it has met no free one. -/
theorem freeSubmission_used {submissions : List TargetSubmission} {fuel id : Nat}
    (used : ¬(freeSubmission submissions (fuel + 1) id ≠ 0 ∧
      freeSubmission submissions (fuel + 1) id ∉ submissions.map TargetSubmission.id)) :
    ∀ k ≤ fuel, (id + 1 + k) % 2 ^ 64 = 0 ∨ (id + 1 + k) % 2 ^ 64 ∈ submissions.map TargetSubmission.id := by
  have taken (id : Nat) : (submissions.any fun submission => submission.id == id) = true ↔
      id ∈ submissions.map TargetSubmission.id := by simp
  induction fuel generalizing id with
  | zero =>
    intro k bound
    obtain rfl := Nat.le_zero.mp bound
    have last : freeSubmission submissions 1 id = (id + 1) % 2 ^ 64 := by
      simp only [freeSubmission, ite_self]
    rwa [last, not_and_or, not_not, not_not] at used
  | succ fuel ih =>
    rw [freeSubmission] at used
    simp only [taken] at used
    split at used
    · rename_i here
      intro k bound
      cases k with
      | zero => exact here
      | succ k =>
        have shifted := ih used k (by omega)
        have same : ((id + 1) % 2 ^ 64 + 1 + k) % 2 ^ 64 = (id + 1 + (k + 1)) % 2 ^ 64 := by omega
        rwa [same] at shifted
    · rename_i free
      exact absurd (not_or.mp free) used

/-- The loop finds a free identifier, as there are fewer submissions than identifiers. -/
theorem freeSubmission_free (submissions : List TargetSubmission) (few : submissions.length + 2 < 2 ^ 64) (id : Nat) :
    freeSubmission submissions (submissions.length + 2) id ≠ 0 ∧
      freeSubmission submissions (submissions.length + 2) id ∉ submissions.map TargetSubmission.id := by
  by_contra used
  have all := freeSubmission_used used
  have fewer : (insert 0 (submissions.map TargetSubmission.id).toFinset).card <
    (Finset.range (submissions.length + 2)).card := by
    have atMost := Finset.card_insert_le 0 (submissions.map TargetSubmission.id).toFinset
    have length := toFinset_card_le (submissions.map TargetSubmission.id)
    rw [length_map] at length
    rw [Finset.card_range]
    omega
  obtain ⟨i, inRange, j, inRange', different, same⟩ := Finset.exists_ne_map_eq_of_card_lt_of_maps_to
    (f := fun k => (id + 1 + k) % 2 ^ 64) fewer fun k bound => by
      simpa using all k (Nat.le_of_lt_succ (Finset.mem_range.mp bound))
  rw [Finset.mem_range] at inRange inRange'
  omega

/-- The identifiers tell the submissions apart, and zero is none. -/
def Named (t : OsdTables) : Prop := t.ids.Nodup ∧ 0 ∉ t.ids

theorem Named.same (named : Named t) (same : t'.ids = t.ids) : Named t' := by
  rw [Named, same]
  exact named

theorem Named.step (named : Named t) (few : t.session.submissions.length + 2 < 2 ^ 64) {action : TableAction}
    (held : OsdSession.HeldForSubmission t.session) (step : t.step action = some t') : Named t' := by
  have kept {action : OsdSession.SessionAction} {session : OsdSession} (step : t.session.step action = some session)
      (keeps : action.keeps = true) : Named (t.onSession session) :=
    named.same (congrArg (map TargetSubmission.id) (OsdSession.step_keeps held step keeps).submissions)
  revert step
  fun_cases t.step action
  any_goals rintro ⟨⟩
  any_goals intro step
  any_goals obtain ⟨next, inSession, rfl⟩ := Option.map_eq_some_iff.mp step
  any_goals exact named
  · unfold OsdTables.enter
    split
    · exact named
    · split
      · exact named
      · obtain ⟨nonzero, unused⟩ := freeSubmission_free t.session.submissions few t.session.nextSubmission
        refine ⟨nodup_cons.mpr ⟨unused, named.1⟩, ?_⟩
        simp only [ids, register, OsdSession.register, OsdSession.addSubmission, OsdSession.setPhase, OsdSession.note,
          map_cons, mem_cons, not_or]
        exact ⟨Ne.symm nonzero, named.2⟩
  · next call serial result _ _ =>
    have fewer : (t.remove call serial result).ids.Sublist t.ids := by
      unfold OsdTables.remove
      split <;> exact filter_sublist.map _
    exact ⟨named.1.sublist fewer, fun member => named.2 (fewer.subset member)⟩
  · exact kept inSession rfl
  · next notEnter notRemoves _ notReceives => exact kept inSession (keeps_of_session notEnter notRemoves notReceives)
  · next event _ => exact named.same ((ids_loop t.ids).receive event rfl)

/-- While there are fewer submissions than identifiers, each has one of its own. -/
theorem named_of_reaches (reach : interleavings.Reaches (fun t _ => t.session.submissions.length + 2 < 2 ^ 64) t) :
    Named t := by
  suffices Between t ∧ Named t from this.2
  refine reach.invariant (fun t => Between t ∧ Named t) ?_ ?_
  · rintro first ⟨session, generation, start, rfl⟩
    refine ⟨between_of_reaches (.start ⟨session, generation, start, rfl⟩), ?_⟩
    obtain ⟨maxBackoffs, maxBackoffBytes, rfl⟩ := start
    exact ⟨nodup_nil, not_mem_nil⟩
  · rintro earlier action later ⟨between, named⟩ step few
    have held := (replying_of_reaches between.indexed.reached).held
    exact ⟨between.step step, named.step few held step⟩

/-- In every interleaving the redundant tables of a session agree and its counters are those of the tables, within
their limits. -/
theorem tables_accounted (reach : interleavings.Reaches (fun _ _ => True) t) :
    ((∀ pg, t.backoffsByPG pg = t.session.backoffs.filter fun backoff => backoff.pg == pg) ∧
      (t.session.backoffs.map Backoff.id).Nodup) ∧ t.session.Charged ∧
    (∀ message backoff next err, backoff.operation = .block → t.addBackoff backoff = (next, some err) →
      t.applyBackoff message backoff = (t, some err)) ∧
    (t.submissionsByPG.Holds (ofPG t.session.submissions) ∧
      (t.session.submissions.map TargetSubmission.serial).Nodup ∧
      (interleavings.Reaches (fun t _ => t.session.submissions.length + 2 < 2 ^ 64) t → t.Named)) ∧
    t.acks.Counted := by
  have between := between_of_reaches reach
  have accounted : Accounted t := by
    suffices Between t ∧ Accounted t from this.2
    refine reach.invariant (fun t => Between t ∧ Accounted t) ?_ ?_
    · rintro first ⟨session, generation, start, rfl⟩
      refine ⟨between_of_reaches (.start ⟨session, generation, start, rfl⟩), ?_⟩
      obtain ⟨maxBackoffs, maxBackoffBytes, rfl⟩ := start
      exact ⟨.cleared _ rfl rfl, rfl, rfl, Int.natCast_nonneg _, Nat.zero_le _⟩
    · rintro earlier action later ⟨between, accounted⟩ step -
      exact ⟨between.step step, accounted.step between step⟩
  refine ⟨⟨between.indexed.backoffs, between.indexed.ids⟩, accounted.charged, ?_,
    ⟨between.indexed.submissions, between.indexed.tracked.distinct, named_of_reaches⟩, accounted.counted⟩
  intro message backoff next err isBlock rejected
  rw [applyBackoff, isBlock]
  simp only [rejected, addBackoff_error rejected]

theorem tables_accounted_afterBlock :
    (afterBlock.session.backoffs.length = 0 ∧ afterBlock.session.submissions.length = 2 ∧
    afterBlock.acks.count = 1) ∧ afterBlock.session.Charged ∧ afterBlock.acks.Counted := by
  have starts : interleavings.start { session := { maxBackoffs := 0, maxBackoffBytes := 0 } } :=
    ⟨_, 0, ⟨0, 0, rfl⟩, rfl⟩
  have follows : interleavings.Follows
    (fun _ _ => True) next { session := { maxBackoffs := 0, maxBackoffBytes := 0 } }
      (blockedRequests ++ [backsOff .unblock]) := by decide
  obtain ⟨-, charged, -, -, counted⟩ := tables_accounted ((System.Reaches.start starts).follow follows)
  exact ⟨by decide, charged, counted⟩

end OsdTables

end RadosGo
