import RadosGo.Objecter.OsdSessionHistory
import RadosGo.Objecter.OsdTables

namespace RadosGo

open Function List OsdSession

namespace OsdSession

variable {s s' : OsdSession} {action : SessionAction} {call : Nat}

/-- A change that leaves the backoffs, the list of submissions and the target of
the holder as they are, and gives the mutex to nobody. -/
structure Keeps (s s' : OsdSession) : Prop where
  backoffs : s'.backoffs = s.backoffs
  submissions : s'.submissions = s.submissions
  holder : ∀ call, s'.holder = some call → s.holder = some call ∧ (s'.calls call).pg = (s.calls call).pg ∧
    (s'.calls call).object = (s.calls call).object

theorem Keeps.refl (s : OsdSession) : Keeps s s := ⟨rfl, rfl, fun _ held => ⟨held, rfl, rfl⟩⟩

theorem Keeps.setPhase (keeps : Keeps s s') (call : Nat) (phase : Phase) : Keeps s (s'.setPhase call phase) := by
  refine ⟨keeps.backoffs, keeps.submissions, fun other held => ?_⟩
  obtain ⟨before, pg, object⟩ := keeps.holder other held
  by_cases same : other = call
  · subst same
    simp [OsdSession.setPhase, before, pg, object]
  · simp [OsdSession.setPhase, update_of_ne same, before, pg, object]

theorem Keeps.note (keeps : Keeps s s') (note : TargetNote) : Keeps s (s'.note note) :=
  ⟨keeps.backoffs, keeps.submissions, keeps.holder⟩

theorem Keeps.returns (keeps : Keeps s s') (call : Nat) (result : Except GoError Message) :
    Keeps s (s'.returns call result) := (keeps.setPhase call _).note _

theorem keeps_unlock (s : OsdSession) (call : Nat) : Keeps s (s.unlock call) := by
  unfold unlock
  split
  · exact ⟨rfl, rfl, nofun⟩
  · exact .refl s

theorem keeps_conclude (s : OsdSession) (call serial : Nat) (resend : Bool) (result : Except GoError Message) :
    Keeps s (s.conclude call serial resend result) := by
  unfold conclude
  split
  · exact ((Keeps.refl s).setPhase call _).note _
  · split
    · exact (Keeps.refl s).returns call _
    · exact (Keeps.refl s).setPhase call _

/-- The actions which change neither the backoffs nor the list of submissions. -/
def SessionAction.keeps : SessionAction → Bool
  | .enter _ | .removes _ | .receives _ => false
  | _ => true

theorem step_keeps (held : HeldForSubmission s) (step : s.step action = some s') (keeps : action.keeps = true) :
    Keeps s s' := by
  revert step
  fun_cases s.step action
  any_goals rintro ⟨⟩
  any_goals exact (Keeps.refl s).returns _ _
  · next call pg object idle =>
    refine ⟨rfl, rfl, fun other isHolder => ?_⟩
    obtain ⟨serial, submitted⟩ := held other isHolder
    have different : other ≠ call := by
      rintro rfl
      cases idle.symm.trans submitted
    exact ⟨isHolder, by simp [update_of_ne different]⟩
  · cases keeps
  · exact keeps_unlock s _
  · exact ((keeps_unlock s _).setPhase _ _).note _
  · cases keeps
  · exact keeps_conclude s _ _ _ _
  · intro step
    obtain ⟨cause, -, rfl⟩ := Option.map_eq_some_iff.mp step
    exact (Keeps.refl s).returns _ _
  · exact (Keeps.refl s).setPhase _ _
  · next call cause =>
    refine ⟨rfl, rfl, fun other isHolder => ⟨isHolder, ?_⟩⟩
    by_cases same : other = call
    · simp [note, same]
    · simp [note, update_of_ne same]
  · cases keeps
  · exact ⟨rfl, rfl, fun _ isHolder => ⟨isHolder, rfl, rfl⟩⟩

/-- The call that holds the mutex has found no backoff of its object. -/
def HolderUnblocked (s : OsdSession) : Prop :=
  ∀ call, s.holder = some call → s.blocked (s.calls call).pg (s.calls call).object = false

theorem HolderUnblocked.step (unblocked : HolderUnblocked s) (held : HeldForSubmission s)
    (step : s.step action = some s') : HolderUnblocked s' := by
  intro call isHolder
  cases isKept : action.keeps with
  | true =>
    obtain ⟨backoffs, -, holder⟩ := step_keeps held step isKept
    obtain ⟨before, pg, object⟩ := holder call isHolder
    rw [pg, object, blocked, backoffs]
    exact unblocked call before
  | false =>
    revert step
    fun_cases s.step action
    any_goals rintro ⟨⟩
    all_goals cases isKept
    · next free _ =>
      revert isHolder
      unfold enter
      split
      · exact fun isHolder => absurd (free.symm.trans isHolder) (by simp)
      · split
        · exact fun isHolder => absurd (free.symm.trans isHolder) (by simp)
        · next open_ =>
          intro isHolder
          cases isHolder
          simpa [register, addSubmission, setPhase, note, blocked] using open_
    · next free _ => cases free.symm.trans isHolder
    · next received free =>
      obtain ⟨chosen, marks⟩ := receive_marks s received
      cases free.symm.trans (marks.holder.symm.trans isHolder)

theorem holderUnblocked_of_reaches {admissible : OsdSession → SessionAction → Prop}
    (reach : interleavings.Reaches admissible s) : HolderUnblocked s := by
  suffices HeldForSubmission s ∧ HolderUnblocked s from this.2
  refine reach.invariant (fun s => HeldForSubmission s ∧ HolderUnblocked s) ?_ ?_
  · rintro first ⟨_, _, rfl⟩
    exact ⟨nofun, nofun⟩
  · rintro earlier action later ⟨held, unblocked⟩ step -
    exact ⟨held.effect (step_effect step), unblocked.step held step⟩

theorem reaches_receive (reach : interleavings.Reaches (fun _ _ => True) s) (free : s.holder = none)
    (received : Received) : interleavings.Reaches (fun _ _ => True) (s.receive received) := by
  have step : s.step (.receives received) = some (s.receive received) := if_pos free
  exact .next reach step trivial

theorem removeBackoff_backoffs (s : OsdSession) (id : Nat) :
    (s.removeBackoff id).1.backoffs = s.backoffs.filter fun other => other.id != id := by
  unfold removeBackoff
  split
  · rename_i absent
    refine (filter_eq_self.mpr fun other member => ?_).symm
    simpa using find?_eq_none.mp absent other member
  · rfl

theorem removeBackoff_snd (s : OsdSession) (id : Nat) :
    (s.removeBackoff id).2 = s.backoffs.find? fun backoff => backoff.id == id := by
  unfold removeBackoff
  split
  · rename_i absent
    exact absent.symm
  · rename_i found
    exact found.symm

variable {backoff : Backoff}

/-- A rejected backoff leaves the session as it was. -/
theorem addBackoff_error {err : GoError} (rejected : s.addBackoff backoff = (s', some err)) : s' = s := by
  unfold addBackoff at rejected
  split at rejected
  · exact (congrArg Prod.fst rejected).symm
  · cases rejected

theorem addBackoff_backoffs (added : s.addBackoff backoff = (s', none)) :
    s'.backoffs = backoff :: s.backoffs.filter fun other => other.id != backoff.id := by
  unfold addBackoff at added
  simp only at added
  split at added
  · cases added
  · obtain rfl := congrArg Prod.fst added
    exact congrArg (backoff :: ·) (removeBackoff_backoffs s backoff.id)

/-- Installing a backoff is all that a receive loop does whose acknowledgment is queued. -/
theorem receive_block (isBlock : backoff.operation = .block) (added : s.addBackoff backoff = (s', none)) :
    s.receive (.backoff false true (.ok backoff) none false false) = s' := by
  simp [receive, applyBackoff, isBlock, added]

theorem receive_unblock {backoff blocked : Backoff} (isUnblock : backoff.operation = .unblock)
    (removed : s.removeBackoff backoff.id = (s', some blocked)) :
    s.receive (.backoff false true (.ok backoff) none false false) = s'.markResend blocked := by
  simp [receive, applyBackoff, isUnblock, removed]

end OsdSession

namespace OsdTables

open OsdSession (Tracked SessionAction)

variable {t t' : OsdTables}

/-- The submissions for a placement group, as the table of all has them. -/
def ofPG (submissions : List TargetSubmission) (pg : PG) : List Nat :=
  (submissions.filter fun submission => submission.pg == pg).map TargetSubmission.serial

variable {serial call : Nat} {submission : TargetSubmission}

theorem mem_ofPG {submissions : List TargetSubmission} {pg : PG} :
    serial ∈ ofPG submissions pg ↔ ∃ submission ∈ submissions, submission.pg = pg ∧ submission.serial = serial := by
  simp [ofPG, and_assoc]

/-- The tables by placement group hold the same as the flat ones. -/
structure Indexed (t : OsdTables) : Prop where
  reached : OsdSession.interleavings.Reaches (fun _ _ => True) t.session
  ids : (t.session.backoffs.map Backoff.id).Nodup
  backoffs : ∀ pg, t.backoffsByPG pg = t.session.backoffs.filter fun backoff => backoff.pg == pg
  submissions : t.submissionsByPG.Holds (ofPG t.session.submissions)

theorem Indexed.tracked (indexed : Indexed t) : Tracked t.session :=
  (replying_of_reaches indexed.reached).tracked

theorem Indexed.blocked_eq (indexed : Indexed t) (pg : PG) (object : HObject) :
    t.blocked pg object = t.session.blocked pg object := by
  rw [blocked, indexed.backoffs, any_filter, OsdSession.blocked]

theorem listed_eq (holds : t.submissionsByPG.Holds (ofPG t.session.submissions)) (pg : PG) :
    t.listed pg = ofPG t.session.submissions pg := by
  refine holds.walk_eq pg ?_
  rw [ofPG, length_map]
  exact length_filter_le _ _

theorem Indexed.same (indexed : Indexed t) (reached : OsdSession.interleavings.Reaches (fun _ _ => True) t'.session)
    (backoffs : t'.session.backoffs = t.session.backoffs)
    (submissions : t'.session.submissions = t.session.submissions)
    (backoffsByPG : t'.backoffsByPG = t.backoffsByPG) (submissionsByPG : t'.submissionsByPG = t.submissionsByPG) :
    Indexed t' where
  reached := reached
  ids := backoffs ▸ indexed.ids
  backoffs := by
    rw [backoffsByPG, backoffs]
    exact indexed.backoffs
  submissions := by
    rw [submissionsByPG, submissions]
    exact indexed.submissions

/-- Following the list of a placement group reaches what the range covers. -/
theorem unblocks_eq (holds : t.submissionsByPG.Holds (ofPG t.session.submissions))
    (distinct : (t.session.submissions.map TargetSubmission.serial).Nodup) (blocked : Backoff)
    (member : submission ∈ t.session.submissions) : t.unblocks blocked submission = covers blocked submission := by
  have listed : (t.listed blocked.pg).contains submission.serial = (submission.pg == blocked.pg) := by
    rw [Bool.eq_iff_iff, contains_iff_mem, listed_eq holds, mem_ofPG, beq_iff_eq]
    constructor
    · rintro ⟨other, member', pg, serial⟩
      obtain rfl := inj_on_of_nodup_map distinct member' member serial
      exact pg
    · exact fun pg => ⟨submission, member, pg, rfl⟩
  rw [unblocks, listed, covers]

theorem markResend_session (holds : t.submissionsByPG.Holds (ofPG t.session.submissions))
    (distinct : (t.session.submissions.map TargetSubmission.serial).Nodup) (blocked : Backoff) :
    (t.markResend blocked).session = t.session.markResend blocked := by
  have marked : t.session.submissions.map (fun submission =>
        if t.unblocks blocked submission then { submission with resend := true, canceled := true } else submission) =
      t.session.submissions.map fun submission =>
        if OsdSession.covers blocked submission then { submission with resend := true, canceled := true }
        else submission :=
    map_congr_left fun submission member => by rw [unblocks_eq holds distinct blocked member]
  have chosen : t.session.submissions.filter (t.unblocks blocked) =
      t.session.submissions.filter (OsdSession.covers blocked) :=
    filter_congr fun submission member => unblocks_eq holds distinct blocked member
  simp only [markResend, onSession, OsdSession.markResend, marked, chosen]

theorem ofPG_markResend (s : OsdSession) (blocked : Backoff) :
    ofPG (s.markResend blocked).submissions = ofPG s.submissions := by
  funext pg
  simp only [ofPG, OsdSession.markResend, filter_map, map_map]
  have same : ((fun submission : TargetSubmission => submission.pg == pg) ∘ fun submission : TargetSubmission =>
      if OsdSession.covers blocked submission then { submission with resend := true, canceled := true }
      else submission) =
      fun submission => submission.pg == pg := by
    funext submission
    simp only [comp_apply]
    split <;> rfl
  rw [same]
  refine map_congr_left fun submission _ => ?_
  simp only [comp_apply]
  split <;> rfl

/-- What removing a backoff leaves alone. -/
theorem removeBackoff_same (t : OsdTables) (id : Nat) :
    t.session.removeBackoff id = ((t.removeBackoff id).1.session, (t.removeBackoff id).2) ∧
      (t.removeBackoff id).1.submissionsByPG = t.submissionsByPG ∧ (t.removeBackoff id).1.log = t.log := by
  unfold OsdTables.removeBackoff
  split
  all_goals
    rename_i inSession
    exact ⟨inSession, rfl, rfl⟩

theorem addBackoff_error {backoff : Backoff} {err : GoError} (rejected : t.addBackoff backoff = (t', some err)) :
    t' = t := by
  unfold OsdTables.addBackoff at rejected
  split at rejected
  · rename_i inSession
    cases rejected
    rw [addBackoff_error inSession]
    rfl
  · cases rejected

section

variable (indexed : Indexed t)
include indexed

/-- Removing an identifier from the list of its placement group removes it from
all of them, since no two backoffs share it. -/
theorem Indexed.removeBackoff_byPG (id : Nat) (pg : PG) : (t.removeBackoff id).1.backoffsByPG pg =
      (t.session.backoffs.filter fun other => other.id != id).filter fun backoff => backoff.pg == pg := by
  have without (absent : ∀ other ∈ t.session.backoffs, other.id = id → other.pg ≠ pg) :
      t.backoffsByPG pg = (t.session.backoffs.filter fun other => other.id != id).filter fun backoff =>
        backoff.pg == pg := by
    rw [indexed.backoffs, filter_filter]
    refine filter_congr fun other member => ?_
    by_cases same : other.id = id
    · simp [absent other member same]
    · simp [same]
  have found := removeBackoff_snd t.session id
  unfold removeBackoff
  split
  · rename_i removed
    rw [removed] at found
    exact without fun other member same => absurd same (by simpa using find?_eq_none.mp found.symm other member)
  · rename_i backoff removed
    rw [removed] at found
    have found := found.symm
    simp only
    have isId : backoff.id = id := by simpa using find?_some found
    by_cases same : pg = backoff.pg
    · subst same
      rw [update_self, indexed.backoffs, filter_filter, filter_filter]
      exact filter_congr fun other _ => Bool.and_comm _ _
    · rw [update_of_ne same]
      refine without fun other member sameId samePG => same ?_
      rw [← samePG, inj_on_of_nodup_map indexed.ids member (mem_of_find?_eq_some found)
        (sameId.trans isId.symm)]

theorem Indexed.ids_filter (id : Nat) :
    ((t.session.backoffs.filter fun other => other.id != id).map Backoff.id).Nodup :=
  indexed.ids.sublist (filter_sublist.map _)

/-- The table of a placement group changes with the flat one. -/
theorem Indexed.addBackoff (free : t.session.holder = none) {backoff : Backoff} (isBlock : backoff.operation = .block)
    (added : t.addBackoff backoff = (t', none)) :
    Indexed t' ∧ t'.session.holder = none ∧ t'.log = .installed backoff :: t.log := by
  unfold OsdTables.addBackoff at added
  split at added
  · cases added
  rename_i session inSession
  obtain rfl := congrArg Prod.fst added
  have wakes : OsdSession.Wakes t.session session := by
    have wakes := wakes_addBackoff t.session backoff
    rwa [inSession] at wakes
  obtain ⟨-, submissionsByPG, log⟩ := t.removeBackoff_same backoff.id
  refine ⟨⟨?_, ?_, fun pg => ?_, ?_⟩, wakes.holder.trans free, congrArg (_ :: ·) log⟩
  · have reached := reaches_receive indexed.reached free (.backoff false true (.ok backoff) none false false)
    rwa [OsdSession.receive_block isBlock inSession] at reached
  · simp only [note, addBackoff_backoffs inSession, map_cons, nodup_cons]
    refine ⟨fun member => ?_, indexed.ids_filter backoff.id⟩
    obtain ⟨other, inOther, sameId⟩ := mem_map.mp member
    simp [sameId] at inOther
  · simp only [note, addBackoff_backoffs inSession]
    have others := indexed.removeBackoff_byPG backoff.id
    by_cases samePG : pg = backoff.pg
    · subst samePG
      rw [update_self, others, filter_cons_of_pos (by simp)]
      refine congrArg (backoff :: ·) (filter_eq_self.mpr fun other member => ?_)
      exact (mem_filter.mp (mem_of_mem_filter member)).2
    · rw [update_of_ne samePG, others, filter_cons_of_neg (by simpa using Ne.symm samePG)]
  · simp only [note, submissionsByPG, wakes.submissions]
    exact indexed.submissions

/-- An unblock takes the backoff out of both tables and marks what it covered. -/
theorem Indexed.unblock (free : t.session.holder = none) {backoff blocked : Backoff}
    (isUnblock : backoff.operation = .unblock) (removed : t.removeBackoff backoff.id = (t', some blocked)) :
    Indexed (t'.markResend blocked) ∧ (t'.markResend blocked).session.holder = none ∧
      (t'.markResend blocked).session = t'.session.markResend blocked ∧
        t'.session.submissions = t.session.submissions ∧
      t'.log = t.log := by
  have byPG := indexed.removeBackoff_byPG backoff.id
  have flat := removeBackoff_backoffs t.session backoff.id
  obtain ⟨inSession, submissionsByPG, log⟩ := t.removeBackoff_same backoff.id
  have wakes := wakes_removeBackoff t.session backoff.id
  rw [inSession] at wakes flat
  rw [removed] at byPG inSession submissionsByPG log wakes flat
  have holds : t'.submissionsByPG.Holds (ofPG t'.session.submissions) := by
    rw [submissionsByPG, wakes.submissions]
    exact indexed.submissions
  have distinct : (t'.session.submissions.map TargetSubmission.serial).Nodup := by
    rw [wakes.submissions]
    exact indexed.tracked.distinct
  have marked := markResend_session holds distinct blocked
  refine ⟨⟨?_, ?_, ?_, ?_⟩, ?_, marked, wakes.submissions, log⟩
  · rw [marked, ← receive_unblock isUnblock inSession]
    exact reaches_receive indexed.reached free _
  · rw [marked, OsdSession.markResend, flat]
    exact indexed.ids_filter backoff.id
  · intro pg
    rw [marked, markResend]
    exact (byPG pg).trans (congrArg _ flat.symm)
  · rw [marked, ofPG_markResend]
    exact holds
  · rw [marked]
    exact wakes.holder.trans free

theorem Indexed.register (reached : OsdSession.interleavings.Reaches (fun _ _ => True) (t.register call).session) :
    Indexed (t.register call) where
  reached := reached
  ids := indexed.ids
  backoffs := indexed.backoffs
  submissions := by
    have fresh : ∀ pg, t.session.serials ∉ ofPG t.session.submissions pg := by
      intro pg member
      obtain ⟨submission, listed, -, serial⟩ := mem_ofPG.mp member
      exact Nat.lt_irrefl _ (indexed.tracked.issued _ (serial ▸ mem_map_of_mem listed))
    have pushed := indexed.submissions.push (t.session.calls call).pg fresh
    have lists : ofPG (t.session.newSubmission call :: t.session.submissions) =
        update (ofPG t.session.submissions) (t.session.calls call).pg
          (t.session.serials :: ofPG t.session.submissions (t.session.calls call).pg) := by
      funext pg
      by_cases same : pg = (t.session.calls call).pg
      · simp [ofPG, same, OsdSession.newSubmission]
      · simp [ofPG, update_of_ne same, OsdSession.newSubmission, Ne.symm same]
    simp only [OsdTables.register, OsdSession.register, OsdSession.addSubmission, OsdSession.setPhase,
      OsdSession.note]
    rw [lists]
    exact pushed

end

theorem ofPG_remove {submissions : List TargetSubmission} (distinct : (submissions.map TargetSubmission.serial).Nodup)
    (member : submission ∈ submissions) : ofPG (submissions.filter fun other => other.serial != submission.serial) =
      update (ofPG submissions) submission.pg ((ofPG submissions submission.pg).erase submission.serial) := by
  funext pg
  by_cases same : pg = submission.pg
  · subst same
    have nodup : (ofPG submissions submission.pg).Nodup := distinct.sublist (filter_sublist.map _)
    rw [update_self, nodup.erase_eq_filter, ofPG, ofPG, filter_map, filter_filter, filter_filter]
    refine congrArg _ (filter_congr fun other _ => ?_)
    exact Bool.and_comm _ _
  · rw [update_of_ne same, ofPG, ofPG, filter_filter]
    refine congrArg _ (filter_congr fun other inOther => ?_)
    by_cases isPG : other.pg = pg
    · have different : other.serial ≠ submission.serial := by
        intro serial
        obtain rfl := inj_on_of_nodup_map distinct inOther member serial
        exact same isPG.symm
      simp [isPG, different]
    · simp [isPG]

theorem Indexed.remove (indexed : Indexed t) {result : Except GoError Message}
    (reached : OsdSession.interleavings.Reaches (fun _ _ => True) (t.session.remove call serial result)) :
    Indexed (t.remove call serial result) := by
  unfold OsdTables.remove
  split
  · rename_i absent
    have same : t.session.submissions.filter (fun submission => submission.serial != serial) =
      t.session.submissions :=
      filter_eq_self.mpr fun submission member => by simpa using find?_eq_none.mp absent submission member
    exact indexed.same reached rfl same rfl rfl
  · rename_i submission found
    have isSerial : submission.serial = serial := by simpa using find?_some found
    have member := mem_of_find?_eq_some found
    subst isSerial
    have holds := indexed.submissions.remove (mem_ofPG.mpr ⟨submission, member, rfl, rfl⟩)
    rw [← ofPG_remove indexed.tracked.distinct member] at holds
    exact ⟨reached, indexed.ids, indexed.backoffs, holds⟩

end OsdTables

end RadosGo
