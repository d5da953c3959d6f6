import RadosGo.Mgr.SessionOrder

namespace RadosGo

namespace SessionSlot

variable {s : SessionSlot} {h : Holder} {w : ManagerWorker} {x n call : Nat} {before : ManagerCreation}

/-- What holds between the steps of all that work on the session. -/
structure Kept (s : SessionSlot) : Prop where
  custody : Custody s.Held (· < s.nextSession)
  ordered : s.Ordered
  served : s.Served

/-- The sessions go on to holders which are not lower, none is lost. -/
structure Advances (s t : SessionSlot) : Prop where
  handover : Handover Holder.grade s.Held t.Held (· < t.nextSession)
  ordered : t.Ordered
  served : t.Served
  grows : s.nextSession ≤ t.nextSession

theorem Advances.kept {t : SessionSlot} (advances : s.Advances t) : t.Kept :=
  ⟨advances.handover.custody, advances.ordered, advances.served⟩

theorem Advances.trans {t u : SessionSlot} (first : s.Advances t) (kept : s.Kept) (second : t.Advances u) :
    s.Advances u := by
  refine ⟨first.handover.trans second.handover ?_, second.ordered, second.served, first.grows.trans second.grows⟩
  exact fun holds => ((kept.custody.made_iff _).mpr ⟨_, holds⟩).trans_le first.grows

namespace Ordered

variable (ordered : s.Ordered)
include ordered

theorem setCreation (is : s.creation n = some before) {creation : ManagerCreation}
    (runs : creation.phase ≠ .finished → before.phase ≠ .finished) : (s.setCreation n creation).Ordered := by
  refine { ordered with unborn := ?_, gate := ordered.gate.mono fun w works => ?_ }
  · intro m isNew
    have different : m ≠ n := by
      rintro rfl
      rw [ordered.unborn m isNew] at is
      cases is
    exact (Function.update_of_ne different _ _).trans (ordered.unborn m isNew)
  · rw [works_setCreation] at works
    split at works
    · next same => rw [same, Works, phase_of is]; exact runs works
    · exact works

theorem startCreation (isOpen : s.gate.closed = false) (target : ActiveTarget) :
    (s.startCreation target).Ordered := by
  refine ⟨fun m isNew => ?_, ?_, fun _ => rfl⟩
  · have above : s.nextCreation + 1 ≤ m := isNew
    exact (Function.update_of_ne (by omega) _ _).trans (ordered.unborn m (by omega))
  · refine ordered.gate.add (ordered.gate.closeDone_of_open isOpen) fun w works => ?_
    rw [SessionSlot.startCreation, works_setCreation] at works
    split at works
    · next same => exact .inr same
    · left
      cases w <;> exact works

end Ordered

namespace Served

variable (served : s.Served)
include served

theorem setCreation (is : s.creation n = some before) {creation : ManagerCreation}
    (target : creation.target = before.target)
    (sound : creation.Sound) (result : ∀ entry, creation.result = some entry → s.InstalledFor creation.target entry) :
    (s.setCreation n creation).Served := by
  refine { served with created := ?_, waiting := ?_ }
  · intro m other isOther
    rw [creation_setCreation] at isOther
    split at isOther
    · cases isOther
      exact ⟨sound, result⟩
    · exact served.created m other isOther
  · intro call target' m waits
    obtain ⟨other, isOther, fits⟩ := served.waiting call target' m waits
    by_cases same : m = n
    · subst same
      obtain rfl := Option.some.inj (is.symm.trans isOther)
      exact ⟨creation, Function.update_self _ _ _, target ▸ fits⟩
    · exact ⟨other, (Function.update_of_ne same _ _).trans isOther, fits⟩

theorem setCall {phase : ManagerCall}
    (waits : ∀ target n, phase = .waiting target n → ∃ creation, s.creation n = some creation ∧
      sameTarget creation.target target = true)
    (returns : ∀ target result, phase = .returned target (.ok result) → ∃ entry, result = some entry ∧
      s.InstalledFor target entry) :
    (s.setCall call phase).Served := by
  refine { served with waiting := ?_, returned := ?_ }
  · intro other target n isWaiting
    rw [calls_setCall] at isWaiting
    split at isWaiting
    · exact waits target n isWaiting
    · exact served.waiting other target n isWaiting
  · intro other target result hasReturned
    rw [calls_setCall] at hasReturned
    split at hasReturned
    · exact returns target result hasReturned
    · exact served.returned other target result hasReturned

theorem abandon (which : Nat → ManagerCreation → Bool) : (s.abandon which).Served := by
  refine { served with created := ?_, waiting := ?_ }
  · intro m other isOther
    obtain ⟨creation, is, rfl⟩ := creation_abandon.mp isOther
    exact served.created m creation is
  · intro call target m waits
    obtain ⟨creation, is, fits⟩ := served.waiting call target m waits
    exact ⟨_, creation_abandon.mpr ⟨creation, is, rfl⟩, fits⟩

theorem install (entry : ManagerSession) : (s.install entry).Served := by
  have more {target : ActiveTarget} {other : ManagerSession} (was : s.InstalledFor target other) :
      (s.install entry).InstalledFor target other := ⟨List.mem_cons_of_mem _ was.1, was.2⟩
  refine { served with installed := ?_, created := ?_, returned := ?_ }
  · intro other same
    cases same
    exact List.mem_cons_self
  · intro m creation is
    obtain ⟨sound, result⟩ := served.created m creation is
    exact ⟨sound, fun other isResult => more (result other isResult)⟩
  · intro call target result hasReturned
    obtain ⟨other, isResult, was⟩ := served.returned call target result hasReturned
    exact ⟨other, isResult, more was⟩

end Served

namespace Kept

variable (kept : s.Kept)
include kept

theorem setCall {phase : ManagerCall}
    (waits : ∀ target n, phase = .waiting target n → ∃ creation, s.creation n = some creation ∧
      sameTarget creation.target target = true)
    (returns : ∀ target result, phase = .returned target (.ok result) → ∃ entry, result = some entry ∧
      s.InstalledFor target entry) :
    s.Advances (s.setCall call phase) :=
  ⟨kept.custody.congr fun _ _ => held_setCall, { kept.ordered with }, kept.served.setCall waits returns, le_rfl⟩

theorem fails (target : ActiveTarget) (err : GoError) : s.Advances (s.setCall call (.returned target (.error err))) :=
  kept.setCall (by simp) (by simp)

theorem abandon (which : Nat → ManagerCreation → Bool) : s.Advances (s.abandon which) := by
  refine ⟨kept.custody.congr fun _ _ => held_abandon, ?_, kept.served.abandon which, le_rfl⟩
  refine { kept.ordered with unborn := ?_, gate := kept.ordered.gate.mono fun w works => ?_ }
  · intro m isNew
    simp only [SessionSlot.abandon, kept.ordered.unborn m isNew, Option.map_none]
  · cases w with
    | creation m => rwa [Works, phase_abandon] at works
    | invalidation call => exact works

/-- A creation goes on, holding the same. -/
theorem setCreation (is : s.creation n = some before) (creation : ManagerCreation)
    (owned : creation.phase.owned = before.phase.owned)
    (undecided : creation.phase.undecided = before.phase.undecided)
    (runs : creation.phase ≠ .finished → before.phase ≠ .finished) (served : (s.setCreation n creation).Served) :
    s.Advances (s.setCreation n creation) := by
  refine ⟨kept.custody.congr fun h y => ?_, kept.ordered.setCreation is runs, served, le_rfl⟩
  rw [held_setCreation]
  split
  · next isCreation => rw [isCreation, Held, phase_of is, owned]
  · split
    · next isCreating => rw [isCreating, Held, phase_of is, undecided]
    · rfl

variable {phase phase' : ManagerPhase} {target : ActiveTarget} {created : Option Nat} {err : Option GoError}

theorem movePhase (is : s.creation n = some before) (isPhase : before.phase = phase)
    (owned : phase'.owned = phase.owned) (undecided : phase'.undecided = phase.undecided) (runs : phase ≠ .finished)
    (served : (s.setCreation n { before with phase := phase' }).Served) :
    s.Advances (s.setCreation n { before with phase := phase' }) := by
  subst isPhase
  exact kept.setCreation is _ owned undecided (fun _ => runs) served

theorem await (is : s.creation n = some before) (fits : sameTarget before.target target = true) :
    s.Advances (s.await call target n) := by
  obtain ⟨sound, result⟩ := kept.served.created n before is
  have joined := kept.setCreation is { before with waiters := before.waiters + 1 } rfl rfl id
    (kept.served.setCreation is rfl sound result)
  rw [SessionSlot.await, is]
  refine joined.trans kept (joined.kept.setCall ?_ (by simp))
  intro target' m same
  cases same
  exact ⟨_, Function.update_self _ _ _, fits⟩

theorem startCreation (isOpen : s.gate.closed = false) (target : ActiveTarget) :
    s.Advances (s.startCreation target) := by
  have unborn := kept.ordered.unborn s.nextCreation le_rfl
  have unbornPhase : s.phase s.nextCreation = .finished := by rw [phase, unborn]; rfl
  refine ⟨?_, kept.ordered.startCreation isOpen target, ?_, le_rfl⟩
  · refine kept.custody.pour .slot (.creation s.nextCreation) (by simp [Holder.grade]) ?_ ?_ ?_
    · intro y holds
      cases holds
    · intro y
      rw [SessionSlot.startCreation, held_setCreation, if_pos rfl, Held, Held, unbornPhase]
      simp [ManagerPhase.owned]
    · intro h notSlot notCreation y
      rw [SessionSlot.startCreation, held_setCreation, if_neg notCreation, held_add]
      split
      · next isCreating => simp [isCreating, Held, unbornPhase, ManagerPhase.undecided]
      · cases h with
        | slot => exact absurd rfl notSlot
        | _ => rfl
  · refine { kept.served with installed := ?_, created := ?_, waiting := ?_ }
    · intro entry same
      cases same
    · intro m other isOther
      rw [SessionSlot.startCreation, creation_setCreation] at isOther
      split at isOther
      · cases isOther
        exact ⟨rfl, by simp⟩
      · exact kept.served.created m other isOther
    · intro call target' m waits
      obtain ⟨other, isOther, fits⟩ := kept.served.waiting call target' m waits
      refine ⟨other, (Function.update_of_ne ?_ _ _).trans isOther, fits⟩
      rintro rfl
      rw [unborn] at isOther
      cases isOther

/-- What `getSession` does for the current target. -/
theorem joinSession (isOpen : s.gate.closed = false) {pending : Option Nat}
    (isPending : ∀ n, pending = some n → ∃ creation, s.creation n = some creation ∧
      sameTarget creation.target target = true) :
    s.Advances (s.joinSession call target pending) := by
  unfold SessionSlot.joinSession
  split
  · next entry found =>
    rw [Option.filter_eq_some_iff] at found
    refine kept.setCall (by simp) fun target' result same => ?_
    cases same
    exact ⟨entry, rfl, kept.served.installed entry found.1, found.2⟩
  · next n _ =>
    obtain ⟨creation, is, fits⟩ := isPending n rfl
    exact kept.await is fits
  · have started := kept.startCreation isOpen target
    refine started.trans kept (started.kept.await
      (by rw [SessionSlot.startCreation, creation_setCreation, if_pos rfl]) ?_)
    exact sameTarget_iff.mpr ⟨rfl, rfl, rfl⟩

omit kept in
theorem pending_fits {current : ActiveTarget} (found : s.pending (.ok current) = some n) :
    ∃ creation, s.creation n = some creation ∧ sameTarget creation.target current = true := by
  have holds := List.find?_some found
  rw [Option.any_eq_true] at holds
  obtain ⟨creation, is, fits⟩ := holds
  rw [isPending, Bool.and_eq_true] at fits
  exact ⟨creation, is, fits.1⟩

theorem getSession (target : ActiveTarget) (ctxErr : Option ContextError) :
    s.Advances (s.getSession call target ctxErr) := by
  unfold SessionSlot.getSession
  split
  · exact kept.fails target _
  · next isOpen =>
    split
    · exact kept.fails target _
    · have abandoned := kept.abandon fun n creation =>
        decide (n ∈ s.creations) && !isPending (currentTarget s.mgrMap) creation
      dsimp only
      split
      · exact abandoned.trans kept (abandoned.kept.fails target _)
      · next current isCurrent =>
        split
        · exact abandoned.trans kept (abandoned.kept.fails target _)
        · next fits =>
          rw [Bool.not_eq_true', Bool.not_eq_false] at fits
          refine abandoned.trans kept (abandoned.kept.joinSession (Bool.not_eq_true _ ▸ isOpen) fun n found => ?_)
          obtain ⟨creation, is, same⟩ := pending_fits (isCurrent ▸ found)
          exact ⟨_, creation_abandon.mpr ⟨creation, is, rfl⟩, sameTarget_trans same fits⟩

theorem leave (waits : s.calls call = .waiting target n) (is : s.creation n = some before)
    {ctxErr : Option ContextError} (wakes : (before.completed || ctxErr.isSome || s.gate.closed) = true) :
    s.Advances (s.leave call target n before ctxErr) := by
  obtain ⟨sound, result⟩ := kept.served.created n before is
  obtain ⟨other, isOther, fits⟩ := kept.served.waiting call target n waits
  obtain rfl := Option.some.inj (is.symm.trans isOther)
  have left := kept.setCreation is
    { before with
      waiters := before.waiters - 1
      abandoned := before.abandoned || decide (before.waiters - 1 = 0) && !before.completed }
    rfl rfl id (kept.served.setCreation is rfl sound result)
  refine left.trans kept (left.kept.setCall (by simp) fun target' found same => ?_)
  rw [ManagerCall.returned.injEq] at same
  obtain ⟨rfl, same⟩ := same
  split at same
  · cases same
  · next isOpen =>
    split at same
    · cases same
    · cases same
    · next noErr =>
      cases same
      -- Neither the context nor the client has ended the wait.
      have completed : before.completed = true := by
        rw [Bool.not_eq_true] at isOpen
        simpa [isOpen] using wakes
      have hasResult : before.result ≠ none := by
        unfold ManagerCreation.Sound at sound
        split at sound
        all_goals simp_all
      obtain ⟨entry, isResult⟩ := Option.ne_none_iff_exists'.mp hasResult
      obtain ⟨installed, same⟩ := result entry isResult
      exact ⟨entry, isResult, installed, sameTarget_trans same fits⟩

/-- A creation stops what it holds. -/
theorem stopOwned (is : s.creation n = some before) (isPhase : before.phase = phase)
    (undecided : phase'.undecided = phase.undecided) (runs : phase ≠ .finished) (owned : phase'.owned = none)
    (served : (s.setCreation n { before with phase := phase' }).Served) :
    s.Advances ((s.stopAny phase.owned).setCreation n { before with phase := phase' }) := by
  subst isPhase
  have holds (y : Nat) : s.Held (.creation n) y ↔ before.phase.owned = some y := by rw [Held, phase_of is]
  have stopped : (s.stopAny before.phase.owned).Ordered := { kept.ordered with }
  refine ⟨kept.custody.drain (.creation n) .stopped (by simp [Holder.grade]) (by simp) fun h y => ?_,
    stopped.setCreation is (fun _ => runs), { served with }, le_rfl⟩
  rw [held_setCreation, held_stopAny, holds]
  split
  · next isCreation => simp [isCreation, owned]
  · next notCreation =>
    rw [and_iff_right notCreation]
    split
    · next isCreating => simp [isCreating, Held, phase_of is, undecided]
    · rfl

theorem builds (is : s.creation n = some before) (phase : before.phase = .building) (err : Option GoError) :
    s.Advances ({ s with nextSession := s.nextSession + 1 }.setCreation n
      { before with phase := .deciding (some s.nextSession) err }) := by
  obtain ⟨sound, result⟩ := kept.served.created n before is
  have counted : { s with nextSession := s.nextSession + 1 }.Ordered := { kept.ordered with }
  have servedOn : { s with nextSession := s.nextSession + 1 }.Served := { kept.served with }
  refine ⟨kept.custody.deposit (.creating n) s.nextSession (lt_irrefl _) ?_ ?_, counted.setCreation is ?_,
    servedOn.setCreation is rfl ?_ result, Nat.le_succ _⟩
  · intro y
    exact Nat.lt_succ_iff_lt_or_eq
  · intro h y
    have unchanged : { s with nextSession := s.nextSession + 1 }.Held h y ↔ s.Held h y := by cases h <;> rfl
    rw [held_setCreation, unchanged]
    split
    · next isCreation => simp [isCreation, Held, phase_of is, phase, ManagerPhase.owned]
    · split
      · next isCreating => simp [isCreating, Held, phase_of is, phase, ManagerPhase.undecided, eq_comm]
      · next notCreating => simp [notCreating]
  · simp [phase]
  · simp only [ManagerCreation.Sound, phase] at sound ⊢
    exact ⟨sound, by simp⟩

/-- A creation keeps the session that it has created, to stop it. -/
theorem rejects (is : s.creation n = some before) (phase : before.phase = .deciding created err)
    (creation : ManagerCreation) {cause : Option GoError} (stops : creation.phase = .stopping created cause)
    (served : (s.setCreation n creation).Served) : s.Advances (s.setCreation n creation) := by
  refine ⟨kept.custody.drain (.creating n) (.creation n) (by simp [Holder.grade]) (by simp) fun h y => ?_,
    kept.ordered.setCreation is (by simp [phase]), served, le_rfl⟩
  rw [held_setCreation, stops]
  split
  · next isCreation => simp [isCreation, Held, phase_of is, phase, ManagerPhase.owned, ManagerPhase.undecided]
  · next notCreation =>
    split
    · next isCreating => simp [isCreating, ManagerPhase.undecided]
    · next notCreating => simp [notCreating, notCreation]

/-- A creation installs the session that it has created and keeps the replaced one, to stop it. -/
theorem install (isOpen : s.gate.closed = false) (is : s.creation n = some before)
    (phase : before.phase = .deciding (some x) err) :
    s.Advances ((s.install ⟨before.target, x⟩).setCreation n { before with
      result := some ⟨before.target, x⟩, phase := .stopping (s.session.map ManagerSession.session) none }) := by
  obtain ⟨sound, -⟩ := kept.served.created n before is
  rw [ManagerCreation.Sound, phase] at sound
  have installed : (s.install ⟨before.target, x⟩).Ordered :=
    { kept.ordered with emptied := fun isClosed => absurd (isOpen.symm.trans isClosed) (by decide) }
  refine ⟨?_, installed.setCreation is (by simp [phase]),
    (kept.served.install _).setCreation is rfl ⟨sound.1, by simp⟩ ?_, le_rfl⟩
  · refine kept.custody.shift (.creating n) .slot (.creation n) (by simp [Holder.grade]) (by simp) ?_
      (by simp) fun h y => ?_
    · simp [Held, phase_of is, phase, ManagerPhase.owned]
    · rw [held_setCreation, held_install]
      split
      · next isCreation => simp [isCreation, Held, ManagerPhase.owned]
      · split
        · next isCreating => simp [isCreating, ManagerPhase.undecided]
        · next notCreating => simp [notCreating, Held, phase_of is, phase, ManagerPhase.undecided]
  · intro entry same
    cases same
    exact ⟨List.mem_cons_self, sameTarget_iff.mpr ⟨rfl, rfl, rfl⟩⟩

omit kept in
theorem decision_eq_none (decided : s.decision before err = none) : s.gate.closed = false ∧ err = none := by
  unfold decision at decided
  split at decided
  · cases decided
  · next isOpen =>
    split at decided
    · cases decided
    · cases err with
      | none => exact ⟨Bool.not_eq_true _ ▸ isOpen, rfl⟩
      | some err => cases decided

theorem settle (is : s.creation n = some before) (phase : before.phase = .deciding created err) :
    s.Advances (s.settle n before created err) := by
  obtain ⟨sound, result⟩ := kept.served.created n before is
  rw [ManagerCreation.Sound, phase] at sound
  unfold SessionSlot.settle
  split
  · next session decided =>
    split
    · next entry found =>
      rw [Option.filter_eq_some_iff] at found
      refine kept.rejects is phase _ rfl (kept.served.setCreation is rfl ⟨sound.1, by simp⟩ fun other same => ?_)
      cases same
      exact ⟨kept.served.installed entry found.1, found.2⟩
    · exact kept.install (decision_eq_none decided).1 is phase
  · next cause created noInstall =>
    refine kept.rejects is phase _ rfl (kept.served.setCreation is rfl ⟨sound.1, fun noCause => ?_⟩ result)
    -- Without an error there is a created session, which is the other case.
    have hasCreated := sound.2 (decision_eq_none noCause).2
    obtain ⟨session, isCreated⟩ := Option.ne_none_iff_exists'.mp hasCreated
    exact absurd isCreated (noInstall session noCause)

theorem done (rests : ¬s.Works w) : s.Advances (s.done w) := by
  refine ⟨kept.custody.congr fun _ _ => held_done, ?_, { kept.served with }, le_rfl⟩
  refine { kept.ordered with gate := kept.ordered.gate.done fun w' works => ?_ }
  have works' : s.Works w' := by cases w' <;> exact works
  refine ⟨works', ?_⟩
  rintro rfl
  exact rests works'

/-- The last step of a creation. -/
theorem finishes (is : s.creation n = some before) (phase : before.phase = .finishing err) :
    s.Advances (({ s with creations := s.creations.erase n }.setCreation n { before with
      err, completed := true, phase := .finished }).done (.creation n)) := by
  obtain ⟨sound, result⟩ := kept.served.created n before is
  rw [ManagerCreation.Sound, phase] at sound
  have shrunk : s.Advances { s with creations := s.creations.erase n } :=
    ⟨kept.custody.congr fun h _ => by cases h <;> rfl, { kept.ordered with }, { kept.served with }, le_rfl⟩
  have ended := shrunk.kept.setCreation is { before with err, completed := true, phase := .finished }
    (by rw [phase]; rfl)
    (by rw [phase]; rfl) (by simp) (shrunk.served.setCreation is rfl sound.2 result)
  refine (shrunk.trans kept ended).trans kept (ended.kept.done ?_)
  rw [works_setCreation, if_pos rfl]
  exact fun works => works rfl

theorem setInvalidation (idle : (s.invalidations call).owned = none) {phase : ManagerInvalidation}
    (owned : phase.owned = none) : s.Advances (s.setInvalidation call phase) := by
  refine ⟨kept.custody.congr fun h y => ?_, ?_, { kept.served with }, le_rfl⟩
  · rw [held_setInvalidation]
    split
    · next isCall => rw [isCall, Held, idle, owned]
    · rfl
  · refine { kept.ordered with gate := kept.ordered.gate.mono fun w works => ?_ }
    rw [works_setInvalidation] at works
    split at works
    · exact absurd owned works
    · exact works

/-- The installed session has failed. -/
theorem invalidates (idle : (s.invalidations call).owned = none) {entry : ManagerSession}
    (installed : s.session = some entry) :
    s.Advances ((s.remove.add (.invalidation call)).setInvalidation call (.stopping entry.session)) := by
  have isOpen : s.gate.closed = false := by
    cases isClosed : s.gate.closed with
    | false => rfl
    | true =>
      rw [kept.ordered.emptied isClosed] at installed
      cases installed
  refine ⟨kept.custody.drain .slot (.invalidation call) (by simp [Holder.grade]) (by simp) fun h y =>
    ?_, ?_, ?_, le_rfl⟩
  · rw [held_setInvalidation, held_add, held_remove]
    split
    · next isCall =>
      have takes : (ManagerInvalidation.stopping entry.session).owned = some entry.session := rfl
      simp [isCall, Held, installed, idle, takes]
    · next notCall => simp [notCall]
  · refine ⟨kept.ordered.unborn, ?_, fun _ => rfl⟩
    refine kept.ordered.gate.add (kept.ordered.gate.closeDone_of_open isOpen) fun w works => ?_
    rw [works_setInvalidation] at works
    split at works
    · next same => exact .inr same
    · left
      cases w <;> exact works
  · exact { kept.served with installed := fun _ same => by cases same }

theorem stopsFailed {failed : Nat} (stops : s.invalidations call = .stopping failed) :
    s.Advances (((s.stopAny (some failed)).setInvalidation call .returned).done (.invalidation call)) := by
  refine ⟨kept.custody.drain (.invalidation call) .stopped (by simp [Holder.grade]) (by simp) fun h y =>
    ?_, ?_, { kept.served with }, le_rfl⟩
  · rw [held_done, held_setInvalidation, held_stopAny]
    split
    · next isCall => simp [isCall, ManagerInvalidation.owned]
    · next notCall => simp [notCall, Held, stops, ManagerInvalidation.owned]
  · refine { kept.ordered with gate := kept.ordered.gate.done fun w works => ?_ }
    have works' : ((s.stopAny (some failed)).setInvalidation call .returned).Works w := works
    rw [works_setInvalidation] at works'
    split at works'
    · exact absurd rfl works'
    · next other => exact ⟨works', other⟩

/-- A call of `Close` goes on, holding the same. -/
theorem setClosing {phase : Closing (Option Nat)} (idle : (s.gate.closings call).session = none)
    (free : phase.session = none)
    (stopping : ∀ taken, phase = .stopping taken → ∃ before, s.gate.closings call = .stopping before)
    (returned : phase = .returned → s.gate.closeDone = true) : s.Advances (s.setClosing call phase) := by
  refine ⟨kept.custody.congr fun h y => ?_, ?_, { kept.served with }, le_rfl⟩
  · rw [held_setClosing]
    split
    · next isCall => rw [isCall, Held, idle, free]
    · rfl
  · exact { kept.ordered with gate := kept.ordered.gate.setClosing stopping returned }

/-- The first call of `Close` takes the installed session. -/
theorem close (isOpen : s.gate.closed = false) (idle : s.gate.closings call = .idle) :
    s.Advances { s.remove with gate := s.gate.begin_ call (s.session.map ManagerSession.session) } := by
  refine ⟨kept.custody.drain .slot (.closing call) (by simp [Holder.grade]) (by simp) fun h y => ?_, ?_, ?_, le_rfl⟩
  · have sameHeld : { s.remove with gate := s.gate.begin_ call (s.session.map ManagerSession.session) }.Held h y ↔
        (s.remove.setClosing call (.stopping (s.session.map ManagerSession.session))).Held h y := by cases h <;> rfl
    rw [sameHeld, held_setClosing, held_remove]
    split
    · next isCall => simp [isCall, Held, idle, Closing.session]
    · next notCall => simp [notCall]
  · exact ⟨kept.ordered.unborn, kept.ordered.gate.begin_ isOpen _, fun _ => rfl⟩
  · exact { kept.served with installed := fun _ same => by cases same }

theorem stopsTaken {session : Nat} (stops : s.gate.closings call = .stopping (some session)) :
    s.Advances ((s.stopAny (some session)).setClosing call (.stopping none)) := by
  refine ⟨kept.custody.drain (.closing call) .stopped (by simp [Holder.grade]) (by simp) fun h y =>
    ?_, ?_, { kept.served with }, le_rfl⟩
  · rw [held_setClosing, held_stopAny]
    split
    · next isCall => simp [isCall, Closing.session]
    · next notCall => simp [notCall, Held, stops, Closing.session]
  · exact { kept.ordered with gate := kept.ordered.gate.setClosing (fun _ _ => ⟨_, stops⟩) (by simp) }

theorem waits (stops : s.gate.closings call = .stopping none) (nobody : s.gate.workers = ∅) :
    s.Advances { s with gate := s.gate.finish call } := by
  refine ⟨kept.custody.congr fun h y => ?_, { kept.ordered with gate := kept.ordered.gate.finish stops nobody },
    { kept.served with }, le_rfl⟩
  have sameHeld : { s with gate := s.gate.finish call }.Held h y ↔ (s.setClosing call .returned).Held h y := by
    cases h <;> rfl
  rw [sameHeld, held_setClosing]
  split
  · next isCall => simp [isCall, Held, stops, Closing.session]
  · rfl

end Kept

end SessionSlot

end RadosGo
