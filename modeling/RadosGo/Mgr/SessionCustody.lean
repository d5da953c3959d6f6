import RadosGo.Mgr.SessionHandover

namespace RadosGo

namespace SessionSlot

variable {s : SessionSlot} {h : Holder} {x n call : Nat}

variable {t : SessionSlot} {action : Action} {allowed : SessionSlot → Action → Prop}

/-- Every step of every party. -/
theorem Kept.step (kept : s.Kept) (steps : s.step action = some t) : s.Advances t := by
  revert steps
  fun_cases s.step action
  all_goals rintro ⟨⟩
  · exact ⟨kept.custody.congr fun h _ => by cases h <;> rfl, { kept.ordered with }, { kept.served with }, le_rfl⟩
  · exact kept.getSession _ _
  · next waits _ is wakes => exact kept.leave waits is wakes
  · next creation is stale phase =>
    obtain ⟨sound, result⟩ := kept.served.created _ creation is
    rw [ManagerCreation.Sound, phase] at sound
    exact kept.stopOwned is phase rfl (by simp) rfl (kept.served.setCreation is rfl sound result)
  · next creation is phase =>
    obtain ⟨sound, result⟩ := kept.served.created _ creation is
    rw [ManagerCreation.Sound, phase] at sound
    split
    · exact kept.movePhase is phase rfl rfl (by simp) (kept.served.setCreation is rfl ⟨sound, by simp⟩ result)
    · exact kept.movePhase is phase rfl rfl (by simp) (kept.served.setCreation is rfl sound result)
  · next is phase => exact kept.builds is phase _
  · next err creation is phase notCreated =>
    obtain ⟨sound, result⟩ := kept.served.created _ creation is
    rw [ManagerCreation.Sound, phase] at sound
    refine kept.movePhase is phase rfl rfl (by simp) (kept.served.setCreation is rfl ⟨sound, ?_⟩ result)
    cases err <;> simp [factoryErr, notCreated]
  · next is _ _ phase => exact kept.settle is phase
  · next creation is unwanted err phase =>
    obtain ⟨sound, result⟩ := kept.served.created _ creation is
    rw [ManagerCreation.Sound, phase] at sound
    exact kept.stopOwned is phase rfl (by simp) rfl (kept.served.setCreation is rfl sound result)
  · next is _ phase => exact kept.finishes is phase
  · next phase =>
    unfold SessionSlot.invalidate
    split
    · next found => exact kept.invalidates (by rw [phase]; rfl) (Option.filter_eq_some_iff.mp found).1
    · exact kept.setInvalidation (by rw [phase]; rfl) rfl
  · next phase => exact kept.stopsFailed phase
  · next phase =>
    unfold SessionSlot.close
    split
    · exact kept.setClosing (by rw [phase]; rfl) rfl (by simp) (by simp)
    · next isOpen =>
      have closed := kept.close (Bool.not_eq_true _ ▸ isOpen) phase
      exact closed.trans kept (closed.kept.abandon _)
  · next phase => exact kept.stopsTaken phase
  · next phase nobody => exact kept.waits phase nobody
  · next phase isDone => exact kept.setClosing (by rw [phase]; rfl) rfl (by simp) fun _ => isDone

theorem kept_of_start (starts : interleavings.start s) : s.Kept := by
  obtain ⟨mgrMap, rfl⟩ := starts
  have nothing (h : Holder) (y : Nat) : ¬({ mgrMap } : SessionSlot).Held h y := by
    cases h <;> simp [Held, phase, ManagerPhase.undecided, ManagerPhase.owned, ManagerInvalidation.owned,
      Closing.session]
  refine ⟨⟨fun holds => absurd holds (nothing _ _), fun y => ?_⟩, ⟨fun _ _ => rfl, ?_, fun _ => rfl⟩, ?_⟩
  · exact iff_of_false (Nat.not_lt_zero y) fun holds => nothing _ y holds.choose_spec
  · refine CloseOnce.Orderly.empty.mono fun w works => ?_
    cases w <;> exact works rfl
  · constructor <;> simp

theorem kept_of_reaches (reach : interleavings.Reaches allowed s) : s.Kept :=
  reach.invariant Kept (fun _ => kept_of_start) fun _ _ _ kept steps _ => (kept.step steps).kept

theorem Kept.path (kept : s.Kept) (path : interleavings.Path allowed s t) : s.Advances t := by
  induction path with
  | refl => exact ⟨kept.custody.congr fun _ _ => Iff.rfl, kept.ordered, kept.served, le_rfl⟩
  | next _ steps _ ih => exact ih.trans kept (ih.kept.step steps)

/-- A code path that has to stop the session which it holds, or to install it. -/
def Holder.Owner : Holder → Prop
  | .creating _ | .creation _ | .invalidation _ | .closing _ => True
  | .slot | .stopped => False

/-- The steps which a code path makes with the session that it holds. -/
inductive Holder.Makes : Holder → Action → Prop
  | decides (n : Nat) : Makes (.creating n) (.decides n)
  | stopsStale (n : Nat) : Makes (.creation n) (.stopsStale n)
  | stopsUnwanted (n : Nat) : Makes (.creation n) (.stopsUnwanted n)
  | stopsFailed (call : Nat) : Makes (.invalidation call) (.stopsFailed call)
  | stopsTaken (call : Nat) : Makes (.closing call) (.stopsTaken call)

/-- A creation that holds something has begun. -/
theorem creation_of_phase {phase : ManagerPhase} (is : s.phase n = phase) (runs : phase ≠ .finished) :
    ∃ creation, s.creation n = some creation ∧ creation.phase = phase := by
  rw [SessionSlot.phase] at is
  cases isCreation : s.creation n with
  | none =>
    rw [isCreation] at is
    exact absurd is.symm runs
  | some creation =>
    rw [isCreation] at is
    exact ⟨creation, rfl, is⟩

/-- An owner need not wait for anybody. -/
theorem owner_enabled (holds : s.Held h x) (owner : h.Owner) :
    ∃ action t, h.Makes action ∧ s.step action = some t := by
  cases h with
  | creating n =>
    rw [Held] at holds
    unfold ManagerPhase.undecided at holds
    split at holds
    · next phase =>
      obtain ⟨creation, is, phase⟩ := creation_of_phase phase (by simp)
      exact ⟨_, _, .decides n, by simp only [SessionSlot.step, is, phase]; rfl⟩
    all_goals cases holds
  | slot => cases owner
  | creation n =>
    rw [Held] at holds
    unfold ManagerPhase.owned at holds
    split at holds
    · next phase =>
      obtain ⟨creation, is, phase⟩ := creation_of_phase phase (by simp)
      exact ⟨_, _, .stopsStale n, by simp only [SessionSlot.step, is, phase]; rfl⟩
    · next phase =>
      obtain ⟨creation, is, phase⟩ := creation_of_phase phase (by simp)
      exact ⟨_, _, .stopsUnwanted n, by simp only [SessionSlot.step, is, phase]; rfl⟩
    all_goals cases holds
  | invalidation call =>
    rw [Held] at holds
    unfold ManagerInvalidation.owned at holds
    split at holds
    · next phase => exact ⟨_, _, .stopsFailed call, by simp only [SessionSlot.step, phase]; rfl⟩
    all_goals cases holds
  | closing call =>
    rw [Held] at holds
    unfold Closing.session at holds
    split at holds
    · next phase => exact ⟨_, _, .stopsTaken call, by simp only [SessionSlot.step, phase, holds]; rfl⟩
    all_goals cases holds
  | stopped => cases owner

/-- After its step, the session is stopped or installed, or its creation has to stop it. -/
theorem owner_step (holds : s.Held h x) (makes : h.Makes action) (steps : s.step action = some t) :
    t.Held .stopped x ∨ ∃ n, h = .creating n ∧ (t.Held .slot x ∨ t.Held (.creation n) x) := by
  revert steps
  fun_cases s.step action
  all_goals rintro ⟨⟩
  all_goals cases makes
  · next is _ phase =>
    rw [Held, phase_of is, phase, ManagerPhase.owned] at holds
    exact .inl (by simp [holds])
  · next n _ is _ _ phase =>
    rw [Held, phase_of is, phase, ManagerPhase.undecided] at holds
    subst holds
    refine .inr ⟨n, rfl, ?_⟩
    unfold SessionSlot.settle
    split
    · next session _ same =>
      cases same
      split
      · exact .inr (by simp [ManagerPhase.owned])
      · exact .inl (by simp)
    · exact .inr (by simp [ManagerPhase.owned])
  · next is _ _ phase =>
    rw [Held, phase_of is, phase, ManagerPhase.owned] at holds
    exact .inl (by simp [holds])
  · next phase =>
    rw [Held, phase, ManagerInvalidation.owned] at holds
    cases holds
    exact .inl (by simp)
  · next phase =>
    rw [Held, phase, Closing.session] at holds
    cases holds
    exact .inl (by simp)

/-- When a call of `Close` has returned, nobody has a session. -/
theorem Kept.stopped_of_returned (kept : s.Kept) (returned : s.gate.closings call = .returned)
    (isMade : x < s.nextSession) : x ∈ s.stopped := by
  obtain ⟨isClosed, idle, unstopping⟩ := kept.ordered.gate.quiet returned
  obtain ⟨h, holds⟩ := (kept.custody.made_iff x).mp isMade
  cases h with
  | creating n | creation n =>
    refine absurd (fun finished => ?_) (idle (.creation n))
    rw [Held, finished] at holds
    cases holds
  | slot =>
    rw [Held, kept.ordered.emptied isClosed] at holds
    cases holds
  | invalidation call' =>
    refine absurd (fun none => ?_) (idle (.invalidation call'))
    rw [Held, none] at holds
    cases holds
  | closing call' =>
    rw [Held] at holds
    unfold Closing.session at holds
    split at holds
    · next phase => exact absurd phase (unstopping call' _)
    all_goals cases holds
  | stopped => exact holds

/-- In every interleaving each session that the factory has returned is the installed one, is held by exactly one code
path whose next step stops it (or decides to install it), or is stopped. The installed session is not stopped. What
leaves the slot does not come back. A call of `getSession` without an error returns a session that was installed for
its target. Nothing is left when `Close` has returned. -/
theorem manager_sessions_kept (reach : interleavings.Reaches (fun _ _ => True) s) :
    (∀ x < s.nextSession, ∃! h, s.Held h x) ∧
    (∀ h x, s.Held h x → h.Owner → (∃ action t, h.Makes action ∧ s.step action = some t) ∧
      ∀ action t, h.Makes action → s.step action = some t →
        t.Held .stopped x ∨ ∃ n, h = .creating n ∧ (t.Held .slot x ∨ t.Held (.creation n) x)) ∧
    (∀ entry, s.session = some entry → entry.session ∉ s.stopped) ∧
    (∀ action t u x, s.Held .slot x → s.step action = some t → ¬t.Held .slot x →
      interleavings.Path (fun _ _ => True) t u → ¬u.Held .slot x) ∧
    (∀ call target result, s.calls call = .returned target (.ok result) →
      ∃ entry, result = some entry ∧ s.InstalledFor target entry) ∧
    ∀ call, s.gate.closings call = .returned → ∀ x < s.nextSession, x ∈ s.stopped := by
  have kept := kept_of_reaches reach
  refine ⟨fun x isMade => kept.custody.existsUnique isMade, fun h x holds owner =>
    ?_, fun entry installed isStopped => ?_, ?_,
    kept.served.returned, fun call returned x isMade => kept.stopped_of_returned returned isMade⟩
  · exact ⟨owner_enabled holds owner, fun action t makes steps => owner_step holds makes steps⟩
  · have holds : s.Held .slot entry.session := by rw [Held, installed]; rfl
    have also : s.Held .stopped entry.session := isStopped
    cases kept.custody.unique holds also
  · intro action t u x holds steps removed path back
    have advances := kept.step steps
    have isMade := ((kept.custody.made_iff x).mpr ⟨_, holds⟩).trans_le advances.grows
    obtain ⟨h, holds'⟩ := (advances.kept.custody.made_iff x).mp isMade
    have above : 1 ≤ h.grade := advances.handover.forward holds holds'
    have below : h.grade ≤ 1 := (advances.kept.path path).handover.forward holds' back
    cases h with
    | creating n => simp [Holder.grade] at above
    | slot => exact removed holds'
    | _ => simp [Holder.grade] at below

def activeManager : ActiveTarget :=
  ⟨1, 7, [120], ⟨2, 0, 2, 26 :: 144 :: List.replicate 12 0⟩, featureServerOctopusMask⟩

/-- The map with that manager. -/
def activeMap : MgrMap := ⟨1, true, 7, [120], featureServerOctopusMask, [activeManager.address]⟩

/-- One call opens a session, which `Close` stops. -/
def openThenClose : List Action :=
  [.gets 0 activeManager none, .stopsStale 0, .checks 0, .builds 0 true none, .decides 0, .stopsUnwanted 0,
    .finishes 0, .leaves 0 none, .closes 0, .stopsTaken 0, .waits 0]

def afterActions (actions : List Action) : SessionSlot :=
  actions.foldl (fun s action => (s.step action).getD s) { mgrMap := some activeMap }

theorem openThenClose_reached : interleavings.Reaches (fun _ _ => True) (afterActions openThenClose) := by
  have starts : interleavings.start ({ mgrMap := some activeMap } : SessionSlot) := ⟨_, rfl⟩
  refine (System.Reaches.start starts).follow ?_
  exact ⟨rfl, trivial, rfl, trivial, rfl, trivial, rfl, trivial, rfl, trivial, rfl, trivial, rfl, trivial, rfl,
    trivial, rfl, trivial, rfl, trivial, rfl, trivial, trivial⟩

theorem manager_sessions_kept_openThenClose :
    (afterActions openThenClose).InstalledFor activeManager ⟨activeManager, 0⟩ ∧
      0 ∈ (afterActions openThenClose).stopped := by
  obtain ⟨-, -, -, -, served, closed⟩ := manager_sessions_kept openThenClose_reached
  obtain ⟨entry, isResult, installed⟩ := served 0 activeManager (some ⟨activeManager, 0⟩) rfl
  cases isResult
  exact ⟨installed, closed 0 rfl 0 (by decide)⟩

end SessionSlot

end RadosGo
