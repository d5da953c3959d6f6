import RadosGo.Objecter.SessionHandover

namespace RadosGo

namespace SessionTable

variable {s : SessionTable} {h : Holder} {x n call : Nat}

variable {t : SessionTable} {action : Action} {allowed : SessionTable → Action → Prop}

/-- Every step of every party. -/
theorem Kept.step (kept : s.Kept) (steps : s.step action = some t) : s.Advances t := by
  revert steps
  fun_cases s.step action
  all_goals rintro ⟨⟩
  any_goals exact kept.setCall _
  any_goals exact kept.setWatcher _
  · exact kept.getSession _ _
  · exact kept.supersedeCreation _
  · next old phase =>
    cases old with
    | none => exact kept.movePhase phase rfl rfl (fun _ => rfl) (by simp)
    | some old => exact kept.stopOwned phase rfl rfl rfl (fun _ => rfl) (by simp)
  · next phase =>
    split <;> exact kept.movePhase phase rfl rfl (fun _ => rfl) (by simp)
  · next phase =>
    split
    · exact kept.builds phase _
    · exact kept.movePhase phase rfl rfl (fun _ => rfl) (by simp)
  · next phase => exact kept.settle phase _
  · next phase => exact kept.stopOwned phase rfl rfl rfl (fun early => by cases early) (by simp)
  · next phase => exact kept.finish phase _
  · next phase => exact kept.setInvalidation phase rfl rfl
  · next phase =>
    unfold lookFor
    split
    · exact kept.setInvalidation phase rfl rfl
    · split
      · next found => exact kept.invalidate phase rfl found
      · exact kept.setInvalidation phase rfl rfl
  · next phase _ => exact kept.setInvalidation phase rfl rfl
  · next phase => exact kept.stopsFailed phase
  · next phase _ => exact kept.endDispatcher phase
  · next phase =>
    unfold interruptSessionWatches
    split
    · exact kept.endDispatcher phase
    · next current =>
      simp only [Bool.or_eq_true, Bool.not_eq_true', decide_eq_false_iff_not, not_or, not_not] at current
      exact kept.interrupt phase current.2
  · next phase => exact kept.stopsActive phase
  · split
    · exact (kept.setWatcher _).trans kept ((kept.setWatcher _).kept.supersede _)
    · exact kept.setWatcher _
  · next phase _ _ => exact (kept.setWatcher _).trans kept ((kept.setWatcher _).kept.setInvalidation phase rfl rfl)
  · exact kept.watchEnds
  · next phase =>
    unfold SessionTable.close
    split
    · exact kept.setClosing phase rfl rfl nofun nofun
    · next isOpen => exact kept.close (Bool.not_eq_true _ ▸ isOpen) phase
  · next phase _ found => exact kept.stopsTaken phase found
  · next phase done => exact kept.finishClose (done.1 ▸ phase) done.2
  · next phase isDone => exact kept.setClosing phase rfl rfl nofun fun _ => isDone

theorem kept_of_start (starts : interleavings.start s) : s.Kept := by
  have nothing (h : Holder) (y : Nat) : ¬s.Held h y := by
    rcases starts with rfl | rfl <;> cases h <;> simp [Held, CreationPhase.undecided, CreationPhase.owned,
      Invalidation.owned, Dispatcher.owned, Closing.taken]
  have nobody (w : SessionWorker) : ¬s.Works w := by
    rcases starts with rfl | rfl <;> cases w <;> simp [Works, Invalidation.owned, Dispatcher.active]
  refine ⟨⟨fun holds => absurd holds (nothing _ _), fun y => ?_⟩, ?_⟩
  · refine iff_of_false ?_ fun holds => nothing _ y holds.choose_spec
    rcases starts with rfl | rfl <;> exact Nat.not_lt_zero y
  · refine ⟨?_, ?_, ?_, ?_, ⟨fun w works => absurd works (nobody w), ?_, ?_, ?_⟩, ?_⟩
    all_goals rcases starts with rfl | rfl <;> simp [CreationPhase.early]

theorem kept_of_reaches (reach : interleavings.Reaches allowed s) : s.Kept :=
  reach.invariant Kept (fun _ => kept_of_start) fun _ _ _ kept steps _ => (kept.step steps).kept

theorem Kept.path (kept : s.Kept) (path : interleavings.Path allowed s t) : s.Advances t := by
  induction path with
  | refl => exact ⟨kept.custody.congr fun _ _ => Iff.rfl, kept.ordered, le_rfl⟩
  | next _ steps _ ih => exact ih.trans kept (ih.kept.step steps)

/-- A code path that has to stop the session which it holds, or to install it. -/
def Holder.Owner : Holder → Prop
  | .creating _ | .creation _ | .invalidation _ | .dispatcher _ | .closing _ _ => True
  | .table _ | .stopped => False

/-- The steps which a code path makes with the session that it holds. -/
inductive Holder.Makes : Holder → Action → Prop
  | decides (n : Nat) (target : Except GoError SessionTarget) : Makes (.creating n) (.decides n target)
  | stopsOld (n : Nat) : Makes (.creation n) (.stopsOld n)
  | stopsCreated (n : Nat) : Makes (.creation n) (.stopsCreated n)
  | stopsFailed (call : Nat) : Makes (.invalidation call) (.stopsFailed call)
  | stopsActive (n : Nat) : Makes (.dispatcher n) (.stopsActive n)
  | stopsTaken (call : Nat) (osd : Int) : Makes (.closing call osd) (.stopsTaken call osd)

/-- An owner need not wait for anybody. -/
theorem owner_enabled (holds : s.Held h x) (owner : h.Owner) :
    ∃ action t, h.Makes action ∧ s.step action = some t := by
  cases h with
  | creating n =>
    rw [Held] at holds
    unfold CreationPhase.undecided at holds
    split at holds
    · next phase => exact ⟨_, _, .decides n (.error Sentinel.staleMap), by rw [SessionTable.step, phase]⟩
    all_goals cases holds
  | table osd => cases owner
  | creation n =>
    rw [Held] at holds
    unfold CreationPhase.owned at holds
    split at holds
    · next phase => exact ⟨_, _, .stopsOld n, by rw [SessionTable.step, phase]⟩
    · next phase => exact ⟨_, _, .stopsCreated n, by rw [SessionTable.step, phase]⟩
    all_goals cases holds
  | invalidation call =>
    rw [Held] at holds
    unfold Invalidation.owned at holds
    split at holds
    · next phase => exact ⟨_, _, .stopsFailed call, by rw [SessionTable.step, phase]⟩
    all_goals cases holds
  | dispatcher n =>
    rw [Held] at holds
    unfold Dispatcher.owned at holds
    split at holds
    · next phase => exact ⟨_, _, .stopsActive n, by rw [SessionTable.step, phase]⟩
    all_goals cases holds
  | closing call osd =>
    rw [Held] at holds
    unfold Closing.taken at holds
    split at holds
    · next phase =>
      obtain ⟨entry, found, -⟩ := Option.map_eq_some_iff.mp holds
      exact ⟨_, _, .stopsTaken call osd, by rw [SessionTable.step, phase]; dsimp only; rw [found]⟩
    all_goals cases holds
  | stopped => cases owner

/-- After its step, the session is stopped or installed, or its creation has to stop it. -/
theorem owner_step (holds : s.Held h x) (makes : h.Makes action) (steps : s.step action = some t) :
    t.Held .stopped x ∨ ∃ n, h = .creating n ∧ ((∃ osd, t.Held (.table osd) x) ∨ t.Held (.creation n) x) := by
  revert steps
  fun_cases s.step action
  all_goals rintro ⟨⟩
  all_goals cases makes
  · next phase =>
    rw [Held, phase, CreationPhase.owned] at holds
    subst holds
    exact .inl (by simp [setPhase, stopAny])
  · next n _ _ _ phase =>
    rw [Held, phase, CreationPhase.undecided] at holds
    subst holds
    refine .inr ⟨n, rfl, ?_⟩
    unfold SessionTable.settle
    split
    · next session _ same =>
      cases same
      exact .inl ⟨(s.creation n).osd, by simp [setPhase]⟩
    · next session _ same =>
      cases same
      exact .inr (by simp [setPhase, CreationPhase.owned])
    · next same => cases same
  · next phase =>
    rw [Held, phase, CreationPhase.owned] at holds
    cases holds
    exact .inl (by simp [setPhase])
  · next phase =>
    rw [Held, phase, Invalidation.owned] at holds
    cases holds
    exact .inl (by simp)
  · next phase =>
    rw [Held, phase, Dispatcher.owned] at holds
    cases holds
    exact .inl (by simp)
  · next phase _ found =>
    rw [Held, phase, Closing.taken, found] at holds
    cases holds
    exact .inl ((held_setClosing_of_ne (by simp)).mpr (by simp))

/-- When a call of `Close` has returned, nobody has a session. -/
theorem Kept.stopped_of_returned (kept : s.Kept) (returned : s.gate.closings call = .returned)
    (isMade : x < s.nextSession) : x ∈ s.stopped := by
  obtain ⟨isClosed, idle, unstopping⟩ := kept.ordered.gate.quiet returned
  obtain ⟨h, holds⟩ := (kept.custody.made_iff x).mp isMade
  cases h with
  | creating n | creation n =>
    refine absurd (fun finished => ?_) (idle (.creation n))
    rw [Held, finished] at holds
    cases holds
  | table osd =>
    rw [Held, kept.ordered.emptied isClosed] at holds
    cases holds
  | invalidation call' =>
    refine absurd (fun none => ?_) (idle (.invalidation call'))
    rw [Held, none] at holds
    cases holds
  | dispatcher n =>
    refine absurd ?_ (idle (.dispatcher n))
    rw [Held] at holds
    unfold Dispatcher.owned at holds
    split at holds
    · next phase => rw [Works, phase]; rfl
    all_goals cases holds
  | closing call' osd =>
    rw [Held] at holds
    unfold Closing.taken at holds
    split at holds
    · next phase => exact absurd phase (unstopping call' _)
    all_goals cases holds
  | stopped => exact holds

/-- In every interleaving each session that the factory has returned is in the table, is held by exactly one code path
whose next step stops it (or installs it, if its creation has not decided), or is stopped. An OSD has at most one
session in the table and one creation. What leaves the table does not come back, and nothing is left when `Close` has
returned. -/
theorem sessions_kept (reach : interleavings.Reaches (fun _ _ => True) s) :
    (∀ x < s.nextSession, ∃! h, s.Held h x) ∧
    (∀ h x, s.Held h x → h.Owner → (∃ action t, h.Makes action ∧ s.step action = some t) ∧
      ∀ action t, h.Makes action → s.step action = some t →
        t.Held .stopped x ∨ ∃ n, h = .creating n ∧ ((∃ osd, t.Held (.table osd) x) ∨ t.Held (.creation n) x)) ∧
    (∀ osd x y, s.Held (.table osd) x → s.Held (.table osd) y → x = y) ∧
    (∀ n m, (s.creation n).phase ≠ .finished → (s.creation m).phase ≠ .finished →
      (s.creation n).osd = (s.creation m).osd → n = m) ∧
    (∀ action t u osd x, s.Held (.table osd) x → s.step action = some t → (∀ osd, ¬t.Held (.table osd) x) →
      interleavings.Path (fun _ _ => True) t u → ∀ osd, ¬u.Held (.table osd) x) ∧
    ∀ call, s.gate.closings call = .returned → ∀ x < s.nextSession, x ∈ s.stopped := by
  have kept := kept_of_reaches reach
  refine ⟨fun x isMade => kept.custody.existsUnique isMade, fun h x holds owner => ?_, fun osd x y first second => ?_,
    fun n m runs runs' sameOsd => kept.ordered.same_creation runs' runs sameOsd, ?_,
    fun call returned x isMade => kept.stopped_of_returned returned isMade⟩
  · exact ⟨owner_enabled holds owner, fun action t makes steps => owner_step holds makes steps⟩
  · exact Option.some.inj (first.symm.trans second)
  · intro action t u osd x holds steps removed path osd' back
    have advances := kept.step steps
    have isMade := ((kept.custody.made_iff x).mpr ⟨_, holds⟩).trans_le advances.grows
    obtain ⟨h, holds'⟩ := (advances.kept.custody.made_iff x).mp isMade
    have above : 1 ≤ h.grade := advances.handover.forward holds holds'
    have below : h.grade ≤ 1 := (advances.kept.path path).handover.forward holds' back
    cases h with
    | creating n => simp [Holder.grade] at above
    | table osd => exact removed osd holds'
    | _ => simp [Holder.grade] at below

/-- One call opens a session, which `Close` stops. -/
def openThenClose : List Action :=
  [.asks 0 7, .enters 0 none (.ok ⟨"10.0.0.1:6800", 1⟩), .stopsOld 0, .checks 0, .builds 0 true none,
    .decides 0 (.ok ⟨"10.0.0.1:6800", 1⟩), .finishes 0 false, .closes 0, .stopsTaken 0 7, .waits 0]

def afterActions (actions : List Action) : SessionTable := actions.foldl (fun s action => (s.step action).getD s) {}

theorem openThenClose_reached : interleavings.Reaches (fun _ _ => True) (afterActions openThenClose) := by
  have starts : interleavings.start ({} : SessionTable) := .inl rfl
  refine (System.Reaches.start starts).follow ?_
  exact ⟨rfl, trivial, rfl, trivial, rfl, trivial, rfl, trivial, rfl, trivial, rfl, trivial, rfl, trivial, rfl,
    trivial, rfl, trivial, rfl, trivial, trivial⟩

theorem sessions_kept_openThenClose :
    (afterActions openThenClose).nextSession = 1 ∧ 0 ∈ (afterActions openThenClose).stopped := by
  refine ⟨rfl, ?_⟩
  obtain ⟨-, -, -, -, -, closed⟩ := sessions_kept openThenClose_reached
  exact closed 0 rfl 0 (by decide)

end SessionTable

end RadosGo
