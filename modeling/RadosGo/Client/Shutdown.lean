import RadosGo.Client.Lifecycle
import RadosGo.Objecter.MutationHistory

namespace RadosGo

/-- The ways of a call of `Shutdown` or `Close`. -/
inductive LifecyclePhase.Moves : LifecyclePhase → LifecyclePhase → Prop
  | joins : Moves .idle .joining
  | claims : Moves .idle .canceling
  | closes : Moves .idle (.finishing none)
  | cancels : Moves .canceling .beginning
  | begins : Moves .beginning .flushing
  | flushes (err : Option GoError) : Moves .flushing (.finishing err)
  | finishes (err : Option GoError) : Moves (.finishing err) (.waiting err)
  | waits (err : Option GoError) : Moves (.waiting err) (.returned err)
  | leaves (err : Option GoError) : Moves .joining (.returned err)

theorem LifecyclePhase.Moves.ne_idle {before after : LifecyclePhase} (moves : Moves before after) :
    after ≠ .idle := by
  rintro rfl
  cases moves

/-- A call that waits for another one, or has returned. -/
def LifecyclePhase.Passive (phase : LifecyclePhase) : Prop := phase = .joining ∨ ∃ err, phase = .returned err

theorem LifecyclePhase.Moves.passive {before after : LifecyclePhase} (moves : Moves before after)
    (passive : before.Passive) : after.Passive := by
  rcases passive with rfl | ⟨err, rfl⟩
  · cases moves with
    | leaves err => exact .inr ⟨err, rfl⟩
  · cases moves

/-- Who may cancel the lifetime. -/
def LifecyclePhase.cancels : LifecyclePhase → Prop
  | .canceling | .finishing _ => True
  | _ => False

theorem LifecyclePhase.Passive.not_cancels {phase : LifecyclePhase} (passive : phase.Passive) : ¬phase.cancels := by
  rcases passive with rfl | ⟨err, rfl⟩ <;> exact id

/-- The first call on the client goes through all of its own phases. -/
def LifecyclePhase.Active : LifecyclePhase → Prop
  | .canceling | .beginning | .flushing | .finishing _ | .waiting _ => True
  | _ => False

theorem LifecyclePhase.cancels.active {phase : LifecyclePhase} (cancels : phase.cancels) : phase.Active := by
  cases phase <;> trivial

namespace RadosClient

open Mutations (MutationAction)

variable {s s' t : RadosClient} {action : ClientAction} {call op : Nat}

/-- What a step does to the calls on the client, to the lifetime, and to the contexts
of the mutations. -/
structure Changes (s s' : RadosClient) : Prop where
  phases : ∀ call, (s'.calls call).phase = (s.calls call).phase ∨
    LifecyclePhase.Moves (s.calls call).phase (s'.calls call).phase
  lifetime : s'.canceledBy = s.canceledBy ∨
    ∃ call, LifecyclePhase.cancels (s.calls call).phase ∧ s'.canceledBy = s.canceledBy.or (some call)
  contexts : ∀ op, (s'.mutations op).context = (s.mutations op).context ∨ (s'.mutations op).context = .live ∨
    (∃ cause, (s'.mutations op).context = .ended cause none) ∨
    ∃ call, s.canceledBy = some call ∧ (s'.mutations op).context = .ended .canceled (some call)
  objects : Mutations.interleavings.Path (fun _ _ => True) s.objects s'.objects
  closing : s.closing = true → s'.closing = true
  claimed : ∀ call, (s'.calls call).phase.Active → (s.calls call).phase.Active ∨ s'.closing = true

variable {x : RadosClient} {allowed : RadosClient → ClientAction → Prop}

theorem Changes.mutation (op : Nat) (mutation : MutationCall) (calls : x.calls = s.calls)
    (closing : x.closing = s.closing) (canceledBy : x.canceledBy = s.canceledBy)
    (mutations : x.mutations = s.mutations)
    (objects : Mutations.interleavings.Path (fun _ _ => True) s.objects x.objects)
    (context : mutation.context = (s.mutations op).context ∨ mutation.context = .live ∨
      (∃ cause, mutation.context = .ended cause none) ∨ ∃ call, s.canceledBy = some call ∧
      mutation.context = .ended .canceled (some call)) :
    Changes s (x.setMutation op mutation) where
  phases call := .inl (by rw [setMutation, calls])
  lifetime := .inl canceledBy
  contexts other := by
    by_cases same : other = op
    · subst same
      simpa [setMutation] using context
    · simp [setMutation, Function.update_of_ne same, mutations]
  objects := objects
  closing := closing.symm ▸ id
  claimed call active := .inl (by rwa [setMutation, calls] at active)

theorem Changes.phase {phase : LifecyclePhase} (calls : x.calls = s.calls) (mutations : x.mutations = s.mutations)
    (moves : LifecyclePhase.Moves (s.calls call).phase phase)
    (lifetime : x.canceledBy = s.canceledBy ∨ ∃ call, LifecyclePhase.cancels (s.calls call).phase ∧
      x.canceledBy = s.canceledBy.or (some call))
    (objects : Mutations.interleavings.Path (fun _ _ => True) s.objects x.objects)
    (closing : s.closing = true → x.closing = true)
    (claimed : phase.Active → (s.calls call).phase.Active ∨ x.closing = true) :
      Changes s (x.setPhase call phase) where
  phases other := by
    by_cases same : other = call
    · subst same
      exact .inr (by simpa [setPhase] using moves)
    · simp [setPhase, Function.update_of_ne same, calls]
  lifetime := lifetime
  contexts other := .inl (by rw [setPhase, mutations])
  objects := objects
  closing := closing
  claimed other active := by
    by_cases same : other = call
    · subst same
      simp only [setPhase, Function.update_self] at active
      exact claimed active
    · simp only [setPhase, Function.update_of_ne same, calls] at active
      exact .inl active

theorem objects_path {before after : Mutations} (action : MutationAction) (step : before.step action = some after) :
    Mutations.interleavings.Path (fun _ _ => True) before after := .single step trivial

theorem Changes.returns (calls : x.calls = s.calls) (closing : x.closing = s.closing)
    (canceledBy : x.canceledBy = s.canceledBy) (mutations : x.mutations = s.mutations)
    (objects : Mutations.interleavings.Path (fun _ _ => True) s.objects x.objects) (result : Except GoError Reply) :
    Changes s (x.returns op result) := by
  have changes := Changes.mutation op { x.mutations op with result := some result } calls closing canceledBy mutations
    objects (.inl (by rw [mutations]))
  exact ⟨changes.phases, changes.lifetime, changes.contexts, changes.objects, changes.closing, changes.claimed⟩

theorem Changes.complete (s : RadosClient) (op sequence : Nat) (result : Except GoError Reply) :
    Changes s (s.complete op sequence result) := by
  have completes : s.objects.step (.completes sequence (errOf result)) =
      some (s.objects.completeMutation sequence (errOf result)) := rfl
  exact Changes.returns (s := s) (x := { s with objects := s.objects.completeMutation sequence (errOf result) })
    rfl rfl rfl
    rfl (objects_path _ completes) result

theorem Changes.claim {phase : LifecyclePhase} (idle : (s.calls call).phase = .idle)
    (moves : LifecyclePhase.Moves .idle phase) : Changes s (s.claim call phase) := by
  unfold RadosClient.claim
  split
  · exact .phase rfl rfl (idle ▸ .joins) (.inl rfl) .refl id nofun
  · exact .phase rfl rfl (idle ▸ moves) (.inl rfl) .refl (fun _ => rfl) fun _ => .inr rfl

theorem Changes.expires (s : RadosClient) (call : Nat) (cause : ContextError) : Changes s { s with
    calls := Function.update s.calls call
      { s.calls call with expired := (s.calls call).expired.or (some cause) } } := by
  have phases : ∀ other, (Function.update s.calls call { s.calls call with
      expired := (s.calls call).expired.or (some cause) } other).phase = (s.calls other).phase := fun other => by
    by_cases same : other = call
    · simp [same]
    · simp [Function.update_of_ne same]
  exact ⟨fun other => .inl (phases other), .inl rfl, fun _ => .inl rfl, .refl, id,
    fun other active => .inl (phases other ▸ active)⟩

theorem step_changes (step : s.step action = some s') : Changes s s' := by
  revert step
  fun_cases s.step action
  any_goals rintro ⟨⟩
  any_goals
    intro step
    obtain ⟨objects, moves, rfl⟩ := Option.map_eq_some_iff.mp step
  · exact .mutation _ _ rfl rfl rfl rfl (objects_path _ moves) (.inr (.inl rfl))
  · exact ⟨fun _ => .inl rfl, .inl rfl, fun _ => .inl rfl, objects_path _ moves, id, fun _ => .inl⟩
  · exact .returns rfl rfl rfl rfl .refl _
  · exact .mutation _ _ rfl rfl rfl rfl .refl (.inl rfl)
  · exact .complete s _ _ _
  · exact .complete s _ _ _
  · next cause _ => exact .mutation _ _ rfl rfl rfl rfl .refl (.inr (.inr (.inl ⟨cause, rfl⟩)))
  · next canceled => exact .mutation _ _ rfl rfl rfl rfl .refl (.inr (.inr (.inr ⟨_, canceled, rfl⟩)))
  · next idle => exact .claim idle .claims
  · next idle => exact .claim idle .closes
  · next call canceling =>
    exact .phase rfl rfl (canceling ▸ .cancels) (.inr ⟨call, by rw [canceling]; trivial, rfl⟩) .refl id
      fun _ => .inl (by rw [canceling]; trivial)
  · next beginning =>
    exact .phase rfl rfl (beginning ▸ .begins) (.inl rfl) (objects_path .beginsShutdown rfl) id
      fun _ => .inl (by rw [beginning]; trivial)
  · next err _ flushing =>
    exact .phase rfl rfl (flushing ▸ .flushes err) (.inl rfl) .refl id fun _ => .inl (by rw [flushing]; trivial)
  · next call err finishing =>
    exact .phase rfl rfl (finishing ▸ .finishes err) (.inr ⟨call, by rw [finishing]; trivial, rfl⟩)
      (objects_path .closes rfl) id fun _ => .inl (by rw [finishing]; trivial)
  · next err _ waiting => exact .phase rfl rfl (waiting ▸ .waits err) (.inl rfl) .refl id nofun
  · next joining => exact .phase rfl rfl (joining.1 ▸ .leaves none) (.inl rfl) .refl id nofun
  · next joining => exact .phase rfl rfl (joining ▸ .leaves _) (.inl rfl) .refl id nofun
  · exact .expires s _ _

/-- A mutation with a deadline is being executed, under a context that is alive. -/
structure Outstanding (s : RadosClient) (op : Nat) : Prop where
  began : (s.mutations op).began = true
  deadline : (s.mutations op).deadline = true
  admitted : (s.sequence op).isSome = true
  running : (s.mutations op).result = none
  live : (s.mutations op).context = .live

/-- The context of the call has not ended yet. -/
def Unexpired (call : Nat) (action : ClientAction) : Prop := ∀ cause, action ≠ .callExpires call cause

/-- The context of the mutation has not ended by itself. -/
def Lasting (s : RadosClient) (op : Nat) : Prop := ∀ cause, (s.mutations op).context ≠ .ended cause none

/-- As long as the context of the call lives, it cancels none of the mutations that
were outstanding before. If the OSDs answer all of those, each whose own context lasts
returns the result of its own reply, and the flush reports no unknown outcome of theirs. -/
def Spares (s s' : RadosClient) (call : Nat) : Prop :=
  (s.calls call).expired = none → ∀ t, interleavings.Path (fun _ => Unexpired call) s' t →
    (∀ op, s.Outstanding op → ∀ cause, (t.mutations op).context ≠ .ended cause (some call)) ∧
    ((∀ op, s.Outstanding op → (t.mutations op).reply ≠ none) →
      (∀ op result, s.Outstanding op → t.Lasting op → (t.mutations op).result = some result →
        ∃ reply, (t.mutations op).reply = some reply ∧ result = replyResult reply) ∧
      ∀ err, t.objects.flushes call = .returned err → errorIs err .outcomeUnknown = true →
        ∃ sequence, Mutations.CompletedUnknown t.objects.journal sequence ∧
          ∀ op, s.Outstanding op → t.Lasting op → s.sequence op ≠ some sequence)

theorem objects_reached (reach : interleavings.Reaches allowed s) :
    Mutations.interleavings.Reaches (fun _ _ => True) s.objects := by
  induction reach with
  | start first =>
    obtain ⟨operationTimeout, limits, rfl⟩ := first
    exact .start ⟨limits, rfl⟩
  | next _ step _ ih => exact ih.extend (step_changes step).objects

/-- The call has not canceled anything. -/
structure Blameless (call : Nat) (s : RadosClient) : Prop where
  lifetime : s.canceledBy ≠ some call
  contexts : ∀ op cause, (s.mutations op).context ≠ .ended cause (some call)

theorem Blameless.step (blameless : Blameless call s) (changes : Changes s s')
    (passive : ¬LifecyclePhase.cancels (s.calls call).phase) : Blameless call s' := by
  refine ⟨fun canceled => ?_, fun op cause ended => ?_⟩
  · rcases changes.lifetime with same | ⟨other, cancels, after⟩
    · exact blameless.lifetime (same ▸ canceled)
    · have different : other ≠ call := fun same => passive (same ▸ cancels)
      rw [after] at canceled
      cases before : s.canceledBy with
      | none =>
        rw [before, Option.none_or, Option.some.injEq] at canceled
        exact different canceled
      | some first =>
        rw [before, Option.some_or] at canceled
        exact blameless.lifetime (before.trans canceled)
  · rcases changes.contexts op with same | live | ⟨other, expired⟩ | ⟨canceler, canceled, after⟩
    · exact blameless.contexts op cause (same ▸ ended)
    · cases live.symm.trans ended
    · cases expired.symm.trans ended
    · cases after.symm.trans ended
      exact blameless.lifetime canceled

theorem blameless_of_idle (reach : interleavings.Reaches allowed s) (idle : (s.calls call).phase = .idle) :
    Blameless call s := by
  suffices (s.calls call).phase = .idle → Blameless call s from this idle
  clear idle
  refine reach.invariant (fun s => (s.calls call).phase = .idle → Blameless call s) ?_ ?_
  · rintro first ⟨operationTimeout, limits, rfl⟩ -
    exact ⟨nofun, fun _ _ => nofun⟩
  · rintro earlier action later before step - idle
    have changes := step_changes step
    have wasIdle : (earlier.calls call).phase = .idle := by
      rcases changes.phases call with same | moves
      · exact same ▸ idle
      · exact absurd idle moves.ne_idle
    exact (before wasIdle).step changes (by rw [wasIdle]; exact id)

/-- A call that joins another one stays blameless. -/
theorem blameless_of_joining (blameless : Blameless call s) (joining : (s.calls call).phase = .joining)
    (path : interleavings.Path (fun _ _ => True) s t) : Blameless call t := by
  suffices Blameless call t ∧ (t.calls call).phase.Passive from this.1
  induction path with
  | refl => exact ⟨blameless, .inl joining⟩
  | next _ step _ ih =>
    obtain ⟨stillBlameless, passive⟩ := ih
    have changes := step_changes step
    refine ⟨stillBlameless.step changes passive.not_cancels, ?_⟩
    rcases changes.phases call with same | moves
    · rw [same]
      exact passive
    · exact moves.passive passive

/-- `Shutdown` cancels the lifetime at once, and with it every outstanding mutation. -/
theorem not_spares (isOpen : s.closing = false ∧ s.closed = false) (step : s.step (.shutdown call) = some s')
    (alive : s.canceledBy = none) (outstanding : s.Outstanding op) (unexpired : (s.calls call).expired = none) :
    ¬Spares s s' call := by
  intro spares
  obtain ⟨-, ⟨⟩⟩ := Option.ite_none_right_eq_some.mp step
  have claimed : s.claim call .canceling = { s with closing := true }.setPhase call .canceling := by
    simp [RadosClient.claim, isOpen]
  rw [claimed] at spares
  have cancels : interleavings.step ({ s with closing := true }.setPhase call .canceling) (.cancelsLifetime call)
      (({ s with closing := true, canceledBy := some call }.setPhase call .canceling).setPhase call .beginning) := by
    simp [interleavings, RadosClient.step, setPhase, cancelLifetime, alive]
  have canceled : interleavings.step
      (({ s with closing := true, canceledBy := some call }.setPhase call .canceling).setPhase call .beginning)
      (.lifetimeCancels op)
      ((({ s with closing := true, canceledBy := some call }.setPhase call .canceling).setPhase call
        .beginning).setMutation op { s.mutations op with context := .ended .canceled (some call) }) := by
    simp [interleavings, RadosClient.step, setPhase, outstanding.began, outstanding.running, outstanding.live]
  have path : interleavings.Path (fun _ => Unexpired call) _ _ :=
    (System.Path.single cancels nofun).next canceled nofun
  exact (spares unexpired _ path).1 op outstanding .canceled (by simp [setMutation])

/-- The lifetime of an open client has not been canceled. -/
theorem lifetime_alive (reach : interleavings.Reaches allowed s) (isOpen : s.closing = false) :
    s.canceledBy = none := by
  suffices (∀ call, (s.calls call).phase.Active → s.closing = true) ∧ (s.closing = false → s.canceledBy = none) from
    this.2 isOpen
  clear isOpen
  refine reach.invariant (fun s => (∀ call, (s.calls call).phase.Active → s.closing = true) ∧
    (s.closing = false → s.canceledBy = none)) ?_ ?_
  · rintro first ⟨operationTimeout, limits, rfl⟩
    exact ⟨nofun, fun _ => rfl⟩
  · rintro earlier action later ⟨claimed, alive⟩ step -
    have changes := step_changes step
    refine ⟨fun call active => ?_, fun isOpen => ?_⟩
    · rcases changes.claimed call active with before | closing
      · exact changes.closing (claimed call before)
      · exact closing
    · have wasOpen : earlier.closing = false := by
        cases closing : earlier.closing with
        | false => rfl
        | true => exact (changes.closing closing).symm.trans isOpen
      rcases changes.lifetime with same | ⟨call, cancels, -⟩
      · rw [same]
        exact alive wasOpen
      · exact absurd (claimed call cancels.active) (by simp [wasOpen])

/-- A call of `Shutdown` on an open client spares the mutations with a deadline
exactly when there are none, or its context has ended before. A later call cancels
nothing. -/
theorem shutdown_spares_mutations (reach : interleavings.Reaches (fun _ _ => True) s)
    (step : s.step (.shutdown call) = some s') :
    (s.closing = false ∧ s.closed = false →
      (Spares s s' call ↔ (s.calls call).expired ≠ none ∨ ∀ op, ¬s.Outstanding op)) ∧
    (s.closing = true ∨ s.closed = true → ∀ t, interleavings.Path (fun _ _ => True) s' t →
      ∀ op cause, (t.mutations op).context ≠ .ended cause (some call)) := by
  refine ⟨fun isOpen => ⟨fun spares => ?_, ?_⟩, fun isLate t path => ?_⟩
  · rw [or_iff_not_imp_left, not_not]
    intro unexpired op outstanding
    exact not_spares isOpen step (lifetime_alive reach isOpen.1) outstanding unexpired spares
  · rintro (expired | nothing) unexpired t path
    · exact absurd unexpired expired
    have reached : Mutations.interleavings.Reaches (fun _ _ => True) t.objects := by
      have later := (reach.next step trivial).extend (path.mono fun _ _ _ => trivial)
      exact objects_reached later
    refine ⟨fun op outstanding => absurd outstanding (nothing op),
      fun _ => ⟨fun op _ outstanding => absurd outstanding (nothing op), fun err returned unknown => ?_⟩⟩
    obtain ⟨sequence, completed⟩ := (Mutations.ledgered_of_reaches reached).honest call err returned unknown
    exact ⟨sequence, completed, fun op outstanding => absurd outstanding (nothing op)⟩
  · obtain ⟨idle, ⟨⟩⟩ := Option.ite_none_right_eq_some.mp step
    have joined : s.claim call .canceling = s.setPhase call .joining := by
      rcases isLate with closing | closed
      · simp [RadosClient.claim, closing]
      · simp [RadosClient.claim, closed]
    rw [joined] at path
    have blameless := blameless_of_idle reach idle
    have stays : Blameless call (s.setPhase call .joining) := ⟨blameless.lifetime, blameless.contexts⟩
    exact (blameless_of_joining stays (by simp [setPhase]) path).contexts

def next (s : RadosClient) (action : ClientAction) : RadosClient := (s.step action).getD s

instance (s : RadosClient) (action : ClientAction) : Decidable (interleavings.step s action (s.next action)) :=
  decidable_of_iff ((s.step action).isSome = true) (by
    cases result : s.step action <;> simp [interleavings, next, result])

instance (call : Nat) (action : ClientAction) : Decidable (Unexpired call action) :=
  match action with
  | .callExpires other cause =>
    decidable_of_iff (other ≠ call) ⟨fun different _ same => different (ClientAction.callExpires.inj same).1,
      fun unexpired same => unexpired cause (by rw [same])⟩
  | .begins .. | .objects _ | .refused _ | .replies .. | .finishes _ | .fails .. | .expires .. | .lifetimeCancels _
  | .shutdown _ | .close _ | .cancelsLifetime _ | .beginsShutdown _ | .flushed _ | .finishesClose _ | .waited _
  | .joined _ | .joinExpires _ => .isTrue nofun

def connected : RadosClient where
  operationTimeout := 30
  objects := { limits := ⟨4, 65537, by decide⟩ }

def afterActions (actions : List ClientAction) : RadosClient := actions.foldl next connected

theorem afterActions_reached {actions : List ClientAction}
    (follows : interleavings.Follows (fun _ _ => True) next connected actions) :
    interleavings.Reaches (fun _ _ => True) (afterActions actions) := by
  have starts : interleavings.start connected := ⟨_, _, rfl⟩
  exact (System.Reaches.start starts).follow follows

/-- One write is admitted, with the default deadline. -/
def writing : List ClientAction := [.begins 0 false [3], .objects (.enters 0)]

/-- `Shutdown` without mutations, and a second call while a write is being drained. -/
theorem shutdown_spares_mutations_idle :
    Spares connected (connected.next (.shutdown 1)) 1 ∧
    ∀ t, interleavings.Path (fun _ _ => True) ((afterActions (writing ++ [.shutdown 1])).next (.shutdown 2)) t →
      ∀ op cause, (t.mutations op).context ≠ .ended cause (some 2) := by
  have nothing : ∀ op, ¬connected.Outstanding op := fun op outstanding => by cases outstanding.began
  have late : interleavings.Reaches (fun _ _ => True) (afterActions (writing ++ [.shutdown 1])) :=
    afterActions_reached (by decide)
  exact ⟨((shutdown_spares_mutations (.start ⟨_, _, rfl⟩) rfl).1 ⟨rfl, rfl⟩).mpr (.inr nothing),
    (shutdown_spares_mutations late rfl).2 (.inl rfl)⟩

/-- The OSD answers the write and the context of `Shutdown` is alive. But the context
of the write has been canceled with the client's lifetime, so the write and the flush
report an unknown outcome. -/
def draining : List ClientAction :=
  [.cancelsLifetime 1, .lifetimeCancels 0, .replies 0 ⟨[], ⟨0, 0, 0⟩, 0, 0, -1, 0, none, []⟩,
    .fails 0 Sentinel.outcomeUnknown, .beginsShutdown 1, .objects (.flushStarts 1), .objects (.flushChecks 1),
      .flushed 1]

/-- A shutdown whose context lives still costs the write its outcome. -/
theorem shutdown_cancels_mutation : ∃ s s' t, interleavings.Reaches (fun _ _ => True) s ∧
    s.step (.shutdown 1) = some s' ∧ s.Outstanding 0 ∧ interleavings.Path (fun _ => Unexpired 1) s' t ∧
    (t.mutations 0).reply ≠ none ∧ (t.mutations 0).result = some (.error Sentinel.outcomeUnknown) ∧
    t.objects.flushes 1 = .returned (some Sentinel.outcomeUnknown) ∧ ¬Spares s s' 1 := by
  have path : interleavings.Path (fun _ => Unexpired 1) ((afterActions writing).next (.shutdown 1))
      (draining.foldl next ((afterActions writing).next (.shutdown 1))) := .follow (by decide)
  refine ⟨afterActions writing, (afterActions writing).next (.shutdown 1), _, afterActions_reached (by decide), rfl,
    ⟨rfl, rfl, rfl, rfl, rfl⟩, path, by decide, by decide, by decide, fun spares => ?_⟩
  exact (spares rfl _ path).1 0 ⟨rfl, rfl, rfl, rfl, rfl⟩ .canceled (by decide)

end RadosClient

end RadosGo
