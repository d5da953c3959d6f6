import RadosGo.Client.WatchForward

namespace RadosGo

namespace Watch

/-- An error has been sent to the consumer of the public watch. -/
def Reported (watch : Watch) : Prop := watch.errors ≠ none ∨ watch.received ≠ []

/-- The forwarder has decided to end, with nothing left to forward. -/
def Ending (watch : Watch) : Prop :=
  watch.forward = .returning ∨ watch.forward = .closedErrors ∨ watch.forward = .finished

/-- The forwarder does not leave with an event in its hands while the error of a
stopped watch waits and no error has been reported. -/
def LeavesNoError (watch : Watch) (action : WatchAction) : Prop :=
  action = .checks ∨ action = .abandons → watch.inner.isDone = true → watch.inner.stoppedWith ≠ none →
    watch.inner.errors ≠ none → watch.Reported

/-- Where the error of a stopped watch can be. -/
structure Accounted (watch : Watch) : Prop where
  kept : ∀ err, watch.inner.stopOnce = .leaving (some err) ∨ watch.inner.stopOnce = .finished (some err) →
    watch.inner.errors ≠ none ∨ (∃ cause last, watch.forward = .forwarding cause last) ∨ watch.Reported
  late : watch.forward = .draining ∨ (∃ cause, watch.forward = .forwarding cause true) ∨ watch.Ending →
    watch.inner.isDone = true
  ended : watch.Ending → watch.inner.stoppedWith ≠ none → watch.Reported
  seen : watch.sawClosed = true → watch.errors = none ∧ watch.Ending

theorem accounted_start {watch : Watch} (start : interleavings.start watch) : watch.Accounted := by
  obtain ⟨cookie, queue, wrapError, _, _, rfl⟩ := start
  constructor <;> simp [Ending]

theorem isDone_iff {watch : ObjecterWatch} : watch.isDone = true ↔ ∃ err, watch.stopOnce = .finished err := by
  unfold ObjecterWatch.isDone
  split <;> simp_all

/-- A watch that is done stays as it is. -/
theorem isDone_moves {s t : ObjecterWatch} (done : s.isDone = true) (moves : ObjecterWatch.StopMoves s t) :
    t.stopOnce = s.stopOnce := by
  obtain ⟨err, finished⟩ := isDone_iff.mp done
  cases moves with
  | stays same => exact same
  | enters _ was _ | enters_close was _ | reports _ was _ _ | removes was _ | closes _ was _ =>
    rw [finished] at was
    cases was

theorem isDone_congr {s t : ObjecterWatch} (same : t.stopOnce = s.stopOnce) : t.isDone = s.isDone := by
  simp only [ObjecterWatch.isDone, same]

theorem stoppedWith_congr {s t : ObjecterWatch} (same : t.stopOnce = s.stopOnce) :
    t.stoppedWith = s.stoppedWith := by
  simp only [ObjecterWatch.stoppedWith, same]

variable {s t : Watch} {action : WatchAction}

theorem Accounted.inner {inner : ObjecterWatch} (accounted : s.Accounted)
    (keeps : s.inner.errors ≠ none → inner.errors ≠ none) (moves : ObjecterWatch.StopMoves s.inner inner) :
    Accounted { s with inner } where
  kept err stopped := by
    have before (held : s.inner.stopOnce = .leaving (some err) ∨ s.inner.stopOnce = .finished (some err)) :=
      (accounted.kept err held).imp_left keeps
    cases moves with
    | stays same => exact before (same ▸ stopped)
    | enters _ _ now | enters_close _ now => simp [now] at stopped
    | reports cause _ now reported =>
      simp only [now, StopOnce.leaving.injEq, reduceCtorEq, or_false] at stopped
      exact .inl (reported (by simp [stopped]))
    | removes _ now => simp [now] at stopped
    | closes cause was now =>
      simp only [now, reduceCtorEq, StopOnce.finished.injEq, false_or] at stopped
      exact before (.inl (stopped ▸ was))
  late phase := by
    have done := accounted.late phase
    rw [← done]
    exact isDone_congr (isDone_moves done moves)
  ended ending stopped := by
    have same := isDone_moves (accounted.late (.inr (.inr ending))) moves
    exact accounted.ended ending (stoppedWith_congr same ▸ stopped)
  seen := accounted.seen

theorem reported_forwardError (s : Watch) (err : GoError) : (s.forwardError err).Reported :=
  .inl (by cases waits : s.errors <;> simp [forwardError, waits])

/-- An error that was sent waits for the consumer or has been received. -/
theorem Reported.effect (reported : s.Reported) (effect : Effect s action t) : t.Reported := by
  cases effect with
  | forwards => exact reported_forwardError s _
  | reads => exact .inr (by simp)
  | _ => exact reported

/-- While the forwarder makes a move that keeps the inner watch and the slot of the
errors as they are, only its new place matters. -/
theorem Accounted.move (accounted : s.Accounted) (phase : ForwardPhase)
    (kept : ∀ cause last, s.forward = .forwarding cause last → s.Reported ∨ phase = .forwarding cause last)
    (late : phase = .draining ∨ (∃ cause, phase = .forwarding cause true) ∨ { s with forward := phase }.Ending →
      s.inner.isDone = true)
    (ended : { s with forward := phase }.Ending → s.inner.stoppedWith ≠ none → s.Reported)
    (seen : s.Ending → { s with forward := phase }.Ending) : Accounted { s with forward := phase } where
  kept err stopped := by
    rcases accounted.kept err stopped with waits | ⟨cause, last, forwarding⟩ | reported
    · exact .inl waits
    · rcases kept cause last forwarding with reported | same
      · exact .inr (.inr reported)
      · exact .inr (.inl ⟨cause, last, same⟩)
    · exact .inr (.inr reported)
  late := late
  ended := ended
  seen saw := (accounted.seen saw).imp_right seen

/-- The error of a stopped watch which the forwarder has not taken yet waits in its
slot, unless one was reported before. -/
theorem Accounted.waits (accounted : s.Accounted) (done : s.inner.isDone = true)
    (stopped : s.inner.stoppedWith ≠ none)
    (free : ∀ cause last, s.forward ≠ .forwarding cause last) (silent : ¬s.Reported) : s.inner.errors ≠ none := by
  obtain ⟨err, finished⟩ := isDone_iff.mp done
  obtain ⟨cause, rfl⟩ : ∃ cause, err = some cause := by
    simpa [ObjecterWatch.stoppedWith, finished, Option.ne_none_iff_exists'] using stopped
  rcases accounted.kept cause (.inr finished) with waits | ⟨cause, last, forwarding⟩ | reported
  · exact waits
  · exact absurd forwarding (free cause last)
  · exact absurd reported silent

/-- The forwarder takes the error out of its slot, to forward it. -/
theorem Accounted.take (accounted : s.Accounted) (cause : GoError) (last : Bool)
    (late : last = true → s.inner.isDone = true) (open_ : ¬s.Ending) :
    Accounted { s with inner := { s.inner with errors := none }, forward := .forwarding cause last } where
  kept err _ := .inr (.inl ⟨cause, last, rfl⟩)
  late phase := late (by simpa [Ending] using phase)
  ended ending _ := by simp [Ending] at ending
  seen saw := absurd (accounted.seen saw).2 open_

theorem Accounted.effect (accounted : s.Accounted) (allow : s.LeavesNoError action) (effect : Effect s action t) :
    t.Accounted := by
  cases effect with
  | inner moved =>
    obtain ⟨keeps, moves⟩ := ObjecterWatch.step_effect moved
    exact accounted.inner keeps moves
  | starts absent =>
    exact accounted.move _ (by simp [absent]) (by simp [Ending]) (by simp [Ending]) (by simp [Ending, absent])
  | @takesEvent event rest selecting _ =>
    have shorter : Accounted { s with inner := { s.inner with events := rest } } := accounted.inner id (.stays rfl)
    exact shorter.move (.received event) (by simp [selecting]) (by simp [Ending]) (by simp [Ending])
      (by simp [Ending, selecting])
  | takesError selecting _ => exact accounted.take _ _ (by simp) (by simp [Ending, selecting])
  | seesDone selecting done =>
    exact accounted.move _ (by simp [selecting]) (fun _ => done) (by simp [Ending]) (by simp [Ending, selecting])
  | leaves received done =>
    refine accounted.move _ (by simp [received]) (fun _ => done) (fun _ stopped => ?_) (by simp [Ending, received])
    by_contra silent
    exact silent (allow (.inl rfl) done stopped (accounted.waits done stopped (by simp [received]) silent))
  | goesOn received _ =>
    exact accounted.move _ (by simp [received]) (by simp [Ending]) (by simp [Ending]) (by simp [Ending, received])
  | delivers sending =>
    obtain ⟨kept, late, ended, seen⟩ := accounted.move .selecting (by simp [sending]) (by simp [Ending])
      (by simp [Ending]) (by simp [Ending, sending])
    exact ⟨kept, late, ended, seen⟩
  | abandons sending done =>
    refine accounted.move _ (by simp [sending]) (fun _ => done) (fun _ stopped => ?_) (by simp [Ending, sending])
    by_contra silent
    exact silent (allow (.inr rfl) done stopped (accounted.waits done stopped (by simp [sending]) silent))
  | @forwards err last forwarding =>
    have reported := reported_forwardError s err
    refine ⟨fun _ _ => .inr (.inr reported), fun phase => ?_, fun _ _ => reported, fun saw => ?_⟩
    · cases last with
      | false => simp [Ending] at phase
      | true => exact accounted.late (.inr (.inl ⟨err, forwarding⟩))
    · have ending := (accounted.seen saw).2
      simp [Ending, forwarding] at ending
  | drains draining _ =>
    exact accounted.take _ _ (fun _ => accounted.late (.inl draining)) (by simp [Ending, draining])
  | drained draining empty =>
    have done := accounted.late (.inl draining)
    refine accounted.move _ (by simp [draining]) (fun _ => done) (fun _ stopped => ?_) (by simp [Ending, draining])
    by_contra silent
    exact accounted.waits done stopped (by simp [draining]) silent empty
  | closesErrors returning =>
    have ending : s.Ending := .inl returning
    exact accounted.move _ (by simp [returning]) (fun _ => accounted.late (.inr (.inr ending)))
      (fun _ => accounted.ended ending) (fun _ => by simp [Ending])
  | closesEvents closed =>
    have ending : s.Ending := .inr (.inl closed)
    exact accounted.move _ (by simp [closed]) (fun _ => accounted.late (.inr (.inr ending)))
      (fun _ => accounted.ended ending) (fun _ => by simp [Ending])
  | reads => exact ⟨fun _ _ => .inr (.inr (.inr (by simp))), accounted.late, fun _ _ => .inr (by simp),
      fun saw => ⟨rfl, (accounted.seen saw).2⟩⟩
  | readsClosed empty closed => exact ⟨accounted.kept, accounted.late, accounted.ended, fun _ => ⟨empty, .inr closed⟩⟩

theorem accounted_reaches (reach : interleavings.Reaches LeavesNoError s) : s.Accounted :=
  reach.invariant Accounted (fun _ start => accounted_start start)
    fun _ _ _ accounted step allow => accounted.effect allow (step_effect step)

theorem stoppedWith_moves {s t : ObjecterWatch} {err : GoError} (stopped : s.stoppedWith = some err)
    (moves : ObjecterWatch.StopMoves s t) : t.stoppedWith = some err := by
  cases moves with
  | stays same => exact stoppedWith_congr same ▸ stopped
  | enters _ was _ | enters_close was _ | removes was _ => simp [ObjecterWatch.stoppedWith, was] at stopped
  | reports _ was now _ | closes _ was now => simpa [ObjecterWatch.stoppedWith, was, now] using stopped

theorem Effect.moves (effect : Effect s action t) : ObjecterWatch.StopMoves s.inner t.inner := by
  cases effect with
  | inner moved => exact (ObjecterWatch.step_effect moved).2
  | _ => exact .stays rfl

/-- The watch was stopped with the error, and its forwarder has been started. -/
def StoppedWith (err : GoError) (watch : Watch) : Prop :=
  watch.inner.stoppedWith = some err ∧ watch.forward ≠ .absent

theorem StoppedWith.effect {err : GoError} (stopped : s.StoppedWith err) (effect : Effect s action t) :
    t.StoppedWith err := by
  refine ⟨stoppedWith_moves stopped.1 effect.moves, ?_⟩
  cases effect with
  | inner => exact stopped.2
  | @forwards _ last _ => cases last <;> simp
  | reads | readsClosed => exact stopped.2
  | _ => simp

variable {run : interleavings.Run LeavesNoError} {err : GoError} {i : Nat}

theorem Run.stopped_later {j : Nat} (stopped : (run.state i).StoppedWith err) (later : i ≤ j) :
    (run.state j).StoppedWith err :=
  run.persists (StoppedWith err) stopped later fun _ _ _ stopped step _ => stopped.effect (step_effect step)

/-- The steps which the function under `stopOnce` still has to make. -/
def stepsToDone (watch : Watch) : Nat :=
  match watch.inner.stopOnce with
  | .stopping _ => 2
  | .leaving _ => 1
  | _ => 0

theorem stepsToDone_moves (stopped : s.inner.stoppedWith ≠ none) (moves : ObjecterWatch.StopMoves s.inner t.inner) :
    t.inner.stopOnce = s.inner.stopOnce ∨ t.stepsToDone < s.stepsToDone := by
  cases moves with
  | stays same => exact .inl same
  | enters _ was _ | enters_close was _ | removes was _ => simp [ObjecterWatch.stoppedWith, was] at stopped
  | reports _ was now _ | closes _ was now => exact .inr (by simp [stepsToDone, was, now])

theorem stepped_moves {s t : ObjecterWatch} (step : s.step .reports = some t ∨ s.step .closesDone = some t) :
    t.stopOnce ≠ s.stopOnce := by
  rcases step with step | step
  · simp only [ObjecterWatch.step] at step
    split at step <;> obtain ⟨⟩ := step <;> simp [*]
  · simp only [ObjecterWatch.step] at step
    split at step <;> obtain ⟨⟩ := step
    simp [*]

theorem able {mine : WatchAction → Prop} (action : WatchAction) (own : mine action)
    (possible : (s.step action).isSome = true) : ∃ action t, mine action ∧ interleavings.step s action t :=
  ⟨action, _, own, (Option.some_get possible).symm⟩

/-- The function under `stopOnce` comes to its end. -/
theorem Run.done_later (fair : run.WeakFair Stopper) (stopped : (run.state i).StoppedWith err) :
    ∃ j, i ≤ j ∧ (run.state j).inner.isDone = true := by
  refine fair.leads (StoppedWith err) (fun s => s.inner.isDone = true) stepsToDone (fun s stopped running => ?_)
    (fun s action t stopped running step _ => ?_) stopped
  · obtain ⟨stopped, -⟩ := stopped
    cases place : s.inner.stopOnce with
    | fresh | closing => simp [ObjecterWatch.stoppedWith, place] at stopped
    | stopping => exact able (.inner .reports) (.inl rfl) (by simp [Watch.step, ObjecterWatch.step, place])
    | leaving => exact able (.inner .closesDone) (.inr rfl) (by simp [Watch.step, ObjecterWatch.step, place])
    | finished => simp [ObjecterWatch.isDone, place] at running
  · have effect := step_effect step
    refine .inr ⟨stopped.effect effect, ?_⟩
    rcases stepsToDone_moves (by simp [stopped.1]) effect.moves with same | less
    · refine ⟨by simp [stepsToDone, same], fun own => ?_⟩
      rcases own with rfl | rfl
      · cases effect with
        | inner moved => exact absurd same (stepped_moves (.inl moved))
      · cases effect with
        | inner moved => exact absurd same (stepped_moves (.inr moved))
    · exact ⟨less.le, fun _ => less⟩

/-- The distance of the forwarder from reporting an error, once the watch is done. -/
def distance (watch : Watch) : Nat :=
  match watch.forward with
  | .sending _ => 4
  | .selecting => 3
  | .received _ | .draining => 2
  | .forwarding _ _ => 1
  | _ => 0


/-- A stopped watch that is done, with a forwarder. -/
structure Finishing (err : GoError) (watch : Watch) : Prop where
  accounted : watch.Accounted
  stopped : watch.StoppedWith err
  done : watch.inner.isDone = true

theorem Finishing.effect (finishing : s.Finishing err) (allow : s.LeavesNoError action) (effect : Effect s action t) :
    t.Finishing err where
  accounted := finishing.accounted.effect allow effect
  stopped := finishing.stopped.effect effect
  done := isDone_congr (isDone_moves finishing.done effect.moves) ▸ finishing.done

theorem Finishing.able (finishing : s.Finishing err) (silent : ¬s.Reported) :
    ∃ action t, Forwarder action ∧ interleavings.step s action t := by
  have done := finishing.done
  have running : ¬s.Ending := fun ending => silent (finishing.accounted.ended ending (by simp [finishing.stopped.1]))
  cases place : s.forward with
  | absent => exact absurd place finishing.stopped.2
  | selecting => exact Watch.able .seesDone (by simp [Forwarder]) (by simp [Watch.step, place, done])
  | received event => exact Watch.able .checks (by simp [Forwarder]) (by simp [Watch.step, place])
  | sending event => exact Watch.able .abandons (by simp [Forwarder]) (by simp [Watch.step, place, done])
  | forwarding cause last => exact Watch.able .forwards (by simp [Forwarder]) (by simp [Watch.step, place])
  | draining =>
    exact Watch.able .drains (by simp [Forwarder])
      (by cases waits : s.inner.errors <;> simp [Watch.step, place, waits])
  | returning | closedErrors | finished => simp [Ending, place] at running

/-- Every step of the forwarder takes it closer to a report, since it may not leave
without one. -/
theorem Finishing.closer (finishing : s.Finishing err) (allow : s.LeavesNoError action) (effect : Effect s action t) :
    t.Reported ∨ (t.distance ≤ s.distance ∧ (Forwarder action → t.distance < s.distance)) := by
  have done := finishing.done
  have after := finishing.effect allow effect
  have running : ¬t.Reported → ¬t.Ending := fun silent ending =>
    silent (after.accounted.ended ending (by simp [after.stopped.1]))
  cases effect with
  | inner | reads | readsClosed => exact .inr ⟨le_rfl, by simp [Forwarder]⟩
  | starts absent => exact absurd absent finishing.stopped.2
  | takesEvent place | takesError place | seesDone place _ | drains place _ =>
    exact .inr (by simp [distance, place])
  | leaves | abandons | drained | closesErrors | closesEvents =>
    exact .inl (by_contra fun silent => running silent (by simp [Ending]))
  | goesOn _ goes => simp [done] at goes
  | delivers place => exact .inr (by simp [distance, place])
  | forwards => exact .inl (reported_forwardError s _)

theorem Run.reported_later (fair : run.WeakFair Forwarder) (stopped : (run.state i).StoppedWith err)
    (done : (run.state i).inner.isDone = true) : ∃ j, i ≤ j ∧ (run.state j).Reported := by
  refine fair.leads (Finishing err) Reported distance (fun s finishing silent => finishing.able silent)
    (fun s action t finishing _ step allow => ?_) ⟨accounted_reaches (run.reaches i), stopped, done⟩
  have effect := step_effect step
  exact (finishing.closer allow effect).imp_right fun close => ⟨finishing.effect allow effect, close⟩

theorem Run.received_later (fair : run.WeakFair Reader) (reported : (run.state i).Reported) :
    ∃ j, i ≤ j ∧ (run.state j).received ≠ [] := by
  refine fair.leads Reported (fun s => s.received ≠ []) (fun _ => 0) (fun s reported silent => ?_)
    (fun s action t reported silent step _ => ?_) reported
  · obtain ⟨err, waits⟩ := Option.ne_none_iff_exists'.mp (reported.resolve_right silent)
    exact able .reads (.inl rfl) (by simp [Watch.step, waits])
  · have effect := step_effect step
    by_cases own : Reader action
    · rcases own with rfl | rfl
      · cases effect
        exact .inl (by simp)
      · cases effect with
        | readsClosed empty _ => exact absurd empty (reported.resolve_right silent)
    · exact .inr ⟨reported.effect effect, le_rfl, fun own' => absurd own' own⟩

/-- If the inner watch is stopped with an error, a consumer that reads the public
errors until they are closed receives one, in every run in which the forwarder
never leaves with an event while that error still waits. -/
theorem watch_error_received (run : interleavings.Run LeavesNoError) (i : Nat) (err : GoError)
    (stopped : (run.state i).inner.stoppedWith = some err) (started : (run.state i).forward ≠ .absent) :
    (∀ j, i ≤ j → (run.state j).sawClosed = true → (run.state j).received ≠ []) ∧
      (run.WeakFair Stopper → run.WeakFair Forwarder → run.WeakFair Reader →
        ∃ j, i ≤ j ∧ (run.state j).received ≠ []) := by
  have begun : (run.state i).StoppedWith err := ⟨stopped, started⟩
  constructor
  · intro j later saw
    have accounted := accounted_reaches (run.reaches j)
    obtain ⟨empty, ending⟩ := accounted.seen saw
    have reported := accounted.ended ending (by simp [(Run.stopped_later begun later).1])
    exact reported.resolve_left (· empty)
  · intro stopper forwarder reader
    obtain ⟨first, later, done⟩ := Run.done_later stopper begun
    obtain ⟨second, later', reported⟩ := Run.reported_later forwarder (Run.stopped_later begun later) done
    obtain ⟨third, later'', received⟩ := Run.received_later reader reported
    exact ⟨third, by omega, received⟩

def next (s : Watch) (action : WatchAction) : Watch := (s.step action).getD s

instance (s : Watch) (action : WatchAction) : Decidable (interleavings.step s action (s.next action)) :=
  decidable_of_iff ((s.step action).isSome = true) (by
    cases result : s.step action <;> simp [interleavings, next, result])

instance (s : Watch) : Decidable s.Reported := inferInstanceAs (Decidable (_ ∨ _))

instance (s : Watch) (action : WatchAction) : Decidable (s.LeavesNoError action) :=
  inferInstanceAs (Decidable (_ → _))

/-- A watch with a queue for one event. -/
def narrow : Watch where
  inner := { cookie := 7, queue := 1 }
  wrapError := fun err => err

theorem narrow_start : interleavings.start narrow := ⟨7, 1, _, by decide, by decide, rfl⟩

/-- Two notifications arrive before the forwarder takes the first. -/
def overflow : List WatchAction :=
  let notification : WatchNotification := { cookie := 7, opcode := watchEventNotify }
  .starts :: [.notified 0 notification, .examines 0, .admits 0, .notified 0 notification, .examines 0, .saturates 0,
    .removes 0, .stops 0, .reports, .closesDone].map .inner

/-- The select takes the error before the event, and the consumer receives it. -/
def errorFirst : List WatchAction :=
  overflow ++ [.takesError, .forwards, .reads, .seesDone, .drains, .closesErrors, .closesEvents, .readsClosed]

theorem errorFirst_follows : interleavings.Follows LeavesNoError next narrow errorFirst := by decide +kernel

theorem watch_error_received_overflow :
    ∃ j, 11 ≤ j ∧ ((errorFirst_follows.run narrow_start).state j).received ≠ [] := by
  refine (watch_error_received (errorFirst_follows.run narrow_start) 11 _ rfl (by decide)).2 ?_ ?_ ?_
  · exact errorFirst_follows.run_weakFair narrow_start (by rintro _ t (rfl | rfl) step <;> cases step)
  · refine errorFirst_follows.run_weakFair narrow_start fun action t own step => ?_
    simp only [Forwarder, List.mem_cons, List.not_mem_nil, or_false] at own
    rcases own with rfl | rfl | rfl | rfl | rfl | rfl | rfl | rfl | rfl <;> cases step
  · exact errorFirst_follows.run_weakFair narrow_start (by rintro _ t (rfl | rfl) step <;> cases step)

def eventFirst : List WatchAction :=
  overflow ++ [.takesEvent, .checks, .closesErrors, .closesEvents, .readsClosed]

/-- The select takes the event, and then `Done` makes the forwarder leave: the
consumer finds the errors closed and has received none. -/
theorem watch_error_lost : ∃ s err, interleavings.Reaches (fun _ _ => True) s ∧
    s.inner.stoppedWith = some err ∧ s.sawClosed = true ∧ s.received = [] := by
  have reach : interleavings.Reaches (fun _ _ => True) (eventFirst.foldl next narrow) :=
    (System.Reaches.start narrow_start).follow (by decide +kernel)
  exact ⟨_, _, reach, rfl, rfl, rfl⟩

end Watch

end RadosGo
