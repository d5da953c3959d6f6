import RadosGo.Objecter.BackoffWaiters
import RadosGo.Objecter.OsdTablesIndex

namespace RadosGo.WaitSession

open Function List

variable {w w' : WaitSession} {call record channel : Nat} {pg : PG}

section Fields

variable (w : WaitSession) (call other : Nat) (phase : WaiterPhase)

theorem setPhase_phase : ((w.setPhase call phase).waiters other).phase =
    if other = call then phase else (w.waiters other).phase := by
  by_cases same : other = call <;> simp [setPhase, setWaiter, same]

@[simp] theorem setPhase_pg : ((w.setPhase call phase).waiters other).pg = (w.waiters other).pg := by
  by_cases same : other = call <;> simp [setPhase, setWaiter, same]

@[simp] theorem setPhase_object : ((w.setPhase call phase).waiters other).object = (w.waiters other).object := by
  by_cases same : other = call <;> simp [setPhase, setWaiter, same]

end Fields

/-- Every placement group with waiters has a record of its own, with a channel of its own that is open. -/
structure Apart (w : WaitSession) : Prop where
  record_lt : ∀ pg record, w.backoffWaiters.lookup pg = some record → record < w.newRecord
  records : ∀ pg pg' record, w.backoffWaiters.lookup pg = some record →
    w.backoffWaiters.lookup pg' = some record → pg = pg'
  opened : ∀ pg record, w.backoffWaiters.lookup pg = some record →
    (w.records record).changed < w.newChannel ∧ (w.records record).changed ∉ w.closed
  channels : ∀ pg pg' record record', w.backoffWaiters.lookup pg = some record →
    w.backoffWaiters.lookup pg' = some record' → (w.records record).changed = (w.records record').changed →
      record = record'
  closed_lt : ∀ channel ∈ w.closed, channel < w.newChannel

/-- The records count the calls that have to give them back. -/
structure Held (w : WaitSession) : Prop where
  listed : ∀ call record, (w.waiters call).phase.record = some record →
    w.backoffWaiters.lookup (w.waiters call).pg = some record
  counted : ∃ holders : Nat → Finset Nat, (∀ record, (w.records record).count = (holders record).card) ∧
    ∀ call record, call ∈ holders record ↔ (w.waiters call).phase.record = some record

/-- A call waits on the current channel of its record as long as nothing has happened. -/
def Waits (w : WaitSession) : Prop :=
  ∀ call record channel, (w.waiters call).phase = .blocked record channel → channel ∉ w.closed →
    channel = (w.records record).changed ∧ w.session.err = none ∧
      w.session.blocked (w.waiters call).pg (w.waiters call).object = true

structure Kept (w : WaitSession) : Prop where
  ids : (w.session.backoffs.map Backoff.id).Nodup
  apart : Apart w
  held : Held w
  waits : Waits w

section Wake

/-- Waking changes only the channels, and closes more of them. -/
structure Rings (w w' : WaitSession) : Prop where
  session : w'.session = w.session
  backoffWaiters : w'.backoffWaiters = w.backoffWaiters
  waiters : w'.waiters = w.waiters
  closed : w.closed ⊆ w'.closed

theorem Rings.refl (w : WaitSession) : Rings w w := ⟨rfl, rfl, rfl, subset_rfl⟩

theorem Rings.trans {w'' : WaitSession} (first : Rings w w') (second : Rings w' w'') : Rings w w'' :=
  ⟨second.session.trans first.session, second.backoffWaiters.trans first.backoffWaiters,
    second.waiters.trans first.waiters, first.closed.trans second.closed⟩

theorem rings_wakeBackoffPG (w : WaitSession) (pg : PG) : Rings w (w.wakeBackoffPG pg) := by
  unfold wakeBackoffPG
  split
  · exact .refl w
  · exact ⟨rfl, rfl, rfl, Finset.subset_insert _ _⟩

theorem rings_wakeAllBackoffs (w : WaitSession) (order : List PG) : Rings w (w.wakeAllBackoffs order) := by
  unfold wakeAllBackoffs
  induction order generalizing w with
  | nil => exact .refl w
  | cons pg order ih => exact (rings_wakeBackoffPG w pg).trans (ih _)

theorem wakeBackoffPG_onSession (w : WaitSession) (session : OsdSession) (pg : PG) :
    (w.onSession session).wakeBackoffPG pg = (w.wakeBackoffPG pg).onSession session := by
  unfold wakeBackoffPG onSession
  dsimp only
  split <;> rfl

theorem wakeAllBackoffs_onSession (w : WaitSession) (session : OsdSession) (order : List PG) :
    (w.onSession session).wakeAllBackoffs order = (w.wakeAllBackoffs order).onSession session := by
  unfold wakeAllBackoffs
  induction order generalizing w with
  | nil => rfl
  | cons pg order ih => rw [foldl_cons, foldl_cons, wakeBackoffPG_onSession, ih]

/-- The new channel of a record is none of the old ones. -/
theorem Apart.wake (apart : Apart w) (pg : PG) : Apart (w.wakeBackoffPG pg) := by
  unfold wakeBackoffPG
  split
  · exact apart
  · rename_i record isRecord
    have current := (apart.opened pg record isRecord).1
    refine ⟨apart.record_lt, apart.records, ?_, ?_, ?_⟩
    · intro pg' record' listed
      by_cases same : record' = record
      · simp only [same, update_self, Finset.mem_insert, not_or]
        exact ⟨Nat.lt_succ_self _, current.ne', fun isClosed => absurd (apart.closed_lt _ isClosed) (Nat.lt_irrefl _)⟩
      · simp only [update_of_ne same, Finset.mem_insert, not_or]
        obtain ⟨old, isOpen⟩ := apart.opened pg' record' listed
        exact ⟨old.trans (Nat.lt_succ_self _), fun shared =>
          same (apart.channels pg' pg record' record listed isRecord shared), isOpen⟩
    · intro first second firstRecord secondRecord inFirst inSecond shared
      have old := (apart.opened first firstRecord inFirst).1
      have old' := (apart.opened second secondRecord inSecond).1
      by_cases isFirst : firstRecord = record <;> by_cases isSecond : secondRecord = record <;>
        simp only [isFirst, isSecond, update_self, ne_eq, not_false_eq_true, update_of_ne] at shared
      · exact isFirst.trans isSecond.symm
      · omega
      · omega
      · exact apart.channels first second firstRecord secondRecord inFirst inSecond shared
    · intro channel isClosed
      rcases Finset.mem_insert.mp isClosed with rfl | isClosed
      · exact current.trans (Nat.lt_succ_self _)
      · exact (apart.closed_lt channel isClosed).trans (Nat.lt_succ_self _)

theorem Held.wake (held : Held w) (pg : PG) : Held (w.wakeBackoffPG pg) := by
  unfold wakeBackoffPG
  split
  · exact held
  · rename_i record isRecord
    obtain ⟨holders, counts, holds⟩ := held.counted
    refine ⟨held.listed, holders, fun other => ?_, holds⟩
    by_cases same : other = record
    · simp only [same, update_self, counts]
    · simp only [update_of_ne same, counts]

theorem Waits.wake (waits : Waits w) (pg : PG) : Waits (w.wakeBackoffPG pg) := by
  unfold wakeBackoffPG
  split
  · exact waits
  · rename_i record isRecord
    intro call record' channel blocked isOpen
    simp only [Finset.mem_insert, not_or] at isOpen
    obtain ⟨current, alive, stays⟩ := waits call record' channel blocked isOpen.2
    have different : record' ≠ record := by
      rintro rfl
      exact isOpen.1 current
    simp only [update_of_ne different]
    exact ⟨current, alive, stays⟩

namespace Kept

variable (kept : Kept w)
include kept

theorem wakeBackoffPG (pg : PG) : Kept (w.wakeBackoffPG pg) :=
  ⟨(rings_wakeBackoffPG w pg).session ▸ kept.ids, kept.apart.wake pg, kept.held.wake pg, kept.waits.wake pg⟩

theorem wakeAllBackoffs (order : List PG) : Kept (w.wakeAllBackoffs order) := by
  unfold WaitSession.wakeAllBackoffs
  induction order generalizing w with
  | nil => exact kept
  | cons pg order ih => exact ih (kept.wakeBackoffPG pg)

theorem listed (blocked : (w.waiters call).phase = .blocked record channel) :
    w.backoffWaiters.lookup (w.waiters call).pg = some record :=
  kept.held.listed call record (by rw [blocked, WaiterPhase.record])

/-- A wake-up closes the channels of all who wait for the placement group. -/
theorem wake_closes (blocked : (w.waiters call).phase = .blocked record channel) :
    channel ∈ (w.wakeBackoffPG (w.waiters call).pg).closed := by
  by_cases isClosed : channel ∈ w.closed
  · exact (rings_wakeBackoffPG w _).closed isClosed
  · obtain ⟨current, -⟩ := kept.waits call record channel blocked isClosed
    unfold WaitSession.wakeBackoffPG
    rw [kept.listed blocked, current]
    exact Finset.mem_insert_self _ _

/-- The loop over all records closes the channels of all who wait. -/
theorem wakeAll_closes {order : List PG} (orders : w.backoffWaiters.IsOrder order)
    (blocked : (w.waiters call).phase = .blocked record channel) : channel ∈ (w.wakeAllBackoffs order).closed := by
  have member : (w.waiters call).pg ∈ order := (orders.2 _).mpr (Finmap.mem_of_lookup_eq_some (kept.listed blocked))
  clear orders
  unfold WaitSession.wakeAllBackoffs
  induction order generalizing w with
  | nil => cases member
  | cons pg order ih =>
    rw [foldl_cons]
    by_cases here : (w.waiters call).pg = pg
    · have closed := kept.wake_closes blocked
      rw [here] at closed
      exact (rings_wakeAllBackoffs _ order).closed closed
    · have rings := rings_wakeBackoffPG w pg
      refine ih (kept.wakeBackoffPG pg) (by rw [rings.waiters]; exact blocked) ?_
      rw [rings.waiters]
      exact (mem_cons.mp member).resolve_left here

end Kept

end Wake

section Calls

theorem Apart.setWaiter (apart : Apart w) (waiter : Waiter) : Apart (w.setWaiter call waiter) :=
  ⟨apart.record_lt, apart.records, apart.opened, apart.channels, apart.closed_lt⟩

/-- A call that holds the same record as before, for the same target, and begins no wait. -/
theorem Kept.setWaiter (kept : Kept w) {waiter : Waiter}
    (sameRecord : waiter.phase.record = (w.waiters call).phase.record)
    (sameTarget : waiter.phase.record ≠ none → waiter.pg = (w.waiters call).pg ∧
      waiter.object = (w.waiters call).object)
    (notNew : ∀ record channel, waiter.phase = .blocked record channel →
      (w.waiters call).phase = .blocked record channel) :
    Kept (w.setWaiter call waiter) := by
  have records (other : Nat) : ((w.setWaiter call waiter).waiters other).phase.record =
    (w.waiters other).phase.record := by
    by_cases isCall : other = call
    · simp [WaitSession.setWaiter, isCall, sameRecord]
    · simp [WaitSession.setWaiter, isCall]
  have targets (other : Nat) (holds : (w.waiters other).phase.record ≠ none) :
      ((w.setWaiter call waiter).waiters other).pg = (w.waiters other).pg ∧
        ((w.setWaiter call waiter).waiters other).object = (w.waiters other).object := by
    by_cases isCall : other = call
    · subst isCall
      simpa [WaitSession.setWaiter] using sameTarget (sameRecord ▸ holds)
    · simp [WaitSession.setWaiter, isCall]
  refine ⟨kept.ids, kept.apart.setWaiter _, ⟨?_, ?_⟩, ?_⟩
  · intro other record holding
    rw [records] at holding
    rw [(targets other (by simp [holding])).1]
    exact kept.held.listed other record holding
  · obtain ⟨holders, counts, holds⟩ := kept.held.counted
    refine ⟨holders, counts, fun other record => ?_⟩
    rw [records]
    exact holds other record
  · intro other record channel blocked isOpen
    have before : (w.waiters other).phase = .blocked record channel := by
      by_cases isCall : other = call
      · subst isCall
        exact notNew record channel (by simpa [WaitSession.setWaiter] using blocked)
      · simpa [WaitSession.setWaiter, isCall] using blocked
    obtain ⟨pg, object⟩ := targets other (by simp [before, WaiterPhase.record])
    rw [pg, object]
    exact kept.waits other record channel before isOpen

theorem Kept.setPhase (kept : Kept w) {phase : WaiterPhase}
    (sameRecord : phase.record = (w.waiters call).phase.record)
    (notBlocked : ∀ record channel, phase ≠ .blocked record channel) : Kept (w.setPhase call phase) :=
  kept.setWaiter sameRecord (fun _ => ⟨rfl, rfl⟩) fun record channel blocked =>
    absurd blocked (notBlocked record channel)

/-- What subscribing does to the records: the one of the placement group has a holder more. -/
structure Subscribes (w w' : WaitSession) (pg : PG) (record channel : Nat) : Prop where
  session : w'.session = w.session
  waiters : w'.waiters = w.waiters
  closed : w'.closed = w.closed
  listed : w'.backoffWaiters.lookup pg = some record
  others : ∀ pg' record', w.backoffWaiters.lookup pg' = some record' → w'.backoffWaiters.lookup pg' = some record' ∧
    (w'.records record').changed = (w.records record').changed
  counts : ∀ record', (w'.records record').count = (w.records record').count + if record' = record then 1 else 0
  changed : (w'.records record).changed = channel
  apart : Apart w'

theorem Held.unheld (held : Held w) (apart : Apart w) : (w.records w.newRecord).count = 0 := by
  obtain ⟨holders, counts, holds⟩ := held.counted
  rw [counts, Nat.cast_eq_zero, Finset.card_eq_zero, Finset.eq_empty_iff_forall_notMem]
  intro call member
  have listed := held.listed call _ ((holds call _).mp member)
  exact absurd (apart.record_lt _ _ listed) (Nat.lt_irrefl _)

theorem subscribes_old (apart : Apart w) (listed : w.backoffWaiters.lookup pg = some record) :
    Subscribes w { w with records := update w.records record { w.records record with
      count := (w.records record).count + 1 } } pg record (w.records record).changed := by
  have changed (other : Nat) : (update w.records record { w.records record with
      count := (w.records record).count + 1 } other).changed = (w.records other).changed := by
    by_cases same : other = record
    · rw [same, update_self]
    · rw [update_of_ne same]
  refine ⟨rfl, rfl, rfl, listed, fun pg' record' listed => ⟨listed, changed record'⟩, fun record' =>
    ?_, changed record, ?_⟩
  · by_cases same : record' = record <;> simp [same]
  · refine ⟨apart.record_lt, apart.records, ?_, ?_, apart.closed_lt⟩
    · simp only [changed]
      exact apart.opened
    · simp only [changed]
      exact apart.channels

theorem subscribes_new (apart : Apart w) (held : Held w) (absent : w.backoffWaiters.lookup pg = none) :
    Subscribes w { w with
      backoffWaiters := w.backoffWaiters.insert pg w.newRecord
      records := update w.records w.newRecord ⟨w.newChannel, 1⟩
      newRecord := w.newRecord + 1
      newChannel := w.newChannel + 1 } pg w.newRecord w.newChannel := by
  have old {pg' : PG} {record' : Nat} (listed : w.backoffWaiters.lookup pg' = some record') : record' ≠ w.newRecord :=
    (apart.record_lt pg' record' listed).ne
  refine ⟨rfl, rfl, rfl, Finmap.lookup_insert _, fun pg' record' listed => ⟨?_, ?_⟩, fun record' => ?_, ?_, ?_⟩
  · have different : pg' ≠ pg := by
      rintro rfl
      cases absent.symm.trans listed
    rw [Finmap.lookup_insert_of_ne _ different]
    exact listed
  · simp only [update_of_ne (old listed)]
  · by_cases same : record' = w.newRecord
    · simp [same, held.unheld apart]
    · simp [same]
  · simp only [update_self]
  · refine ⟨?_, ?_, ?_, ?_, fun channel isClosed => (apart.closed_lt channel isClosed).trans (Nat.lt_succ_self _)⟩
    · intro pg' record' listed
      rcases GoMap.lookup_insert_iff.mp listed with ⟨-, rfl⟩ | ⟨-, listed⟩
      · exact Nat.lt_succ_self _
      · exact (apart.record_lt pg' record' listed).trans (Nat.lt_succ_self _)
    · intro first second record' inFirst inSecond
      rcases GoMap.lookup_insert_iff.mp inFirst with ⟨rfl, rfl⟩ | ⟨-, inFirst⟩
      · rcases GoMap.lookup_insert_iff.mp inSecond with ⟨rfl, -⟩ | ⟨-, inSecond⟩
        · rfl
        · exact absurd rfl (old inSecond)
      · rcases GoMap.lookup_insert_iff.mp inSecond with ⟨-, rfl⟩ | ⟨-, inSecond⟩
        · exact absurd rfl (old inFirst)
        · exact apart.records first second record' inFirst inSecond
    · intro pg' record' listed
      rcases GoMap.lookup_insert_iff.mp listed with ⟨-, rfl⟩ | ⟨-, listed⟩
      · simp only [update_self]
        exact ⟨Nat.lt_succ_self _, fun isClosed => absurd (apart.closed_lt _ isClosed) (Nat.lt_irrefl _)⟩
      · simp only [update_of_ne (old listed)]
        exact (apart.opened pg' record' listed).imp_left (·.trans (Nat.lt_succ_self _))
    · intro first second firstRecord secondRecord inFirst inSecond shared
      rcases GoMap.lookup_insert_iff.mp inFirst with ⟨-, rfl⟩ | ⟨-, inFirst⟩
      · rcases GoMap.lookup_insert_iff.mp inSecond with ⟨-, rfl⟩ | ⟨-, inSecond⟩
        · rfl
        · simp only [update_self, update_of_ne (old inSecond)] at shared
          exact absurd shared (apart.opened second secondRecord inSecond).1.ne'
      · rcases GoMap.lookup_insert_iff.mp inSecond with ⟨-, rfl⟩ | ⟨-, inSecond⟩
        · simp only [update_self, update_of_ne (old inFirst)] at shared
          exact absurd shared (apart.opened first firstRecord inFirst).1.ne
        · simp only [update_of_ne (old inFirst), update_of_ne (old inSecond)] at shared
          exact apart.channels first second firstRecord secondRecord inFirst inSecond shared

theorem exists_subscribes (apart : Apart w) (held : Held w) (pg : PG) : ∃ record channel w',
    w.subscribeBackoff pg = (record, channel, w') ∧ Subscribes w w' pg record channel := by
  unfold subscribeBackoff
  split
  · rename_i record listed
    exact ⟨_, _, _, rfl, subscribes_old apart listed⟩
  · rename_i absent
    exact ⟨_, _, _, rfl, subscribes_new apart held absent⟩

theorem Held.subscribe (held : Held w) (idle : (w.waiters call).phase.record = none)
    (subscribes : Subscribes w w' (w.waiters call).pg record channel) :
      Held (w'.setPhase call (.blocked record channel)) := by
  obtain ⟨holders, counts, holds⟩ := held.counted
  have notHolder (record : Nat) : call ∉ holders record := by
    rw [holds, idle]
    simp
  constructor
  · intro other record' holding
    rw [setPhase_phase] at holding
    rw [setPhase_pg, subscribes.waiters]
    split at holding
    · rename_i same
      cases holding
      rw [same]
      exact subscribes.listed
    · rw [subscribes.waiters] at holding
      exact (subscribes.others _ record' (held.listed other record' holding)).1
  · refine ⟨update holders record (insert call (holders record)), fun other => ?_, fun other record' => ?_⟩
    · refine (subscribes.counts other).trans ?_
      by_cases same : other = record
      · subst same
        simp [counts, Finset.card_insert_of_notMem (notHolder other)]
      · simp [counts, same]
    · rw [setPhase_phase, subscribes.waiters]
      by_cases here : record' = record
      · by_cases same : other = call
        · simp [here, same, WaiterPhase.record]
        · simp [here, same, holds]
      · by_cases same : other = call
        · simp [update_of_ne here, same, notHolder, WaiterPhase.record, Ne.symm here]
        · simp [update_of_ne here, same, holds]

theorem Kept.subscribe (kept : Kept w) (idle : (w.waiters call).phase.record = none) (alive : w.session.err = none)
    (isBlocked : w.session.blocked (w.waiters call).pg (w.waiters call).object = true)
    (subscribes : Subscribes w w' (w.waiters call).pg record channel) :
      Kept (w'.setPhase call (.blocked record channel)) := by
  refine ⟨?_, subscribes.apart.setWaiter _, kept.held.subscribe idle subscribes, ?_⟩
  · exact subscribes.session ▸ kept.ids
  · intro other record' channel' blocked isOpen
    rw [setPhase_phase] at blocked
    rw [setPhase_pg, setPhase_object]
    simp only [WaitSession.setPhase, WaitSession.setWaiter, subscribes.session, subscribes.waiters,
      subscribes.closed] at isOpen blocked ⊢
    split at blocked
    · rename_i same
      cases blocked
      rw [same]
      exact ⟨subscribes.changed.symm, alive, isBlocked⟩
    · rw [(subscribes.others _ record' (kept.listed blocked)).2]
      exact kept.waits other record' channel' blocked isOpen

theorem Kept.look (kept : Kept w) (looking : (w.waiters call).phase = .looking) : Kept (w.look call) := by
  have idle : (w.waiters call).phase.record = none := by
    rw [looking]
    rfl
  unfold WaitSession.look
  split
  · exact kept.setPhase (by rw [looking]; rfl) (by simp)
  · rename_i alive
    split
    · rename_i isBlocked
      obtain ⟨record, channel, w', subscribed, subscribes⟩ :=
        exists_subscribes kept.apart kept.held (w.waiters call).pg
      rw [subscribed]
      exact kept.subscribe idle alive isBlocked subscribes
    · exact kept.setPhase (by rw [looking]; rfl) (by simp)

theorem unsubscribe_changed (w : WaitSession) (pg : PG) (record record' : Nat) :
    ((w.unsubscribe pg record).records record').changed = (w.records record').changed := by
  unfold unsubscribe
  by_cases same : record' = record <;> simp [same]

theorem Apart.unsubscribe (apart : Apart w) (pg : PG) (record : Nat) : Apart (w.unsubscribe pg record) := by
  have stays {pg' : PG} {record' : Nat}
    (listed : (w.unsubscribe pg record).backoffWaiters.lookup pg' = some record') :
      w.backoffWaiters.lookup pg' = some record' := by
    unfold WaitSession.unsubscribe at listed
    dsimp only at listed
    split at listed
    · exact (GoMap.lookup_erase_iff.mp listed).2
    · exact listed
  refine ⟨?_, ?_, ?_, ?_, apart.closed_lt⟩
  · exact fun pg record' listed => apart.record_lt pg record' (stays listed)
  · exact fun pg pg' record' listed listed' => apart.records pg pg' record' (stays listed) (stays listed')
  · intro pg record' listed
    rw [unsubscribe_changed]
    exact apart.opened pg record' (stays listed)
  · intro pg pg' record' record'' listed listed' shared
    rw [unsubscribe_changed, unsubscribe_changed] at shared
    exact apart.channels pg pg' record' record'' (stays listed) (stays listed') shared

/-- Only the last holder removes the record from the table, where it is still the one of the placement group. -/
theorem Held.leave (held : Held w) {err : Option GoError} (leaving : (w.waiters call).phase = .leaving record err) :
    Held (w.leave call record err) := by
  have holding : (w.waiters call).phase.record = some record := by rw [leaving, WaiterPhase.record]
  have isListed := held.listed call record holding
  have next : (err.elim WaiterPhase.looking .returned).record = none := by cases err <;> rfl
  obtain ⟨holders, counts, holds⟩ := held.counted
  have isHolder : call ∈ holders record := (holds call record).mpr holding
  unfold WaitSession.leave
  constructor
  · intro other record' holds'
    rw [setPhase_phase] at holds'
    rw [setPhase_pg]
    split at holds'
    · cases next.symm.trans holds'
    · rename_i different
      have listed := held.listed other record' holds'
      simp only [WaitSession.setPhase, setWaiter, WaitSession.unsubscribe]
      split
      · rename_i last
        refine GoMap.lookup_erase_iff.mpr ⟨fun samePG => different ?_, listed⟩
        rw [samePG, isListed] at listed
        cases listed
        have one : (holders record).card = 1 := by
          have := counts record
          omega
        exact Finset.card_le_one.mp one.le other ((holds other record).mpr holds') call isHolder
      · exact listed
  · refine ⟨update holders record ((holders record).erase call), fun other => ?_, fun other record' => ?_⟩
    · simp only [WaitSession.setPhase, setWaiter, WaitSession.unsubscribe]
      by_cases same : other = record
      · have positive : 0 < (holders record).card := Finset.card_pos.mpr ⟨call, isHolder⟩
        simp only [same, update_self, counts, Finset.card_erase_of_mem isHolder]
        omega
      · simp [same, counts]
    · rw [setPhase_phase]
      by_cases here : record' = record
      · by_cases same : other = call
        · simp [here, same, next]
        · simp only [here, update_self, Finset.mem_erase, same, if_false, ne_eq, not_false_eq_true, true_and, holds]
          rfl
      · by_cases same : other = call
        · subst same
          simp only [update_of_ne here, if_true, next, holds, holding, Option.some.injEq, reduceCtorEq, iff_false]
          exact Ne.symm here
        · simp only [update_of_ne here, same, if_false, holds]
          rfl

theorem Kept.leave (kept : Kept w) {err : Option GoError} (leaving : (w.waiters call).phase = .leaving record err) :
    Kept (w.leave call record err) := by
  refine ⟨kept.ids, (kept.apart.unsubscribe _ record).setWaiter _, kept.held.leave leaving, ?_⟩
  intro other record' channel blocked isOpen
  unfold WaitSession.leave at blocked ⊢
  rw [setPhase_phase] at blocked
  split at blocked
  · cases err <;> cases blocked
  · rw [setPhase_pg, setPhase_object]
    obtain ⟨current, alive, stays⟩ := kept.waits other record' channel blocked isOpen
    exact ⟨current.trans (unsubscribe_changed w (w.waiters call).pg record record').symm, alive, stays⟩

end Calls

section Changes

/-- The backoffs of a placement group. -/
def backoffsOf (session : OsdSession) (pg : PG) : List Backoff :=
  session.backoffs.filter fun backoff => backoff.pg == pg

theorem blocked_congr {session session' : OsdSession} (same : backoffsOf session' pg = backoffsOf session pg)
    (object : HObject) : session'.blocked pg object = session.blocked pg object := by
  have any (session : OsdSession) : session.blocked pg object = (backoffsOf session pg).any fun backoff =>
    backoff.contains object := by
    rw [OsdSession.blocked, backoffsOf, any_filter]
  rw [any, any, same]

/-- Whoever waits for what has changed finds its channel closed. -/
structure Announces (w w' : WaitSession) : Prop where
  closed : w.closed ⊆ w'.closed
  changed : ∀ call record channel, (w.waiters call).phase = .blocked record channel →
    backoffsOf w'.session (w.waiters call).pg ≠ backoffsOf w.session (w.waiters call).pg ∨
      w'.session.err ≠ w.session.err →
      channel ∈ w'.closed

theorem Announces.of_session (closed : w'.closed = w.closed) (backoffs : w'.session.backoffs = w.session.backoffs)
    (err : w'.session.err = w.session.err) : Announces w w' := by
  refine ⟨closed ▸ subset_rfl, fun call record channel _ changed => ?_⟩
  rw [backoffsOf, backoffs, backoffsOf, err] at changed
  simp at changed

theorem Announces.trans {w'' : WaitSession} (first : Announces w w') (second : Announces w' w'')
    (waiters : w'.waiters = w.waiters) : Announces w w'' := by
  refine ⟨first.closed.trans second.closed, fun call record channel blocked changed => ?_⟩
  by_cases early : backoffsOf w'.session (w.waiters call).pg = backoffsOf w.session (w.waiters call).pg ∧
      w'.session.err = w.session.err
  · refine second.changed call record channel (waiters ▸ blocked) ?_
    rw [waiters, early.1, early.2]
    exact changed
  · rw [not_and_or] at early
    exact second.closed (first.changed call record channel blocked early)

/-- The session may change for those whose channels have been closed. -/
theorem Kept.replace {u : WaitSession} (kept : Kept u) (rings : Rings w u) (session : OsdSession)
    (ids : (session.backoffs.map Backoff.id).Nodup)
    (same : ∀ call record channel, (u.waiters call).phase = .blocked record channel → channel ∉ u.closed →
      session.err = w.session.err ∧
        backoffsOf session (u.waiters call).pg = backoffsOf w.session (u.waiters call).pg) :
    Kept (u.onSession session) ∧ Announces w (u.onSession session) := by
  refine ⟨⟨ids, ⟨kept.apart.record_lt, kept.apart.records, kept.apart.opened, kept.apart.channels,
    kept.apart.closed_lt⟩, ⟨kept.held.listed, kept.held.counted⟩, ?_⟩, rings.closed, ?_⟩
  · intro call record channel blocked isOpen
    obtain ⟨current, alive, stays⟩ := kept.waits call record channel blocked isOpen
    obtain ⟨err, backoffs⟩ := same call record channel blocked isOpen
    rw [← rings.session] at err backoffs
    exact ⟨current, err.trans alive, (blocked_congr backoffs _).trans stays⟩
  · intro call record channel blocked changed
    by_contra isOpen
    rw [← rings.waiters] at blocked changed
    obtain ⟨err, backoffs⟩ := same call record channel blocked isOpen
    exact changed.elim (· backoffs) (· err)

theorem removeBackoff_session (w : WaitSession) (id : Nat) :
    (w.removeBackoff id).1.session = (w.session.removeBackoff id).1 := by
  unfold WaitSession.removeBackoff
  split
  · rename_i removed
    rw [removed]
    rfl
  · rename_i removed
    rw [removed, wakeBackoffPG_onSession]
    rfl

theorem removeBackoff_waiters (w : WaitSession) (id : Nat) : (w.removeBackoff id).1.waiters = w.waiters := by
  unfold WaitSession.removeBackoff
  split
  · rfl
  · rw [wakeBackoffPG_onSession]
    exact (rings_wakeBackoffPG w _).waiters

theorem err_removeBackoff (session : OsdSession) (id : Nat) : (session.removeBackoff id).1.err = session.err := by
  unfold OsdSession.removeBackoff
  split <;> rfl

theorem Kept.removeBackoff (kept : Kept w) (id : Nat) :
    Kept (w.removeBackoff id).1 ∧ Announces w (w.removeBackoff id).1 := by
  have flat := OsdSession.removeBackoff_backoffs w.session id
  have found := OsdSession.removeBackoff_snd w.session id
  have err := err_removeBackoff w.session id
  have ids : ((w.session.removeBackoff id).1.backoffs.map Backoff.id).Nodup := by
    rw [flat]
    exact kept.ids.sublist (filter_sublist.map _)
  -- Only the placement group of the backoff can tell a difference.
  have others (pg : PG) (absent : ∀ backoff, w.session.backoffs.find? (fun other => other.id == id) = some backoff →
    backoff.pg ≠ pg) :
      backoffsOf (w.session.removeBackoff id).1 pg = backoffsOf w.session pg := by
    rw [backoffsOf, flat, filter_filter, backoffsOf]
    refine filter_congr fun other member => ?_
    by_cases same : other.id = id
    · cases isFound : w.session.backoffs.find? fun other => other.id == id with
      | none => exact absurd same (by simpa using find?_eq_none.mp isFound other member)
      | some backoff =>
        have isId : backoff.id = id := by simpa using find?_some isFound
        have isBackoff := inj_on_of_nodup_map kept.ids member (mem_of_find?_eq_some isFound) (same.trans isId.symm)
        simp [isBackoff, absent backoff isFound]
    · simp [same]
  unfold WaitSession.removeBackoff
  split
  · rename_i session removed
    rw [removed] at found ids others err
    exact kept.replace (.refl w) _ ids fun call record channel _ _ => ⟨err, others _ (by simp [← found])⟩
  · rename_i session backoff removed
    rw [removed] at found ids others err
    rw [wakeBackoffPG_onSession]
    have rings := rings_wakeBackoffPG w backoff.pg
    refine (kept.wakeBackoffPG backoff.pg).replace rings _ ids fun call record channel blocked isOpen =>
      ⟨err, others _ ?_⟩
    rw [rings.waiters] at blocked ⊢
    intro other isFound samePG
    cases found.trans isFound
    exact isOpen (samePG ▸ kept.wake_closes blocked)

theorem Kept.addBackoff (kept : Kept w) {backoff : Backoff} (added : w.addBackoff backoff = (w', none)) :
    Kept w' ∧ Announces w w' := by
  unfold WaitSession.addBackoff at added
  split at added
  · cases added
  · rename_i session inSession
    cases added
    obtain ⟨removed, announced⟩ := kept.removeBackoff backoff.id
    have waiters := removeBackoff_waiters w backoff.id
    have flat := OsdSession.addBackoff_backoffs inSession
    have before : (w.removeBackoff backoff.id).1.session.backoffs = w.session.backoffs.filter fun other =>
      other.id != backoff.id := by
      rw [removeBackoff_session, OsdSession.removeBackoff_backoffs]
    have err : session.err = (w.removeBackoff backoff.id).1.session.err := by
      rw [removeBackoff_session, err_removeBackoff]
      unfold OsdSession.addBackoff at inSession
      simp only at inSession
      split at inSession
      · cases inSession
      · obtain rfl := congrArg Prod.fst inSession
        exact err_removeBackoff w.session backoff.id
    have ids : (session.backoffs.map Backoff.id).Nodup := by
      rw [flat, ← before, map_cons, nodup_cons]
      refine ⟨fun member => ?_, removed.ids⟩
      obtain ⟨other, inOther, sameId⟩ := mem_map.mp member
      rw [before] at inOther
      simp [sameId] at inOther
    rw [wakeBackoffPG_onSession]
    have rings := rings_wakeBackoffPG (w.removeBackoff backoff.id).1 backoff.pg
    obtain ⟨kept', announces⟩ := (removed.wakeBackoffPG backoff.pg).replace rings _ ids
      fun call record channel blocked isOpen => by
        refine ⟨err, ?_⟩
        rw [rings.waiters] at blocked ⊢
        have different : backoff.pg ≠ ((w.removeBackoff backoff.id).1.waiters call).pg :=
          fun samePG => isOpen (samePG ▸ removed.wake_closes blocked)
        rw [backoffsOf, flat, ← before, filter_cons_of_neg (by simpa using different), backoffsOf]
    exact ⟨kept', announced.trans announces waiters⟩

theorem Kept.reconcile (kept : Kept w) {order : List PG} (orders : w.backoffWaiters.IsOrder order) :
    Kept (w.reconcile order) ∧ Announces w (w.reconcile order) := by
  rw [WaitSession.reconcile, wakeAllBackoffs_onSession]
  have rings := rings_wakeAllBackoffs w order
  refine (kept.wakeAllBackoffs order).replace rings _ nodup_nil fun call record channel blocked isOpen => ?_
  rw [rings.waiters] at blocked
  exact absurd (kept.wakeAll_closes orders blocked) isOpen

theorem Kept.fail (kept : Kept w) {order : List PG} (orders : w.backoffWaiters.IsOrder order) (err : GoError) :
    Kept (w.fail err order) ∧ Announces w (w.fail err order) := by
  unfold WaitSession.fail
  split
  · have ids : ((w.session.fail err).backoffs.map Backoff.id).Nodup := by
      unfold OsdSession.fail
      split <;> exact kept.ids
    rw [wakeAllBackoffs_onSession]
    have rings := rings_wakeAllBackoffs w order
    refine (kept.wakeAllBackoffs order).replace rings _ ids fun call record channel blocked isOpen => ?_
    rw [rings.waiters] at blocked
    exact absurd (kept.wakeAll_closes orders blocked) isOpen
  · exact ⟨kept, .of_session rfl rfl rfl⟩

/-- A failed session has no one left who waits on an open channel. -/
theorem Kept.finish (kept : Kept w) (failed : w.session.err ≠ none) : Kept w.finish ∧ Announces w w.finish := by
  refine kept.replace (.refl w) _ nodup_nil fun call record channel blocked isOpen => ?_
  exact absurd (kept.waits call record channel blocked isOpen).2.1 failed

end Changes

theorem look_session (w : WaitSession) (call : Nat) : (w.look call).session = w.session ∧
    (w.look call).closed = w.closed := by
  unfold look
  split
  · exact ⟨rfl, rfl⟩
  · split
    · have subscribed (pg : PG) : (w.subscribeBackoff pg).2.2.session = w.session ∧
        (w.subscribeBackoff pg).2.2.closed = w.closed := by
        unfold subscribeBackoff
        split <;> exact ⟨rfl, rfl⟩
      exact subscribed _
    · exact ⟨rfl, rfl⟩

theorem Kept.step (kept : Kept w) {action : Action} (step : Step w action w') : Kept w' ∧ Announces w w' := by
  cases step with
  | addBackoff added => exact kept.addBackoff added
  | removeBackoff id => exact kept.removeBackoff id
  | reconcile orders => exact kept.reconcile orders
  | fail orders err => exact kept.fail orders err
  | finish failed => exact kept.finish failed
  | looks looking =>
    obtain ⟨session, closed⟩ := look_session w _
    exact ⟨kept.look looking, .of_session closed (congrArg _ session) (congrArg _ session)⟩
  | selects blocked ready =>
    refine ⟨kept.setPhase ?_ (by simp), .of_session rfl rfl rfl⟩
    rw [blocked]
    rfl
  | leaves leaving => exact ⟨kept.leave leaving, .of_session rfl rfl rfl⟩
  | rawStops =>
    exact kept.replace (.refl w) { w.session with rawDone := true } kept.ids fun call record channel _ _ => ⟨rfl, rfl⟩
  | calls idle pg object =>
    refine ⟨kept.setWaiter ?_ (fun holds => absurd rfl holds) nofun, .of_session rfl rfl rfl⟩
    rw [idle]
    rfl
  | contextEnds call cause => exact ⟨kept.setWaiter rfl (fun _ => ⟨rfl, rfl⟩) fun _ _ => id, .of_session rfl rfl rfl⟩

/-- In every interleaving a call that waits holds the record of its placement group. If its channel is open, nothing
has happened that would let it proceed; and whatever does happen closes the channel. -/
theorem no_missed_wakeup (reach : interleavings.Reaches (fun _ _ => True) w)
    (blocked : (w.waiters call).phase = .blocked record channel) :
    w.backoffWaiters.lookup (w.waiters call).pg = some record ∧
    (channel ∉ w.closed → channel = (w.records record).changed ∧ w.session.err = none ∧
      w.session.blocked (w.waiters call).pg (w.waiters call).object = true) ∧
    ∀ action next, Step w action next → (channel ∈ w.closed → channel ∈ next.closed) ∧
      (backoffsOf next.session (w.waiters call).pg ≠ backoffsOf w.session (w.waiters call).pg ∨
        next.session.err ≠ w.session.err → channel ∈ next.closed) := by
  have kept : Kept w := by
    refine reach.invariant Kept ?_ fun _ _ _ kept step _ => (kept.step step).1
    rintro first ⟨session, ⟨maxBackoffs, maxBackoffBytes, rfl⟩, rfl⟩
    exact ⟨.nil, ⟨by simp, by simp, by simp, by simp, by simp⟩,
      ⟨nofun, fun _ => ∅, by simp, by simp [WaiterPhase.record]⟩, nofun⟩
  refine ⟨kept.listed blocked, kept.waits call record channel blocked, fun action next step => ?_⟩
  obtain ⟨-, announces⟩ := kept.step step
  exact ⟨fun isClosed => announces.closed isClosed, announces.changed call record channel blocked⟩

/-- A session with one backoff. -/
def blocking : OsdSession where
  maxBackoffs := 0
  maxBackoffBytes := 0
  backoffs := [⟨⟨0, 0, 0⟩, .block, 7, {}, { max := true }⟩]
  backoffBytes := 1024

def calling : WaitSession := setWaiter { session := blocking } 0 { phase := .looking }

/-- The first call waits for the end of the backoff. -/
def waitsForBackoff : WaitSession := calling.look 0

theorem no_missed_wakeup_waitsForBackoff : (waitsForBackoff.waiters 0).phase = .blocked 0 0 ∧
    waitsForBackoff.backoffWaiters.lookup ⟨0, 0, 0⟩ = some 0 ∧ 0 ∉ waitsForBackoff.closed ∧
    0 ∈ (waitsForBackoff.removeBackoff 7).1.closed := by
  have starts : interleavings.start { session := { maxBackoffs := 0, maxBackoffBytes := 0 } } := ⟨_, ⟨0, 0, rfl⟩, rfl⟩
  let blocks : Action := .addBackoff ⟨⟨0, 0, 0⟩, .block, 7, {}, { max := true }⟩
  have added : Step { session := { maxBackoffs := 0, maxBackoffBytes := 0 } } blocks { session := blocking } :=
    .addBackoff rfl
  have called : Step { session := blocking } (.calls 0 ⟨0, 0, 0⟩ {}) calling := .calls rfl ⟨0, 0, 0⟩ {}
  have looked : Step calling (.looks 0) waitsForBackoff := .looks rfl
  have reach : interleavings.Reaches (fun _ _ => True) waitsForBackoff :=
    (((System.Reaches.start starts).next added trivial).next called trivial).next looked trivial
  have blocked : (waitsForBackoff.waiters 0).phase = .blocked 0 0 := rfl
  obtain ⟨listed, -, announced⟩ := no_missed_wakeup reach blocked
  refine ⟨blocked, listed, by decide, (announced _ _ (.removeBackoff 7)).2 (.inl ?_)⟩
  decide

end RadosGo.WaitSession
