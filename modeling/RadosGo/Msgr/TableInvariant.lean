import RadosGo.Library.Index
import RadosGo.Library.Load
import RadosGo.Msgr.RequestLedger

namespace RadosGo

open Function List

/-- A request that counts against the transactions in flight. -/
def RequestData.inFlight (node : RequestData) : Bool := node.sent && !node.request.control

/-- A request that counts against the application limits. -/
def RequestData.application (node : RequestData) : Bool := !node.request.control

namespace RequestTable

/-- The requests without the pointers that hold them together. -/
def book (t : RequestTable) : RequestBook where
  data := t.data
  queue := t.pending.toList
  replay := t.replay.toList
  allocated := t.allocated
  commands := t.commands
  journal := t.journal

/-- The array, the indices and the links of both lists hold the same requests,
and every request on the replay list is live. -/
structure Linked (t : RequestTable) : Prop where
  pending : t.pending.Holds t.pending.toList
  replay : t.replay.Holds t.replay.toList
  live : ∀ p ∈ t.replay.toList, p ∈ t.pending.toList
  inReplay : ∀ p, t.inReplay p = true ↔ p ∈ t.replay.toList
  allocated : ∀ p ∈ t.pending.toList, p < t.allocated

/-- Both maps find exactly the live requests. -/
structure Indexed (t : RequestTable) : Prop where
  byRequest : Finds t.byRequest (fun p => (t.data p).request.id) t.pending.toList
  byTID : Finds t.byTID (fun p => (t.data p).message.header.transactionID) t.pending.toList
  issued : ∀ p ∈ t.pending.toList, (t.data p).request.id < t.commands

/-- The counters equal what they count, within the limits of the session. -/
structure Accounted (bounds : SessionBounds) (t : RequestTable) : Prop where
  inFlight : t.inFlight = load (fun node => if node.inFlight then 1 else 0) t.data t.pending.toList
  inFlight_le : load (fun node => if node.inFlight then 1 else 0) t.data t.pending.toList ≤
    bounds.maxInFlightTransactions
  applications_le : load (fun node => if node.application then 1 else 0) t.data t.pending.toList ≤
    bounds.maxQueuedMessages
  retained : t.retainedBytes = load (fun node => if node.application then node.bytes else 0) t.data t.pending.toList
  retained_le : t.retainedBytes ≤ bounds.maxRetainedBytes
  controlCount : t.controlCount = load (fun node => if node.request.control then 1 else 0) t.data t.pending.toList
  controlCount_le : load (fun node => if node.request.control then 1 else 0) t.data t.pending.toList ≤
    maxControlMessages
  controlBytes : t.controlBytes =
    load (fun node => if node.request.control then node.bytes else 0) t.data t.pending.toList
  controlBytes_le : t.controlBytes ≤ maxControlRetainedBytes

/-- The invariant of the request bookkeeping. -/
structure Wf (bounds : SessionBounds) (t : RequestTable) : Prop extends Linked t, Indexed t, Accounted bounds t where
  admitted : ∀ p ∈ t.pending.toList,
    admissionMessageBytes (t.data p).message bounds.limits = .ok (t.data p).bytes
  executed : ∀ p ∈ t.pending.toList, (t.data p).sent = true → (t.data p).mayHaveExecuted = true

variable {bounds : SessionBounds} {t : RequestTable}

theorem Linked.replay_erase (linked : t.Linked) (p : Nat) :
    (t.removeReplay p).replay.Holds (t.replay.toList.erase p) := by
  simp only [removeReplay]
  split
  · rename_i member
    exact linked.replay.remove ((linked.inReplay p).mp member)
  · rename_i absent
    rw [erase_of_not_mem fun member => absent ((linked.inReplay p).mpr member)]
    exact linked.replay

theorem Linked.removeReplay (linked : t.Linked) (p : Nat) : (t.removeReplay p).Linked := by
  have holds := linked.replay_erase p
  have list := holds.toList_eq
  have nodup := linked.replay.nodup
  constructor
  case pending => exact linked.pending
  case replay => rw [list]; exact holds
  case live => rw [list]; exact fun q member => linked.live q (mem_of_mem_erase member)
  case inReplay =>
    intro q
    rw [list, nodup.mem_erase_iff, ← linked.inReplay]
    by_cases same : q = p
    · subst same
      simp [RequestTable.removeReplay]
    · simp [RequestTable.removeReplay, same]
  case allocated => exact linked.allocated

variable {p bytes : Nat} {command : SubmitCommand} {message : Message}

/-- The lists and the memory which `removePending` leaves. -/
theorem Linked.removePending_lists (linked : t.Linked) (member : p ∈ t.pending.toList) :
    (t.removePending p).pending.Holds (t.pending.toList.erase p) ∧
      (t.removePending p).replay.Holds (t.replay.toList.erase p) :=
  ⟨linked.pending.remove member, linked.replay_erase p⟩

theorem removePending_data_of_ne {q : Nat} (other : q ≠ p) : (t.removePending p).data q = t.data q :=
  update_of_ne other ..

theorem Linked.removePending (linked : t.Linked) (member : p ∈ t.pending.toList) : (t.removePending p).Linked := by
  obtain ⟨pending, replay⟩ := linked.removePending_lists member
  have replayLinked := linked.removeReplay p
  have replayList : (t.removeReplay p).replay.toList = t.replay.toList.erase p := (linked.replay_erase p).toList_eq
  constructor
  case pending => rw [pending.toList_eq]; exact pending
  case replay => rw [replay.toList_eq]; exact replay
  case live =>
    rw [pending.toList_eq, replay.toList_eq]
    intro q listed
    obtain ⟨other, listed⟩ := linked.replay.nodup.mem_erase_iff.mp listed
    exact linked.pending.nodup.mem_erase_iff.mpr ⟨other, linked.live q listed⟩
  case inReplay => rw [replay.toList_eq, ← replayList]; exact replayLinked.inReplay
  case allocated => rw [pending.toList_eq]; exact fun q live => linked.allocated q (mem_of_mem_erase live)

theorem Indexed.removePending (indexed : t.Indexed) (linked : t.Linked) (member : p ∈ t.pending.toList) :
    (t.removePending p).Indexed := by
  have pending := (linked.removePending_lists member).1.toList_eq
  have nodup := linked.pending.nodup
  have data : ∀ q ∈ t.pending.toList.erase p, (t.removePending p).data q = t.data q := fun q live =>
    removePending_data_of_ne (nodup.mem_erase_iff.mp live).1
  constructor
  case byRequest =>
    rw [pending]
    exact (indexed.byRequest.erase nodup member).congr fun q live => by rw [data q live]
  case byTID =>
    rw [pending]
    exact (indexed.byTID.erase nodup member).congr fun q live => by rw [data q live]
  case issued =>
    rw [pending]
    intro q live
    rw [data q live]
    exact indexed.issued q (mem_of_mem_erase live)

/-- A request gives back what it was charged, with no counter wrapping around. -/
theorem Accounted.removePending_counters (accounted : t.Accounted bounds) (member : p ∈ t.pending.toList) :
    (t.removePending p).inFlight = t.inFlight - (if (t.data p).inFlight then 1 else 0 : Nat) ∧
    (t.removePending p).retainedBytes = t.retainedBytes - (if (t.data p).application then (t.data p).bytes else 0) ∧
    (t.removePending p).controlCount = t.controlCount - (if (t.data p).request.control then 1 else 0 : Nat) ∧
    (t.removePending p).controlBytes =
      t.controlBytes - (if (t.data p).request.control then (t.data p).bytes else 0) := by
  have retained := load_erase (fun node => if node.application then node.bytes else 0) t.data member
  have controls := load_erase (fun node => if node.request.control then node.bytes else 0) t.data member
  have retainedFits : t.retainedBytes < 2 ^ 64 := Nat.lt_of_le_of_lt accounted.retained_le bounds.retained_fits
  have controlFits : t.controlBytes < 2 ^ 64 := Nat.lt_of_le_of_lt accounted.controlBytes_le (by decide)
  rw [← accounted.retained] at retained
  rw [← accounted.controlBytes] at controls
  cases control : (t.data p).request.control
  · simp only [RequestData.application, control, Bool.not_false, if_true] at retained
    have back := subUint64_eq retainedFits (b := (t.data p).bytes) (by omega)
    cases sent : (t.data p).sent <;>
      simp [removePending, removeReplay, RequestData.inFlight, RequestData.application, control, sent, back]
  · simp only [control, if_true] at controls
    have back := subUint64_eq controlFits (b := (t.data p).bytes) (by omega)
    cases sent : (t.data p).sent <;>
      simp [removePending, removeReplay, RequestData.inFlight, RequestData.application, control, sent, back]

theorem Accounted.removePending (accounted : t.Accounted bounds) (linked : t.Linked) (member : p ∈ t.pending.toList) :
    (t.removePending p).Accounted bounds := by
  have pending := (linked.removePending_lists member).1.toList_eq
  have loads : ∀ weight, load weight (t.removePending p).data (t.removePending p).pending.toList =
      load weight t.data t.pending.toList - weight (t.data p) := by
    intro weight
    rw [pending, ← load_erase weight t.data member, Nat.add_sub_cancel]
    exact load_congr fun q live => by
      rw [removePending_data_of_ne (linked.pending.nodup.mem_erase_iff.mp live).1]
  have charged : ∀ weight, weight (t.data p) ≤ load weight t.data t.pending.toList := fun weight => by
    rw [← load_erase weight t.data member]
    exact Nat.le_add_left _ _
  obtain ⟨flights, retained, count, controls⟩ := accounted.removePending_counters member
  constructor
  case inFlight =>
    rw [loads, flights, accounted.inFlight, Int.ofNat_sub (charged _)]
  case inFlight_le => rw [loads]; exact Nat.le_trans (Nat.sub_le _ _) accounted.inFlight_le
  case applications_le => rw [loads]; exact Nat.le_trans (Nat.sub_le _ _) accounted.applications_le
  case retained => rw [loads, retained, accounted.retained]
  case retained_le => rw [retained]; exact Nat.le_trans (Nat.sub_le _ _) accounted.retained_le
  case controlCount => rw [loads, count, accounted.controlCount, Int.ofNat_sub (charged _)]
  case controlCount_le => rw [loads]; exact Nat.le_trans (Nat.sub_le _ _) accounted.controlCount_le
  case controlBytes => rw [loads, controls, accounted.controlBytes]
  case controlBytes_le => rw [controls]; exact Nat.le_trans (Nat.sub_le _ _) accounted.controlBytes_le

theorem Wf.removePending (wf : t.Wf bounds) (member : p ∈ t.pending.toList) : (t.removePending p).Wf bounds where
  toLinked := wf.toLinked.removePending member
  toIndexed := wf.toIndexed.removePending wf.toLinked member
  toAccounted := wf.toAccounted.removePending wf.toLinked member
  admitted := by
    rw [(wf.removePending_lists member).1.toList_eq]
    intro q live
    rw [removePending_data_of_ne (wf.pending.nodup.mem_erase_iff.mp live).1]
    exact wf.admitted q (mem_of_mem_erase live)
  executed := by
    rw [(wf.removePending_lists member).1.toList_eq]
    intro q live
    rw [removePending_data_of_ne (wf.pending.nodup.mem_erase_iff.mp live).1]
    exact wf.executed q (mem_of_mem_erase live)

theorem Accounted.applications (accounted : t.Accounted bounds) (linked : t.Linked) :
    (t.pending.array.length : Int) - t.controlCount =
      load (fun node => if node.application then 1 else 0) t.data t.pending.toList := by
  rw [accounted.controlCount, linked.pending.perm.length_eq,
    load_eq_countP RequestData.application, load_eq_countP (fun node : RequestData => node.request.control)]
  have split := length_eq_countP_add_countP (fun p => (t.data p).request.control) (l := t.pending.toList)
  simp only [Bool.not_eq_true, Bool.decide_eq_false] at split
  simp only [RequestData.application]
  omega

/-- What `submit` checks before it admits a request. -/
def Room (bounds : SessionBounds) (t : RequestTable) (control : Bool) (bytes : Nat) : Prop :=
  if control then t.controlCount < maxControlMessages ∧ t.controlBytes + bytes ≤ maxControlRetainedBytes
  else (t.pending.array.length : Int) - t.controlCount < bounds.maxQueuedMessages ∧
    t.retainedBytes + bytes ≤ bounds.maxRetainedBytes

theorem Linked.fresh (linked : t.Linked) : t.allocated ∉ t.pending.toList := fun member =>
  Nat.lt_irrefl _ (linked.allocated _ member)

theorem Linked.register_list (linked : t.Linked) (command : SubmitCommand) (message : Message) (bytes : Nat) :
    (t.register command message bytes).pending.Holds (t.pending.toList ++ [t.allocated]) :=
  linked.pending.append linked.fresh

theorem register_data_of_mem (linked : t.Linked) (command : SubmitCommand) (message : Message) (bytes : Nat)
    (member : p ∈ t.pending.toList) : (t.register command message bytes).data p = t.data p :=
  update_of_ne (ne_of_mem_of_not_mem member linked.fresh) ..

theorem Linked.register (linked : t.Linked) (command : SubmitCommand) (message : Message) (bytes : Nat) :
    (t.register command message bytes).Linked := by
  have holds := linked.register_list command message bytes
  constructor
  case pending => rw [holds.toList_eq]; exact holds
  case replay => exact linked.replay
  case live => rw [holds.toList_eq]; exact fun p listed => mem_append_left _ (linked.live p listed)
  case inReplay =>
    intro p
    by_cases same : p = t.allocated
    · subst same
      exact iff_of_false (by simp [RequestTable.register]) fun listed => linked.fresh (linked.live _ listed)
    · simpa [RequestTable.register, same] using linked.inReplay p
  case allocated =>
    rw [holds.toList_eq]
    intro p member
    rcases mem_append.mp member with old | new
    · exact Nat.lt_succ_of_lt (linked.allocated p old)
    · rw [mem_singleton.mp new]
      exact Nat.lt_succ_self _

theorem Indexed.register (indexed : t.Indexed) (linked : t.Linked) (bytes : Nat) (next : command.id = t.commands)
    (vacant : t.byTID message.header.transactionID = none) : (t.register command message bytes).Indexed := by
  have list := (linked.register_list command message bytes).toList_eq
  have data : ∀ p ∈ t.pending.toList, (t.register command message bytes).data p = t.data p := fun p member =>
    register_data_of_mem linked command message bytes member
  have new : (t.register command message bytes).data t.allocated =
      { request := command, message := message, bytes := bytes } := update_self ..
  have unused : t.byRequest command.id = none := by
    rw [indexed.byRequest.none_iff]
    intro p member
    have := indexed.issued p member
    omega
  constructor
  case byRequest =>
    rw [list]
    have finds := (indexed.byRequest.congr fun p member => congrArg (·.request.id) (data p member)).append
      (x := t.allocated) (by simpa only [new] using unused)
    simp only [new] at finds
    exact finds
  case byTID =>
    rw [list]
    have finds := (indexed.byTID.congr fun p member =>
      congrArg (·.message.header.transactionID) (data p member)).append
      (x := t.allocated) (by simpa only [new] using vacant)
    simp only [new] at finds
    exact finds
  case issued =>
    rw [list]
    intro p member
    rcases mem_append.mp member with old | last
    · rw [data p old]
      exact Nat.lt_succ_of_lt (indexed.issued p old)
    · rw [mem_singleton.mp last, new, next]
      exact Nat.lt_succ_self _

theorem Accounted.register_counters (accounted : t.Accounted bounds) (message : Message)
    (room : t.Room bounds command.control bytes) :
    (t.register command message bytes).retainedBytes = t.retainedBytes + (if !command.control then bytes else 0) ∧
    (t.register command message bytes).controlCount = t.controlCount + (if command.control then 1 else 0 : Nat) ∧
    (t.register command message bytes).controlBytes = t.controlBytes + (if command.control then bytes else 0) ∧
    (t.register command message bytes).retainedBytes ≤ bounds.maxRetainedBytes ∧
    (t.register command message bytes).controlBytes ≤ maxControlRetainedBytes := by
  have retainedLe := accounted.retained_le
  have controlsLe := accounted.controlBytes_le
  have fits := bounds.retained_fits
  have maxControl : maxControlRetainedBytes < 2 ^ 64 := by decide
  cases control : command.control
  · simp only [Room, control, Bool.false_eq_true, if_false] at room
    have grown := addUint64_eq (a := t.retainedBytes) (b := bytes) (by omega)
    simp only [RequestTable.register, control, Bool.false_eq_true, Bool.not_false, if_false, if_true, grown]
    refine ⟨by simp, by simp, by simp, by omega, by omega⟩
  · simp only [Room, control, if_true] at room
    have grown := addUint64_eq (a := t.controlBytes) (b := bytes) (by omega)
    simp only [RequestTable.register, control, Bool.not_true, Bool.false_eq_true, if_false, if_true, grown]
    refine ⟨by simp, by simp, by simp, by omega, by omega⟩

theorem Accounted.register (accounted : t.Accounted bounds) (linked : t.Linked) (message : Message)
    (room : t.Room bounds command.control bytes) : (t.register command message bytes).Accounted bounds := by
  have list := (linked.register_list command message bytes).toList_eq
  have new : (t.register command message bytes).data t.allocated =
      { request := command, message := message, bytes := bytes } := update_self ..
  have loads : ∀ weight, load weight (t.register command message bytes).data
      (t.register command message bytes).pending.toList = load weight t.data t.pending.toList +
        weight { request := command, message := message, bytes := bytes } := by
    intro weight
    rw [list, load_concat, new]
    congr 1
    exact load_update_of_not_mem linked.fresh
  have applications := accounted.applications linked
  obtain ⟨retained, count, controls, retainedLe, controlsLe⟩ := accounted.register_counters message room
  have grounded : ∀ node : RequestData, node.sent = false → (if node.inFlight then 1 else 0) = 0 := by
    intro node unsent
    simp [RequestData.inFlight, unsent]
  have applicationsOf : ∀ control : Bool, t.Room bounds control bytes →
    load (fun node => if node.application then 1 else 0)
      t.data t.pending.toList + (if !control then 1 else 0) ≤ bounds.maxQueuedMessages := by
    intro control room
    have := accounted.applications_le
    cases control <;>
      simp only [Room, Bool.false_eq_true, Bool.not_false, Bool.not_true, if_false, if_true] at room ⊢ <;> omega
  have controlsOf : ∀ control : Bool, t.Room bounds control bytes →
    load (fun node => if node.request.control then 1 else 0)
      t.data t.pending.toList + (if control then 1 else 0) ≤ maxControlMessages := by
    intro control room
    have := accounted.controlCount_le
    have := accounted.controlCount
    cases control <;> simp only [Room, Bool.false_eq_true, if_false, if_true] at room ⊢ <;> omega
  constructor
  case inFlight => rw [loads, grounded _ rfl]; exact accounted.inFlight
  case inFlight_le => rw [loads, grounded _ rfl]; exact accounted.inFlight_le
  case applications_le =>
    rw [loads]
    exact applicationsOf _ room
  case retained => rw [loads, retained, accounted.retained]; rfl
  case retained_le => exact retainedLe
  case controlCount => rw [loads, count, accounted.controlCount]; rfl
  case controlCount_le => rw [loads]; exact controlsOf _ room
  case controlBytes => rw [loads, controls, accounted.controlBytes]
  case controlBytes_le => exact controlsLe

theorem Wf.register (wf : t.Wf bounds) (next : command.id = t.commands)
    (vacant : t.byTID message.header.transactionID = none) (room : t.Room bounds command.control bytes)
    (admitted : admissionMessageBytes message bounds.limits = .ok bytes) :
    (t.register command message bytes).Wf bounds where
  toLinked := wf.toLinked.register command message bytes
  toIndexed := wf.toIndexed.register wf.toLinked bytes next vacant
  toAccounted := wf.toAccounted.register wf.toLinked message room
  admitted := by
    rw [(wf.register_list command message bytes).toList_eq]
    intro p member
    rcases mem_append.mp member with old | new
    · rw [register_data_of_mem wf.toLinked command message bytes old]
      exact wf.admitted p old
    · rw [mem_singleton.mp new]
      simpa [RequestTable.register] using admitted
  executed := by
    rw [(wf.register_list command message bytes).toList_eq]
    intro p member
    rcases mem_append.mp member with old | new
    · rw [register_data_of_mem wf.toLinked command message bytes old]
      exact wf.executed p old
    · rw [mem_singleton.mp new]
      simp [RequestTable.register]

theorem Wf.removeReplay (wf : t.Wf bounds) (p : Nat) : (t.removeReplay p).Wf bounds where
  toLinked := wf.toLinked.removeReplay p
  toIndexed := { wf.toIndexed with }
  toAccounted := { wf.toAccounted with }
  admitted := wf.admitted
  executed := wf.executed

theorem Linked.addReplay_list (linked : t.Linked) (p : Nat) : (t.addReplay p).replay.Holds
    (if p ∈ t.replay.toList then t.replay.toList else t.replay.toList ++ [p]) := by
  simp only [addReplay]
  by_cases listed : p ∈ t.replay.toList
  · rw [if_pos ((linked.inReplay p).mpr listed), if_pos listed]
    exact linked.replay
  · rw [if_neg fun flag => listed ((linked.inReplay p).mp flag), if_neg listed]
    exact linked.replay.append listed

theorem Linked.addReplay (linked : t.Linked) (member : p ∈ t.pending.toList) : (t.addReplay p).Linked := by
  have holds := linked.addReplay_list p
  have mem : ∀ q, q ∈ (t.addReplay p).replay.toList ↔ q ∈ t.replay.toList ∨ q = p := by
    intro q
    rw [holds.toList_eq]
    split
    · rename_i listed
      exact ⟨.inl, fun either => either.elim (fun old => old) fun same => same ▸ listed⟩
    · simp
  constructor
  case pending => exact linked.pending
  case replay => rw [holds.toList_eq]; exact holds
  case live =>
    intro q listed
    rcases (mem q).mp listed with old | rfl
    · exact linked.live q old
    · exact member
  case inReplay =>
    intro q
    rw [mem, ← linked.inReplay]
    by_cases same : q = p
    · subst same
      simp [RequestTable.addReplay]
    · simp [RequestTable.addReplay, same]
  case allocated => exact linked.allocated

theorem Wf.addReplay (wf : t.Wf bounds) (member : p ∈ t.pending.toList) : (t.addReplay p).Wf bounds where
  toLinked := wf.toLinked.addReplay member
  toIndexed := { wf.toIndexed with }
  toAccounted := { wf.toAccounted with }
  admitted := wf.admitted
  executed := wf.executed

/-- The fields of one live request change, except those it is found and charged by. -/
theorem Wf.rewrite (wf : t.Wf bounds) {node : RequestData} {inFlight : Int} {leases : Nat → Int}
    (member : p ∈ t.pending.toList) (request : node.request = (t.data p).request)
    (transactionID : node.message.header.transactionID = (t.data p).message.header.transactionID)
    (bytes : node.bytes = (t.data p).bytes)
    (admitted : admissionMessageBytes node.message bounds.limits = .ok node.bytes)
    (executed : node.sent = true → node.mayHaveExecuted = true)
    (flights : inFlight + (if (t.data p).inFlight then 1 else 0 : Nat) =
      t.inFlight + (if node.inFlight then 1 else 0 : Nat))
    (few : inFlight ≤ bounds.maxInFlightTransactions) :
    ({ t with data := update t.data p node, inFlight := inFlight, leases := leases }).Wf bounds := by
  have nodup := wf.pending.nodup
  have same : ∀ weight : RequestData → Nat, weight node = weight (t.data p) →
      load weight (update t.data p node) t.pending.toList = load weight t.data t.pending.toList := by
    intro weight unchanged
    have := load_update weight t.data node nodup member
    omega
  have flying := load_update (fun node => if node.inFlight then 1 else 0) t.data node nodup member
  have known := wf.inFlight
  refine { toLinked := { wf.toLinked with }, toIndexed := ?_, toAccounted := ?_, admitted := ?_, executed := ?_ }
  · refine ⟨wf.byRequest.congr fun q _ => ?_, wf.byTID.congr fun q _ => ?_, fun q live => ?_⟩
    all_goals by_cases eq : q = p
    · simp [eq, request]
    · simp [eq]
    · simp [eq, transactionID]
    · simp [eq]
    · simpa [eq, request] using wf.issued p member
    · simpa [eq] using wf.issued q live
  · constructor
    case inFlight => simp only; omega
    case inFlight_le => simp only; omega
    case applications_le => rw [same _ (by simp [RequestData.application, request])]; exact wf.applications_le
    case retained => rw [same _ (by simp [RequestData.application, request, bytes])]; exact wf.retained
    case retained_le => exact wf.retained_le
    case controlCount => rw [same _ (by simp [request])]; exact wf.controlCount
    case controlCount_le => rw [same _ (by simp [request])]; exact wf.controlCount_le
    case controlBytes => rw [same _ (by simp [request, bytes])]; exact wf.controlBytes
    case controlBytes_le => exact wf.controlBytes_le
  · intro q live
    by_cases eq : q = p
    · subst eq
      simpa using admitted
    · simpa [eq] using wf.admitted q live
  · intro q live
    by_cases eq : q = p
    · subst eq
      simpa using executed
    · simpa [eq] using wf.executed q live

/-- A table with empty lists, empty maps and zero counters. -/
theorem wf_of_empty (pending : t.pending.Holds []) (replay : t.replay.Holds []) (flags : ∀ p, t.inReplay p = false)
    (byRequest : t.byRequest = fun _ => none) (byTID : t.byTID = fun _ => none) (inFlight : t.inFlight = 0)
    (retained : t.retainedBytes = 0) (controlCount : t.controlCount = 0) (controlBytes : t.controlBytes = 0) :
    t.Wf bounds := by
  have noPending := pending.toList_eq
  have noReplay := replay.toList_eq
  have linked : t.Linked := ⟨noPending ▸ pending, noReplay ▸ replay, by simp [noReplay], by simp [noReplay, flags],
    by simp [noPending]⟩
  have indexed : t.Indexed := by
    refine ⟨?_, ?_, by simp [noPending]⟩
    · rw [byRequest, noPending]
      exact finds_nil
    · rw [byTID, noPending]
      exact finds_nil
  have accounted : t.Accounted bounds := by
    constructor <;> simp [noPending, inFlight, retained, controlCount, controlBytes]
  refine ⟨linked, indexed, accounted, ?_, ?_⟩ <;> simp [noPending]

theorem initial_wf : RequestTable.initial.Wf bounds :=
  wf_of_empty Chain.empty_holds Chain.empty_holds (fun _ => rfl) rfl rfl rfl rfl rfl rfl

theorem Linked.failAll (linked : t.Linked) (err : GoError) : (t.failAll err).Wf bounds := by
  refine wf_of_empty (Chain.detach_holds _ _) (Chain.detach_holds _ _) (fun p => ?_) rfl rfl rfl rfl rfl rfl
  simp only [RequestTable.failAll]
  split
  · rfl
  · rename_i absent
    have unlisted : p ∉ t.replay.toList := fun listed =>
      absent (linked.pending.perm.mem_iff.mpr (linked.live p listed))
    exact Bool.eq_false_iff.mpr fun flag => unlisted ((linked.inReplay p).mp flag)

end RequestTable

end RadosGo
