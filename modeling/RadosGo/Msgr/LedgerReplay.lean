import RadosGo.Msgr.LedgerSequences

namespace RadosGo

open List

/-- The peer acknowledged a number, since the numbering last started, under
which or below which the request had been sent. -/
def Acknowledged (journal : List Note) (request : Nat) : Prop :=
  ∃ newer sequence before, epoch journal = newer ++ .acknowledged sequence :: before ∧
    ∃ task, SentIn before request task ∧ task.seq ≤ sequence

variable {journal : List Note} {request : Nat}

theorem acknowledged_cons {note : Note} (running : note.isRenumbered = false) :
    Acknowledged (note :: journal) request ↔
      (∃ sequence, note = .acknowledged sequence ∧ ∃ task, SentIn (epoch journal) request task ∧
        task.seq ≤ sequence) ∨ Acknowledged journal request := by
  unfold Acknowledged epoch
  rw [since_cons running]
  constructor
  · rintro ⟨newer, sequence, before, cut, sent⟩
    rcases cons_eq_append_iff.mp cut with ⟨-, same⟩ | ⟨newer', -, same⟩
    · obtain ⟨rfl, rfl⟩ := cons.inj same.symm
      exact .inl ⟨sequence, rfl, sent⟩
    · exact .inr ⟨newer', sequence, before, same, sent⟩
  · rintro (⟨sequence, rfl, sent⟩ | ⟨newer, sequence, before, cut, sent⟩)
    · exact ⟨[], sequence, _, rfl, sent⟩
    · exact ⟨note :: newer, sequence, before, by rw [cut, cons_append], sent⟩

theorem acknowledged_silent {note : Note} (running : note.isRenumbered = false)
    (silent : ∀ sequence, note ≠ .acknowledged sequence) :
    Acknowledged (note :: journal) request ↔ Acknowledged journal request := by
  rw [acknowledged_cons running, or_iff_right]
  rintro ⟨sequence, same, -⟩
  exact silent sequence same

def Note.dropsReplay : Note → Bool
  | .renumbered | .replayDropped => true
  | _ => false

/-- The notes since the replay list was last emptied at once. -/
def sinceDrop (journal : List Note) : List Note := since Note.dropsReplay journal

theorem handedOver_sinceDrop_cons {note : Note} (running : note.dropsReplay = false) :
    HandedOver (sinceDrop (note :: journal)) request ↔
      note.request = some request ∨ HandedOver (sinceDrop journal) request := by
  rw [sinceDrop, since_cons running, handedOver_cons]
  rfl

theorem sentIn_of_sinceDrop (handed : HandedOver (sinceDrop journal) request) :
    ∃ task, SentIn (epoch journal) request task := by
  obtain ⟨note, member, isRequest⟩ := handed
  have inEpoch : note ∈ epoch journal :=
    mem_since_of_imp (fun entry => by cases entry <;> simp [Note.isRenumbered, Note.dropsReplay]) member
  cases note with
  | wrote generation task => exact ⟨task, _, inEpoch, generation, rfl, isRequest⟩
  | _ => cases isRequest

theorem HandedOver.of_sinceDrop (handed : HandedOver (sinceDrop journal) request) : HandedOver journal request := by
  obtain ⟨note, member, isRequest⟩ := handed
  exact ⟨note, mem_of_mem_since member, isRequest⟩

theorem Acknowledged.handedOver (acknowledged : Acknowledged journal request) : HandedOver journal request := by
  obtain ⟨newer, sequence, before, cut, task, ⟨note, member, generation, rfl, isRequest⟩, -⟩ := acknowledged
  have inEpoch : Note.wrote generation task ∈ epoch journal := by
    rw [cut]
    exact mem_append_right _ (mem_cons_of_mem _ member)
  exact ⟨_, mem_of_mem_since inEpoch, isRequest⟩

/-- Dropping from the front of an increasing list removes all that is small. -/
theorem dropWhile_eq_filter {α : Type} {number : α → Nat} {xs : List α} (bound : Nat)
    (sorted : xs.Pairwise fun x y => number x < number y) :
    xs.dropWhile (fun x => number x ≤ bound) = xs.filter fun x => bound < number x := by
  induction xs with
  | nil => rfl
  | cons x rest ih =>
    obtain ⟨first, rest'⟩ := pairwise_cons.mp sorted
    by_cases small : number x ≤ bound
    · rw [dropWhile_cons_of_pos (by simpa using small), ih rest', filter_cons_of_neg (by simpa using small)]
    · rw [dropWhile_cons_of_neg (by simpa using small)]
      refine (filter_eq_self.mpr fun y member => ?_).symm
      rcases mem_cons.mp member with rfl | member
      · simpa using small
      · have := first y member
        simp only [decide_eq_true_eq]
        omega

/-- An acknowledgment covers a request that is waiting to be written again. -/
def RequestBook.Overtaken (b : RequestBook) (sequence : Nat) : Prop :=
  ∃ p ∈ b.queue, (b.data p).Waiting ∧ (b.data p).seq ≤ sequence

/-- The replay list against the history, in runs without overtaking acknowledgments. -/
structure Ledger.Replaying (l : Ledger) : Prop where
  live : ∀ p ∈ l.replay, p ∈ l.queue
  sorted : l.replay.Pairwise fun p q => (l.data p).seq < (l.data q).seq
  numbered : ∀ p ∈ l.replay, (l.data p).seq ≠ 0
  waiting : ∀ p ∈ l.replay, ∀ q ∈ l.queue, q ∉ l.replay → (l.data q).Waiting → (l.data p).seq < (l.data q).seq
  acknowledged : ∀ p ∈ l.queue, Acknowledged l.journal (l.data p).request.id → (l.data p).sent = true ∧ p ∉ l.replay
  listed : ∀ p ∈ l.queue, p ∈ l.replay ↔
    HandedOver (sinceDrop l.journal) (l.data p).request.id ∧ ¬Acknowledged l.journal (l.data p).request.id

/-- An acknowledged request is not handed to the write pump again. -/
def NeverResent : List Note → Prop := Throughout fun note older => ∀ generation request task,
  note.Sends generation request task → ¬Acknowledged older request

theorem NeverResent.note {note : Note} (never : NeverResent journal) (silent : note.request = none) :
    NeverResent (note :: journal) :=
  ⟨fun generation request task sends => absurd sends (Note.not_sends silent generation request task), never⟩

namespace Ledger

variable {l l' : Ledger}

/-- Requests may leave and enter, with notes that neither send nor acknowledge. -/
theorem Replaying.keep (replaying : l.Replaying)
    (live : ∀ p ∈ l'.queue, (p ∈ l.queue ∧ l'.data p = l.data p) ∨
      (p ∉ l.queue ∧ (l'.data p).seq = 0 ∧ ¬HandedOver l.journal (l'.data p).request.id))
    (sublist : l'.replay.Sublist l.replay) (same : ∀ p ∈ l'.queue, p ∈ l'.replay ↔ p ∈ l.replay)
    (still : ∀ p ∈ l'.replay, p ∈ l'.queue)
    (handed : ∀ request, HandedOver (sinceDrop l'.journal) request ↔ HandedOver (sinceDrop l.journal) request)
    (acknowledged : ∀ request, Acknowledged l'.journal request ↔ Acknowledged l.journal request) :
    l'.Replaying := by
  have data : ∀ p ∈ l'.replay, l'.data p = l.data p := by
    intro p member
    rcases live p (still p member) with ⟨-, eq⟩ | ⟨absent, -⟩
    · exact eq
    · exact absurd (replaying.live p (sublist.subset member)) absent
  constructor
  case live => exact still
  case sorted =>
    refine (replaying.sorted.sublist sublist).imp_of_mem fun {p q} left right less => ?_
    rw [data p left, data q right]
    exact less
  case numbered =>
    intro p member
    rw [data p member]
    exact replaying.numbered p (sublist.subset member)
  case waiting =>
    intro p member q queued unlisted waits
    rcases live q queued with ⟨old, eq⟩ | ⟨-, fresh, -⟩
    · rw [eq] at waits
      rw [data p member, eq]
      exact replaying.waiting p (sublist.subset member) q old
        (fun listed => unlisted ((same q queued).mpr listed)) waits
    · exact absurd fresh waits.2
  case acknowledged =>
    intro p queued known
    rw [acknowledged] at known
    rcases live p queued with ⟨old, eq⟩ | ⟨-, -, unknown⟩
    · rw [eq] at known ⊢
      rw [same p queued]
      exact replaying.acknowledged p old known
    · exact absurd known.handedOver unknown
  case listed =>
    intro p queued
    rw [same p queued, handed, acknowledged]
    rcases live p queued with ⟨old, eq⟩ | ⟨absent, -, unknown⟩
    · rw [eq]
      exact replaying.listed p old
    · exact iff_of_false (fun listed => absent (replaying.live p listed)) fun known => unknown known.1.of_sinceDrop

section Hand

variable {p seq ackSequence id : Nat} {counter : SequenceCounter}

theorem mem_replay_hand {q : Nat} : q ∈ (l.act (.hand p seq ackSequence id counter)).replay ↔
    q ∈ l.replay ∨ q = p := by
  change q ∈ (if p ∈ l.replay then l.replay else l.replay ++ [p]) ↔ _
  split
  · next member => exact ⟨.inl, fun either => either.elim (fun listed => listed) fun same => same ▸ member⟩
  · simp

theorem Replaying.unacknowledged (replaying : l.Replaying) (selected : Selected l.data l.queue p) :
    ¬Acknowledged l.journal (l.data p).request.id := by
  intro known
  have sent := (replaying.acknowledged p selected.member known).1
  rw [selected.unsent] at sent
  cases sent

/-- A request that was not in the list is written after all that were. -/
theorem Replaying.hand_sorted (replaying : l.Replaying) (numbered : l.Numbered)
    (can : l.Can (.hand p seq ackSequence id counter)) :
    (l.act (.hand p seq ackSequence id counter)).replay.Pairwise fun q r =>
      ((l.act (.hand p seq ackSequence id counter)).data q).seq <
        ((l.act (.hand p seq ackSequence id counter)).data r).seq := by
  have selected := selectWrite_selected numbered.fifo can.2.1
  obtain ⟨-, -, -, keeps, above⟩ := numbered.hand_number can
  have kept : ∀ q ∈ l.replay, ((l.act (.hand p seq ackSequence id counter)).data q).seq = (l.data q).seq := by
    intro q listed
    by_cases same : q = p
    · subst same
      rw [hand_seq, keeps (replaying.numbered q listed)]
    · rw [hand_others same]
  have increasing := replaying.sorted.imp_of_mem fun {q r} left right less => by
    rwa [← kept q left, ← kept r right] at less
  change (if p ∈ l.replay then l.replay else l.replay ++ [p]).Pairwise _
  split
  · exact increasing
  · next unlisted =>
    refine pairwise_append.mpr ⟨increasing, pairwise_singleton _ _, fun q listed r last => ?_⟩
    rw [mem_singleton.mp last, kept q listed, hand_seq]
    by_cases fresh : (l.data p).seq = 0
    · exact above fresh _ (numbered.issued q (replaying.live q listed))
    · rw [keeps fresh]
      exact replaying.waiting q listed p selected.member unlisted ⟨selected.unsent, fresh⟩

/-- The write pump takes the requests that wait to be written again by their numbers. -/
theorem Replaying.hand_waiting (replaying : l.Replaying) (numbered : l.Numbered)
    (can : l.Can (.hand p seq ackSequence id counter)) {q r : Nat} (listed : r ∈ l.replay ∨ r = p)
    (queued : q ∈ l.queue) (other : q ≠ p) (unlisted : q ∉ l.replay) (waits : (l.data q).Waiting) :
    ((l.act (.hand p seq ackSequence id counter)).data r).seq < (l.data q).seq := by
  by_cases same : r = p
  · subst same
    have selected := selectWrite_selected numbered.fifo can.2.1
    have nonzero : (l.data r).seq ≠ 0 := fun fresh => selected.none_waiting fresh q queued waits
    have least := selected.least nonzero q queued waits
    have distinct : (l.data r).seq ≠ (l.data q).seq := fun number =>
      other (numbered.distinct q queued r selected.member number.symm waits.2)
    rw [hand_seq, (numbered.hand_number can).2.2.2.1 nonzero]
    omega
  · rw [hand_others same]
    exact replaying.waiting r (listed.resolve_right same) q queued unlisted waits

theorem Replaying.hand (replaying : l.Replaying) (held : l.InCustody) (numbered : l.Numbered)
    (can : l.Can (.hand p seq ackSequence id counter)) : (l.act (.hand p seq ackSequence id counter)).Replaying := by
  have selected := selectWrite_selected numbered.fifo can.2.1
  have unacknowledged := replaying.unacknowledged selected
  have ids : ∀ q, ((l.act (.hand p seq ackSequence id counter)).data q).request = (l.data q).request :=
    l.hand_request p seq ackSequence
  have acknowledged : ∀ request, Acknowledged (l.act (.hand p seq ackSequence id counter)).journal request ↔
      Acknowledged l.journal request := fun request => acknowledged_silent rfl nofun
  have handed : ∀ request, HandedOver (sinceDrop (l.act (.hand p seq ackSequence id counter)).journal) request ↔
      (l.data p).request.id = request ∨ HandedOver (sinceDrop l.journal) request := by
    intro request
    exact (handedOver_sinceDrop_cons rfl).trans (by simp [Note.request, requestTask, RequestBook.hand])
  constructor
  case live =>
    intro q member
    rcases mem_replay_hand.mp member with listed | rfl
    · exact replaying.live q listed
    · exact selected.member
  case sorted => exact replaying.hand_sorted numbered can
  case numbered =>
    intro q member
    by_cases same : q = p
    · subst same
      rw [hand_seq]
      exact hand_ne_zero can
    · rw [hand_others same]
      exact replaying.numbered q ((mem_replay_hand.mp member).resolve_right same)
  case waiting =>
    intro r listed q queued unlisted waits
    rw [mem_replay_hand, not_or] at unlisted
    rw [hand_others unlisted.2] at waits ⊢
    exact replaying.hand_waiting numbered can (mem_replay_hand.mp listed) queued unlisted.2 unlisted.1 waits
  case acknowledged =>
    intro q queued known
    rw [acknowledged, ids] at known
    have other : q ≠ p := by
      rintro rfl
      exact unacknowledged known
    obtain ⟨sent, unlisted⟩ := replaying.acknowledged q queued known
    rw [hand_others other]
    exact ⟨sent, fun listed => unlisted ((mem_replay_hand.mp listed).resolve_right other)⟩
  case listed =>
    intro q queued
    rw [mem_replay_hand, handed, acknowledged, ids]
    by_cases same : q = p
    · subst same
      simp [unacknowledged]
    · have apart : (l.data p).request.id ≠ (l.data q).request.id := fun number =>
        same (held.id_injective queued selected.member number.symm)
      simpa [same, apart] using replaying.listed q queued

end Hand

theorem Replaying.acknowledge (replaying : l.Replaying) (recorded : l.Recorded) (numbered : l.Numbered)
    {sequence : Nat} (inOrder : ¬l.Overtaken sequence) : (l.act (.acknowledge sequence)).Replaying := by
  have replay : (l.act (.acknowledge sequence)).replay = l.replay.filter fun p => sequence < (l.data p).seq :=
    dropWhile_eq_filter sequence replaying.sorted
  have mem : ∀ p, p ∈ (l.act (.acknowledge sequence)).replay ↔ p ∈ l.replay ∧ sequence < (l.data p).seq := by
    simp [replay]
  have handed : ∀ request, HandedOver (sinceDrop (l.act (.acknowledge sequence)).journal) request ↔
      HandedOver (sinceDrop l.journal) request := fun request =>
    (handedOver_sinceDrop_cons rfl).trans (by simp [Note.request])
  have acknowledged : ∀ request, Acknowledged (l.act (.acknowledge sequence)).journal request ↔
      (∃ task, SentIn (epoch l.journal) request task ∧ task.seq ≤ sequence) ∨ Acknowledged l.journal request :=
    fun request => (acknowledged_cons rfl).trans (by simp)
  have numberOf : ∀ p ∈ l.queue, ∀ task, SentIn (epoch l.journal) (l.data p).request.id task →
      task.seq = (l.data p).seq := fun p live task sent => congrArg SendContent.seq (numbered.same p live task sent)
  constructor
  case live => exact fun p member => replaying.live p ((mem p).mp member).1
  case sorted => rw [replay]; exact replaying.sorted.sublist filter_sublist
  case numbered => exact fun p member => replaying.numbered p ((mem p).mp member).1
  case waiting =>
    intro p listed q queued unlisted waits
    have above : sequence < (l.data q).seq := Nat.lt_of_not_le fun small => inOrder ⟨q, queued, waits, small⟩
    exact replaying.waiting p ((mem p).mp listed).1 q queued
      (fun member => unlisted ((mem q).mpr ⟨member, above⟩)) waits
  case acknowledged =>
    intro p queued known
    rcases (acknowledged _).mp known with ⟨task, sent, small⟩ | old
    · have number := numberOf p queued task sent
      have nonzero : (l.data p).seq ≠ 0 :=
        (recorded.numbered p queued).mpr ((recorded.executed p queued).mpr sent.handedOver)
      refine ⟨?_, fun listed => absurd ((mem p).mp listed).2 (by omega)⟩
      cases state : (l.data p).sent with
      | true => exact state
      | false => exact absurd ⟨p, queued, ⟨state, nonzero⟩, number ▸ small⟩ inOrder
    · obtain ⟨sent, unlisted⟩ := replaying.acknowledged p queued old
      exact ⟨sent, fun listed => unlisted ((mem p).mp listed).1⟩
  case listed =>
    intro p queued
    rw [mem, handed, acknowledged, replaying.listed p queued]
    constructor
    · rintro ⟨⟨sent, open'⟩, above⟩
      refine ⟨sent, fun known => ?_⟩
      rcases known with ⟨task, sent, small⟩ | old
      · have := numberOf p queued task sent
        omega
      · exact open' old
    · rintro ⟨sent, open'⟩
      obtain ⟨task, inEpoch⟩ := sentIn_of_sinceDrop sent
      have := numberOf p queued task inEpoch
      exact ⟨⟨sent, fun old => open' (.inr old)⟩, Nat.lt_of_not_le fun small =>
        open' (.inl ⟨task, inEpoch, by omega⟩)⟩

theorem Replaying.unsend (replaying : l.Replaying) {p : Nat} (member : p ∈ l.replay) :
    (l.act (.unsend p)).Replaying := by
  have same : ∀ q, ((l.act (.unsend p)).data q).seq = (l.data q).seq ∧
      (q ≠ p → (l.act (.unsend p)).data q = l.data q) := by
    intro q
    by_cases same : q = p
    · subst same
      simp [act, RequestBook.unsend]
    · simp [act, RequestBook.unsend, same]
  have ids : ∀ q, ((l.act (.unsend p)).data q).request = (l.data q).request := l.unsend_request p
  constructor
  case live => exact replaying.live
  case sorted => simp only [same]; exact replaying.sorted
  case numbered => intro q listed; rw [(same q).1]; exact replaying.numbered q listed
  case waiting =>
    intro q listed r queued unlisted waits
    have other : r ≠ p := fun eq => unlisted (eq ▸ member)
    rw [(same q).1, (same r).1]
    exact replaying.waiting q listed r queued unlisted ((same r).2 other ▸ waits)
  case acknowledged =>
    intro q queued known
    rw [ids] at known
    obtain ⟨sent, unlisted⟩ := replaying.acknowledged q queued known
    have other : q ≠ p := fun eq => unlisted (eq ▸ member)
    rw [(same q).2 other]
    exact ⟨sent, unlisted⟩
  case listed =>
    intro q queued
    rw [ids]
    exact replaying.listed q queued

/-- Nothing that was acknowledged is left once all sent requests are gone. -/
theorem Replaying.dropReplay (replaying : l.Replaying) (unsent : ∀ p ∈ l.queue, (l.data p).sent = false) :
    (l.act .dropReplay).Replaying where
  live := nofun
  sorted := .nil
  numbered := nofun
  waiting := nofun
  acknowledged := fun p queued known => by
    have before : Acknowledged (.replayDropped :: l.journal) (l.data p).request.id ↔
      Acknowledged l.journal (l.data p).request.id := acknowledged_silent rfl nofun
    have sent := (replaying.acknowledged p queued (before.mp known)).1
    rw [unsent p queued] at sent
    cases sent
  listed := fun p queued => by
    have none : sinceDrop (l.act .dropReplay).journal = [] := since_reset rfl
    refine iff_of_false nofun fun known => ?_
    simp [none, HandedOver] at known

theorem Replaying.finish (replaying : l.Replaying) (held : l.InCustody) (p : Nat) (result : SubmitResult)
    (remains : RequestData) : { l with toRequestBook := l.finish p result remains }.Replaying := by
  refine replaying.keep (fun q queued => .inl ?_) erase_sublist (fun q queued => ?_) (fun q listed => ?_)
    (fun request => (handedOver_sinceDrop_cons rfl).trans (by simp [Note.request]))
    fun request => acknowledged_silent rfl nofun
  · exact ⟨mem_of_mem_erase queued,
      l.finish_data_of_ne result remains (held.nodup.mem_erase_iff.mp queued).1⟩
  · exact mem_erase_of_ne (held.nodup.mem_erase_iff.mp queued).1
  · have nodup : l.replay.Nodup := replaying.sorted.imp fun less same => by
      rw [same] at less; exact Nat.lt_irrefl _ less
    obtain ⟨other, listed⟩ := nodup.mem_erase_iff.mp listed
    exact held.nodup.mem_erase_iff.mpr ⟨other, replaying.live q listed⟩

theorem replaying_act {action : Action} (held : l.InCustody) (recorded : l.Recorded) (numbered : l.Numbered)
    (replaying : l.Replaying) (can : l.Can action)
    (inOrder : ∀ sequence, action = .acknowledge sequence → ¬l.Overtaken sequence) : (l.act action).Replaying := by
  cases action with
  | register command message bytes =>
    refine replaying.keep (fun p queued => ?_) (List.Sublist.refl _) (fun _ _ => Iff.rfl)
      (fun p listed => mem_append_left _ (replaying.live p listed))
      (fun request => (handedOver_sinceDrop_cons rfl).trans (by simp [Note.request]))
      fun request => acknowledged_silent rfl fun _ same => by cases same
    rcases held.register_cases command message bytes p queued with old | ⟨new, data⟩
    · exact .inl old
    · refine .inr ⟨new, by simp [act, data], fun handed => ?_⟩
      simp only [act, data] at handed
      have := recorded.issued _ handed
      have := can.1
      omega
  | finish p result remains => exact replaying.finish held p result remains
  | expire p cause remains => exact replaying.finish held p _ remains
  | hand p seq ackSequence id counter => exact replaying.hand held numbered can
  | acknowledge sequence => exact replaying.acknowledge recorded numbered (inOrder sequence rfl)
  | unsend p => exact replaying.unsend can.1
  | dropReplay => exact replaying.dropReplay can
  | control task =>
    exact replaying.keep (fun _ queued => .inl ⟨queued, rfl⟩) (List.Sublist.refl _)
      (fun _ _ => Iff.rfl) replaying.live
      (fun request => (handedOver_sinceDrop_cons rfl).trans
        (by simp [Note.request, show task.request = none from can]))
      fun request => acknowledged_silent rfl fun _ same => by cases same
  | refuse | start =>
    exact replaying.keep (fun _ queued => .inl ⟨queued, rfl⟩) (List.Sublist.refl _)
      (fun _ _ => Iff.rfl) replaying.live
      (fun request => (handedOver_sinceDrop_cons rfl).trans (by simp [Note.request]))
      fun request => acknowledged_silent rfl fun _ same => by cases same
  | renumber =>
    refine ⟨replaying.live, replaying.sorted, replaying.numbered, replaying.waiting, ?_, ?_⟩ <;>
      simp [act, RequestBook.note, can.1]
  | offline | retire | establish | close | stop =>
    exact replaying.keep (fun _ queued => .inl ⟨queued, rfl⟩) (List.Sublist.refl _)
      (fun _ _ => Iff.rfl) replaying.live
      (fun _ => Iff.rfl) fun _ => Iff.rfl

theorem neverResent_act {action : Action} (replaying : l.Replaying) (can : l.Can action)
    (never : NeverResent l.journal) : NeverResent (l.act action).journal := by
  cases action with
  | hand p seq ackSequence id counter =>
    refine ⟨fun generation request task sends known => ?_, never⟩
    obtain ⟨same, isRequest⟩ := sends
    obtain ⟨rfl, rfl⟩ := Note.wrote.inj same
    cases isRequest
    obtain ⟨member, unsent⟩ := selectWrite_mem can.2.1
    have sent := (replaying.acknowledged p member known).1
    rw [unsent] at sent
    cases sent
  | control task => exact never.note can
  | refuse | register | finish | expire | acknowledge | dropReplay | renumber | start => exact never.note rfl
  | unsend | offline | retire | establish | close | stop => exact never

end Ledger

end RadosGo
