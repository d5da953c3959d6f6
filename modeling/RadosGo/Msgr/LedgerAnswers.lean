import RadosGo.Msgr.RequestLedger

namespace RadosGo

open Function List

def Note.answeredTo : Note → Option Nat
  | .answered command _ => some command.id
  | _ => none

/-- A note which neither accepts nor answers a command. -/
def Note.Silent (note : Note) : Prop :=
  (∀ command, note ≠ .accepted command) ∧ ∀ command result, note ≠ .answered command result

/-- The commands which are owed an answer, against the history of answers. -/
structure AnswerCustody (owed : List SubmitCommand) (commands : Nat) (journal : List Note) : Prop where
  issued : ∀ command ∈ owed, command.id < commands
  distinct : (owed.map (·.id)).Nodup
  accepted_lt : ∀ command, .accepted command ∈ journal → command.id < commands
  answered_lt : ∀ id ∈ journal.filterMap Note.answeredTo, id < commands
  owed_iff : ∀ command, command ∈ owed ↔
    .accepted command ∈ journal ∧ command.id ∉ journal.filterMap Note.answeredTo
  once : (journal.filterMap Note.answeredTo).Nodup

namespace AnswerCustody

variable {owed : List SubmitCommand} {commands : Nat} {journal : List Note}

theorem note (custody : AnswerCustody owed commands journal) {note : Note} (silent : note.Silent) :
    AnswerCustody owed commands (note :: journal) := by
  have unanswered : note.answeredTo = none := by
    cases note with
    | answered command result => exact absurd rfl (silent.2 command result)
    | _ => rfl
  have answers := filterMap_cons_none (l := journal) unanswered
  have accepts : ∀ command, .accepted command ∈ note :: journal ↔ .accepted command ∈ journal := by
    intro command
    rw [mem_cons, or_iff_right (silent.1 command).symm]
  constructor
  case issued => exact custody.issued
  case distinct => exact custody.distinct
  case accepted_lt => exact fun command noted => custody.accepted_lt command ((accepts command).mp noted)
  case answered_lt => rw [answers]; exact custody.answered_lt
  case owed_iff => intro command; rw [answers, accepts, custody.owed_iff]
  case once => rw [answers]; exact custody.once

variable {command : SubmitCommand}

variable (custody : AnswerCustody owed commands journal)
include custody

theorem refuse (result : SubmitResult) (next : command.id = commands) :
    AnswerCustody owed (commands + 1) (.answered command result :: journal) := by
  have answers : (Note.answered command result :: journal).filterMap Note.answeredTo =
      command.id :: journal.filterMap Note.answeredTo := rfl
  have accepts : ∀ other, .accepted other ∈ Note.answered command result :: journal ↔ .accepted other ∈ journal := by
    simp
  constructor
  case issued => exact fun other member => Nat.lt_succ_of_lt (custody.issued other member)
  case distinct => exact custody.distinct
  case accepted_lt =>
    exact fun other noted => Nat.lt_succ_of_lt (custody.accepted_lt other ((accepts other).mp noted))
  case answered_lt =>
    intro id member
    rcases mem_cons.mp (answers ▸ member) with rfl | member
    · omega
    · exact Nat.lt_succ_of_lt (custody.answered_lt id member)
  case owed_iff =>
    intro other
    rw [answers, accepts, custody.owed_iff, mem_cons, not_or]
    refine ⟨fun ⟨noted, unanswered⟩ => ⟨noted, ?_, unanswered⟩, fun ⟨noted, _, unanswered⟩ => ⟨noted, unanswered⟩⟩
    have := custody.accepted_lt other noted
    omega
  case once =>
    rw [answers, nodup_cons]
    refine ⟨fun member => ?_, custody.once⟩
    have := custody.answered_lt _ member
    omega

theorem register (next : command.id = commands) :
    AnswerCustody (owed ++ [command]) (commands + 1) (.accepted command :: journal) := by
  have answers : (Note.accepted command :: journal).filterMap Note.answeredTo =
      journal.filterMap Note.answeredTo := rfl
  have foreign : ∀ other ∈ owed, other.id ≠ command.id := by
    intro other member
    have := custody.issued other member
    omega
  constructor
  case issued =>
    intro other member
    rcases mem_append.mp member with member | member
    · exact Nat.lt_succ_of_lt (custody.issued other member)
    · rw [mem_singleton.mp member]
      omega
  case distinct =>
    rw [map_append, map_singleton, ← concat_eq_append, nodup_concat]
    refine ⟨fun member => ?_, custody.distinct⟩
    obtain ⟨other, listed, same⟩ := mem_map.mp member
    exact foreign other listed same
  case accepted_lt =>
    intro other noted
    rcases mem_cons.mp noted with same | noted
    · obtain rfl := Note.accepted.inj same
      omega
    · exact Nat.lt_succ_of_lt (custody.accepted_lt other noted)
  case answered_lt => exact fun id member => Nat.lt_succ_of_lt (custody.answered_lt id member)
  case owed_iff =>
    intro other
    have unanswered : command.id ∉ journal.filterMap Note.answeredTo := by
      intro member
      have := custody.answered_lt _ member
      omega
    rw [answers, mem_append, custody.owed_iff, mem_singleton, mem_cons, Note.accepted.injEq]
    constructor
    · rintro (⟨noted, open'⟩ | rfl)
      · exact ⟨.inr noted, open'⟩
      · exact ⟨.inl rfl, unanswered⟩
    · rintro ⟨rfl | noted, open'⟩
      · exact .inr rfl
      · exact .inl ⟨noted, open'⟩
  case once => exact custody.once

theorem settle {rest : List SubmitCommand} (result : SubmitResult) (member : command ∈ owed)
    (fewer : List.Sublist rest owed) (others : ∀ other, other ∈ rest ↔ other ∈ owed ∧ other.id ≠ command.id) :
    AnswerCustody rest commands (.answered command result :: journal) := by
  have answers : (Note.answered command result :: journal).filterMap Note.answeredTo =
      command.id :: journal.filterMap Note.answeredTo := rfl
  have accepts : ∀ other, .accepted other ∈ Note.answered command result :: journal ↔ .accepted other ∈ journal := by
    simp
  constructor
  case issued => exact fun other listed => custody.issued other (fewer.subset listed)
  case distinct => exact custody.distinct.sublist (fewer.map _)
  case accepted_lt => exact fun other noted => custody.accepted_lt other ((accepts other).mp noted)
  case answered_lt =>
    intro id answered
    rcases mem_cons.mp (answers ▸ answered) with rfl | answered
    · exact custody.issued command member
    · exact custody.answered_lt id answered
  case owed_iff =>
    intro other
    rw [others, answers, accepts, custody.owed_iff, mem_cons, not_or]
    tauto
  case once =>
    rw [answers, nodup_cons]
    exact ⟨((custody.owed_iff command).mp member).2, custody.once⟩

end AnswerCustody

def RequestBook.owed (b : RequestBook) : List SubmitCommand := b.queue.map fun p => (b.data p).request

/-- The queue of live requests, and the commands which they stand for. -/
structure RequestBook.InCustody (b : RequestBook) : Prop where
  nodup : b.queue.Nodup
  allocated : ∀ p ∈ b.queue, p < b.allocated
  custody : AnswerCustody b.owed b.commands b.journal

namespace RequestBook

variable {b : RequestBook}

variable (held : b.InCustody)
include held

theorem InCustody.id_injective {p q : Nat} (left : p ∈ b.queue) (right : q ∈ b.queue)
    (same : (b.data p).request.id = (b.data q).request.id) : p = q := by
  have distinct := held.custody.distinct
  rw [owed, map_map] at distinct
  exact inj_on_of_nodup_map distinct left right same

theorem InCustody.register {command : SubmitCommand} (message : Message) (bytes : Nat)
    (next : command.id = b.commands) : (b.register command message bytes).InCustody := by
  have fresh : b.allocated ∉ b.queue := fun member => Nat.lt_irrefl _ (held.allocated _ member)
  have owes : (b.register command message bytes).owed = b.owed ++ [command] := by
    simp only [owed, RequestBook.register, map_append, map_cons, map_nil, update_self]
    congr 1
    exact map_congr_left fun p member => by rw [update_of_ne (ne_of_mem_of_not_mem member fresh)]
  constructor
  case nodup =>
    simp only [RequestBook.register, ← concat_eq_append, nodup_concat]
    exact ⟨fresh, held.nodup⟩
  case allocated =>
    intro p member
    rcases mem_append.mp member with member | member
    · exact Nat.lt_succ_of_lt (held.allocated p member)
    · exact mem_singleton.mp member ▸ Nat.lt_succ_self _
  case custody => rw [owes]; exact held.custody.register next

/-- A live request was live before or is the one just admitted. -/
theorem InCustody.register_cases (command : SubmitCommand) (message : Message) (bytes p : Nat)
    (member : p ∈ (b.register command message bytes).queue) :
    (p ∈ b.queue ∧ (b.register command message bytes).data p = b.data p) ∨
      (p ∉ b.queue ∧ (b.register command message bytes).data p =
        { request := command, message := message, bytes := bytes }) := by
  rcases mem_append.mp member with member | member
  · exact .inl ⟨member, b.register_data_of_ne command message bytes (Nat.ne_of_lt (held.allocated p member))⟩
  · rw [mem_singleton.mp member]
    exact .inr ⟨fun live => Nat.lt_irrefl _ (held.allocated _ live), update_self ..⟩

theorem InCustody.finish {p : Nat} (result : SubmitResult) (remains : RequestData) (member : p ∈ b.queue) :
    (b.finish p result remains).InCustody := by
  have owes : (b.finish p result remains).owed = (b.queue.erase p).map fun q => (b.data q).request := by
    simp only [owed, RequestBook.finish]
    refine map_congr_left fun q listed => ?_
    rw [update_of_ne (held.nodup.mem_erase_iff.mp listed).1]
  constructor
  case nodup => exact held.nodup.erase p
  case allocated => exact fun q listed => held.allocated q (mem_of_mem_erase listed)
  case custody =>
    rw [owes]
    refine held.custody.settle result (mem_map_of_mem member) (erase_sublist.map _) fun other => ?_
    simp only [owed, mem_map, held.nodup.mem_erase_iff]
    constructor
    · rintro ⟨q, ⟨distinct, live⟩, rfl⟩
      exact ⟨⟨q, live, rfl⟩, fun same => distinct (held.id_injective live member same)⟩
    · rintro ⟨⟨q, live, rfl⟩, distinct⟩
      exact ⟨q, ⟨fun same => distinct (by rw [same]), live⟩, rfl⟩

theorem InCustody.congr {b' : RequestBook} (queue : b'.queue = b.queue) (allocated : b'.allocated = b.allocated)
    (requests : ∀ p, (b'.data p).request = (b.data p).request)
    (custody : AnswerCustody b.owed b'.commands b'.journal) : b'.InCustody where
  nodup := queue ▸ held.nodup
  allocated := by rw [queue, allocated]; exact held.allocated
  custody := by simpa only [owed, queue, requests] using custody

end RequestBook

theorem Ledger.inCustody_act {l : Ledger} {action : Action} (held : l.InCustody) (can : l.Can action) :
    (l.act action).InCustody := by
  cases action with
  | refuse command err => exact held.congr rfl rfl (fun _ => rfl) (held.custody.refuse _ can.1)
  | register command message bytes => exact held.register message bytes can.1
  | finish p result remains => exact held.finish result remains can.1
  | expire p cause remains => exact held.finish _ remains can.1
  | hand p seq ackSequence id counter =>
    exact held.congr rfl rfl (l.hand_request p seq ackSequence) (held.custody.note ⟨nofun, nofun⟩)
  | unsend p => exact held.congr rfl rfl (l.unsend_request p) held.custody
  | control | acknowledge | dropReplay | renumber | start =>
    exact held.congr rfl rfl (fun _ => rfl) (held.custody.note ⟨nofun, nofun⟩)
  | offline | retire | establish | close | stop => exact held

/-- The request whose message a note hands to the write pump. -/
def Note.request : Note → Option Nat
  | .wrote _ task => task.request
  | _ => none

/-- The message of a request was given to the write pump. -/
def HandedOver (journal : List Note) (request : Nat) : Prop := ∃ note ∈ journal, note.request = some request

theorem handedOver_cons {note : Note} {journal : List Note} {request : Nat} :
    HandedOver (note :: journal) request ↔ note.request = some request ∨ HandedOver journal request := by
  simp [HandedOver]

/-- The flags of the live requests say what the history says about them. -/
structure RequestBook.Recorded (b : RequestBook) : Prop where
  executed : ∀ p ∈ b.queue, (b.data p).mayHaveExecuted = true ↔ HandedOver b.journal (b.data p).request.id
  sent : ∀ p ∈ b.queue, (b.data p).sent = true → (b.data p).seq ≠ 0
  numbered : ∀ p ∈ b.queue, (b.data p).seq ≠ 0 ↔ (b.data p).mayHaveExecuted = true
  issued : ∀ request, HandedOver b.journal request → request < b.commands

namespace RequestBook

variable {b : RequestBook}

variable (recorded : b.Recorded)
include recorded

theorem Recorded.note {note : Note} (silent : note.request = none) : (b.note note).Recorded := by
  have same : ∀ request, HandedOver (note :: b.journal) request ↔ HandedOver b.journal request := by
    simp [handedOver_cons, silent]
  exact ⟨fun p member => (recorded.executed p member).trans (same _).symm, recorded.sent, recorded.numbered,
    fun request handed => recorded.issued request ((same request).mp handed)⟩

/-- A request which is not live any more, or not yet, tells nothing. -/
theorem Recorded.forget {b' : RequestBook} (fewer : ∀ p ∈ b'.queue, p ∈ b.queue)
    (data : ∀ p ∈ b'.queue, b'.data p = b.data p) (commands : b.commands ≤ b'.commands)
    (journal : ∀ request, HandedOver b'.journal request ↔ HandedOver b.journal request) : b'.Recorded where
  executed := fun p member => by
    rw [data p member, journal]
    exact recorded.executed p (fewer p member)
  sent := fun p member => by
    rw [data p member]
    exact recorded.sent p (fewer p member)
  numbered := fun p member => by
    rw [data p member]
    exact recorded.numbered p (fewer p member)
  issued := fun request handed => Nat.lt_of_lt_of_le (recorded.issued request ((journal request).mp handed)) commands

theorem Recorded.register (held : b.InCustody) {command : SubmitCommand} (message : Message) (bytes : Nat)
    (next : command.id = b.commands) : (b.register command message bytes).Recorded := by
  have unknown : ¬HandedOver b.journal command.id := fun handed => by
    have := recorded.issued _ handed
    omega
  have same : ∀ request, HandedOver (.accepted command :: b.journal) request ↔ HandedOver b.journal request := by
    simp [handedOver_cons, Note.request]
  have split := held.register_cases command message bytes
  constructor
  case executed =>
    intro p member
    rcases split p member with ⟨old, data⟩ | ⟨-, data⟩
    · rw [data]
      exact (recorded.executed p old).trans (same _).symm
    · rw [data]
      exact iff_of_false (by simp) fun handed => unknown ((same _).mp handed)
  case sent =>
    intro p member
    rcases split p member with ⟨old, data⟩ | ⟨-, data⟩
    · rw [data]
      exact recorded.sent p old
    · simp [data]
  case numbered =>
    intro p member
    rcases split p member with ⟨old, data⟩ | ⟨-, data⟩
    · rw [data]
      exact recorded.numbered p old
    · simp [data]
  case issued => exact fun request handed => Nat.lt_succ_of_lt (recorded.issued request ((same request).mp handed))

theorem Recorded.finish (held : b.InCustody) (p : Nat) (result : SubmitResult) (remains : RequestData) :
    (b.finish p result remains).Recorded := by
  refine recorded.forget (fun q => mem_of_mem_erase) (fun q member => ?_) (Nat.le_refl _) (fun request => ?_)
  · exact b.finish_data_of_ne result remains (held.nodup.mem_erase_iff.mp member).1
  · simp [RequestBook.finish, handedOver_cons, Note.request]

theorem Recorded.hand (held : b.InCustody) {p seq ackSequence generation : Nat} {task : WriteTask}
    (member : p ∈ b.queue) (numbered : seq ≠ 0) (task_request : task.request = some (b.data p).request.id) :
    ((b.hand p seq ackSequence).note (.wrote generation task)).Recorded := by
  constructor
  case executed =>
    intro q live
    simp only [RequestBook.note, handedOver_cons, Note.request, task_request, hand_request, Option.some.injEq]
    by_cases same : q = p
    · subst same
      simp [hand_data_self, handed]
    · rw [b.hand_data_of_ne seq ackSequence same, recorded.executed q live]
      have other : (b.data p).request.id ≠ (b.data q).request.id := fun ids =>
        same (held.id_injective live member ids.symm)
      simp only [other, false_or]
      rfl
  case sent =>
    intro q live
    by_cases same : q = p
    · subst same
      simpa [RequestBook.note, hand_data_self, handed] using numbered
    · simpa only [RequestBook.note, b.hand_data_of_ne seq ackSequence same] using recorded.sent q live
  case numbered =>
    intro q live
    by_cases same : q = p
    · subst same
      simpa [RequestBook.note, hand_data_self, handed] using numbered
    · simpa only [RequestBook.note, b.hand_data_of_ne seq ackSequence same] using recorded.numbered q live
  case issued =>
    intro request handed
    rcases handedOver_cons.mp handed with written | old
    · simp only [Note.request, task_request, Option.some.injEq] at written
      subst written
      exact held.custody.issued _ (mem_map_of_mem member)
    · exact recorded.issued request old

theorem Recorded.unsend (p : Nat) : (b.unsend p).Recorded := by
  have kept : ∀ q, ((b.unsend p).data q).seq = (b.data q).seq ∧
      ((b.unsend p).data q).mayHaveExecuted = (b.data q).mayHaveExecuted ∧
      (((b.unsend p).data q).sent = true → (b.data q).sent = true) := by
    intro q
    by_cases same : q = p
    · subst same
      simp [RequestBook.unsend]
    · simp [RequestBook.unsend, same]
  constructor
  case executed => intro q live; rw [(kept q).2.1, unsend_request]; exact recorded.executed q live
  case sent => intro q live sent; rw [(kept q).1]; exact recorded.sent q live ((kept q).2.2 sent)
  case numbered => intro q live; rw [(kept q).1, (kept q).2.1]; exact recorded.numbered q live
  case issued => exact recorded.issued

end RequestBook

theorem SequenceCounter.allocateSequence_ne_zero {counter counter' : SequenceCounter} {seq : Nat}
    (run : counter.allocateSequence = .ok (seq, counter')) : seq ≠ 0 := by
  obtain ⟨-, rfl, -⟩ := allocateSequence_ok run
  split <;> omega

/-- An answer names an unknown outcome exactly when the request was handed over before. -/
def Honest : List Note → Prop := Throughout fun note older => ∀ command result err,
  note = .answered command result → command.control = false → result.err = some err →
    (err.Is .outcomeUnknown = true ↔ HandedOver older command.id)

theorem Honest.note {journal : List Note} {note : Note} (honest : Honest journal)
    (silent : ∀ command result, note ≠ .answered command result) : Honest (note :: journal) :=
  ⟨fun command result _ same => absurd same (silent command result), honest⟩

/-- A closed owner has no live requests, and the error it closed with is known. -/
structure Ledger.Closed (l : Ledger) : Prop where
  empty : l.terminalErr ≠ none ∨ l.stage = .stopped → l.queue = []
  known : ∀ err, l.terminalErr = some err → err.Is .outcomeUnknown = false

namespace Ledger

variable {l : Ledger} {action : Action}

theorem hand_ne_zero {p seq ackSequence id : Nat} {counter : SequenceCounter}
    (can : l.Can (.hand p seq ackSequence id counter)) : seq ≠ 0 := by
  obtain ⟨-, -, number⟩ := can
  split at number
  · exact SequenceCounter.allocateSequence_ne_zero number
  · rename_i numbered
    rw [number.1]
    exact numbered

theorem recorded_act (held : l.InCustody) (recorded : l.Recorded) (can : l.Can action) :
    (l.act action).Recorded := by
  cases action with
  | refuse command err =>
    exact recorded.forget (fun _ => id) (fun _ _ => rfl) (Nat.le_succ _)
      (by simp [act, RequestBook.refuse, handedOver_cons, Note.request])
  | register command message bytes => exact recorded.register held message bytes can.1
  | finish p result remains => exact recorded.finish held p result remains
  | expire p cause remains => exact recorded.finish held p _ remains
  | hand p seq ackSequence id counter =>
    exact recorded.hand held (selectWrite_mem can.2.1).1 (hand_ne_zero can) rfl
  | unsend p => exact recorded.unsend p
  | control task => exact recorded.note can
  | acknowledge sequence =>
    exact recorded.forget (fun _ => id) (fun _ _ => rfl) (Nat.le_refl _)
      (by simp [act, RequestBook.acknowledge, handedOver_cons, Note.request])
  | dropReplay =>
    exact recorded.forget (fun _ => id) (fun _ _ => rfl) (Nat.le_refl _)
      (by simp [act, RequestBook.dropReplay, handedOver_cons, Note.request])
  | renumber | start => exact recorded.note rfl
  | offline | retire | establish | close | stop => exact recorded

/-- Every change but an expiry keeps the answers honest. -/
theorem honest_act (recorded : l.Recorded) (can : l.Can action)
    (notExpired : ∀ p cause remains, action ≠ .expire p cause remains) (honest : Honest l.journal) :
    Honest (l.act action).journal := by
  cases action with
  | refuse command err =>
    refine ⟨fun other result cause same _ failed => ?_, honest⟩
    obtain ⟨rfl, rfl⟩ := Note.answered.inj same
    cases failed
    refine iff_of_false (by simp [can.2]) fun handed => ?_
    have := recorded.issued _ handed
    have := can.1
    omega
  | finish p result remains =>
    refine ⟨fun other outcome cause same application failed => ?_, honest⟩
    obtain ⟨rfl, rfl⟩ := Note.answered.inj same
    rw [can.2 application cause failed]
    exact recorded.executed p can.1
  | expire p cause remains => exact absurd rfl (notExpired p cause remains)
  | register | hand | control | acknowledge | dropReplay | renumber | start => exact honest.note nofun
  | unsend | offline | retire | establish | close | stop => exact honest

/-- An expiry gives a plain context error to a request that may have executed. -/
theorem not_honest_expire (p : Nat) (cause : ContextError) (remains : RequestData) (recorded : l.Recorded)
    (can : l.Can (.expire p cause remains)) : ¬Honest (l.act (.expire p cause remains)).journal := by
  rintro ⟨answer, -⟩
  have matched := (answer _ _ cause.error rfl can.2.1 rfl).mpr ((recorded.executed p can.1).mp can.2.2)
  simp at matched

theorem closed_act (closed : l.Closed) (can : l.Can action) : (l.act action).Closed := by
  obtain ⟨empty, known⟩ := closed
  cases action with
  | register command message bytes =>
    refine ⟨fun shut => ?_, known⟩
    rcases shut with failed | stopped
    · exact absurd can.2.1 failed
    · exact absurd stopped can.2.2
  | finish p result remains | expire p result remains =>
    refine ⟨fun shut => ?_, known⟩
    have := can.1
    rw [empty shut] at this
    cases this
  | close err => exact ⟨fun _ => can.1, fun other same => Option.some.inj same ▸ can.2⟩
  | stop => exact ⟨fun _ => can, known⟩
  | offline | start | establish => exact ⟨fun shut => empty (.inl (by simpa [act] using shut)), known⟩
  | refuse | hand | control | acknowledge | unsend | dropReplay | renumber | retire => exact ⟨empty, known⟩

end Ledger

end RadosGo
