import RadosGo.Library.Meets
import RadosGo.Msgr.SecureAccepts

namespace RadosGo

open Failing

namespace SecureDirection

variable {direction : SecureDirection} {count : Nat}

/-- How many records the direction may still have. -/
def remainingNonces (direction : SecureDirection) : Nat :=
  if direction.exhausted then 0 else maxUint64 - direction.counter + 1

theorem availableLocked_iff : direction.availableLocked count ↔ count ≤ direction.remainingNonces := by
  have bounded := direction.bounded
  rw [availableLocked, remainingNonces]
  cases direction.exhausted with
  | true => simp
  | false =>
    simp
    omega

/-- The direction after its nonce was used. -/
def spend (direction : SecureDirection) : SecureDirection := direction.advance.given direction.nonce

@[simp] theorem advance_aead : direction.advance.aead = direction.aead := by
  rw [advance]
  split <;> rfl

theorem availableLocked_spend (available : direction.availableLocked (count + 1)) :
    direction.spend.availableLocked count := by
  rw [availableLocked_iff, remainingNonces] at available ⊢
  have bounded := direction.bounded
  rw [spend, advance, given]
  cases dry : direction.exhausted with
  | true => simp [dry] at available
  | false =>
    simp only [dry, Bool.false_eq_true, if_false] at available
    split
    · simp only [if_true]
      omega
    · simp only [Bool.false_eq_true, if_false]
      omega

theorem availableLocked_mono {less : Nat} (available : direction.availableLocked count) (fewer : less ≤ count) :
    direction.availableLocked less := by
  rw [availableLocked_iff] at available ⊢
  omega

theorem exec_nonceLocked (available : direction.availableLocked 1) :
    nonceLocked.exec direction = (.ok direction.nonce, direction.advance) := by
  rw [nonceLocked, exec_bind (exec_get _)]
  dsimp only
  rw [if_neg (by simp [available]), exec_bind (exec_set ..)]
  rfl

theorem exec_nonceLocked_dry (dry : ¬direction.availableLocked 1) :
    nonceLocked.exec direction = (.error (GoError.sentinel .counterExhausted), direction) := by
  rw [nonceLocked, exec_bind (exec_get _)]
  dsimp only
  rw [if_pos (by simpa using dry)]
  rfl

theorem exec_sealLocked (available : direction.availableLocked (count + 1)) (plaintext : Bytes) :
    (sealLocked plaintext).exec direction =
      (.ok (direction.aead.seals direction.nonce plaintext), direction.spend) := by
  have one := availableLocked_mono available (Nat.succ_le_succ (Nat.zero_le count))
  rw [sealLocked, exec_bind (exec_nonceLocked one), exec_bind (exec_get _), exec_bind (exec_set ..), advance_aead]
  rfl

/-- The records of some plaintexts, one after the other. -/
def sealAll (direction : SecureDirection) : List Bytes → Bytes
  | [] => []
  | plaintext :: rest => direction.aead.seals direction.nonce plaintext ++ sealAll direction.spend rest

/-- The direction after some records. -/
def after (direction : SecureDirection) : Nat → SecureDirection
  | 0 => direction
  | count + 1 => direction.spend.after count

theorem sealAll_append (direction : SecureDirection) (first second : List Bytes) :
    direction.sealAll (first ++ second) = direction.sealAll first ++
      (direction.after first.length).sealAll second := by
  induction first generalizing direction with
  | nil => rfl
  | cons plaintext rest ih => rw [List.cons_append, sealAll, ih, sealAll, List.append_assoc, List.length_cons, after]

theorem after_add (direction : SecureDirection) (first second : Nat) :
    direction.after (first + second) = (direction.after first).after second := by
  induction first generalizing direction with
  | zero => rw [Nat.zero_add, after]
  | succ first ih => rw [Nat.succ_add, after, ih, after]

theorem availableLocked_after {first second : Nat} (available : direction.availableLocked (first + second)) :
    (direction.after first).availableLocked second := by
  induction first generalizing direction with
  | zero => rwa [Nat.zero_add] at available
  | succ first ih =>
    rw [Nat.succ_add] at available
    exact ih (availableLocked_spend available)

/-- The nonces were used one after the other, so the present one is new unless it is the last one. -/
structure Fresh (direction : SecureDirection) : Prop where
  nodup : direction.nonces.Nodup
  used : ∀ nonce ∈ direction.nonces, ∃ number, nonce = littleEndian 4 direction.fixed ++ littleEndian 8 number ∧
    (number < direction.counter ∨ number = direction.counter ∧ direction.exhausted)

theorem nonce_inj {fixed first second : Nat} (small : first ≤ maxUint64) (small' : second ≤ maxUint64)
    (same : littleEndian 4 fixed ++ littleEndian 8 first = littleEndian 4 fixed ++ littleEndian 8 second) :
      first = second := by
  have equal := congrArg fromLittleEndian (List.append_cancel_left same)
  rw [fromLittleEndian_littleEndian, fromLittleEndian_littleEndian,
    Nat.mod_eq_of_lt (show first < 256 ^ 8 from Nat.lt_succ_of_le small),
    Nat.mod_eq_of_lt (show second < 256 ^ 8 from Nat.lt_succ_of_le small')] at equal
  exact equal

theorem Fresh.spend (fresh : direction.Fresh) (available : direction.availableLocked 1) : direction.spend.Fresh := by
  have bounded := direction.bounded
  have running : direction.exhausted = false := by
    rw [availableLocked_iff, remainingNonces] at available
    cases dry : direction.exhausted with
    | true => simp [dry] at available
    | false => rfl
  have new : direction.nonce ∉ direction.nonces := by
    intro member
    obtain ⟨number, same, before | ⟨-, dry⟩⟩ := fresh.used _ member
    · have := nonce_inj bounded (by omega) same
      omega
    · rw [running] at dry
      cases dry
  have nodup := List.nodup_cons.mpr ⟨new, fresh.nodup⟩
  rw [SecureDirection.spend, advance]
  split
  · refine ⟨nodup, List.forall_mem_cons.mpr ⟨⟨direction.counter, rfl, .inr ⟨rfl, rfl⟩⟩, fun nonce member => ?_⟩⟩
    obtain ⟨number, same, before | ⟨-, dry⟩⟩ := fresh.used nonce member
    · exact ⟨number, same, .inl before⟩
    · rw [running] at dry
      cases dry
  · refine ⟨nodup, List.forall_mem_cons.mpr
      ⟨⟨direction.counter, rfl, .inl (Nat.lt_succ_self _)⟩, fun nonce member => ?_⟩⟩
    obtain ⟨number, same, before | ⟨-, dry⟩⟩ := fresh.used nonce member
    · exact ⟨number, same, .inl (Nat.lt_succ_of_lt before)⟩
    · rw [running] at dry
      cases dry

theorem Fresh.after (fresh : direction.Fresh) (available : direction.availableLocked count) :
    (direction.after count).Fresh := by
  induction count generalizing direction with
  | zero => exact fresh
  | succ count ih =>
    exact ih (fresh.spend (availableLocked_mono available (by omega))) (availableLocked_spend available)

end SecureDirection

section Encode

open SecureDirection

variable {lease : Option LeasedPayload} {frame : Frame} {limits : Limits} {direction : SecureDirection}

/-- The plaintext of the record with the rest of a first segment. -/
def secondPlaintexts (first : Bytes) : List Bytes :=
  if paddedSecureLength first.length > secureInlineSize then [secondPlaintext first] else []

/-- The plaintexts of the records of a frame. -/
def plaintexts (lease : Option LeasedPayload) (tag : Tag) (prepared : Prepared) : List Bytes :=
  let first := (prepared.segments.headD ⟨0, []⟩).data
  firstPlaintext tag prepared.descriptors first :: (secondPlaintexts first ++
    if prepared.segments.length = 1 then [] else [remainingPlaintext lease prepared.segments.tail])

theorem plaintexts_length (accepts : SecureAccepts frame limits) :
    (plaintexts lease frame.tag frame.prepared).length = frame.prepared.records := by
  obtain ⟨first, rest, split⟩ := List.exists_cons_of_length_pos accepts.some
  have shape : trimSegments frame.segments = first :: rest.rdropWhile (fun segment => segment.data.length = 0) := by
    rw [split, trimSegments]
  simp only [plaintexts, secondPlaintexts, Frame.prepared, Frame.lengths, secureRecords, shape, List.headD_cons,
    List.map_cons, List.length_cons, List.length_append, List.length_map]
  generalize (rest.rdropWhile (fun segment => segment.data.length = 0)).length = others
  cases others with
  | zero =>
    split <;> rfl
  | succ others =>
    rw [if_neg (show ¬others + 1 + 1 = 1 by omega), if_pos (show others + 1 + 1 > 1 by omega)]
    split <;> rfl

theorem exec_encodeInto_refused {err : GoError} (refused : prepareSecureFrame frame limits = .error err) :
    (encodeInto lease frame limits).exec direction = (.error err, direction) := by
  have stop : (MonadExcept.ofExcept (prepareSecureFrame frame limits) : Failing GoError SecureDirection Prepared).exec
    direction =
      (.error err, direction) := by
    rw [exec_ofExcept, refused]
  rw [encodeInto, exec_bind_error stop]

theorem exec_prepare (accepts : SecureAccepts frame limits) :
    (MonadExcept.ofExcept (prepareSecureFrame frame limits) : Failing GoError SecureDirection Prepared).exec
      direction =
      (.ok frame.prepared, direction) := by
  rw [exec_ofExcept, prepareSecureFrame_iff.mpr ⟨accepts, rfl⟩]

theorem exec_encodeInto_dry (accepts : SecureAccepts frame limits)
    (dry : ¬direction.availableLocked frame.prepared.records) :
    (encodeInto lease frame limits).exec direction = (.error (GoError.sentinel .counterExhausted), direction) := by
  rw [encodeInto, exec_bind (exec_prepare accepts), exec_bind (exec_get _)]
  dsimp only
  rw [if_pos (by simpa using dry)]
  rfl

theorem exec_sealSecond {count : Nat} (first : Bytes)
    (available : direction.availableLocked ((secondPlaintexts first).length + count)) :
    (sealSecond first).exec direction =
      (.ok (direction.sealAll (secondPlaintexts first)), direction.after (secondPlaintexts first).length) := by
  rw [sealSecond]
  rw [secondPlaintexts] at available ⊢
  split
  · next long =>
    rw [if_pos long, List.length_singleton, Nat.add_comm] at available
    rw [exec_sealLocked available, sealAll, sealAll, List.append_nil]
    rfl
  · rfl

/-- Everything is sealed once there are enough nonces. -/
theorem exec_encodeInto (accepts : SecureAccepts frame limits)
    (available : direction.availableLocked frame.prepared.records) :
    (encodeInto lease frame limits).exec direction =
      (.ok (direction.sealAll (plaintexts lease frame.tag frame.prepared)),
        direction.after frame.prepared.records) := by
  rw [encodeInto, exec_bind (exec_prepare accepts), exec_bind (exec_get _)]
  dsimp only
  rw [if_neg (by simp [available])]
  have records : (plaintexts lease frame.tag frame.prepared).length = frame.prepared.records :=
    plaintexts_length accepts
  rw [← records] at available ⊢
  rw [plaintexts] at available ⊢
  rw [List.length_cons, List.length_append] at available
  have later := availableLocked_spend available
  rw [exec_bind (exec_sealLocked available _), exec_bind (exec_sealSecond _ later), sealAll, sealAll_append,
    List.length_cons, after, List.length_append, after_add]
  have last := availableLocked_after later
  split
  · next single =>
    rw [sealAll, List.append_nil]
    rfl
  · next several =>
    rw [if_neg several, List.length_singleton] at last
    rw [exec_bind (exec_sealLocked last _), sealAll, sealAll, List.append_nil, ← List.append_assoc]
    rfl

/-- An error that is not about the nonces. -/
def Counted (err : GoError) : Prop := err ≠ .sentinel .counterExhausted

theorem counted_errorf (cause : GoError) (detail : String) : Counted (cause.errorf detail) := by
  intro same
  cases same

theorem counted_limitExceeded : Counted (.sentinel .limitExceeded) := by
  intro same
  cases same

theorem meets_normalizeSegments (segments : List Segment) :
    Meets Counted (normalizeSegments segments) fun _ => True := by
  rw [normalizeSegments]
  split
  · exact counted_errorf _ _
  · trivial

theorem meets_secureDescribe (index : Nat) (segments : List Segment) :
    Meets Counted (secureDescribe limits index segments) fun _ => True := by
  induction segments generalizing index with
  | nil => trivial
  | cons segment rest ih =>
    rw [secureDescribe]
    split
    · exact counted_limitExceeded
    · split
      · exact counted_errorf _ _
      · exact (ih (index + 1)).bind fun descriptors _ => trivial

theorem meets_sumPadded (wireSize : Nat) (lengths : List Nat) :
    Meets Counted (sumPadded wireSize lengths) fun _ => True := by
  induction lengths generalizing wireSize with
  | nil => trivial
  | cons length rest ih =>
    rw [sumPadded]
    split
    · exact counted_limitExceeded
    · exact ih _

theorem meets_secureSizes (lengths : List Nat) : Meets Counted (secureSizes limits lengths) fun _ => True := by
  have sum : Meets Counted (secureWireSize lengths) fun _ => True := by
    rw [secureWireSize]
    split
    · exact meets_sumPadded _ _
    · trivial
  refine sum.bind fun wireSize _ => ?_
  split
  · exact counted_limitExceeded
  · trivial

/-- No frame is refused for its nonces before they are counted. -/
theorem meets_prepareSecureFrame : Meets Counted (prepareSecureFrame frame limits) fun _ => True := by
  refine (meets_normalizeSegments _).bind fun segments _ => ?_
  split
  · exact counted_errorf _ _
  · refine (meets_secureDescribe _ _).bind fun descriptors _ => ?_
    exact (meets_secureSizes _).bind fun sizes _ => trivial

/-- What `Encode` does to the direction. -/
theorem encodeInto_cases (lease : Option LeasedPayload) (frame : Frame) (limits : Limits)
    (direction : SecureDirection) :
    (∃ prepared, prepareSecureFrame frame limits = .ok prepared ∧ direction.availableLocked prepared.records ∧
      (encodeInto lease frame limits).exec direction =
        (.ok (direction.sealAll (plaintexts lease frame.tag prepared)), direction.after prepared.records)) ∨
    (∃ prepared, prepareSecureFrame frame limits = .ok prepared ∧ ¬direction.availableLocked prepared.records ∧
      (encodeInto lease frame limits).exec direction = (.error (.sentinel .counterExhausted), direction)) ∨
    ∃ err, prepareSecureFrame frame limits = .error err ∧ Counted err ∧
      (encodeInto lease frame limits).exec direction = (.error err, direction) := by
  cases prepares : prepareSecureFrame frame limits with
  | error err =>
    exact .inr (.inr ⟨err, rfl, meets_prepareSecureFrame.of_error prepares, exec_encodeInto_refused prepares⟩)
  | ok prepared =>
    obtain ⟨accepts, rfl⟩ := prepareSecureFrame_iff.mp prepares
    by_cases available : direction.availableLocked frame.prepared.records
    · exact .inl ⟨_, rfl, available, exec_encodeInto accepts available⟩
    · exact .inr (.inl ⟨_, rfl, available, exec_encodeInto_dry accepts available⟩)

theorem SecureDirection.Fresh.encoded (lease : Option LeasedPayload) (frame : Frame) (limits : Limits)
    (fresh : direction.Fresh) : ((encodeInto lease frame limits).exec direction).2.Fresh := by
  obtain ⟨prepared, -, available, run⟩ | ⟨prepared, -, -, run⟩ | ⟨err, -, -, run⟩ :=
    encodeInto_cases lease frame limits direction
  · rw [run]
    exact fresh.after available
  all_goals
    rw [run]
    exact fresh

end Encode

section Read

open SecureDirection

variable {β : Type}

/-- The nonces of the direction that a reader has. -/
def InputFresh (input : Input (SecureDirection × β)) : Prop := input.rest.1.Fresh

theorem keeps_readFull (what : String) (size : Nat) : Keeps (InputFresh (β := β)) (readFull what size) := by
  intro input fresh
  rw [readFull, exec_bind (exec_get _)]
  split <;> exact fresh

theorem keeps_askBudget (reader : Reader β) (reservation : Reservation) :
    Keeps InputFresh (askBudget reader reservation) := by
  intro input fresh
  rw [askBudget, ask, exec_bind (exec_get _), exec_bind (exec_set ..)]
  split <;> exact fresh

theorem keeps_openLocked (ciphertext : Bytes) : Keeps (InputFresh (β := β)) (openLocked ciphertext) := by
  intro input fresh
  rw [openLocked, exec_bind (exec_get _)]
  by_cases available : input.rest.1.availableLocked 1
  · rw [exec_nonceLocked available]
    dsimp only
    rw [exec_bind (exec_set ..), exec_bind (exec_ofExcept ..), exec_bind (exec_set ..)]
    split <;> exact fresh.spend available
  · rw [exec_nonceLocked_dry available]
    dsimp only
    rw [exec_bind (exec_set ..), exec_bind_error (exec_ofExcept ..)]
    exact fresh

theorem keeps_readFirst (first : Bytes) (length : Nat) : Keeps (InputFresh (β := β)) (readFirst first length) := by
  rw [readFirst]
  refine Keeps.ite ?_ (keeps_pure _)
  refine Keeps.bind (keeps_readFull _ _) fun ciphertext => ?_
  exact Keeps.bind (keeps_openLocked ciphertext) fun remainder => keeps_pure _

theorem keeps_releasePrelude (reader : Reader β) (inlineControl : Bool) :
    Keeps InputFresh (releasePrelude reader inlineControl) := by
  rw [releasePrelude]
  exact Keeps.ite (keeps_askBudget _ _) (keeps_pure _)

theorem keeps_readRemaining (reader : Reader β) (descriptors : List SegmentDescriptor) (remainingSize : Nat) :
    Keeps InputFresh (readRemaining reader descriptors remainingSize) := by
  rw [readRemaining]
  refine Keeps.ite (keeps_pure _) ?_
  refine Keeps.bind (keeps_askBudget _ _) fun _ => ?_
  refine Keeps.bind (keeps_readFull _ _) fun remainingCiphertext => ?_
  refine Keeps.bind (keeps_openLocked _) fun remaining => ?_
  refine Keeps.bind (keeps_ofExcept _) fun split => ?_
  exact Keeps.bind (keeps_ofExcept _) fun _ => keeps_pure _

theorem keeps_read (reader : Reader β) (limits : Limits) : Keeps InputFresh (SecureCodec.read reader limits) := by
  rw [SecureCodec.read]
  refine Keeps.bind keeps_get fun input => ?_
  refine Keeps.ite (keeps_throw _) ?_
  refine Keeps.ite (keeps_throw _) ?_
  refine Keeps.bind (keeps_askBudget _ _) fun _ => ?_
  refine Keeps.bind (keeps_readFull _ _) fun firstCiphertext => ?_
  refine Keeps.bind (keeps_openLocked _) fun first => ?_
  refine Keeps.bind (keeps_ofExcept _) fun decoded => ?_
  refine Keeps.bind (keeps_ofExcept _) fun sizes => ?_
  refine Keeps.bind keeps_get fun input => ?_
  refine Keeps.ite (keeps_throw _) ?_
  refine Keeps.bind (keeps_askBudget _ _) fun _ => ?_
  refine Keeps.bind (keeps_releasePrelude _ _) fun _ => ?_
  refine Keeps.bind (keeps_readFirst _ _) fun firstData => ?_
  refine Keeps.bind (keeps_ofExcept _) fun segment => ?_
  refine Keeps.bind (keeps_readRemaining _ _ _) fun segments => ?_
  exact Keeps.bind (keeps_askBudget _ _) fun _ => keeps_pure _

end Read

/-- A call of a method of a codec. A call of `Read` finds some bytes that may end too early. -/
inductive SecureCall : Type 1 where
  | encode (lease : Option LeasedPayload) (frame : Frame) (limits : Limits)
  | read (β : Type) (reader : Reader β) (budget : β) (unread : Bytes) (limits : Limits)

namespace SecureCodec

open SecureDirection

/-- The codec after a call, whether it fails or not. -/
def call (codec : SecureCodec) : SecureCall → SecureCodec
  | .encode lease frame limits => { codec with tx := ((encodeInto lease frame limits).exec codec.tx).2 }
  | .read _ reader budget unread limits =>
    { codec with rx := ((read reader limits).exec ⟨unread, (codec.rx, budget)⟩).2.rest.1 }

/-- Both directions have used each of their nonces once. -/
structure Fresh (codec : SecureCodec) : Prop where
  tx : codec.tx.Fresh
  rx : codec.rx.Fresh

theorem fresh_new (aead : AEAD) (seed : Bytes) : (newSecureDirection aead seed).Fresh where
  nodup := List.nodup_nil
  used := by simp [newSecureDirection]

variable {codec : SecureCodec}

theorem fresh_newSecureCodec {cipher : Bytes → AEAD} {secret : Bytes} {server : Bool}
    (made : newSecureCodec cipher secret server = .ok codec) : codec.Fresh := by
  rw [newSecureCodec] at made
  split at made
  · cases made
  · cases made
    exact ⟨fresh_new _ _, fresh_new _ _⟩

theorem Fresh.call (fresh : codec.Fresh) (call : SecureCall) : (codec.call call).Fresh := by
  cases call with
  | encode lease frame limits => exact ⟨fresh.tx.encoded lease frame limits, fresh.rx⟩
  | read β reader budget unread limits => exact ⟨fresh.tx, keeps_read reader limits _ fresh.rx⟩

theorem Fresh.calls (fresh : codec.Fresh) (calls : List SecureCall) : (calls.foldl SecureCodec.call codec).Fresh := by
  induction calls generalizing codec with
  | nil => exact fresh
  | cons call calls ih => exact ih (fresh.call call)

/-- No nonce is used twice in a direction, and `Encode` uses none if it fails. -/
theorem nonces_used_once {cipher : Bytes → AEAD} {secret : Bytes} {server : Bool} {codec : SecureCodec}
    (made : newSecureCodec cipher secret server = .ok codec) (calls : List SecureCall) :
    (calls.foldl SecureCodec.call codec).tx.nonces.Nodup ∧ (calls.foldl SecureCodec.call codec).rx.nonces.Nodup ∧
      ∀ lease frame limits result direction,
        (encodeInto lease frame limits).exec (calls.foldl SecureCodec.call codec).tx = (result, direction) →
          (∀ err, result = .error err → direction = (calls.foldl SecureCodec.call codec).tx) ∧
          (result = .error (.sentinel .counterExhausted) ↔
            ∃ prepared, prepareSecureFrame frame limits = .ok prepared ∧
            (calls.foldl SecureCodec.call codec).tx.remainingNonces < prepared.records) := by
  have fresh := (fresh_newSecureCodec made).calls calls
  refine ⟨fresh.tx.nodup, fresh.rx.nodup, fun lease frame limits result direction run => ?_⟩
  obtain ⟨prepared, prepares, available, ran⟩ | ⟨prepared, prepares, dry, ran⟩ | ⟨err, refused, counted, ran⟩ :=
    encodeInto_cases lease frame limits (calls.foldl SecureCodec.call codec).tx
  · obtain ⟨rfl, rfl⟩ := Prod.mk.inj (ran.symm.trans run)
    refine ⟨fun err failed => (by cases failed), fun failed => (by cases failed), ?_⟩
    rintro ⟨other, prepares', less⟩
    obtain rfl := Except.ok.inj (prepares.symm.trans prepares')
    exact absurd (availableLocked_iff.mp available) (Nat.not_le_of_lt less)
  · obtain ⟨rfl, rfl⟩ := Prod.mk.inj (ran.symm.trans run)
    refine ⟨fun err _ => rfl, fun _ => ⟨prepared, prepares, ?_⟩, fun _ => rfl⟩
    exact Nat.lt_of_not_le fun enough => dry (availableLocked_iff.mpr enough)
  · obtain ⟨rfl, rfl⟩ := Prod.mk.inj (ran.symm.trans run)
    refine ⟨fun err _ => rfl, fun same => absurd (Except.error.inj same) counted, ?_⟩
    rintro ⟨prepared, prepares, -⟩
    rw [refused] at prepares
    cases prepares

/-- A cipher that hides nothing. -/
def nullCipher (_key : Bytes) : AEAD where
  seals _ plaintext := plaintext ++ zeros secureTagSize
  opens _ ciphertext := if ciphertext.length < secureTagSize then none
    else some (ciphertext.take (ciphertext.length - secureTagSize))

/-- A secret that leaves the sender one nonce. -/
def lastSecret : Bytes := zeros 32 ++ List.replicate 8 0xff ++ zeros 24

def keepaliveFrame : Frame := { tag := .keepalive2, segments := [⟨8, zeros 8⟩] }

def keepaliveLimits : Limits := ⟨48, 96, 0, 0⟩

theorem nonces_used_once_lastSecret : ∃ codec, newSecureCodec nullCipher lastSecret false = .ok codec ∧
    ((encodeInto none keepaliveFrame keepaliveLimits).exec
      (codec.call (.encode none keepaliveFrame keepaliveLimits)).tx).1 =
      .error (.sentinel .counterExhausted) := by
  refine ⟨_, rfl, ?_⟩
  have made : newSecureCodec nullCipher lastSecret false = .ok _ := rfl
  refine ((nonces_used_once made [.encode none keepaliveFrame keepaliveLimits]).2.2 none keepaliveFrame
    keepaliveLimits _ _ rfl).2.mpr ?_
  refine ⟨_, rfl, ?_⟩
  decide +kernel

end SecureCodec

end RadosGo
