import RadosGo.Library.System
import RadosGo.Msgr.Secure

namespace RadosGo

open Multiset

def mutationBufferCacheLimit : Int := 8 * 2 ^ 20

/-- A slice of bytes, with the array behind it known by a number. -/
structure Buffer where
  array : Nat
  len : Nat
  cap : Nat
  deriving DecidableEq, Repr

inductive Bucket where
  | small
  | medium
  | large
  | huge
  deriving DecidableEq, Repr

def Bucket.capacity : Bucket → Nat
  | huge => 2
  | _ => 8

def bucket (size : Int) : Option Bucket :=
  if size = 4096 then some .small
  else if size = 65536 then some .medium
  else if size = 1048576 then some .large
  else if size = 4194304 then some .huge
  else none

/-- The cache, with the number of arrays that were allocated so far. -/
structure MutationBufferCache where
  closed : Bool := false
  bytes : Int := 0
  channels : Bucket → List Buffer := fun _ => []
  arrays : Nat := 0

/-- A call of `take` or `put` between two of its atomic operations. -/
inductive BufferCall where
  | take (size : Nat)
  | select (size : Nat) (bucket : Bucket)
  | received (buffer : Buffer)
  | put (buffer : Buffer)
  | load (bucket : Bucket) (buffer : Buffer) (attempt : Nat)
  | swap (bucket : Bucket) (buffer : Buffer) (attempt : Nat) (retained : Int)
  | reserved (bucket : Bucket) (buffer : Buffer)
  | unsent (buffer : Buffer)
  deriving DecidableEq, Repr

inductive Progress where
  | goesOn (call : BufferCall)
  | returns (taken : Option Buffer)
  deriving DecidableEq, Repr

namespace MutationBufferCache

def setChannel (c : MutationBufferCache) (bucket : Bucket) (buffers : List Buffer) : MutationBufferCache :=
  { c with channels := Function.update c.channels bucket buffers }

def make (c : MutationBufferCache) (size : Nat) : MutationBufferCache × Progress :=
  ({ c with arrays := c.arrays + 1 }, .returns (some ⟨c.arrays, size, size⟩))

/-- The next atomic operation of a call, with the local steps that follow it. -/
def advance (c : MutationBufferCache) : BufferCall → MutationBufferCache × Progress
  | .take size =>
    match bucket size with
    | none => (c, .returns none)
    | some bucket => if c.closed then (c, .returns none) else (c, .goesOn (.select size bucket))
  | .select size bucket =>
    match c.channels bucket with
    | buffer :: rest => (c.setChannel bucket rest, .goesOn (.received buffer))
    | [] => if size = 4194304 then c.make size else c.make (leasedPayloadPrefix + size + secureBlockSize)
  | .received buffer => ({ c with bytes := c.bytes - buffer.cap }, .returns (some buffer))
  | .put buffer =>
    match (bucket buffer.len).or (bucket (buffer.len - leasedPayloadPrefix - secureBlockSize)) with
    | none => (c, .returns none)
    | some bucket =>
      if buffer.cap ≠ buffer.len ∨ c.closed then (c, .returns none) else (c, .goesOn (.load bucket buffer 0))
  | .load bucket buffer attempt =>
    if attempt < 8 then (c, .goesOn (.swap bucket buffer attempt c.bytes)) else (c, .returns none)
  | .swap bucket buffer attempt retained =>
    if retained + buffer.cap > mutationBufferCacheLimit then (c, .returns none)
    else if c.bytes = retained then ({ c with bytes := retained + buffer.cap }, .goesOn (.reserved bucket buffer))
    else (c, .goesOn (.load bucket buffer (attempt + 1)))
  | .reserved bucket buffer =>
    if (c.channels bucket).length < bucket.capacity then
      (c.setChannel bucket (c.channels bucket ++ [buffer]), .returns none)
    else (c, .goesOn (.unsent buffer))
  | .unsent buffer => ({ c with bytes := c.bytes - buffer.cap }, .returns none)

def cached (c : MutationBufferCache) : Multiset Buffer :=
  ↑(c.channels .small) + ↑(c.channels .medium) + ↑(c.channels .large) + ↑(c.channels .huge)

theorem cached_setChannel (c : MutationBufferCache) (bucket : Bucket) (buffers : List Buffer) :
    (c.setChannel bucket buffers).cached + ↑(c.channels bucket) = c.cached + ↑buffers := by
  cases bucket <;> simp only [cached, setChannel, Function.update, reduceCtorEq, dite_false, dite_true] <;> abel

end MutationBufferCache

/-- The bytes which a call has counted that are in no channel. -/
def BufferCall.charge : BufferCall → Nat
  | received buffer | reserved _ buffer | unsent buffer => buffer.cap
  | _ => 0

def BufferCall.buffers : BufferCall → Multiset Buffer
  | take _ | select _ _ => 0
  | received buffer | put buffer | load _ buffer _ | swap _ buffer _ _ | reserved _ buffer | unsent buffer => {buffer}

def Progress.calls : Progress → Multiset BufferCall
  | goesOn call => {call}
  | returns _ => 0

def Progress.held : Progress → Multiset Buffer
  | returns (some buffer) => {buffer}
  | _ => 0

def Progress.charge (progress : Progress) : Nat := (progress.calls.map BufferCall.charge).sum

@[simp] theorem Progress.charge_goesOn (call : BufferCall) : (goesOn call).charge = call.charge := rfl

@[simp] theorem Progress.charge_returns (taken : Option Buffer) : (returns taken).charge = 0 := rfl

def Progress.buffers (progress : Progress) : Multiset Buffer :=
  (progress.calls.map BufferCall.buffers).sum + progress.held

def capacity (buffers : Multiset Buffer) : Nat := (buffers.map Buffer.cap).sum

@[simp] theorem capacity_add (first second : Multiset Buffer) :
    capacity (first + second) = capacity first + capacity second := by
  simp [capacity]

/-- What an operation does to the count, and to the buffers of the cache and of its call. -/
structure Advances (c : MutationBufferCache) (call : BufferCall) (c' : MutationBufferCache)
    (progress : Progress) : Prop where
  bytes : c'.bytes + (capacity c.cached + call.charge : Nat) = c.bytes + (capacity c'.cached + progress.charge : Nat)
  limit : c.bytes ≤ mutationBufferCacheLimit → c'.bytes ≤ mutationBufferCacheLimit
  buffers : c'.cached + progress.buffers ≤ c.cached + call.buffers ∧ c'.arrays = c.arrays ∨
    ∃ size, c'.cached + progress.buffers = ⟨c.arrays, size, size⟩ ::ₘ (c.cached + call.buffers) ∧
      c'.arrays = c.arrays + 1

namespace Advances

variable {c : MutationBufferCache} {call : BufferCall} {progress : Progress}

theorem count {bytes : Int} (counts : bytes + call.charge = c.bytes + progress.charge)
    (limit : c.bytes ≤ mutationBufferCacheLimit → bytes ≤ mutationBufferCacheLimit)
    (buffers : progress.buffers ≤ call.buffers) : Advances c call { c with bytes } progress := by
  refine ⟨?_, limit, .inl ⟨add_le_add_right buffers c.cached, rfl⟩⟩
  have same : MutationBufferCache.cached { c with bytes } = c.cached := rfl
  rw [same]
  dsimp only
  omega

/-- An operation that leaves the cache as it is. -/
theorem same (charge : progress.charge = call.charge) (buffers : progress.buffers ≤ call.buffers) :
    Advances c call c progress :=
  count (by rw [charge]) id buffers

theorem make (free : call.charge = 0) (none : call.buffers = 0) (size : Nat) :
    Advances c call (c.make size).1 (c.make size).2 := by
  refine ⟨?_, id, .inr ⟨size, ?_, rfl⟩⟩
  · rw [free]
    rfl
  · rw [none, add_zero, ← singleton_add, add_comm]
    rfl

/-- A buffer moves between its call and a channel, which keeps its count. -/
theorem channel {bucket : Bucket} {buffers : List Buffer}
    (moves : (↑buffers : Multiset Buffer) + progress.buffers = ↑(c.channels bucket) + call.buffers)
    (charges : capacity ↑(c.channels bucket) + call.charge = capacity ↑buffers + progress.charge) :
    Advances c call (c.setChannel bucket buffers) progress := by
  have cached := c.cached_setChannel bucket buffers
  have total := congrArg capacity cached
  rw [capacity_add, capacity_add] at total
  refine ⟨?_, id, .inl ⟨le_of_eq ?_, rfl⟩⟩
  · have bytes : (c.setChannel bucket buffers).bytes = c.bytes := rfl
    rw [bytes]
    omega
  · refine add_right_cancel (b := ↑(c.channels bucket)) ?_
    calc (c.setChannel bucket buffers).cached + progress.buffers + ↑(c.channels bucket)
        = (c.setChannel bucket buffers).cached + ↑(c.channels bucket) + progress.buffers := add_right_comm ..
      _ = c.cached + (↑buffers + progress.buffers) := by rw [cached, add_assoc]
      _ = c.cached + call.buffers + ↑(c.channels bucket) := by rw [moves, add_assoc, add_comm call.buffers]

end Advances

theorem MutationBufferCache.advance_spec (c : MutationBufferCache) (call : BufferCall) :
    Advances c call (c.advance call).1 (c.advance call).2 := by
  fun_cases advance c call with
  | case1 => exact .same rfl (zero_le _)
  | case2 => exact .same rfl (zero_le _)
  | case3 => exact .same rfl le_rfl
  | case4 size bucket buffer rest channel =>
    refine .channel ?_ ?_
    · rw [channel, ← cons_coe, ← singleton_add, add_comm]
      exact (add_zero _).symm
    · simp [channel, capacity, BufferCall.charge, Nat.add_comm]
  | case5 => exact .make rfl rfl _
  | case6 => exact .make rfl rfl _
  | case7 buffer | case14 bucket buffer attempt room => exact .count (by simp [BufferCall.charge]) (by omega) le_rfl
  | case8 => exact .same rfl (zero_le _)
  | case9 => exact .same rfl (zero_le _)
  | case10 => exact .same rfl le_rfl
  | case11 => exact .same rfl le_rfl
  | case12 => exact .same rfl (zero_le _)
  | case13 => exact .same rfl (zero_le _)
  | case15 => exact .same rfl le_rfl
  | case16 bucket buffer room =>
    refine .channel ?_ ?_
    · rw [← coe_add, add_assoc]
      exact congrArg _ (add_zero _)
    · simp [capacity, BufferCall.charge]
  | case17 => exact .same rfl le_rfl
  | case18 buffer => exact .count (by simp [BufferCall.charge]) (by omega) (zero_le _)

/-- A cache with the calls in progress, and the buffers whose holders have not put them back. -/
structure BufferUse where
  cache : MutationBufferCache := {}
  calls : Multiset BufferCall := 0
  held : Multiset Buffer := 0

namespace BufferUse

inductive Action where
  | take (size : Nat)
  | put (buffer : Buffer)
  | advance (call : BufferCall)
  | close

def Enabled (s : BufferUse) : Action → Prop
  | .take _ | .close => True
  | .put buffer => buffer ∈ s.held
  | .advance call => call ∈ s.calls

def next (s : BufferUse) : Action → BufferUse
  | .take size => { s with calls := .take size ::ₘ s.calls }
  | .put buffer => { s with calls := .put buffer ::ₘ s.calls, held := s.held.erase buffer }
  | .advance call =>
    let (cache, progress) := s.cache.advance call
    ⟨cache, progress.calls + s.calls.erase call, progress.held + s.held⟩
  | .close => { s with cache := { s.cache with closed := true } }

/-- Every interleaving of calls, in which a holder puts back what it has taken. -/
def interleavings : System BufferUse Action where
  start s := s = {}
  step s action s' := s.Enabled action ∧ s' = s.next action

instance (s : BufferUse) : (action : Action) → Decidable (s.Enabled action)
  | .take _ | .close => .isTrue trivial
  | .put _ | .advance _ => inferInstanceAs (Decidable (_ ∈ _))

instance (s : BufferUse) (action : Action) : Decidable (interleavings.step s action (s.next action)) :=
  decidable_of_iff (s.Enabled action) (by simp [interleavings])

/-- The buffers of the cache, of the calls and of the holders. -/
def owned (s : BufferUse) : Multiset Buffer := s.cache.cached + (s.calls.map BufferCall.buffers).sum + s.held

/-- The count covers the channels and what the calls have counted, and every array is in one place. -/
structure Accounted (s : BufferUse) : Prop where
  bytes : s.cache.bytes = (capacity s.cache.cached + (s.calls.map BufferCall.charge).sum : Nat)
  limit : s.cache.bytes ≤ mutationBufferCacheLimit
  apart : (s.owned.map Buffer.array).Nodup
  known : ∀ buffer ∈ s.owned, buffer.array < s.cache.arrays

variable {s : BufferUse}

theorem Accounted.advance (accounted : Accounted s) {call : BufferCall} (running : call ∈ s.calls) :
    Accounted (s.next (.advance call)) := by
  obtain ⟨rest, calls⟩ := exists_cons_of_mem running
  have erased : s.calls.erase call = rest := by simp [calls]
  have spec := s.cache.advance_spec call
  have before : s.owned = s.cache.cached + call.buffers + ((rest.map BufferCall.buffers).sum + s.held) := by
    simp only [owned, calls, map_cons, sum_cons, add_assoc]
  have after : (s.next (.advance call)).owned = (s.cache.advance call).1.cached + (s.cache.advance call).2.buffers +
      ((rest.map BufferCall.buffers).sum + s.held) := by
    simp only [owned, next, erased, Progress.buffers, map_add, sum_add]
    abel
  obtain ⟨bytes, limit, apart, known⟩ := accounted
  rw [calls, map_cons, sum_cons] at bytes
  rw [before] at apart known
  refine ⟨?_, spec.limit limit, ?_, ?_⟩
  · have counts := spec.bytes
    have charges : ((s.next (.advance call)).calls.map BufferCall.charge).sum =
        (s.cache.advance call).2.charge + (rest.map BufferCall.charge).sum := by
      rw [next, erased, map_add, sum_add, Progress.charge]
    rw [charges]
    simp only [next]
    omega
  all_goals rw [after]
  all_goals rcases spec.buffers with ⟨fewer, arrays⟩ | ⟨size, fresh, arrays⟩
  · exact nodup_of_le (map_le_map (add_le_add_left fewer _)) apart
  · rw [fresh, cons_add, map_cons, nodup_cons]
    refine ⟨fun member => ?_, apart⟩
    obtain ⟨buffer, inside, same⟩ := mem_map.mp member
    exact absurd (known buffer inside) (same ▸ Nat.lt_irrefl _)
  · intro buffer member
    exact (known buffer (mem_of_le (add_le_add_left fewer _) member)).trans_eq arrays.symm
  · intro buffer member
    rw [fresh, cons_add, mem_cons] at member
    refine Nat.lt_of_lt_of_eq (Nat.lt_succ_of_le ?_) arrays.symm
    rcases member with rfl | old
    · exact Nat.le_refl _
    · exact (known buffer old).le

/-- A new call brings no buffer but the one its caller held. -/
theorem Accounted.call (accounted : Accounted s) {call : BufferCall} {held : Multiset Buffer} (free : call.charge = 0)
    (moves : call.buffers + held = s.held) : Accounted { s with calls := call ::ₘ s.calls, held } := by
  have same : owned { s with calls := call ::ₘ s.calls, held } = s.owned := by
    simp only [owned, map_cons, sum_cons, ← moves]
    abel
  refine ⟨?_, accounted.limit, same ▸ accounted.apart, same ▸ accounted.known⟩
  simpa [free] using accounted.bytes

theorem Accounted.step {action : Action} (accounted : Accounted s) (enabled : s.Enabled action) :
    Accounted (s.next action) := by
  cases action with
  | take size => exact accounted.call rfl (zero_add _)
  | put buffer => exact accounted.call rfl (cons_erase enabled)
  | advance call => exact accounted.advance enabled
  | close => exact ⟨accounted.bytes, accounted.limit, accounted.apart, accounted.known⟩

/-- In every interleaving the count is at least what the channels hold and at most the limit, and equal to what they
hold when no call is in progress. No buffer is in the channels twice, or while someone holds it who took it. -/
theorem cache_accounted (reach : interleavings.Reaches (fun _ _ => True) s) :
    (capacity s.cache.cached : Int) ≤ s.cache.bytes ∧ 0 ≤ s.cache.bytes ∧ s.cache.bytes ≤ mutationBufferCacheLimit ∧
    (s.calls = 0 → s.cache.bytes = capacity s.cache.cached) ∧ (s.cache.cached.map Buffer.array).Nodup ∧
    ∀ buffer ∈ s.held, ∀ other ∈ s.cache.cached, other.array ≠ buffer.array := by
  have accounted : Accounted s := by
    refine reach.invariant Accounted ?_ ?_
    · rintro _ rfl
      exact ⟨rfl, by decide, nodup_zero, by simp [owned, MutationBufferCache.cached]⟩
    · rintro s action _ accounted ⟨enabled, rfl⟩ -
      exact accounted.step enabled
  have bytes := accounted.bytes
  have apart := accounted.apart
  rw [owned, map_add, nodup_add, map_add, nodup_add] at apart
  obtain ⟨⟨once, -, -⟩, -, disjoint⟩ := apart
  refine ⟨by omega, by omega, accounted.limit, fun idle => by simpa [idle] using bytes, once,
    fun buffer held other cached same => ?_⟩
  exact disjoint_left.mp disjoint (mem_add.mpr (.inl (mem_map_of_mem _ cached)))
    (same ▸ mem_map_of_mem _ held)

/-- A buffer of 64 KiB is taken and put back. -/
def takesAndPuts : List Action :=
  let buffer : Buffer := ⟨0, 66576, 66576⟩
  [.take 65536, .advance (.take 65536), .advance (.select 65536 .medium), .put buffer, .advance (.put buffer),
    .advance (.load .medium buffer 0), .advance (.swap .medium buffer 0 0), .advance (.reserved .medium buffer)]

theorem cache_accounted_takesAndPuts : (takesAndPuts.foldl next {}).cache.bytes = 66576 ∧
    capacity (takesAndPuts.foldl next {}).cache.cached = 66576 := by
  have reach : interleavings.Reaches (fun _ _ => True) (takesAndPuts.foldl next {}) :=
    (System.Reaches.start rfl).follow (by decide)
  have bytes : (takesAndPuts.foldl next {}).cache.bytes = 66576 := by decide
  have equal := (cache_accounted reach).2.2.2.1 (by decide)
  exact ⟨bytes, by omega⟩

end BufferUse

end RadosGo
