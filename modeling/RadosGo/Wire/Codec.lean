import RadosGo.Errors
import RadosGo.Library.LittleEndian

namespace RadosGo

/-- A Go string is any sequence of bytes. -/
abbrev Bytes := List UInt8

def maxUint32 : Nat := 2 ^ 32 - 1

def maxInt : Nat := 2 ^ 63 - 1

/-- An encoder of one bounded value. Its first error stays. -/
structure Encoder where
  buf : Bytes := []
  max : Nat
  err : Option GoError := none
  deriving DecidableEq, Repr

namespace Encoder

def newEncoder (maxBytes : Nat) : Encoder where
  max := maxBytes

/-- With `reserve`: what does not fit is not written at all. -/
def raw (e : Encoder) (value : Bytes) : Encoder :=
  if e.err.isSome then e
  else if value.length > e.max ∨ e.buf.length > e.max - value.length then
    { e with err := some Sentinel.wireLimitExceeded }
  else { e with buf := e.buf ++ value }

def uint8 (e : Encoder) (value : Nat) : Encoder := e.raw (littleEndian 1 value)
def uint16 (e : Encoder) (value : Nat) : Encoder := e.raw (littleEndian 2 value)
def uint32 (e : Encoder) (value : Nat) : Encoder := e.raw (littleEndian 4 value)
def uint64 (e : Encoder) (value : Nat) : Encoder := e.raw (littleEndian 8 value)
def int8 (e : Encoder) (value : Int) : Encoder := e.uint8 (value % 2 ^ 8).toNat
def int16 (e : Encoder) (value : Int) : Encoder := e.uint16 (value % 2 ^ 16).toNat
def int32 (e : Encoder) (value : Int) : Encoder := e.uint32 (value % 2 ^ 32).toNat
def int64 (e : Encoder) (value : Int) : Encoder := e.uint64 (value % 2 ^ 64).toNat
def bool (e : Encoder) (value : Bool) : Encoder := if value then e.uint8 1 else e.uint8 0

def bytes (e : Encoder) (value : Bytes) : Encoder :=
  if value.length > maxUint32 then { e with err := some Sentinel.wireLimitExceeded }
  else (e.uint32 value.length).raw value

def string (e : Encoder) (value : Bytes) : Encoder := e.bytes value

/-- The payload is written by an encoder of its own, then copied behind its header. -/
def versioned (e : Encoder) (version compat : Nat) (encode : Encoder → Encoder) : Encoder :=
  let payload := encode (newEncoder (min e.max maxUint32))
  match payload.err with
  | some err => if e.err.isNone then { e with err := some err } else e
  | none => (((e.uint8 version).uint8 compat).uint32 payload.buf.length).raw payload.buf

def bytesResult (e : Encoder) : Except GoError Bytes :=
  match e.err with
  | some err => .error err
  | none => .ok e.buf

/-- The encoder has been given `written`: it holds all of it, or it has failed
because that is longer than its limit. -/
structure Wrote (e : Encoder) (max : Nat) (written : Bytes) : Prop where
  limit : e.max = max
  fits : written.length ≤ max → e.buf = written ∧ e.err = none
  exceeds : max < written.length → e.err = some Sentinel.wireLimitExceeded

variable {e : Encoder} {max : Nat} {written : Bytes}

theorem newEncoder_wrote (max : Nat) : Wrote (newEncoder max) max [] :=
  ⟨rfl, fun _ => ⟨rfl, rfl⟩, fun exceeds => absurd exceeds (Nat.not_lt_zero max)⟩

theorem Wrote.raw (wrote : Wrote e max written) (value : Bytes) : Wrote (e.raw value) max (written ++ value) := by
  rcases Nat.lt_or_ge max written.length with exceeds | fits
  · have same : e.raw value = e := by simp [Encoder.raw, wrote.exceeds exceeds]
    rw [same]
    refine ⟨wrote.limit, fun total => ?_, fun _ => wrote.exceeds exceeds⟩
    rw [List.length_append] at total
    omega
  · obtain ⟨buf, err⟩ := wrote.fits fits
    rw [Encoder.raw, if_neg (by simp [err]), buf, wrote.limit]
    split
    · next full =>
      refine ⟨rfl, fun shorter => ?_, fun _ => rfl⟩
      rw [List.length_append] at shorter
      omega
    · next room =>
      refine ⟨rfl, fun _ => ⟨rfl, err⟩, fun longer => ?_⟩
      rw [List.length_append] at longer
      omega

theorem Wrote.bool (wrote : Wrote e max written) (value : Bool) :
    Wrote (e.bool value) max (written ++ littleEndian 1 value.toNat) := by
  cases value with
  | false => exact wrote.raw _
  | true => exact wrote.raw _

/-- How a string is written: its length, then its bytes. -/
def stringBytes (value : Bytes) : Bytes := littleEndian 4 value.length ++ value

theorem Wrote.string (wrote : Wrote e max written) (small : max ≤ maxUint32) (value : Bytes) :
    Wrote (e.string value) max (written ++ stringBytes value) := by
  rw [Encoder.string, Encoder.bytes, stringBytes]
  split
  · next long =>
    refine ⟨wrote.limit, fun total => ?_, fun _ => rfl⟩
    simp only [List.length_append, littleEndian_length] at total
    omega
  · rw [← List.append_assoc]
    exact (wrote.raw _).raw value

/-- The header of a versioned value and the value. -/
def envelope (version compat : Nat) (payload : Bytes) : Bytes :=
  littleEndian 1 version ++ littleEndian 1 compat ++ littleEndian 4 payload.length ++ payload

theorem Wrote.versioned (wrote : Wrote e max written) (small : max ≤ maxUint32) (version compat : Nat)
    {encode : Encoder → Encoder} {payload : Bytes} (encodes : Wrote (encode (newEncoder max)) max payload) :
    Wrote (e.versioned version compat encode) max (written ++ envelope version compat payload) := by
  have inner : min e.max maxUint32 = max := by
    rw [wrote.limit, Nat.min_eq_left small]
  rw [Encoder.versioned, inner]
  rcases Nat.lt_or_ge max payload.length with exceeds | fits
  · simp only [encodes.exceeds exceeds]
    have total : max < (written ++ envelope version compat payload).length := by
      simp only [envelope, List.length_append, littleEndian_length]
      omega
    have failed : (if e.err.isNone then { e with err := some Sentinel.wireLimitExceeded } else e).max = max ∧
        (if e.err.isNone then { e with err := some Sentinel.wireLimitExceeded } else e).err =
          some (GoError.sentinel .wireLimitExceeded) := by
      rcases Nat.lt_or_ge max written.length with before | before
      · simp [wrote.exceeds before, wrote.limit]
      · simp [(wrote.fits before).2, wrote.limit]
    exact ⟨failed.1, fun shorter => absurd total (Nat.not_lt.mpr shorter), fun _ => failed.2⟩
  · obtain ⟨buf, err⟩ := encodes.fits fits
    simp only [err, buf, envelope, ← List.append_assoc]
    exact (((wrote.raw _).raw _).raw _).raw payload

theorem Wrote.bytesResult (wrote : Wrote e max written) :
    e.bytesResult = if written.length ≤ max then .ok written else .error Sentinel.wireLimitExceeded := by
  split
  · next fits => simp [Encoder.bytesResult, wrote.fits fits]
  · next exceeds => simp [Encoder.bytesResult, wrote.exceeds (Nat.lt_of_not_le exceeds)]

end Encoder

/-- A decoder of one bounded value: the bytes it has not read yet. Its first error
stays, and every later read yields zero. -/
structure Decoder where
  data : Bytes
  maxBytes : Nat
  err : Option GoError := none
  deriving DecidableEq, Repr

def newDecoder (data : Bytes) (maxBytes : Nat) : Decoder where
  data := data
  maxBytes := maxBytes

/-- A function that reads from a decoder and may return early with an error. -/
abbrev Decoding := ExceptT GoError (StateM Decoder)

/-- A field that older versions lack. -/
def fieldSince {α : Type} (first version : Nat) (read : Decoding α) (absent : α) : Decoding α :=
  if version ≥ first then read else pure absent

namespace Decoding

def eval {α : Type} (x : Decoding α) (d : Decoder) : Except GoError α × Decoder := x.run.run d

def failed : Decoding Bool := do return (← get).err.isSome

def fail (err : GoError) : Decoding Unit := modify fun d => { d with err := some err }

def finish : Decoding Unit := do
  if let some err := (← get).err then throw err

def remaining : Decoding Nat := do return (← get).data.length

def take (size : Nat) : Decoding (Option Bytes) := do
  let d ← get
  if d.err.isSome then return none
  if size > d.data.length then
    fail Sentinel.wireMalformed
    return none
  set { d with data := d.data.drop size }
  return some (d.data.take size)

def raw (size : Nat) : Decoding Bytes := do return (← take size).getD []

def fixed (width : Nat) : Decoding Nat := do
  match ← take width with
  | some data => return fromLittleEndian data
  | none => return 0

def uint8 : Decoding Nat := fixed 1
def uint16 : Decoding Nat := fixed 2
def uint32 : Decoding Nat := fixed 4
def uint64 : Decoding Nat := fixed 8
def int8 : Decoding Int := do return Int.bmod (← uint8) (2 ^ 8)
def int16 : Decoding Int := do return Int.bmod (← uint16) (2 ^ 16)
def int32 : Decoding Int := do return Int.bmod (← uint32) (2 ^ 32)
def int64 : Decoding Int := do return Int.bmod (← uint64) (2 ^ 64)
def bool : Decoding Bool := do return (← uint8) != 0

def bytes : Decoding Bytes := do
  let size ← uint32
  if ← failed then return []
  if size > (← get).maxBytes then
    fail Sentinel.wireLimitExceeded
    return []
  raw size

def string : Decoding Bytes := bytes

/-- The payload of an envelope gets a decoder of its own. -/
def versioned (localVersion : Nat) : Decoding (Nat × Decoder) := do
  let version ← uint8
  let compat ← uint8
  let size ← uint32
  let maxBytes := (← get).maxBytes
  if ← failed then return (0, newDecoder [] maxBytes)
  if localVersion < compat then
    fail (GoError.errorf Sentinel.unsupportedVersion s!"local={localVersion} required={compat}")
    return (0, newDecoder [] maxBytes)
  if size > maxBytes then
    fail Sentinel.wireLimitExceeded
    return (0, newDecoder [] maxBytes)
  match ← take size with
  | none => return (0, newDecoder [] maxBytes)
  | some data => return (version, newDecoder data maxBytes)

/-- Reads from another decoder, which is then dropped. -/
def within {α : Type} (payload : Decoder) (body : Decoding α) : Decoding α :=
  MonadExcept.ofExcept (body.eval payload).1

/-- A loop that reads a value in each of its rounds. -/
def readMany {α : Type} (read : Decoding α) : Nat → Decoding (List α)
  | 0 => return []
  | count + 1 => do
    let value ← read
    return value :: (← readMany read count)

/-- A loop that reads a value in each of its rounds and adds it to a state, unless a check fails. -/
def readFold {α σ : Type} (read : Decoding α) (add : σ → α → Except GoError σ) : Nat → σ → Decoding σ
  | 0, state => return state
  | count + 1, state => do
    let value ← read
    let state ← MonadExcept.ofExcept (add state value)
    readFold read add count state

variable {α β : Type} {x : Decoding α} {f : α → Decoding β} {d d' : Decoder} {a : α} {max : Nat} {rest : Bytes}

@[simp] theorem eval_pure (a : α) (d : Decoder) : (pure a : Decoding α).eval d = (.ok a, d) := rfl

@[simp] theorem eval_throw (err : GoError) (d : Decoder) : (throw err : Decoding α).eval d = (.error err, d) := rfl

theorem eval_bind (read : x.eval d = (.ok a, d')) : (x >>= f).eval d = (f a).eval d' := by
  have run : x d = (.ok a, d') := read
  change (match x d with
    | (result, d') => (ExceptT.bindCont f result : StateM Decoder _) d') = _
  rw [run]
  rfl

theorem eval_bind_error {err : GoError} (read : x.eval d = (.error err, d')) :
    (x >>= f).eval d = (.error err, d') := by
  have run : x d = (.error err, d') := read
  change (match x d with
    | (result, d') => (ExceptT.bindCont f result : StateM Decoder _) d') = _
  rw [run]
  rfl

theorem eval_take_eq (size : Nat) (d : Decoder) :
    (take size).eval d =
      if d.err.isSome then (.ok none, d)
      else if size > d.data.length then (.ok none, { d with err := some Sentinel.wireMalformed })
      else (.ok (some (d.data.take size)), { d with data := d.data.drop size }) := by
  change (if d.err.isSome then (pure none : Decoding (Option Bytes)) else _).eval d = _
  split
  · rfl
  · change (if size > d.data.length then (do fail Sentinel.wireMalformed; return none : Decoding (Option Bytes))
      else _).eval d = _
    split <;> rfl

/-- Reading what was written. -/
theorem eval_take (bytes : Bytes) :
    (take bytes.length).eval ⟨bytes ++ rest, max, none⟩ = (.ok (some bytes), ⟨rest, max, none⟩) := by
  rw [eval_take_eq]
  simp

theorem eval_fixed (width value : Nat) :
    (fixed width).eval ⟨littleEndian width value ++ rest, max, none⟩ =
      (.ok (value % 256 ^ width), ⟨rest, max, none⟩) := by
  have taken : (take (littleEndian width value).length).eval ⟨littleEndian width value ++ rest, max, none⟩ = _ :=
    eval_take _
  rw [littleEndian_length] at taken
  rw [fixed, eval_bind taken, ← fromLittleEndian_littleEndian]
  rfl

theorem eval_int64 {value : Int} (low : -2 ^ 63 ≤ value) (high : value < 2 ^ 63) :
    int64.eval ⟨littleEndian 8 (value % 2 ^ 64).toNat ++ rest, max, none⟩ = (.ok value, ⟨rest, max, none⟩) := by
  have residue : (((value % 2 ^ 64).toNat % 256 ^ 8 : Nat) : Int) = value % 2 ^ 64 := by omega
  rw [int64, uint64, eval_bind (eval_fixed 8 _), eval_pure, residue]
  exact congrArg (fun read => (Except.ok read, _)) (bmod_emod_two_pow low high)

theorem eval_bool (value : Bool) :
    bool.eval ⟨littleEndian 1 value.toNat ++ rest, max, none⟩ = (.ok value, ⟨rest, max, none⟩) := by
  rw [bool, uint8, eval_bind (eval_fixed 1 _), eval_pure]
  cases value with
  | false => rfl
  | true => rfl

theorem eval_failed (data : Bytes) : failed.eval ⟨data, max, none⟩ = (.ok false, ⟨data, max, none⟩) := rfl

theorem eval_get (d : Decoder) : (get : Decoding Decoder).eval d = (.ok d, d) := rfl

theorem eval_string {value : Bytes} (short : value.length ≤ max) (small : value.length ≤ maxUint32) :
    string.eval ⟨Encoder.stringBytes value ++ rest, max, none⟩ = (.ok value, ⟨rest, max, none⟩) := by
  have length : value.length % 256 ^ 4 = value.length := Nat.mod_eq_of_lt (Nat.lt_of_le_of_lt small (by decide))
  rw [string, bytes, uint32, Encoder.stringBytes, List.append_assoc, eval_bind (eval_fixed 4 _), length]
  rw [eval_bind (eval_failed _)]
  simp only [Bool.false_eq_true, if_false]
  rw [eval_bind (eval_get _)]
  simp only [if_neg (Nat.not_lt.mpr short)]
  rw [raw, eval_bind (eval_take value)]
  rfl

theorem eval_versioned {version compat localVersion : Nat} {payload : Bytes} (versionSmall : version < 256)
    (compatible : compat ≤ localVersion) (compatSmall : compat < 256) (short : payload.length ≤ max)
    (small : payload.length ≤ maxUint32) :
    (versioned localVersion).eval ⟨Encoder.envelope version compat payload ++ rest, max, none⟩ =
      (.ok (version, newDecoder payload max), ⟨rest, max, none⟩) := by
  have length : payload.length % 256 ^ 4 = payload.length := Nat.mod_eq_of_lt (Nat.lt_of_le_of_lt small (by decide))
  simp only [versioned, uint8, uint32, Encoder.envelope, List.append_assoc]
  rw [eval_bind (eval_fixed 1 _), eval_bind (eval_fixed 1 _), eval_bind (eval_fixed 4 _), length,
    eval_bind (eval_get _), eval_bind (eval_failed _), pow_one, Nat.mod_eq_of_lt versionSmall,
    Nat.mod_eq_of_lt compatSmall]
  simp only [Bool.false_eq_true, if_false, if_neg (Nat.not_lt.mpr compatible), if_neg (Nat.not_lt.mpr short)]
  rw [eval_bind (eval_take payload)]
  rfl

variable {payload : Decoder} {property : α → Prop}

theorem eval_within (d : Decoder) : (within payload x).eval d = ((x.eval payload).1, d) := by
  rw [within]
  cases (x.eval payload).1 with
  | error err => rfl
  | ok value => rfl

/-- Whatever a function reads without an error has a property. -/
def Yields (x : Decoding α) (property : α → Prop) : Prop :=
  ∀ ⦃d a d'⦄, x.eval d = (.ok a, d') → property a

theorem Yields.bind {later : β → Prop} (first : Yields x property) (second : ∀ a, property a → Yields (f a) later) :
    Yields (x >>= f) later := by
  intro d b d' read
  match run : x.eval d with
  | (.ok a, middle) =>
    rw [eval_bind run] at read
    exact second a (first run) read
  | (.error err, middle) =>
    rw [eval_bind_error run] at read
    cases read

theorem Yields.any (x : Decoding α) : Yields x fun _ => True := fun _ _ _ _ => trivial

theorem yields_pure (holds : property a) : Yields (pure a) property := by
  intro d b d' read
  cases read
  exact holds

theorem yields_throw (err : GoError) (property : α → Prop) : Yields (throw err) property := by
  intro d b d' read
  cases read

theorem yields_within (holds : Yields x property) : Yields (within payload x) property := by
  intro d a d' read
  rw [eval_within] at read
  exact holds (Prod.ext (Prod.mk.inj read).1 rfl)

theorem yields_take (size : Nat) : Yields (take size) fun taken => ∀ data, taken = some data →
    data.length = size := by
  intro d taken d' read data same
  rw [eval_take_eq] at read
  split at read
  · obtain ⟨⟨⟩, -⟩ := Prod.mk.inj read
    cases same
  · split at read
    · obtain ⟨⟨⟩, -⟩ := Prod.mk.inj read
      cases same
    · next enough =>
      obtain ⟨⟨⟩, -⟩ := Prod.mk.inj read
      cases same
      exact List.length_take_of_le (Nat.le_of_not_lt enough)

theorem yields_fixed (width : Nat) : Yields (fixed width) (· < 256 ^ width) := by
  refine (yields_take width).bind fun taken lengths => ?_
  cases taken with
  | none => exact yields_pure (Nat.pow_pos (by decide))
  | some data => exact yields_pure (lengths data rfl ▸ fromLittleEndian_lt data)

theorem yields_int64 : Yields int64 fun value => -2 ^ 63 ≤ value ∧ value < 2 ^ 63 :=
  (Yields.any _).bind fun value _ => yields_pure (bmod_two_pow_bounds 63 value)

end Decoding

end RadosGo
