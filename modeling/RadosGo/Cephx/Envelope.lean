import RadosGo.Config.Keyring
import RadosGo.Wire.Reading

namespace RadosGo.Cephx

/-- The limits of encrypted payloads. -/
structure Limits where
  maxDecryptBytes : UInt32
  maxEncryptBytes : UInt32

def Limits.withDefaults (limits : Limits) : Limits where
  maxDecryptBytes := if limits.maxDecryptBytes = 0 then 2 ^ 20 else limits.maxDecryptBytes
  maxEncryptBytes := if limits.maxEncryptBytes = 0 then 2 ^ 20 else limits.maxEncryptBytes

def blockSize : Nat := 16

/-- The bytes of a Kerberos ciphertext that authenticate it. -/
def tagSize : Nat := 24

def cephAESIV : Bytes := ascii "cephsageyudagreg"

def authEncMagic : Nat := 0xff009cad8826aa55

/-- AES in CBC mode, and the Kerberos cipher with the confounder that it draws. Decryption undoes encryption. A
Kerberos ciphertext has the confounder and the tag on top of the message. -/
structure Ciphers where
  encryptBlocks : (key iv plaintext : Bytes) → Bytes
  decryptBlocks : (key iv ciphertext : Bytes) → Bytes
  encryptMessage : (key confounder message : Bytes) → (usage : UInt32) → Except GoError Bytes
  decryptMessage : (key ciphertext : Bytes) → (usage : UInt32) → Except GoError Bytes
  length_encryptBlocks : ∀ key iv plaintext, (encryptBlocks key iv plaintext).length = plaintext.length
  decryptBlocks_encryptBlocks : ∀ key iv plaintext, plaintext.length % blockSize = 0 →
    decryptBlocks key iv (encryptBlocks key iv plaintext) = plaintext
  length_encryptMessage : ∀ {key confounder message usage encrypted},
    encryptMessage key confounder message usage = .ok encrypted →
    encrypted.length = message.length + blockSize + tagSize
  decryptMessage_encryptMessage : ∀ {key confounder message usage encrypted},
    encryptMessage key confounder message usage = .ok encrypted → decryptMessage key encrypted usage = .ok message

variable (ciphers : Ciphers) (secret : CryptoKey)

def encryptCBC (plaintext : Bytes) (limits : Limits) : Except GoError Bytes :=
  let limits := limits.withDefaults
  if plaintext.length > limits.maxEncryptBytes.toNat then .error Sentinel.wireLimitExceeded
  else
    let padLength := blockSize - plaintext.length % blockSize
    let padLength := if padLength = 0 then blockSize else padLength
    if plaintext.length > 2 ^ 64 - 1 - padLength then .error Sentinel.wireLimitExceeded
    else
      let padded := plaintext ++ List.replicate padLength (UInt8.ofNat padLength)
      if padded.length > limits.maxEncryptBytes.toNat + blockSize then .error Sentinel.wireLimitExceeded
      else if secret.typeID ≠ cryptoAES ∨ secret.secret.length ≠ aesKeySize then .error Sentinel.unsupportedType
      else .ok (ciphers.encryptBlocks secret.secret cephAESIV padded)

/-- The end of `decryptCBC`. -/
def removePadding (plaintext : Bytes) : Except GoError Bytes :=
  let padLength := (plaintext.getLast?.getD 0).toNat
  if padLength = 0 ∨ padLength > blockSize ∨ padLength > plaintext.length then .error Sentinel.malformedPayload
  else if (plaintext.drop (plaintext.length - padLength)).any fun value => value.toNat ≠ padLength then
    .error Sentinel.malformedPayload
  else .ok (plaintext.take (plaintext.length - padLength))

def decryptCBC (ciphertext : Bytes) (limits : Limits) : Except GoError Bytes :=
  let limits := limits.withDefaults
  if ciphertext.length < blockSize ∨ ciphertext.length % blockSize ≠ 0 then .error Sentinel.malformedPayload
  else if ciphertext.length > limits.maxDecryptBytes.toNat + blockSize then .error Sentinel.wireLimitExceeded
  else if secret.typeID ≠ cryptoAES ∨ secret.secret.length ≠ aesKeySize then .error Sentinel.unsupportedType
  else removePadding (ciphers.decryptBlocks secret.secret cephAESIV ciphertext)

def encryptPayload (confounder plaintext : Bytes) (usage : UInt32) (limits : Limits) : Except GoError Bytes :=
  if secret.typeID = cryptoAES256KRB5 then
    if plaintext.length > limits.withDefaults.maxEncryptBytes.toNat then .error Sentinel.wireLimitExceeded
    else ciphers.encryptMessage secret.secret confounder plaintext usage
  else encryptCBC ciphers secret plaintext limits

def decryptPayload (ciphertext : Bytes) (usage : UInt32) (limits : Limits) : Except GoError Bytes :=
  if secret.typeID = cryptoAES256KRB5 then
    if ciphertext.length < blockSize + tagSize then .error Sentinel.malformedPayload
    else if ciphertext.length > limits.withDefaults.maxDecryptBytes.toNat + blockSize + tagSize then
      .error Sentinel.wireLimitExceeded
    else
      match ciphers.decryptMessage secret.secret ciphertext usage with
      | .error err => .error (GoError.errorfText Sentinel.malformedPayload err)
      | .ok plaintext => .ok plaintext
  else decryptCBC ciphers secret ciphertext limits

def encryptWithMagicUsage (confounder payload : Bytes) (usage : UInt32) (limits : Limits) : Except GoError Bytes := do
  let limits := limits.withDefaults
  let encoder := Encoder.newEncoder limits.maxEncryptBytes.toNat
  let plaintext ← (((encoder.uint8 1).uint64 authEncMagic).raw payload).bytesResult
  encryptPayload ciphers secret confounder plaintext usage limits

open Decoding in
/-- What the decrypted envelope holds. -/
def decodeMagic : Decoding Bytes := do
  let version ← uint8
  let magic ← uint64
  let payload ← raw ((← remaining) % 2 ^ 32)
  if (← failed) ∨ (← remaining) ≠ 0 then throw (GoError.sentinel .malformedPayload)
  if version ≠ 1 then throw (GoError.sentinel .invalidVersion)
  if magic ≠ authEncMagic then throw (GoError.sentinel .invalidMagic)
  return payload

def decryptEncryptEnvelopeRawUsage (encrypted : Bytes) (usage : UInt32) (limits : Limits) : Except GoError Bytes := do
  let limits := limits.withDefaults
  let plaintext ← decryptPayload ciphers secret encrypted usage limits
  (decodeMagic.eval (newDecoder plaintext limits.maxDecryptBytes.toNat)).1

/-- A plaintext filled up to whole blocks, in which every added byte is the number of them. -/
def padded (plaintext : Bytes) : Bytes :=
  let padLength := blockSize - plaintext.length % blockSize
  plaintext ++ List.replicate padLength (UInt8.ofNat padLength)

variable {ciphers secret} {plaintext ciphertext : Bytes}

theorem length_padded (plaintext : Bytes) :
    (padded plaintext).length = plaintext.length + (blockSize - plaintext.length % blockSize) := by
  simp [padded]

theorem length_padded_mod (plaintext : Bytes) : (padded plaintext).length % blockSize = 0 := by
  rw [length_padded]
  simp only [blockSize]
  omega

/-- The padding of a message is removed again. -/
theorem removePadding_padded (message : Bytes) : removePadding (padded message) = .ok message := by
  have rest : message.length % blockSize < blockSize := Nat.mod_lt _ (by decide)
  have small : (UInt8.ofNat (blockSize - message.length % blockSize)).toNat =
    blockSize - message.length % blockSize :=
    UInt8.toNat_ofNat_of_lt' (Nat.lt_of_le_of_lt (Nat.sub_le _ _) (by decide))
  have last : (padded message).getLast? = some (UInt8.ofNat (blockSize - message.length % blockSize)) := by
    rw [padded, List.getLast?_append_of_ne_nil _ (by simpa using Nat.ne_of_gt (Nat.sub_pos_of_lt rest)),
      List.getLast?_replicate, if_neg (by omega)]
  have length : (padded message).length - (blockSize - message.length % blockSize) = message.length := by
    rw [length_padded, Nat.add_sub_cancel]
  have total := length_padded message
  simp only [removePadding, last, Option.getD_some, small, length]
  rw [if_neg (by omega), if_neg]
  · simp [padded]
  · simp [padded, small]

theorem eq_padded_of_removePadding {message : Bytes} (whole : plaintext.length % blockSize = 0)
    (removed : removePadding plaintext = .ok message) : plaintext = padded message := by
  unfold removePadding at removed
  generalize (plaintext.getLast?.getD 0).toNat = padLength at removed
  dsimp only at removed
  split at removed
  · cases removed
  next bounds =>
  split at removed
  · cases removed
  next same =>
  cases removed
  have filled : plaintext.drop (plaintext.length - padLength) = List.replicate padLength (UInt8.ofNat padLength) := by
    refine List.eq_replicate_iff.mpr ⟨by rw [List.length_drop]; omega, fun value member => ?_⟩
    have value := by simpa using fun different => same (List.any_eq_true.mpr ⟨value, member, different⟩)
    rw [← value, UInt8.ofNat_toNat]
  -- The length of the padding follows from the length of what is in front of it.
  have count : blockSize - (plaintext.take (plaintext.length - padLength)).length % blockSize = padLength := by
    rw [List.length_take]
    simp only [blockSize] at whole bounds ⊢
    omega
  rw [padded, count, ← filled, List.take_append_drop]

/-- There are no more ciphertexts than plaintexts of a length, so that decryption is undone by encryption too. -/
theorem Ciphers.encryptBlocks_decryptBlocks (ciphers : Ciphers) (key iv : Bytes) {ciphertext : Bytes}
    (whole : ciphertext.length % blockSize = 0) :
    ciphers.encryptBlocks key iv (ciphers.decryptBlocks key iv ciphertext) = ciphertext := by
  let encrypt (plaintext : List.Vector UInt8 ciphertext.length) : List.Vector UInt8 ciphertext.length :=
    ⟨ciphers.encryptBlocks key iv plaintext.1, (ciphers.length_encryptBlocks key iv plaintext.1).trans plaintext.2⟩
  have undone (plaintext : List.Vector UInt8 ciphertext.length) :
      ciphers.decryptBlocks key iv (encrypt plaintext).1 = plaintext.1 :=
    ciphers.decryptBlocks_encryptBlocks key iv plaintext.1 (plaintext.2.symm ▸ whole)
  have injective : Function.Injective encrypt := fun first second same =>
    Subtype.ext ((undone first).symm.trans
      ((congrArg (fun c => ciphers.decryptBlocks key iv c.1) same).trans (undone second)))
  obtain ⟨plaintext, encrypted⟩ := Finite.surjective_of_injective injective ⟨ciphertext, rfl⟩
  have isCiphertext : (encrypt plaintext).1 = ciphertext := congrArg Subtype.val encrypted
  rw [← isCiphertext, undone]

/-- What is encrypted: a message within the limit, padded, under an AES key of the right size. -/
theorem encryptCBC_ok (limits : Limits) : encryptCBC ciphers secret plaintext limits = .ok ciphertext ↔
    plaintext.length ≤ limits.withDefaults.maxEncryptBytes.toNat ∧ secret.typeID = cryptoAES ∧
      secret.secret.length = aesKeySize ∧
        ciphers.encryptBlocks secret.secret cephAESIV (padded plaintext) = ciphertext := by
  have rest : plaintext.length % blockSize < blockSize := Nat.mod_lt _ (by decide)
  have some : blockSize - plaintext.length % blockSize ≠ 0 := Nat.sub_ne_zero_of_lt rest
  have limit := limits.withDefaults.maxEncryptBytes.toNat_lt
  have block : blockSize = 16 := rfl
  have length := length_padded plaintext
  unfold encryptCBC
  simp only [if_neg some]
  rw [← padded]
  split
  · next long => simp [Nat.not_le.mpr long]
  next short =>
  rw [if_neg (by omega), if_neg (by omega)]
  split
  · next other =>
    simp only [reduceCtorEq, false_iff]
    rintro ⟨-, aes, size, -⟩
    exact other.elim (absurd aes) (absurd size)
  · next aes =>
    rw [not_or, not_not, not_not] at aes
    simp [aes, Nat.le_of_not_lt short]

/-- What is decrypted: whole blocks, at most one above the limit, whose plaintext is a padded message. -/
theorem decryptCBC_ok {message : Bytes} (limits : Limits) :
    decryptCBC ciphers secret ciphertext limits = .ok message ↔
    (0 < ciphertext.length ∧ ciphertext.length % blockSize = 0) ∧
      ciphertext.length ≤ limits.withDefaults.maxDecryptBytes.toNat + blockSize ∧ secret.typeID = cryptoAES ∧
      secret.secret.length = aesKeySize ∧
        ciphers.decryptBlocks secret.secret cephAESIV ciphertext = padded message := by
  unfold decryptCBC
  dsimp only
  split
  · next broken =>
    refine iff_of_false nofun ?_
    rintro ⟨whole, -⟩
    simp only [blockSize] at broken whole
    omega
  next whole =>
  rw [not_or, not_not] at whole
  split
  · next long => exact iff_of_false nofun (by omega)
  next short =>
  split
  · next other =>
    exact iff_of_false nofun (by rintro ⟨-, -, aes, size, -⟩; exact other.elim (absurd aes) (absurd size))
  next aes =>
  rw [not_or, not_not, not_not] at aes
  have undone := ciphers.encryptBlocks_decryptBlocks secret.secret cephAESIV whole.2
  have length := ciphers.length_encryptBlocks secret.secret cephAESIV
    (ciphers.decryptBlocks secret.secret cephAESIV ciphertext)
  rw [undone] at length
  constructor
  · intro removed
    refine ⟨⟨?_, whole.2⟩, Nat.le_of_not_lt short, aes.1, aes.2,
      eq_padded_of_removePadding (length ▸ whole.2) removed⟩
    exact Nat.lt_of_lt_of_le (by decide : 0 < blockSize) (Nat.le_of_not_lt whole.1)
  · rintro ⟨-, -, -, -, isPadded⟩
    rw [isPadded, removePadding_padded]

/-- Both ciphers return what was encrypted, unless less may be decrypted than encrypted. -/
theorem decryptPayload_encryptPayload (limits : Limits) {confounder : Bytes} {usage : UInt32}
    (wide : limits.withDefaults.maxEncryptBytes ≤ limits.withDefaults.maxDecryptBytes)
    (encrypted : encryptPayload ciphers secret confounder plaintext usage limits = .ok ciphertext) :
    decryptPayload ciphers secret ciphertext usage limits = .ok plaintext := by
  have limit : limits.withDefaults.maxEncryptBytes.toNat ≤ limits.withDefaults.maxDecryptBytes.toNat := wide
  unfold encryptPayload at encrypted
  unfold decryptPayload
  split at encrypted
  · next kerberos =>
    split at encrypted
    · cases encrypted
    next short =>
    have length := ciphers.length_encryptMessage encrypted
    rw [if_pos kerberos, if_neg (by omega), if_neg (by omega), ciphers.decryptMessage_encryptMessage encrypted]
  · next aes =>
    rw [if_neg aes]
    obtain ⟨short, type, size, rfl⟩ := (encryptCBC_ok limits).mp encrypted
    have length := length_padded plaintext
    have whole := length_padded_mod plaintext
    have some : 0 < blockSize - plaintext.length % blockSize := Nat.sub_pos_of_lt (Nat.mod_lt _ (by decide))
    refine (decryptCBC_ok limits).mpr ⟨?_, ?_, type, size, ciphers.decryptBlocks_encryptBlocks _ _ _ whole⟩
    · rw [ciphers.length_encryptBlocks]
      exact ⟨by omega, whole⟩
    · rw [ciphers.length_encryptBlocks]
      omega

/-- What is written in front of a payload before it is encrypted. -/
def magicBytes : Bytes := littleEndian 1 1 ++ littleEndian 8 authEncMagic

open Decoding in
theorem eval_decodeMagic {payload : Bytes} {max : Nat} (small : payload.length < 2 ^ 32) :
    (decodeMagic.eval (newDecoder (magicBytes ++ payload) max)).1 = .ok payload := by
  rw [decodeMagic, magicBytes, List.append_assoc, newDecoder, uint8, eval_bind (eval_fixed 1 1), uint64,
    eval_bind (eval_fixed 8 _), eval_bind (eval_remaining _), Nat.mod_eq_of_lt small]
  have taken : (take payload.length).eval ⟨payload ++ [], max, none⟩ = _ := eval_take payload
  rw [List.append_nil] at taken
  have read : (raw payload.length).eval ⟨payload, max, none⟩ = (.ok payload, ⟨[], max, none⟩) := eval_bind taken
  rw [eval_bind read, eval_bind (eval_failed _), eval_bind (eval_remaining _)]
  rfl

theorem withDefaults_withDefaults (limits : Limits) : limits.withDefaults.withDefaults = limits.withDefaults := by
  have stays (value : UInt32) :
    (if (if value = 0 then 2 ^ 20 else value) = 0 then 2 ^ 20 else if value = 0 then 2 ^ 20 else value) =
      if value = 0 then 2 ^ 20 else value := by
    by_cases zero : value = 0
    · rw [if_pos zero]
      decide
    · rw [if_neg zero, if_neg zero]
  rw [Limits.withDefaults, Limits.withDefaults, stays, stays]

/-- Whatever was encrypted is returned, if no more may be encrypted than decrypted. A ciphertext within the limit is
accepted exactly if it decrypts to whole blocks with the right padding, and then it is the ciphertext of what is
returned. -/
theorem envelope_inverts (ciphers : Ciphers) (secret : CryptoKey) (limits : Limits) :
    (limits.withDefaults.maxEncryptBytes ≤ limits.withDefaults.maxDecryptBytes → ∀ confounder payload usage encrypted,
      encryptWithMagicUsage ciphers secret confounder payload usage limits = .ok encrypted →
        decryptEncryptEnvelopeRawUsage ciphers secret encrypted usage limits = .ok payload) ∧
    (secret.typeID = cryptoAES → secret.secret.length = aesKeySize → ∀ ciphertext : Bytes,
      ciphertext.length ≤ limits.withDefaults.maxDecryptBytes.toNat + blockSize → ∀ message,
        (decryptCBC ciphers secret ciphertext limits = .ok message ↔
          (0 < ciphertext.length ∧ ciphertext.length % blockSize = 0) ∧
          ciphers.decryptBlocks secret.secret cephAESIV ciphertext = padded message) ∧
        (decryptCBC ciphers secret ciphertext limits = .ok message → ∀ wide : Limits,
          message.length ≤ wide.withDefaults.maxEncryptBytes.toNat →
            encryptCBC ciphers secret message wide = .ok ciphertext)) := by
  refine ⟨fun wide confounder payload usage encrypted run => ?_, fun type size ciphertext short message => ⟨?_, ?_⟩⟩
  · obtain ⟨plaintext, written, run⟩ := except_bind_ok run
    have wrote := (((Encoder.newEncoder_wrote limits.withDefaults.maxEncryptBytes.toNat).raw (littleEndian 1 1)).raw
      (littleEndian 8 authEncMagic)).raw payload
    have fits := written.symm.trans wrote.bytesResult
    split at fits
    · next short =>
      cases fits
      have decrypted := decryptPayload_encryptPayload limits.withDefaults (by rwa [withDefaults_withDefaults]) run
      have limit := limits.withDefaults.maxEncryptBytes.toNat_lt
      simp only [List.length_append] at short
      rw [decryptEncryptEnvelopeRawUsage]
      simp only [decrypted]
      exact eval_decodeMagic (by omega)
    · cases fits
  · rw [decryptCBC_ok]
    exact ⟨fun ⟨whole, _, _, _, isPadded⟩ => ⟨whole, isPadded⟩, fun ⟨whole, isPadded⟩ =>
      ⟨whole, short, type, size, isPadded⟩⟩
  · intro decrypted wide room
    obtain ⟨⟨-, whole⟩, -, -, -, isPadded⟩ := (decryptCBC_ok limits).mp decrypted
    refine (encryptCBC_ok wide).mpr ⟨room, type, size, ?_⟩
    rw [← isPadded, ciphers.encryptBlocks_decryptBlocks _ _ whole]

/-- Ciphers that hide nothing. -/
def plainCiphers : Ciphers where
  encryptBlocks _ _ plaintext := plaintext
  decryptBlocks _ _ ciphertext := ciphertext
  encryptMessage _ _ message _ := .ok (message ++ List.replicate 40 0)
  decryptMessage _ ciphertext _ := .ok (ciphertext.take (ciphertext.length - 40))
  length_encryptBlocks _ _ _ := rfl
  decryptBlocks_encryptBlocks _ _ _ _ := rfl
  length_encryptMessage run := by
    cases run
    simp [blockSize, tagSize]
  decryptMessage_encryptMessage run := by
    cases run
    simp

theorem envelope_inverts_plainCiphers :
    decryptEncryptEnvelopeRawUsage plainCiphers ⟨cryptoAES256KRB5, List.replicate 32 0⟩
      (magicBytes ++ [7] ++ List.replicate 40 0) 3 ⟨0, 0⟩ = .ok [7] :=
  (envelope_inverts plainCiphers ⟨cryptoAES256KRB5, List.replicate 32 0⟩ ⟨0, 0⟩).1 (by decide) [] [7] 3 _ (by decide)

end RadosGo.Cephx
