import RadosGo.Config.Seeds

namespace RadosGo

def cryptoAES : Nat := 1
def cryptoAES256KRB5 : Nat := 2
def aesKeySize : Nat := 16
def aes256KeySize : Nat := 32
def defaultMaxKeyBytes : Nat := 256
def defaultMaxKeyring : Nat := 2 ^ 20

structure CryptoKey where
  typeID : Nat
  secret : Bytes
  deriving DecidableEq, Repr

/-- A principal with its secret. The time is in seconds and nanoseconds. -/
structure Credential where
  entity : Bytes
  created : Nat × Nat
  secret : CryptoKey
  deriving DecidableEq, Repr

/-- What `bufio.Scanner` and `base64` make of their inputs. -/
structure KeyringLibrary where
  /-- The lines of a text, and the error after which there are no more. -/
  scan : Bytes → List Bytes × Option GoError
  /-- `StdEncoding.Strict().DecodeString`. -/
  decodeString : Bytes → Option Bytes

def validKeyParameters (keyType secretLength : Nat) : Bool :=
  keyType = cryptoAES ∧ secretLength = aesKeySize ∨ keyType = cryptoAES256KRB5 ∧ secretLength = aes256KeySize

def validClientEntity (entity : Bytes) : Bool :=
  match cut 0x2e entity with
  | none => false
  | some (name, id) => name = ascii "client" ∧ id ≠ [] ∧ ∀ byte ∈ id, byte ∉ [0x5b, 0x5d, 0x0d, 0x0a, 0x00]

section ParseKey

/-- The envelope of a key. -/
def decodeKey : Decoding (Nat × Nat × Nat × Bytes) := do
  let keyType ← Decoding.uint16
  let seconds ← Decoding.uint32
  let nanoseconds ← Decoding.uint32
  let secretLength ← Decoding.uint16
  let secret ← Decoding.raw secretLength
  if (← Decoding.failed) ∨ (← Decoding.remaining) ≠ 0 then
    throw (GoError.errorf Sentinel.invalidCredential "malformed key envelope")
  return (keyType, seconds, nanoseconds, secret)

def parseKey (library : KeyringLibrary) (entity encoded : Bytes) (maxBytes : Nat) : Except GoError Credential := do
  if !validClientEntity entity then throw (GoError.errorf Sentinel.invalidCredential "invalid client entity")
  let maxBytes := if maxBytes = 0 then defaultMaxKeyBytes else maxBytes
  let encoded := trimSpace encoded
  if encoded = [] ∨ encoded.length > maxBytes * 2 then
    throw (GoError.errorf Sentinel.invalidCredential "encoded key length")
  match library.decodeString encoded with
  | none => throw (GoError.errorf Sentinel.invalidCredential "malformed base64")
  | some data =>
    if data.length > maxBytes then throw (GoError.errorf Sentinel.invalidCredential "malformed base64")
    let (keyType, seconds, nanoseconds, secret) ← (decodeKey.eval (newDecoder data maxBytes)).1
    if !validKeyParameters keyType secret.length ∨ nanoseconds ≥ 10 ^ 9 then
      throw (GoError.errorf Sentinel.invalidCredential "unsupported key parameters")
    return { entity, created := (seconds, nanoseconds), secret := ⟨keyType, secret⟩ }

end ParseKey

section Lines

/-- The place of the first comment character outside of quotes. -/
def commentStart : UInt8 → Bytes → Option Nat
  | _, [] => none
  | quote, byte :: rest =>
    if byte = 0x27 ∨ byte = 0x22 then
      (commentStart (if quote = 0 then byte else if quote = byte then 0 else quote) rest).map (· + 1)
    else if (byte = 0x23 ∨ byte = 0x3b) ∧ quote = 0 then some 0
    else (commentStart quote rest).map (· + 1)

def stripComment (line : Bytes) : Bytes :=
  match commentStart 0 line with
  | none => line
  | some index => trimSpace (line.take index)

def unquoteConfigValue (value : Bytes) : Bytes :=
  if value.length ≥ 2 ∧ (value.head? = some 0x27 ∧ value.getLast? = some 0x27 ∨ value.head? = some 0x22 ∧
    value.getLast? = some 0x22)
  then (value.drop 1).dropLast else value

/-- A line as both parsers look at it. -/
def keyringLine (text : Bytes) : Bytes := stripComment (trimSpace text)

/-- The name of a section without its brackets. -/
def sectionName (line : Bytes) : Bytes := trimSpace (line.drop 1).dropLast

def hasBrackets (line : Bytes) : Bool := (ascii "[").isPrefixOf line ∧ (ascii "]").isSuffixOf line

end Lines

section ParseKeyring

structure KeyringState where
  section_ : Bytes := []
  key : Bytes := []
  foundSection : Bool := false

def invalidKeyring (detail : String) : GoError := GoError.errorf Sentinel.invalidKeyring detail

/-- A property of the section of the entity. -/
def addProperty (state : KeyringState) (property value : Bytes) : Except GoError KeyringState :=
  if property = ascii "auid" ∨ (ascii "caps ").isPrefixOf property ∨ (ascii "caps_").isPrefixOf property
  then .ok state
  else if property ≠ ascii "key" ∨ state.key ≠ [] then .error (invalidKeyring "unsupported or duplicate property")
  else .ok { state with key := unquoteConfigValue (trimSpace value) }

/-- The body of the loop of `ParseKeyring`. -/
def parseLine (entity : Bytes) (state : KeyringState) (text : Bytes) : Except GoError KeyringState :=
  let line := keyringLine text
  if line = [] then .ok state
  else if (ascii "[").isPrefixOf line then
    if !(ascii "]").isSuffixOf line ∨ line.count 0x5b ≠ 1 ∨ line.count 0x5d ≠ 1
    then .error (invalidKeyring "malformed section")
    else if sectionName line = entity then
      if state.foundSection then .error (invalidKeyring "duplicate entity")
      else .ok { state with section_ := sectionName line, foundSection := true }
    else .ok { state with section_ := sectionName line }
  else
    match cut 0x3d line with
    | none => .error (invalidKeyring "malformed property")
    | some (name, value) =>
      if trimSpace name = [] ∨ state.section_ = [] then .error (invalidKeyring "malformed property")
      else if state.section_ ≠ entity then .ok state
      else addProperty state (trimSpace name) value

/-- The rest of `ParseKeyring` behind its loop. -/
def finishKeyring (library : KeyringLibrary) (entity : Bytes) (scanError : Option GoError) (state : KeyringState) :
    Except GoError Credential :=
  match scanError with
  | some err => .error (invalidKeyring err.text)
  | none =>
    if !state.foundSection ∨ state.key = [] then
      .error (GoError.errorf Sentinel.credentialNotFound
        (String.ofList (entity.map fun byte => Char.ofNat byte.toNat)))
    else
      match parseKey library entity state.key defaultMaxKeyBytes with
      | .error err => .error (invalidKeyring err.text)
      | .ok credential => .ok credential

/-- Zero stands for the default. -/
def keyringLimit (maxBytes : Nat) : Nat := if maxBytes = 0 then defaultMaxKeyring else maxBytes

def parseKeyring (library : KeyringLibrary) (data entity : Bytes) (maxBytes : Nat) : Except GoError Credential :=
  if !validClientEntity entity then .error (invalidKeyring "invalid client entity")
  else if data.length > keyringLimit maxBytes then .error (invalidKeyring "size limit")
  else do
    let state ← (library.scan data).1.foldlM (parseLine entity) {}
    finishKeyring library entity (library.scan data).2 state

end ParseKeyring

section LoadKeyring

/-- The loop of `encodedKeyFromKeyring` from one line on, within a section. -/
def encodedKey (entity : Bytes) : Bytes → List Bytes → Option Bytes
  | _, [] => none
  | section_, text :: rest =>
    let line := keyringLine text
    if line = [] then encodedKey entity section_ rest
    else if hasBrackets line then encodedKey entity (sectionName line) rest
    else if section_ ≠ entity then encodedKey entity section_ rest
    else
      match cut 0x3d line with
      | none => encodedKey entity section_ rest
      | some (name, value) =>
        if trimSpace name ≠ ascii "key" then encodedKey entity section_ rest
        else some (unquoteConfigValue (trimSpace value))

def encodedKeyFromKeyring (library : KeyringLibrary) (data entity : Bytes) : Except GoError Bytes :=
  match encodedKey entity [] (library.scan data).1 with
  | some key => .ok key
  | none =>
    match (library.scan data).2 with
    | some err => .error err
    | none => .error (.plain "validated credential key not found")

def defaultEntity : Bytes := ascii "client.admin"

/-- The entity whose key is loaded. -/
def keyringEntity (entity : Bytes) : Bytes := if entity = [] then defaultEntity else entity

/-- `LoadKeyring` for a file with these contents. -/
def loadKeyring (library : KeyringLibrary) (data entity : Bytes) : Except GoError Bytes :=
  if data.length > defaultMaxKeyring then .error (invalidConfig "file" "size limit exceeded")
  else
    match parseKeyring library data (keyringEntity entity) defaultMaxKeyring with
    | .error err => .error (invalidConfig "keyring" err.text)
    | .ok _ =>
      match encodedKeyFromKeyring library data (keyringEntity entity) with
      | .error err => .error (invalidConfig "keyring" err.text)
      | .ok encoded => .ok encoded

end LoadKeyring

section Agreement

variable {entity : Bytes}

/-- The values of all keys in the section of an entity. -/
def keyValues (entity : Bytes) : Bytes → List Bytes → List Bytes
  | _, [] => []
  | section_, text :: rest =>
    let line := keyringLine text
    if line = [] then keyValues entity section_ rest
    else if hasBrackets line then keyValues entity (sectionName line) rest
    else if section_ ≠ entity then keyValues entity section_ rest
    else
      match cut 0x3d line with
      | none => keyValues entity section_ rest
      | some (name, value) =>
        if trimSpace name ≠ ascii "key" then keyValues entity section_ rest
        else unquoteConfigValue (trimSpace value) :: keyValues entity section_ rest

/-- The second parser stops at the first key. -/
theorem encodedKey_eq (section_ : Bytes) (lines : List Bytes) :
    encodedKey entity section_ lines = (keyValues entity section_ lines).head? := by
  fun_induction encodedKey entity section_ lines <;> grind [keyValues]

/-- What a line that the first parser accepts adds to the keys. -/
theorem keyValues_parseLine {state next : KeyringState} {text : Bytes}
    (parsed : parseLine entity state text = .ok next) (rest : List Bytes) :
    keyValues entity state.section_ (text :: rest) = keyValues entity next.section_ rest ∧ next.key = state.key ∨
      state.key = [] ∧ keyValues entity state.section_ (text :: rest) =
        next.key :: keyValues entity next.section_ rest := by
  rw [keyValues]
  have isSection (opened : (ascii "[").isPrefixOf (keyringLine text))
    (closed : ¬(!(ascii "]").isSuffixOf (keyringLine text) ∨
      (keyringLine text).count 0x5b ≠ 1 ∨ (keyringLine text).count 0x5d ≠ 1)) : hasBrackets (keyringLine text) := by
    rw [hasBrackets, decide_eq_true_eq]
    exact ⟨opened, by simp only [not_or] at closed; simpa using closed.1⟩
  have isProperty (property : ¬(ascii "[").isPrefixOf (keyringLine text)) : ¬hasBrackets (keyringLine text) := by
    rw [hasBrackets, decide_eq_true_eq]
    exact fun both => property both.1
  revert parsed
  fun_cases parseLine entity state text
  any_goals rintro ⟨⟩
  · next blank =>
    rw [if_pos blank]
    exact .inl ⟨rfl, rfl⟩
  · next written opened closed _ _ =>
    rw [if_neg written, if_pos (isSection opened closed)]
    exact .inl ⟨rfl, rfl⟩
  · next written opened closed _ =>
    rw [if_neg written, if_pos (isSection opened closed)]
    exact .inl ⟨rfl, rfl⟩
  · next written property _ _ _ _ other =>
    rw [if_neg written, if_neg (isProperty property), if_pos other]
    exact .inl ⟨rfl, rfl⟩
  · next written property name value parts _ same =>
    rw [if_neg written, if_neg (isProperty property), if_neg same, parts]
    dsimp only
    fun_cases addProperty state (trimSpace name) value
    all_goals rintro ⟨⟩
    · next ignored =>
      have other : trimSpace name ≠ ascii "key" := by
        intro isKey
        rw [isKey] at ignored
        revert ignored
        decide
      rw [if_pos other]
      exact .inl ⟨rfl, rfl⟩
    · next single =>
      obtain ⟨isKey, first⟩ := not_or.mp single
      rw [if_neg isKey]
      exact .inr ⟨not_not.mp first, rfl⟩

/-- Of the keys in a keyring that the first parser accepts, all but the last one are empty. -/
theorem keyValues_parsed {state final : KeyringState} {lines : List Bytes}
    (parsed : lines.foldlM (parseLine entity) state = .ok final) :
    keyValues entity state.section_ lines = [] ∧ final.key = state.key ∨
      state.key = [] ∧ ∃ empty, keyValues entity state.section_ lines = List.replicate empty [] ++ [final.key] := by
  induction lines generalizing state with
  | nil =>
    cases parsed
    exact .inl ⟨rfl, rfl⟩
  | cons text rest ih =>
    rw [List.foldlM_cons] at parsed
    obtain ⟨next, here, later⟩ := except_bind_ok parsed
    rcases keyValues_parseLine here rest with ⟨values, same⟩ | ⟨first, values⟩
    · rw [values, ← same]
      exact ih later
    · rw [values]
      refine .inr ⟨first, ?_⟩
      rcases ih later with ⟨none, same⟩ | ⟨blank, empty, others⟩
      · exact ⟨0, by rw [none, same]; rfl⟩
      · exact ⟨empty + 1, by rw [others, blank]; rfl⟩

theorem parseKey_nil (library : KeyringLibrary) (entity : Bytes) (maxBytes : Nat) :
    ∃ err, parseKey library entity [] maxBytes = .error err := by
  rw [parseKey]
  split <;> exact ⟨_, rfl⟩

theorem parseKeyring_ok {library : KeyringLibrary} {data : Bytes} {maxBytes : Nat} {credential : Credential}
    (parsed : parseKeyring library data entity maxBytes = .ok credential) :
    ∃ state, (library.scan data).1.foldlM (parseLine entity) {} = .ok state ∧ state.key ≠ [] ∧
      parseKey library entity state.key defaultMaxKeyBytes = .ok credential := by
  revert parsed
  fun_cases parseKeyring library data entity maxBytes
  any_goals rintro ⟨⟩
  intro parsed
  obtain ⟨state, lines, finished⟩ := except_bind_ok parsed
  refine ⟨state, lines, ?_⟩
  revert finished
  fun_cases finishKeyring library entity (library.scan data).2 state
  all_goals rintro ⟨⟩
  next found key => exact ⟨(not_or.mp found).2, key⟩

/-- The loaded key is that of the credential exactly if the section of the entity has no empty key. -/
theorem loadKeyring_agrees_iff {library : KeyringLibrary} {data entity key : Bytes}
    (loaded : loadKeyring library data entity = .ok key) :
    ∃ credential, parseKeyring library data (keyringEntity entity) defaultMaxKeyring = .ok credential ∧
      (parseKey library (keyringEntity entity) key defaultMaxKeyBytes = .ok credential ↔
        [] ∉ keyValues (keyringEntity entity) [] (library.scan data).1) := by
  rw [loadKeyring] at loaded
  split at loaded
  · cases loaded
  · split at loaded
    · cases loaded
    · next credential parsed =>
      refine ⟨credential, parsed, ?_⟩
      obtain ⟨state, lines, nonempty, agreed⟩ := parseKeyring_ok parsed
      have values := keyValues_parsed lines
      obtain ⟨empty, values⟩ : ∃ empty, keyValues (keyringEntity entity) [] (library.scan data).1 =
          List.replicate empty [] ++ [state.key] := by
        rcases values with ⟨-, none⟩ | ⟨-, values⟩
        · exact absurd none nonempty
        · exact values
      rw [encodedKeyFromKeyring, encodedKey_eq, values] at loaded
      cases empty with
      | zero =>
        cases loaded
        rw [values]
        exact iff_of_true agreed (by simpa using nonempty.symm)
      | succ empty =>
        cases loaded
        obtain ⟨err, refused⟩ := parseKey_nil library (keyringEntity entity) defaultMaxKeyBytes
        rw [values, refused, List.replicate_succ]
        simp

/-- The key of a keyring with sixteen zeros. -/
def zeroKey : Bytes := ascii "AQAAAAAAAAAAABAAAAAAAAAAAAAAAAAAAAAAAA=="

/-- The library on keyrings without carriage returns whose only key is that of sixteen zeros. -/
def zeroLibrary : KeyringLibrary where
  scan data := (data.splitOn 0x0a, none)
  decodeString _ := some ([1, 0, 0, 0, 0, 0, 0, 0, 0, 0, 16, 0] ++ List.replicate 16 0)

def zeroCredential : Credential := ⟨defaultEntity, (0, 0), ⟨cryptoAES, List.replicate 16 0⟩⟩

def plainKeyring : Bytes := ascii "[client.admin]\n\tkey = " ++ zeroKey

theorem loadKeyring_agrees_iff_plainKeyring : ∃ credential,
    parseKeyring zeroLibrary plainKeyring (keyringEntity []) defaultMaxKeyring = .ok credential ∧
      parseKey zeroLibrary (keyringEntity []) zeroKey defaultMaxKeyBytes = .ok credential := by
  have loaded : loadKeyring zeroLibrary plainKeyring [] = .ok zeroKey := by decide +kernel
  obtain ⟨credential, parsed, agrees⟩ := loadKeyring_agrees_iff loaded
  exact ⟨credential, parsed, agrees.mpr (by decide +kernel)⟩

def blankKeyring : Bytes := ascii "[client.admin]\n\tkey =\n\tkey = " ++ zeroKey

/-- An empty key is overlooked by the first parser and returned by the second. -/
theorem blank_key_loaded :
    parseKeyring zeroLibrary blankKeyring defaultEntity defaultMaxKeyring = .ok zeroCredential ∧
    loadKeyring zeroLibrary blankKeyring defaultEntity = .ok [] ∧
    parseKey zeroLibrary defaultEntity [] defaultMaxKeyBytes =
      .error (GoError.errorf Sentinel.invalidCredential "encoded key length") := by
  decide +kernel

end Agreement

end RadosGo
