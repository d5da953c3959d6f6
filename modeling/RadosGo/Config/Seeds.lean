import RadosGo.Library.NetAddress
import RadosGo.Wire.Codec

namespace RadosGo

def brackets : List Bytes := [ascii "[", ascii "]"]

def defaultMonitorV2Port : Nat := 3300

def maxMonitorSeeds : Nat := 64

section Seeds

/-- The host and the port that a seed without its nonce names. `quote` is `strconv.Quote`. -/
def parseHostPort (quote : Bytes → String) (seed : Bytes) : Except GoError (Bytes × Nat) :=
  match parseAddr seed with
  | some address => .ok (address.text, defaultMonitorV2Port)
  | none =>
    match splitHostPort seed with
    | some (host, portText) =>
      match parseUint 16 portText with
      | some (port + 1) => .ok (trimMarks brackets host, port + 1)
      | _ => .error (GoError.errorf Sentinel.wireMalformed "invalid monitor port")
    | none =>
      if seed = [] ∨ 0x3a ∈ seed then
        .error (GoError.errorf Sentinel.wireMalformed ("invalid monitor seed " ++ quote seed))
      else .ok (seed, defaultMonitorV2Port)

/-- A number behind the last slash is checked and dropped. -/
def parseNonce (quote : Bytes → String) (seed : Bytes) : Except GoError (Bytes × Nat) :=
  match cutLast 0x2f seed with
  | none => parseHostPort quote seed
  | some (address, nonce) =>
    if (parseUint 32 nonce).isNone then .error (GoError.errorf Sentinel.wireMalformed "invalid monitor nonce")
    else parseHostPort quote address

def parseSeed (quote : Bytes → String) (seed : Bytes) : Except GoError (Bytes × Nat) :=
  let seed := trimSpace seed
  if (ascii "v2:").isPrefixOf seed then parseNonce quote (seed.drop 3)
  else if (ascii "v1:").isPrefixOf seed then
    .error (GoError.errorf Sentinel.unsupportedVersion "messenger v1 monitor seed")
  else parseNonce quote seed

def seedSeparator (byte : UInt8) : Bool := byte = 0x2c ∨ byte = 0x3b ∨ byte = 0x20 ∨ byte = 0x09

/-- `strings.FieldsFunc` with the separators of seeds. -/
def seedFields (value : Bytes) : List Bytes := (value.splitOnP seedSeparator).filter (· ≠ [])

/-- Brackets around the whole value are taken off. -/
def stripGroup (value : Bytes) : Bytes :=
  let value := trimSpace value
  if (ascii "[").isPrefixOf value ∧ (ascii "]").isSuffixOf value then (value.drop 1).dropLast else value

/-- The function of the package `rados`. -/
def splitMonitorSeeds (value : Bytes) : List Bytes :=
  ((seedFields (stripGroup value)).map (trimMarks brackets)).filter fun field =>
    field ≠ [] ∧ !(ascii "v1:").isPrefixOf field

/-- The function of the package `mon`, which keeps empty fields. -/
def splitBootstrapSeeds (value : Bytes) : List Bytes :=
  ((seedFields (stripGroup value)).map (trimMarks brackets)).filter fun field => !(ascii "v1:").isPrefixOf field

def invalidConfig (name : String) (err : String) : GoError :=
  GoError.errorf Sentinel.invalidArgument (name ++ ": " ++ err)

/-- What `WithOption` stores as the monitors for the value of `mon_host`. -/
def withMonHost (value : Bytes) : Except GoError (List Bytes) :=
  let value := trimSpace value
  if ∃ byte ∈ value, byte = 0x00 ∨ byte = 0x0d ∨ byte = 0x0a
  then .error (invalidConfig "mon_host" "invalid monitor seeds")
  else
    let monitors := splitMonitorSeeds value
    if monitors.length = 0 ∨ monitors.length > maxMonitorSeeds then
      .error (invalidConfig "mon_host" "invalid monitor seed count")
    else .ok monitors

end Seeds

/-- Seeds which the resolver accepts and which can be told apart in a list. -/
structure SeedList (quote : Bytes → String) (seeds : List Bytes) : Prop where
  some : 1 ≤ seeds.length
  few : seeds.length ≤ maxMonitorSeeds
  accepted : ∀ seed ∈ seeds, ∃ host port, parseSeed quote seed = .ok (host, port)
  trimmed : ∀ seed ∈ seeds, trimSpace seed = seed
  plain : ∀ seed ∈ seeds, ∀ byte ∈ seed, seedSeparator byte = false
  current : ∀ seed ∈ seeds, ¬ascii "v1:" <+: seed

section Stored

variable {quote : Bytes → String} {seeds : List Bytes}

theorem brackets_solid : [] ∉ brackets := by decide

namespace SeedList

variable (valid : SeedList quote seeds)
include valid

theorem ne_nil : seeds ≠ [] := List.ne_nil_of_length_pos valid.some

theorem seed_ne_nil {seed : Bytes} (member : seed ∈ seeds) : seed ≠ [] := by
  rintro rfl
  obtain ⟨host, port, accepted⟩ := valid.accepted [] member
  cases accepted

theorem trimSpace_join : trimSpace (joinText "," seeds) = joinText "," seeds := by
  have outside : ∀ mark ∈ spaces, (0x2c : UInt8) ∉ mark := by decide
  refine (trimMarks_eq_self_iff spaces_solid).mpr (bare_intercalate outside valid.ne_nil fun seed member => ?_)
  exact (trimMarks_eq_self_iff spaces_solid).mp (valid.trimmed seed member)

theorem seedFields_join : seedFields (joinText "," seeds) = seeds := by
  have split : (joinText "," seeds).splitOnP seedSeparator = seeds :=
    splitOnP_intercalate (show seedSeparator 0x2c by decide) valid.ne_nil valid.plain
  rw [seedFields, split, List.filter_eq_self]
  intro seed member
  simpa using valid.seed_ne_nil member

/-- The fields come out whole if none of them has brackets at its ends. -/
theorem trimmed_fields (bare : ∀ seed ∈ seeds, Bare brackets seed) :
    (seedFields (stripGroup (joinText "," seeds))).map (trimMarks brackets) = seeds := by
  have outside : ∀ mark ∈ brackets, (0x2c : UInt8) ∉ mark := by decide
  have whole : Bare brackets (joinText "," seeds) := bare_intercalate outside valid.ne_nil bare
  have open_ : ¬((ascii "[").isPrefixOf (joinText "," seeds) ∧ (ascii "]").isSuffixOf (joinText "," seeds)) := by
    rintro ⟨isPrefix, -⟩
    exact whole.front _ (by decide) (List.isPrefixOf_iff_prefix.mp isPrefix)
  rw [stripGroup, valid.trimSpace_join, if_neg open_, valid.seedFields_join]
  refine (List.map_congr_left fun seed member => ?_).trans (List.map_id seeds)
  exact (trimMarks_eq_self_iff brackets_solid).mpr (bare seed member)

theorem v1_filtered {seed : Bytes} (member : seed ∈ seeds) : (!(ascii "v1:").isPrefixOf seed) = true := by
  rw [Bool.not_eq_true', Bool.eq_false_iff]
  exact fun isPrefix => valid.current seed member (List.isPrefixOf_iff_prefix.mp isPrefix)

theorem filtered_join {keep : Bytes → Bool} (kept : ∀ seed ∈ seeds, keep seed) :
    ((seedFields (stripGroup (joinText "," seeds))).map (trimMarks brackets)).filter keep = seeds ↔
      ∀ seed ∈ seeds, Bare brackets seed := by
  constructor
  · intro same seed member
    rw [← same] at member
    obtain ⟨field, -, rfl⟩ := List.mem_map.mp (List.mem_filter.mp member).1
    exact bare_trimMarks brackets_solid field
  · intro bare
    rwa [valid.trimmed_fields bare, List.filter_eq_self]

theorem splitMonitorSeeds_join : splitMonitorSeeds (joinText "," seeds) = seeds ↔
    ∀ seed ∈ seeds, Bare brackets seed :=
  valid.filtered_join fun _ member => decide_eq_true ⟨valid.seed_ne_nil member, valid.v1_filtered member⟩

theorem splitBootstrapSeeds_join :
    splitBootstrapSeeds (joinText "," seeds) = seeds ↔ ∀ seed ∈ seeds, Bare brackets seed :=
  valid.filtered_join fun _ member => valid.v1_filtered member

end SeedList

/-- A list of seeds is stored as it is exactly if no seed has a bracket at one of its ends, and no byte is refused. -/
theorem mon_host_stored_iff (valid : SeedList quote seeds) :
    (withMonHost (joinText "," seeds) = .ok seeds ↔ (∀ seed ∈ seeds, Bare brackets seed) ∧
      ∀ seed ∈ seeds, ∀ byte ∈ seed, byte ≠ 0x00 ∧ byte ≠ 0x0d ∧ byte ≠ 0x0a) ∧
    (splitBootstrapSeeds (joinText "," seeds) = seeds ↔ ∀ seed ∈ seeds, Bare brackets seed) := by
  refine ⟨?_, valid.splitBootstrapSeeds_join⟩
  rw [← valid.splitMonitorSeeds_join, withMonHost, valid.trimSpace_join]
  have inside {byte : UInt8} (refused : byte = 0x00 ∨ byte = 0x0d ∨ byte = 0x0a) :
      byte ∈ joinText "," seeds ↔ ∃ seed ∈ seeds, byte ∈ seed := by
    refine mem_intercalate ?_
    rintro rfl
    revert refused
    decide
  by_cases bad : ∃ byte ∈ joinText "," seeds, byte = 0x00 ∨ byte = 0x0d ∨ byte = 0x0a
  · rw [if_pos bad]
    obtain ⟨byte, member, refused⟩ := bad
    obtain ⟨seed, isSeed, member⟩ := (inside refused).mp member
    constructor
    · intro run
      cases run
    · rintro ⟨-, clean⟩
      obtain ⟨zero, carriage, line⟩ := clean seed isSeed byte member
      exact (refused.elim zero fun other => other.elim carriage line).elim
  · rw [if_neg bad]
    dsimp only
    have clean : ∀ seed ∈ seeds, ∀ byte ∈ seed, byte ≠ 0x00 ∧ byte ≠ 0x0d ∧ byte ≠ 0x0a := by
      intro seed isSeed byte member
      refine ⟨?_, ?_, ?_⟩
      all_goals
        rintro rfl
        exact bad ⟨_, (inside (by decide)).mpr ⟨seed, isSeed, member⟩, by decide⟩
    have some := valid.some
    have few := valid.few
    constructor
    · intro run
      split at run
      · cases run
      · exact ⟨Except.ok.inj run, clean⟩
    · rintro ⟨same, -⟩
      rw [same, if_neg (by omega)]

def twoSeeds : List Bytes := [ascii "v2:192.0.2.1:3300/0", ascii "v2:[2001:db8::1]:3300"]

theorem twoSeeds_valid : SeedList (fun _ => "") twoSeeds where
  some := by decide
  few := by decide
  accepted := by
    rw [twoSeeds, List.forall_mem_cons, List.forall_mem_singleton]
    exact ⟨⟨ascii "192.0.2.1", 3300, by decide +kernel⟩, ⟨ascii "2001:db8::1", 3300, by decide +kernel⟩⟩
  trimmed := by decide +kernel
  plain := by decide +kernel
  current := by decide +kernel

theorem mon_host_stored_iff_twoSeeds : withMonHost (joinText "," twoSeeds) = .ok twoSeeds := by
  refine (mon_host_stored_iff twoSeeds_valid).1.mpr ⟨?_, by decide +kernel⟩
  rw [twoSeeds, List.forall_mem_cons, List.forall_mem_singleton]
  exact ⟨⟨by decide +kernel, by decide +kernel⟩, ⟨by decide +kernel, by decide +kernel⟩⟩

/-- The bracket of an IPv6 address with a port is lost, and the resolver refuses the rest. -/
theorem bracket_lost : SeedList (fun _ => "") [ascii "[::1]:3300"] ∧
    withMonHost (joinText "," [ascii "[::1]:3300"]) = .ok [ascii "::1]:3300"] ∧
    (parseSeed (fun _ => "") (ascii "::1]:3300")).toOption = none := by
  refine ⟨⟨by decide, by decide,
    ?_, by decide +kernel, by decide +kernel, by decide +kernel⟩, by decide +kernel, by decide +kernel⟩
  rw [List.forall_mem_singleton]
  exact ⟨ascii "::1", 3300, by decide +kernel⟩

end Stored

end RadosGo
