import RadosGo.Library.GoStrings

namespace RadosGo

section Numbers

def digitValue (byte : UInt8) : Option Nat :=
  if 0x30 ≤ byte ∧ byte ≤ 0x39 then some (byte.toNat - 0x30) else none

def hexDigitValue (byte : UInt8) : Option Nat :=
  if 0x30 ≤ byte ∧ byte ≤ 0x39 then some (byte.toNat - 0x30)
  else if 0x61 ≤ byte ∧ byte ≤ 0x66 then some (byte.toNat - 0x61 + 10)
  else if 0x41 ≤ byte ∧ byte ≤ 0x46 then some (byte.toNat - 0x41 + 10)
  else none

def fromDigits (base : Nat) (digits : List Nat) : Nat := digits.foldl (fun value digit => value * base + digit) 0

/-- `strconv.ParseUint` in base 10. -/
def parseUint (bits : Nat) (text : List UInt8) : Option Nat := do
  let digits ← text.mapM digitValue
  if digits = [] ∨ fromDigits 10 digits ≥ 2 ^ bits then none else some (fromDigits 10 digits)

end Numbers

section Addresses

/-- A `netip.Addr`: four numbers of eight bits, or eight of 16 bits with a zone. -/
inductive Addr where
  | v4 (octets : List Nat)
  | v6 (groups : List Nat) (zone : List UInt8)
  deriving DecidableEq, Repr

/-- One field of an IPv4 address: up to 255, without leading zeros. -/
def parseOctet (text : List UInt8) : Option Nat := do
  let digits ← text.mapM digitValue
  if digits = [] ∨ digits.length > 1 ∧ digits.head? = some 0 ∨ fromDigits 10 digits > 255 then none
  else some (fromDigits 10 digits)

def parseIPv4Fields (text : List UInt8) : Option (List Nat) := do
  let octets ← (text.splitOn 0x2e).mapM parseOctet
  if octets.length = 4 then some octets else none

/-- The loop of `parseIPv6` over the groups, with the groups and the place of `::` so far. -/
def parseGroups : Nat → List Nat → Option Nat → List UInt8 → Option (List Nat × Option Nat × List UInt8)
  | 0, groups, ellipsis, text => some (groups, ellipsis, text)
  | left + 1, groups, ellipsis, text => do
    let digits ← (text.takeWhile fun byte => (hexDigitValue byte).isSome).mapM hexDigitValue
    if digits.length = 0 ∨ digits.length > 4 then none
    let read := groups ++ [fromDigits 16 digits]
    match text.drop digits.length with
    | [] => some (read, ellipsis, [])
    | 0x2e :: _ =>
      -- The last two groups may be written as an IPv4 address.
      if ellipsis = none ∧ groups.length ≠ 6 ∨ left = 0 then none
      else match parseIPv4Fields text with
        | some [a, b, c, d] => some (groups ++ [a * 256 + b, c * 256 + d], ellipsis, [])
        | _ => none
    | [0x3a] => none
    | [0x3a, 0x3a] => if ellipsis.isSome then none else some (read, some read.length, [])
    | 0x3a :: 0x3a :: more => if ellipsis.isSome then none else parseGroups left read (some read.length) more
    | 0x3a :: more => parseGroups left read ellipsis more
    | _ => none

/-- The zeros of `::` are filled in. -/
def expandGroups (groups : List Nat) (ellipsis : Option Nat) : Option (List Nat) :=
  match ellipsis with
  | none => if groups.length = 8 then some groups else none
  | some place =>
    if groups.length < 8 then some (groups.take place ++ List.replicate (8 - groups.length) 0 ++ groups.drop place)
    else none

def parseIPv6 (text : List UInt8) : Option Addr := do
  let (text, zone) ←
    match cut 0x25 text with
    | none => some (text, [])
    | some (_, []) => none
    | some (text, zone) => some (text, zone)
  match text with
  | [0x3a, 0x3a] => return .v6 (List.replicate 8 0) zone
  | _ =>
    let (ellipsis, text) := if (ascii "::").isPrefixOf text then (some 0, text.drop 2) else (none, text)
    let (groups, ellipsis, rest) ← parseGroups 8 [] ellipsis text
    if rest ≠ [] then none
    return .v6 (← expandGroups groups ellipsis) zone

/-- `netip.ParseAddr`: the first of the characters `.`, `:` and `%` decides. -/
def parseAddr (text : List UInt8) : Option Addr :=
  match text.find? fun byte => byte = 0x2e ∨ byte = 0x3a ∨ byte = 0x25 with
  | some 0x2e => (parseIPv4Fields text).map Addr.v4
  | some 0x3a => parseIPv6 text
  | _ => none

def decimalText (number : Nat) : List UInt8 := ascii (toString number)

def hexGroupText (number : Nat) : List UInt8 := ascii (String.ofList (Nat.toDigits 16 number))

def joinText (separator : String) (texts : List (List UInt8)) : List UInt8 := (ascii separator).intercalate texts

/-- The first of the longest runs of at least two zeros, as its place and its length. -/
def longestZeros (groups : List Nat) : Option (Nat × Nat) :=
  (List.range groups.length).foldl (fun best place =>
    let length := ((groups.drop place).takeWhile (· = 0)).length
    if length ≥ 2 ∧ length > (best.map Prod.snd).getD 0 then some (place, length) else best) none

def groupsText (groups : List Nat) : List UInt8 :=
  match longestZeros groups with
  | none => joinText ":" (groups.map hexGroupText)
  | some (place, length) =>
    joinText ":" ((groups.take place).map hexGroupText) ++ ascii "::" ++
      joinText ":" ((groups.drop (place + length)).map hexGroupText)

/-- `Addr.String`. -/
def Addr.text : Addr → List UInt8
  | v4 octets => joinText "." (octets.map decimalText)
  | v6 groups zone =>
    let address :=
      if groups.take 6 = [0, 0, 0, 0, 0, 0xffff] then
        ascii "::ffff:" ++ joinText "."
          ((groups.drop 6).flatMap fun group => [decimalText (group / 256), decimalText (group % 256)])
      else groupsText groups
    if zone = [] then address else address ++ ascii "%" ++ zone

/-- `net.SplitHostPort`. -/
def splitHostPort (text : List UInt8) : Option (List UInt8 × List UInt8) := do
  let (front, port) ← cutLast 0x3a text
  match text with
  | 0x5b :: inside =>
    -- The first closing bracket stands in front of the last colon.
    let (host, behind) ← cut 0x5d inside
    if behind.length ≠ port.length + 1 then none
    if 0x5b ∈ inside ∨ 0x5d ∈ behind then none
    return (host, port)
  | _ =>
    if 0x3a ∈ front ∨ 0x5b ∈ text ∨ 0x5d ∈ text then none
    return (front, port)

end Addresses

end RadosGo
