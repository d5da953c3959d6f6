import RadosGo.Wire.Codec

namespace RadosGo

def namespaceSeparator : UInt8 := 0x1f

def mix (a b c : UInt32) : UInt32 × UInt32 × UInt32 :=
  let a := (a - b - c) ^^^ (c >>> 13)
  let b := (b - c - a) ^^^ (a <<< 8)
  let c := (c - a - b) ^^^ (b >>> 13)
  let a := (a - b - c) ^^^ (c >>> 12)
  let b := (b - c - a) ^^^ (a <<< 16)
  let c := (c - a - b) ^^^ (b >>> 5)
  let a := (a - b - c) ^^^ (c >>> 3)
  let b := (b - c - a) ^^^ (a <<< 10)
  let c := (c - a - b) ^^^ (b >>> 15)
  (a, b, c)

def hash32Pair (a b : UInt32) : UInt32 :=
  let hash := 1315423911 ^^^ a ^^^ b
  let x := 231232
  let y := 1232
  let (a, b, hash) := mix a b hash
  let (_, _, hash) := mix x a hash
  let (_, _, hash) := mix b y hash
  hash

def hash32Triple (a b c : UInt32) : UInt32 :=
  let hash := 1315423911 ^^^ a ^^^ b ^^^ c
  let x := 231232
  let y := 1232
  let (a, b, hash) := mix a b hash
  let (c, x, hash) := mix c x hash
  let (y, _, hash) := mix y a hash
  let (_, _, hash) := mix b x hash
  let (_, _, hash) := mix y c hash
  hash

def leUint32 (data : Bytes) : UInt32 := UInt32.ofNat (fromLittleEndian data)

/-- The end of the byte hash: the length and what is left of the bytes, fewer than twelve.
The lowest byte of the third word is taken by the length. -/
def rjenkinsTail (remaining : Bytes) (length : Nat) (a b c : UInt32) : UInt32 :=
  let byte (index : Nat) : UInt32 := ((remaining[index]?).getD 0).toUInt32
  let c := c + UInt32.ofNat length
  let c := c + (byte 10 <<< 24) + (byte 9 <<< 16) + (byte 8 <<< 8)
  let b := b + (byte 7 <<< 24) + (byte 6 <<< 16) + (byte 5 <<< 8) + byte 4
  let a := a + (byte 3 <<< 24) + (byte 2 <<< 16) + (byte 1 <<< 8) + byte 0
  (mix a b c).2.2

/-- The loop over blocks of twelve bytes. -/
def rjenkinsLoop (length : Nat) : Bytes → UInt32 → UInt32 → UInt32 → UInt32
  | x₀ :: x₁ :: x₂ :: x₃ :: x₄ :: x₅ :: x₆ :: x₇ :: x₈ :: x₉ :: x₁₀ :: x₁₁ :: remaining, a, b, c =>
    let (a, b, c) := mix (a + leUint32 [x₀, x₁, x₂, x₃]) (b + leUint32 [x₄, x₅, x₆, x₇])
      (c + leUint32 [x₈, x₉, x₁₀, x₁₁])
    rjenkinsLoop length remaining a b c
  | remaining, a, b, c => rjenkinsTail remaining length a b c

def rJenkins (value : Bytes) : UInt32 := rjenkinsLoop value.length value 0x9e3779b9 0x9e3779b9 0

def objectHash (object locator namespace_ : Bytes) : UInt32 :=
  let key := if locator ≠ [] then locator else object
  if namespace_ = [] then rJenkins key else rJenkins (namespace_ ++ [namespaceSeparator] ++ key)

/-- The bits from the highest one down, at most as many as given. -/
def leadingZeros : Nat → UInt32 → Nat
  | 0, _ => 0
  | bits + 1, value => if value &&& 0x80000000 = 0 then leadingZeros bits (value <<< 1) + 1 else 0

def leadingZeros32 (value : UInt32) : Nat := leadingZeros 32 value

/-- A shift by the whole width leaves zero. -/
def stableMod (value count : UInt32) : UInt32 :=
  if count = 0 then 0
  else
    let mask := UInt32.ofNat (2 ^ (32 - leadingZeros32 (count - 1))) - 1
    if value &&& mask < count then value &&& mask else value &&& (mask >>> 1)

end RadosGo
