import RadosGo.Wire.Codec

namespace RadosGo

/-- One bit of the reflected Castagnoli polynomial. -/
def crcShift (crc : UInt32) : UInt32 := if crc &&& 1 = 1 then crc >>> 1 ^^^ 0x82f63b78 else crc >>> 1

def crcByte (crc : UInt32) (byte : UInt8) : UInt32 := Nat.repeat crcShift 8 (crc ^^^ byte.toUInt32)

/-- The checksum is extended without the inversions of `crc32.Update`, which cancel out. -/
def crc32c (seed : UInt32) (payload : Bytes) : UInt32 := payload.foldl crcByte seed

theorem crc32c_append (seed : UInt32) (first second : Bytes) :
    crc32c seed (first ++ second) = crc32c (crc32c seed first) second := List.foldl_append

/-- The checksums after every 48 bytes of the payload, each evaluated on its own. -/
def crcSums (seed : UInt32) (payload : Bytes) : List UInt32 → Bool
  | [] => payload = []
  | crc :: sums => crc32c seed (payload.take 48) = crc && crcSums crc (payload.drop 48) sums

theorem crc32c_sums {seed last : UInt32} {payload : Bytes} (sums : List UInt32) (checked : crcSums seed payload sums)
    (isLast : sums.getLast?.getD seed = last) : crc32c seed payload = last := by
  induction sums generalizing seed payload with
  | nil =>
    rw [of_decide_eq_true checked]
    exact isLast
  | cons crc sums ih =>
    obtain ⟨first, rest⟩ := Bool.and_eq_true_iff.mp checked
    rw [← List.take_append_drop 48 payload, crc32c_append, of_decide_eq_true first]
    exact ih rest (by rwa [List.getLast?_cons] at isLast)

/-- Numbers of 32 bits, one after the other. -/
def words (values : List Nat) : Bytes := values.flatMap (littleEndian 4)

end RadosGo
