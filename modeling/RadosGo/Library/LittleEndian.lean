import Mathlib

namespace RadosGo

/-- The lowest bytes of a number, the lowest first. -/
def littleEndian : Nat → Nat → List UInt8
  | 0, _ => []
  | width + 1, value => UInt8.ofNat value :: littleEndian width (value / 256)

def fromLittleEndian : List UInt8 → Nat
  | [] => 0
  | byte :: rest => byte.toNat + 256 * fromLittleEndian rest

@[simp] theorem littleEndian_length (width value : Nat) : (littleEndian width value).length = width := by
  induction width generalizing value with
  | zero => rfl
  | succ width ih => simp [littleEndian, ih]

theorem fromLittleEndian_littleEndian (width value : Nat) :
    fromLittleEndian (littleEndian width value) = value % 256 ^ width := by
  induction width generalizing value with
  | zero => simp [littleEndian, fromLittleEndian, Nat.mod_one]
  | succ width ih =>
    rw [littleEndian, fromLittleEndian, ih, UInt8.toNat_ofNat', pow_succ' 256 width, Nat.mod_mul]

theorem fromLittleEndian_lt (bytes : List UInt8) : fromLittleEndian bytes < 256 ^ bytes.length := by
  induction bytes with
  | nil => simp [fromLittleEndian]
  | cons byte rest ih =>
    have low := byte.toNat_lt
    rw [fromLittleEndian, List.length_cons, pow_succ']
    omega

/-- Two's complement: a signed number of `bits` bits is read back from its residue. -/
theorem bmod_emod_two_pow {bits : Nat} {value : Int} (low : -2 ^ bits ≤ value) (high : value < 2 ^ bits) :
    Int.bmod (value % 2 ^ (bits + 1)) (2 ^ (bits + 1)) = value := by
  have double : (2 : Int) ^ (bits + 1) = 2 * 2 ^ bits := pow_succ' 2 bits
  have reduce := Int.emod_bmod (x := value) (n := 2 ^ (bits + 1))
  rw [Nat.cast_pow, Nat.cast_ofNat] at reduce
  rw [reduce]
  refine Int.bmod_eq_of_le ?_ ?_ <;> rw [Nat.cast_pow, Nat.cast_ofNat, double] <;> omega

theorem bmod_two_pow_bounds (bits : Nat) (value : Int) :
    -2 ^ bits ≤ Int.bmod value (2 ^ (bits + 1)) ∧ Int.bmod value (2 ^ (bits + 1)) < 2 ^ bits := by
  have double : (2 : Int) ^ (bits + 1) = 2 * 2 ^ bits := pow_succ' 2 bits
  have positive : 0 < 2 ^ (bits + 1) := Nat.two_pow_pos _
  have low := Int.le_bmod (x := value) positive
  have high := Int.bmod_lt (x := value) positive
  rw [Nat.cast_pow, Nat.cast_ofNat, double] at low high
  omega

end RadosGo
