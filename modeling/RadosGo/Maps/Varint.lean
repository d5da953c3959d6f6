import RadosGo.Maps.Pool
import RadosGo.Wire.Reading

namespace RadosGo.Maps

open Decoding

/-- The number which groups of seven bits denote, the lowest group first. Nothing bounds it. -/
def base128 : Bytes → Nat
  | [] => 0
  | byte :: rest => byte.toNat % 128 + 128 * base128 rest

/-- The shortest encoding of a number: the highest bit of a byte says that another one follows. -/
def varint (value : Nat) : Bytes :=
  if value < 128 then [UInt8.ofNat value] else UInt8.ofNat (value % 128 + 128) :: varint (value / 128)

variable {index rounds max : Nat} {result value : UInt64} {d d' : Decoder}

theorem and_highBit_eq_zero {byte : Nat} (small : byte < 256) : byte &&& 0x80 = 0 ↔ byte < 128 := by
  have bits : ∀ byte : Fin 256, byte.val &&& 0x80 = 0 ↔ byte.val < 128 := by decide +kernel
  exact bits ⟨byte, small⟩

/-- The bits are added above those which are there, as long as they stay below bit 64. -/
theorem toNat_addBits (bits : Nat) (low : result.toNat < 2 ^ (7 * index)) (early : index ≤ 9)
    (fits : bits * 2 ^ (7 * index) < 2 ^ 64) :
      (addBits result index bits).toNat = result.toNat + bits * 2 ^ (7 * index) := by
  have positive := Nat.two_pow_pos (7 * index)
  have small : bits < 2 ^ 64 := Nat.lt_of_le_of_lt (Nat.le_mul_of_pos_right bits positive) fits
  have place : (UInt64.ofNat (7 * index)).toNat % 64 = 7 * index := by
    rw [UInt64.toNat_ofNat']
    omega
  have shifted : (UInt64.ofNat bits <<< UInt64.ofNat (7 * index)).toNat = bits * 2 ^ (7 * index) := by
    rw [UInt64.toNat_shiftLeft, place, UInt64.toNat_ofNat', Nat.mod_eq_of_lt small, Nat.shiftLeft_eq,
      Nat.mod_eq_of_lt fits]
  rw [addBits, UInt64.toNat_or, shifted, Nat.or_comm, Nat.mul_comm, ← Nat.two_pow_add_eq_or_of_lt low, Nat.add_comm]

/-- One round of the loop. -/
theorem eval_decodeVarint (byte : UInt8) (rest : Bytes) :
    (decodeVarint (rounds + 1) index result).eval ⟨byte :: rest, max, none⟩ =
      if byte.toNat < 128 then
        if index = 9 ∧ byte.toNat > 1 then (.error (GoError.sentinel .wireMalformed), ⟨rest, max, none⟩)
        else (.ok (addBits result index byte.toNat), ⟨rest, max, none⟩)
      else (decodeVarint rounds (index + 1) (addBits result index (byte.toNat % 128))).eval ⟨rest, max, none⟩ := by
  have read : (fixed 1).eval ⟨littleEndian 1 byte.toNat ++ rest, max, none⟩ =
    (.ok (byte.toNat % 256), ⟨rest, max, none⟩) :=
    eval_fixed 1 byte.toNat
  have written : littleEndian 1 byte.toNat ++ rest = byte :: rest := by simp [littleEndian]
  rw [written, Nat.mod_eq_of_lt byte.toNat_lt] at read
  rw [decodeVarint, uint8, eval_bind read, eval_bind (eval_finish rfl)]
  simp only [and_highBit_eq_zero byte.toNat_lt]
  split
  · split <;> rfl
  · rw [Nat.and_two_pow_sub_one_eq_mod byte.toNat 7]

theorem two_pow_next (index : Nat) : 2 ^ (7 * (index + 1)) = 128 * 2 ^ (7 * index) := by
  rw [Nat.mul_succ, pow_add, Nat.mul_comm]
  rfl

theorem shift_succ (v index : Nat) :
    v * 2 ^ (7 * index) = v % 128 * 2 ^ (7 * index) + v / 128 * 2 ^ (7 * (index + 1)) := by
  rw [two_pow_next, ← Nat.mul_assoc, ← Nat.add_mul, Nat.mul_comm (v / 128), Nat.mod_add_div]

theorem addBits_lt (bits : Nat) (low : result.toNat < 2 ^ (7 * index)) (small : bits < 128) (early : index < 9) :
    (addBits result index bits).toNat = result.toNat + bits * 2 ^ (7 * index) ∧
      (addBits result index bits).toNat < 2 ^ (7 * (index + 1)) := by
  have next := two_pow_next index
  have top : bits * 2 ^ (7 * index) ≤ 127 * 2 ^ (7 * index) := Nat.mul_le_mul_right _ (Nat.le_of_lt_succ small)
  have word : 2 ^ (7 * (index + 1)) ≤ 2 ^ 64 := Nat.pow_le_pow_right (by decide) (by omega)
  have sum := toNat_addBits bits low early.le (by omega)
  exact ⟨sum, by omega⟩

theorem decodeVarint_varint {v : Nat} (count : rounds + index = 10) (early : index ≤ 9)
    (low : result.toNat < 2 ^ (7 * index)) (fits : v * 2 ^ (7 * index) < 2 ^ 64) (rest : Bytes) : ∃ read : UInt64,
    (decodeVarint rounds index result).eval ⟨varint v ++ rest, max, none⟩ = (.ok read, ⟨rest, max, none⟩) ∧
      read.toNat = result.toNat + v * 2 ^ (7 * index) := by
  obtain ⟨rounds, rfl⟩ := Nat.exists_eq_succ_of_ne_zero (by omega : rounds ≠ 0)
  fun_induction varint v generalizing index rounds result with
  | case1 v small =>
    have byte : (UInt8.ofNat v).toNat = v := UInt8.toNat_ofNat_of_lt' (small.trans (by decide))
    refine ⟨addBits result index v, ?_, toNat_addBits v low early fits⟩
    have last : ¬(index = 9 ∧ v > 1) := by
      rintro ⟨rfl, large⟩
      omega
    rw [List.singleton_append, eval_decodeVarint, byte, if_pos small, if_neg last]
  | case2 v large ih =>
    have byte : (UInt8.ofNat (v % 128 + 128)).toNat = v % 128 + 128 :=
      UInt8.toNat_ofNat_of_lt' (Nat.add_lt_add_right (Nat.mod_lt v (by decide)) 128)
    have parts := shift_succ v index
    -- The bits that are left do not fit into the tenth byte.
    have notLast : index < 9 := by
      by_contra last
      obtain rfl : index = 9 := by omega
      omega
    obtain ⟨sum, below⟩ := addBits_lt (v % 128) low (Nat.mod_lt v (by decide)) notLast
    obtain ⟨rounds, rfl⟩ := Nat.exists_eq_succ_of_ne_zero (by omega : rounds ≠ 0)
    have next : index + 1 ≤ 9 := notLast
    obtain ⟨read, run, total⟩ := ih next below (by omega) rounds (by omega)
    refine ⟨read, ?_, by omega⟩
    rw [List.cons_append, eval_decodeVarint, byte, if_neg (by omega), Nat.add_mod_right, Nat.mod_mod]
    exact run

theorem decodeVarint_ok (count : rounds + index = 10) (low : result.toNat < 2 ^ (7 * index))
    (run : (decodeVarint rounds index result).eval d = (.ok value, d')) :
      ∃ init last, d.data = init ++ last :: d'.data ∧
      (∀ byte ∈ init, 128 ≤ byte.toNat) ∧ last.toNat < 128 ∧ init.length < rounds ∧
      value.toNat = result.toNat + base128 (init ++ [last]) * 2 ^ (7 * index) := by
  induction rounds generalizing index result d with
  | zero => cases run
  | succ rounds ih =>
    -- A decoder that has failed or is at its end gives no byte.
    obtain ⟨data, max, err⟩ := d
    cases err with
    | some err => cases run
    | none =>
    cases data with
    | nil => cases run
    | cons byte rest =>
      rw [eval_decodeVarint] at run
      split at run
      · next final =>
        split at run
        · cases run
        · next fits =>
          cases run
          have small : byte.toNat * 2 ^ (7 * index) < 2 ^ 64 := by
            by_cases last : index = 9
            · subst last
              omega
            · have word : 2 ^ (7 * index) ≤ 2 ^ 56 := Nat.pow_le_pow_right (by decide) (by omega)
              calc byte.toNat * 2 ^ (7 * index) ≤ 128 * 2 ^ 56 := Nat.mul_le_mul final.le word
                _ < 2 ^ 64 := by decide
          refine ⟨[], byte, rfl, by simp, final, Nat.succ_pos _, ?_⟩
          simp [toNat_addBits _ low (by omega) small, base128, Nat.mod_eq_of_lt final]
      · next more =>
        -- A tenth byte with its highest bit set leaves no round to accept it.
        have notLast : index < 9 := by
          by_contra last
          obtain rfl : rounds = 0 := by omega
          cases run
        obtain ⟨sum, below⟩ := addBits_lt (byte.toNat % 128) low (Nat.mod_lt _ (by decide)) notLast
        obtain ⟨init, last, written, continued, final, length, total⟩ := ih (by omega) below run
        refine ⟨byte :: init, last, congrArg (byte :: ·) written, ?_, final, Nat.succ_lt_succ length, ?_⟩
        · exact List.forall_mem_cons.mpr ⟨Nat.le_of_not_lt more, continued⟩
        · have parts := shift_succ (base128 (byte :: init ++ [last])) index
          have digits : base128 (byte :: init ++ [last]) = byte.toNat % 128 + 128 * base128 (init ++ [last]) := rfl
          have low7 : base128 (byte :: init ++ [last]) % 128 = byte.toNat % 128 := by omega
          have high : base128 (byte :: init ++ [last]) / 128 = base128 (init ++ [last]) := by omega
          rw [total, sum, parts, low7, high, Nat.add_assoc]

/-- The encoding of every number of 64 bits is read back, and leaves what follows it. Whatever else is accepted has at
most ten bytes, of which only the last one ends a number, and denotes what is returned with nothing cut off. -/
theorem decodeUnsignedVarint_exact :
    (∀ (v : UInt64) (rest : Bytes) (max : Nat),
      decodeUnsignedVarint.eval ⟨varint v.toNat ++ rest, max, none⟩ = (.ok v.toNat, ⟨rest, max, none⟩)) ∧
    ∀ d v d', decodeUnsignedVarint.eval d = (.ok v, d') → ∃ init last, d.data = init ++ last :: d'.data ∧
      (∀ byte ∈ init, 128 ≤ byte.toNat) ∧ last.toNat < 128 ∧ (init ++ [last]).length ≤ 10 ∧
      v = base128 (init ++ [last]) ∧ v < 2 ^ 64 := by
  constructor
  · intro v rest max
    obtain ⟨read, run, total⟩ : ∃ read : UInt64, (decodeVarint 10 0 0).eval ⟨varint v.toNat ++ rest, max, none⟩ =
        (.ok read, ⟨rest, max, none⟩) ∧ read.toNat = (0 : UInt64).toNat + v.toNat * 2 ^ (7 * 0) :=
      decodeVarint_varint (by decide) (by decide) (by decide) (by simpa using v.toNat_lt) rest
    obtain rfl : read = v := UInt64.toNat_inj.mp (by simpa using total)
    rw [decodeUnsignedVarint, eval_bind run, eval_pure]
  · intro d v d' run
    obtain ⟨value, middle, read, run⟩ := eval_bind_ok run
    cases run
    obtain ⟨init, last, written, continued, final, length, total⟩ := decodeVarint_ok (by decide) (by decide) read
    refine ⟨init, last, written, continued, final, by simpa using length, by simpa using total, value.toNat_lt⟩

end RadosGo.Maps
