/-
  File:      OpenVac/Lib/Crc32.lean
  Subject:   CRC-32 (ITU-T V.42, the checksum of ZIP and PNG): its register, and what it says as
             polynomials over GF(2).

  * `step`, `feed`, `checksum` -- the reflected register, bit by bit.
  * `reg`, `reg_step` -- a register is a polynomial; a step multiplies it by `X` modulo the
    generator.
  * `IsCrc32`, `isCrc32_checksum` -- the checksum is the complement of the remainder of the
    message.
-/
import Mathlib.Algebra.CharP.Two
import Mathlib.Algebra.Field.ZMod
import Mathlib.Algebra.Polynomial.Div
import Mathlib.Data.ZMod.Basic
import Mathlib.RingTheory.AdjoinRoot
import Mathlib.Tactic.Ring

open Polynomial

namespace Crc32

/-! ## 1. The register -/

/-- Its terms below `X^32`, the highest power in the lowest bit. -/
def poly : BitVec 32 := 0xEDB88320#32

def step (s : BitVec 32) : BitVec 32 := (s >>> 1) ^^^ (if s.getLsbD 0 then poly else 0#32)

def feed (s : BitVec 32) (byte : UInt8) : BitVec 32 :=
  step^[8] (s ^^^ byte.toBitVec.setWidth 32)

def checksum (bytes : List UInt8) : BitVec 32 := ~~~(bytes.foldl feed (BitVec.allOnes 32))

/-! ## 2. Polynomials -/

/-- The generator of CRC-32. -/
noncomputable def generator : (ZMod 2)[X] :=
  X ^ 32 + X ^ 26 + X ^ 23 + X ^ 22 + X ^ 16 + X ^ 12 + X ^ 11 + X ^ 10 + X ^ 8 + X ^ 7 + X ^ 5 +
    X ^ 4 + X ^ 2 + X + 1

/-- One bit as a coefficient. -/
noncomputable def bit (b : Bool) : (ZMod 2)[X] := if b then 1 else 0

/-- A register: its lowest bit is the coefficient of `X^31`. -/
noncomputable def reg (s : BitVec 32) : (ZMod 2)[X] :=
  ∑ i ∈ Finset.range 32, bit (s.getLsbD i) * X ^ (31 - i)

/-- A byte, its lowest bit first. -/
noncomputable def byteReg (byte : UInt8) : (ZMod 2)[X] :=
  ∑ i ∈ Finset.range 8, bit (byte.toBitVec.getLsbD i) * X ^ (7 - i)

/-- The bits of a message as coefficients, the first one in front. -/
noncomputable def message (bytes : List UInt8) : (ZMod 2)[X] :=
  bytes.foldl (fun p byte => X ^ 8 * p + byteReg byte) 0

theorem bit_xor (a b : Bool) : bit (a ^^ b) = bit a + bit b := by
  have htwo : (1 : (ZMod 2)[X]) + 1 = 0 := CharTwo.add_self_eq_zero 1
  cases a <;> cases b <;> simp [bit, htwo]

theorem reg_xor (s t : BitVec 32) : reg (s ^^^ t) = reg s + reg t := by
  unfold reg
  rw [← Finset.sum_add_distrib]
  refine Finset.sum_congr rfl fun i _ => ?_
  rw [BitVec.getLsbD_xor, bit_xor, add_mul]

theorem reg_zero : reg 0#32 = 0 := by
  unfold reg
  refine Finset.sum_eq_zero fun i _ => ?_
  simp [bit]

theorem reg_poly : reg poly = generator + X ^ 32 := by
  have htwo : (X : (ZMod 2)[X]) ^ 32 + X ^ 32 = 0 := CharTwo.add_self_eq_zero _
  have hreg : reg poly = X ^ 26 + X ^ 23 + X ^ 22 + X ^ 16 + X ^ 12 + X ^ 11 + X ^ 10 + X ^ 8 +
      X ^ 7 + X ^ 5 + X ^ 4 + X ^ 2 + X + 1 := by
    unfold reg poly
    simp only [Finset.sum_range_succ, Finset.sum_range_zero]
    simp [bit]
  rw [hreg]
  unfold generator
  linear_combination -htwo

/-- Shifting the register down: the lowest bit becomes the power past its end. -/
theorem reg_shift (s : BitVec 32) :
    reg (s >>> 1) + bit (s.getLsbD 0) * X ^ 32 = X * reg s := by
  have hshift (i : Nat) : (s >>> 1).getLsbD i = s.getLsbD (i + 1) := by
    rw [BitVec.getLsbD_ushiftRight, Nat.add_comm]
  have hlast : s.getLsbD 32 = false := BitVec.getLsbD_of_ge s 32 (Nat.le_refl 32)
  unfold reg
  rw [Finset.sum_range_succ, Finset.sum_range_succ' _ 31, hshift 31, hlast, mul_add,
    Finset.mul_sum]
  have hsum : (∑ i ∈ Finset.range 31, bit ((s >>> 1).getLsbD i) * X ^ (31 - i)) =
      ∑ i ∈ Finset.range 31, X * (bit (s.getLsbD (i + 1)) * X ^ (31 - (i + 1))) := by
    refine Finset.sum_congr rfl fun i hi => ?_
    have hlt := Finset.mem_range.mp hi
    have hpower : 31 - i = 31 - (i + 1) + 1 := by omega
    rw [hshift, hpower, pow_succ]
    ring
  have hnone : bit false = 0 := rfl
  rw [hsum, hnone]
  ring

/-- **One step multiplies by `X`**, modulo the generator. -/
theorem reg_step (s : BitVec 32) :
    reg (step s) = X * reg s + bit (s.getLsbD 0) * generator := by
  have hshift := reg_shift s
  have htwo : (X : (ZMod 2)[X]) ^ 32 + X ^ 32 = 0 := CharTwo.add_self_eq_zero _
  unfold step
  rw [reg_xor]
  cases hbit : s.getLsbD 0 with
  | false =>
    rw [hbit] at hshift
    simp only [Bool.false_eq_true, if_false, reg_zero, bit] at hshift ⊢
    linear_combination hshift
  | true =>
    rw [hbit] at hshift
    simp only [if_true, reg_poly, bit] at hshift ⊢
    linear_combination hshift

/-! ## 3. Runs -/

/-- Modulo the generator. -/
noncomputable def residue : (ZMod 2)[X] →+* AdjoinRoot generator := AdjoinRoot.mk generator

theorem residue_step (s : BitVec 32) : residue (reg (step s)) = residue (X * reg s) := by
  have hzero : residue generator = 0 := AdjoinRoot.mk_self
  rw [reg_step, map_add, map_mul (f := residue) (bit _), hzero, mul_zero, add_zero]

theorem residue_steps (s : BitVec 32) (n : Nat) :
    residue (reg (step^[n] s)) = residue (X ^ n * reg s) := by
  induction n with
  | zero => rw [pow_zero, one_mul]; rfl
  | succ n ih =>
    rw [Function.iterate_succ_apply', residue_step, map_mul, ih, ← map_mul, ← mul_assoc,
      ← pow_succ']

/-- A byte enters at the top of the register. -/
theorem reg_byte (byte : UInt8) : reg (byte.toBitVec.setWidth 32) = X ^ 24 * byteReg byte := by
  have hbit (i : Nat) (hi : i < 32) :
      (byte.toBitVec.setWidth 32).getLsbD i = byte.toBitVec.getLsbD i := by
    rw [BitVec.getLsbD_setWidth, decide_eq_true hi, Bool.true_and]
  have hhigh (i : Nat) (hi : 8 ≤ i) : byte.toBitVec.getLsbD i = false :=
    BitVec.getLsbD_of_ge _ _ hi
  unfold reg byteReg
  rw [← Finset.sum_range_add_sum_Ico _ (show 8 ≤ 32 by decide), Finset.mul_sum]
  have hrest : (∑ i ∈ Finset.Ico 8 32, bit ((byte.toBitVec.setWidth 32).getLsbD i) *
      X ^ (31 - i)) = 0 := by
    refine Finset.sum_eq_zero fun i hi => ?_
    obtain ⟨hlow, hlt⟩ := Finset.mem_Ico.mp hi
    rw [hbit i hlt, hhigh i hlow]
    simp [bit]
  rw [hrest, add_zero]
  refine Finset.sum_congr rfl fun i hi => ?_
  have hlt := Finset.mem_range.mp hi
  rw [hbit i (by omega), show 31 - i = 24 + (7 - i) by omega, pow_add]
  ring

theorem residue_feed (s : BitVec 32) (byte : UInt8) :
    residue (reg (feed s byte)) = residue (X ^ 8 * reg s + X ^ 32 * byteReg byte) := by
  unfold feed
  rw [residue_steps, reg_xor, reg_byte]
  congr 1
  ring

/-- **A run of the register**: the start is shifted by the message's length, the message stands
    32 places higher. -/
theorem residue_run (s : BitVec 32) (bytes : List UInt8) :
    residue (reg (bytes.foldl feed s)) =
      residue (X ^ (8 * bytes.length) * reg s + X ^ 32 * message bytes) := by
  have hmessage (p : (ZMod 2)[X]) (bytes : List UInt8) :
      bytes.foldl (fun p byte => X ^ 8 * p + byteReg byte) p =
        X ^ (8 * bytes.length) * p + message bytes := by
    unfold message
    induction bytes generalizing p with
    | nil => simp
    | cons byte bytes ih =>
      rw [List.foldl_cons, List.foldl_cons, ih, ih (X ^ 8 * 0 + byteReg byte), List.length_cons]
      ring
  induction bytes generalizing s with
  | nil => simp [message]
  | cons byte bytes ih =>
    have hcons : message (byte :: bytes) =
        X ^ (8 * bytes.length) * byteReg byte + message bytes := by
      unfold message
      rw [List.foldl_cons, hmessage]
      unfold message
      ring
    have hpower : (X : (ZMod 2)[X]) ^ (8 * (byte :: bytes).length) =
        X ^ (8 * bytes.length) * X ^ 8 := by
      rw [List.length_cons, ← pow_add]
      congr 1
    have hshift : residue (X ^ (8 * bytes.length) * reg (feed s byte)) =
        residue (X ^ (8 * bytes.length) * (X ^ 8 * reg s + X ^ 32 * byteReg byte)) := by
      rw [residue.map_mul, residue_feed, residue.map_mul]
    rw [List.foldl_cons, ih, residue.map_add, hshift, ← residue.map_add, hcons, hpower]
    refine congrArg residue ?_
    rw [mul_add, mul_add, mul_assoc, add_assoc, mul_left_comm (X ^ 32 : (ZMod 2)[X])]

/-! ## 4. The checksum -/

/-- The message shifted by 32 places, its first 32 bits complemented. -/
noncomputable def dividend (bytes : List UInt8) : (ZMod 2)[X] :=
  X ^ (8 * bytes.length) * reg (BitVec.allOnes 32) + X ^ 32 * message bytes

/-- **What CRC-32 is**: the complement of the remainder modulo the generator. -/
def IsCrc32 (bytes : List UInt8) (crc : BitVec 32) : Prop :=
  reg (~~~crc) = dividend bytes %ₘ generator

theorem degree_reg (s : BitVec 32) : (reg s).degree < (32 : ℕ) := by
  unfold reg
  refine lt_of_le_of_lt (degree_sum_le _ _) ?_
  rw [Finset.sup_lt_iff (WithBot.bot_lt_coe 32)]
  intro i _
  have hle : (bit (s.getLsbD i) * X ^ (31 - i) : (ZMod 2)[X]).degree ≤ (31 - i : ℕ) := by
    cases s.getLsbD i with
    | false => simp [bit]
    | true => simp [bit]
  refine lt_of_le_of_lt hle ?_
  exact_mod_cast (by omega : 31 - i < 32)

theorem generator_eq : generator = X ^ 32 + reg poly := by
  have htwo : (X : (ZMod 2)[X]) ^ 32 + X ^ 32 = 0 := CharTwo.add_self_eq_zero _
  rw [reg_poly]
  linear_combination -htwo

theorem generator_monic : generator.Monic := by
  rw [generator_eq]
  exact monic_X_pow_add (degree_reg poly)

theorem degree_generator : generator.degree = (32 : ℕ) := by
  rw [generator_eq]
  have hlt : (reg poly).degree < (X ^ 32 : (ZMod 2)[X]).degree := by
    rw [degree_X_pow]
    exact degree_reg poly
  rw [degree_add_eq_left_of_degree_lt hlt, degree_X_pow]

/-- **The register computes CRC-32.** -/
theorem isCrc32_checksum (bytes : List UInt8) : IsCrc32 bytes (checksum bytes) := by
  unfold IsCrc32 checksum
  rw [BitVec.not_not]
  have hresidue := residue_run (BitVec.allOnes 32) bytes
  have hdvd : generator ∣ reg (bytes.foldl feed (BitVec.allOnes 32)) - dividend bytes :=
    AdjoinRoot.mk_eq_mk.mp hresidue
  rw [← modByMonic_eq_of_dvd_sub generator_monic hdvd]
  refine ((modByMonic_eq_self_iff generator_monic).mpr ?_).symm
  rw [degree_generator]
  exact degree_reg _

end Crc32
