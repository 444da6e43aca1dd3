/-
  File:      OpenVac/Lib/LittleEndian.lean
  Subject:   Numbers in little-endian bytes, records of such fields, and a buffer written at
             offsets.

  * `le`, `fromLe` -- a number in so many bytes; `fromLe_le`: what it is modulo.
  * `writeFields`, `readFields` -- a record; `readFields_writeFields`: the round trip.
  * `setBytes` -- a write at an offset of a buffer (`DataView`, `Uint8Array.set`);
    `setFields_behind`: fields written one after the other are a record.
-/
import Mathlib.Algebra.Ring.Nat
import Mathlib.Tactic.Common

namespace LittleEndian

/-! ## 1. Numbers -/

/-- A number in bytes, the low one first; what does not fit is cut off. -/
def le : Nat → Nat → List UInt8
  | 0, _ => []
  | width + 1, value => UInt8.ofNat value :: le width (value / 256)

def fromLe : List UInt8 → Nat
  | [] => 0
  | byte :: rest => byte.toNat + 256 * fromLe rest

@[simp] theorem length_le (width value : Nat) : (le width value).length = width := by
  induction width generalizing value with
  | zero => rfl
  | succ width ih => rw [le, List.length_cons, ih]

theorem fromLe_le (width value : Nat) : fromLe (le width value) = value % 256 ^ width := by
  induction width generalizing value with
  | zero => rw [Nat.pow_zero, Nat.mod_one]; rfl
  | succ width ih =>
    have hbyte : (UInt8.ofNat value).toNat = value % 256 := UInt8.toNat_ofNat'
    rw [le, fromLe, ih, hbyte, Nat.pow_succ, Nat.mul_comm (256 ^ width), Nat.mod_mul]

theorem fromLe_le_of_lt {width value : Nat} (h : value < 256 ^ width) :
    fromLe (le width value) = value := by
  rw [fromLe_le, Nat.mod_eq_of_lt h]

/-! ## 2. Records -/

/-- Fields with their widths, one after the other. -/
def writeFields (fields : List (Nat × Nat)) : List UInt8 :=
  fields.flatMap fun field => le field.1 field.2

/-- The numbers of fields of these widths, and what follows them; `none` where bytes are
    missing. -/
def readFields : List Nat → List UInt8 → Option (List Nat × List UInt8)
  | [], bytes => some ([], bytes)
  | width :: widths, bytes =>
      if bytes.length < width then none
      else (readFields widths (bytes.drop width)).map fun rest =>
        (fromLe (bytes.take width) :: rest.1, rest.2)

theorem writeFields_cons (field : Nat × Nat) (fields : List (Nat × Nat)) :
    writeFields (field :: fields) = le field.1 field.2 ++ writeFields fields := rfl

theorem length_writeFields (fields : List (Nat × Nat)) :
    (writeFields fields).length = (fields.map (·.1)).sum := by
  induction fields with
  | nil => rfl
  | cons field fields ih =>
    rw [writeFields_cons, List.length_append, length_le, ih, List.map_cons, List.sum_cons]

/-- **A record is read back**, where every number fits its field. -/
theorem readFields_writeFields {fields : List (Nat × Nat)}
    (h : ∀ field ∈ fields, field.2 < 256 ^ field.1) (rest : List UInt8) :
    readFields (fields.map (·.1)) (writeFields fields ++ rest) =
      some (fields.map (·.2), rest) := by
  induction fields with
  | nil => rfl
  | cons field fields ih =>
    have hlen : ¬ (le field.1 field.2 ++ (writeFields fields ++ rest)).length < field.1 := by
      rw [List.length_append, length_le]
      omega
    have htake : (le field.1 field.2 ++ (writeFields fields ++ rest)).take field.1 =
        le field.1 field.2 := List.take_left' (length_le _ _)
    have hdrop : (le field.1 field.2 ++ (writeFields fields ++ rest)).drop field.1 =
        writeFields fields ++ rest := List.drop_left' (length_le _ _)
    rw [List.map_cons, writeFields_cons, List.append_assoc, readFields, if_neg hlen, htake, hdrop,
      ih fun other hother => h other (List.mem_cons_of_mem _ hother),
      fromLe_le_of_lt (h field List.mem_cons_self)]
    rfl

/-! ## 3. Buffers -/

/-- The bytes of a buffer from an offset on are replaced. -/
def setBytes (buffer : List UInt8) (offset : Nat) (bytes : List UInt8) : List UInt8 :=
  buffer.take offset ++ (bytes ++ buffer.drop (offset + bytes.length))

/-- `view.setUint16(offset, value, true)`. -/
def setUint16 (buffer : List UInt8) (offset value : Nat) : List UInt8 :=
  setBytes buffer offset (le 2 value)

/-- `view.setUint32(offset, value, true)`. -/
def setUint32 (buffer : List UInt8) (offset value : Nat) : List UInt8 :=
  setBytes buffer offset (le 4 value)

/-- **A write right behind what is written**: zeros give way to the new bytes. -/
theorem setBytes_behind {done : List UInt8} {offset : Nat} (h : done.length = offset)
    (bytes : List UInt8) (n : Nat) :
    setBytes (done ++ List.replicate (bytes.length + n) 0) offset bytes =
      (done ++ bytes) ++ List.replicate n 0 := by
  subst h
  unfold setBytes
  rw [List.take_left, List.drop_append, List.drop_of_length_le (by omega), List.nil_append,
    List.drop_replicate, List.append_assoc]
  congr 3
  omega

/-- Fields written one after the other. -/
def setFields : List UInt8 → Nat → List (Nat × Nat) → List UInt8
  | buffer, _, [] => buffer
  | buffer, offset, field :: more =>
      setFields (setBytes buffer offset (le field.1 field.2)) (offset + field.1) more

/-- **Fields written behind what is written** are the record. -/
theorem setFields_behind {done : List UInt8} {offset : Nat} (h : done.length = offset)
    (fields : List (Nat × Nat)) (n : Nat) :
    setFields (done ++ List.replicate ((fields.map (·.1)).sum + n) 0) offset fields =
      (done ++ writeFields fields) ++ List.replicate n 0 := by
  induction fields generalizing done offset with
  | nil =>
    show done ++ List.replicate (0 + n) 0 = (done ++ []) ++ List.replicate n 0
    rw [Nat.zero_add, List.append_nil]
  | cons field fields ih =>
    have hsum : ((field :: fields).map (·.1)).sum + n =
        (le field.1 field.2).length + ((fields.map (·.1)).sum + n) := by
      rw [List.map_cons, List.sum_cons, length_le]
      omega
    have hdone : (done ++ le field.1 field.2).length = offset + field.1 := by
      rw [List.length_append, length_le, h]
    rw [hsum, setFields, setBytes_behind h, ih hdone, writeFields_cons, List.append_assoc done]

end LittleEndian
