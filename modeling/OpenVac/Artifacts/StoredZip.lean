/-
  File:      OpenVac/Artifacts/StoredZip.lean
  Subject:   The ZIP container of a DOCX file (server/artifacts/docx.ts): `createStoredZip`,
             `crc32`, and a reader that follows the central directory.

  * `crc32`, `crc32_eq` -- the bit loop on 32-bit numbers is CRC-32.
  * `localPart`, `centralPart`, `endRecord` -- buffers written field by field; `localPart_eq` and
    its siblings: the record each buffer holds.
  * `readZip` -- end record, central directory, then every local header it points to.
  * `stored_zip_read_back` -- the reader accepts what is written and finds the entries.
-/
import Mathlib.Data.Char
import Mathlib.Data.List.Lex
import Mathlib.Data.List.Nodup
import OpenVac.Lib.Crc32
import OpenVac.Lib.Digest
import OpenVac.Lib.LittleEndian
import OpenVac.Lib.Utf8

namespace OpenVac.StoredZip

open JsString LittleEndian

/-! ## 1. The checksum -/

/-- `a ^ b`: both are converted to 32 bits, the result is signed. -/
def bitXor (a b : Int) : Int := (BitVec.ofInt 32 a ^^^ BitVec.ofInt 32 b).toInt

/-- `a & b`. -/
def bitAnd (a b : Int) : Int := (BitVec.ofInt 32 a &&& BitVec.ofInt 32 b).toInt

/-- `a >>> k`: the result is not signed. -/
def unsignedShift (a : Int) (k : Nat) : Int := (BitVec.ofInt 32 a >>> k).toNat

def crcBit (crc : Int) : Int :=
  bitXor (unsignedShift crc 1) (if bitAnd crc 1 ≠ 0 then 0xEDB88320 else 0)

def crcByte (crc : Int) (byte : UInt8) : Int := crcBit^[8] (bitXor crc byte.toNat)

def crc32 (bytes : List UInt8) : Int :=
  unsignedShift (bitXor (bytes.foldl crcByte 0xFFFFFFFF) 0xFFFFFFFF) 0

theorem ofInt_bitXor (a b : Int) :
    BitVec.ofInt 32 (bitXor a b) = BitVec.ofInt 32 a ^^^ BitVec.ofInt 32 b :=
  BitVec.ofInt_toInt

theorem ofInt_unsignedShift (a : Int) (k : Nat) :
    BitVec.ofInt 32 (unsignedShift a k) = BitVec.ofInt 32 a >>> k := by
  unfold unsignedShift
  rw [BitVec.ofInt_natCast, BitVec.ofNat_toNat, BitVec.setWidth_eq]

/-- The lowest bit, as the loop tests it. -/
theorem bitAnd_one (a : Int) : bitAnd a 1 ≠ 0 ↔ (BitVec.ofInt 32 a).getLsbD 0 = true := by
  have hone : BitVec.ofInt 32 1 = 1#32 := rfl
  unfold bitAnd
  rw [hone]
  generalize BitVec.ofInt 32 a = s
  have hand : s &&& 1#32 = if s.getLsbD 0 then 1#32 else 0#32 := by
    refine BitVec.eq_of_getLsbD_eq fun i hi => ?_
    rw [BitVec.getLsbD_and, BitVec.getLsbD_one]
    cases i with
    | zero => cases s.getLsbD 0 <;> rfl
    | succ i =>
      rw [show decide (i + 1 = 0) = false from rfl, Bool.and_false, Bool.and_false]
      cases s.getLsbD 0 with
      | false => simp
      | true => simp [BitVec.getLsbD_one]
  rw [hand]
  cases s.getLsbD 0 with
  | false => exact ⟨fun h => absurd rfl h, fun h => nomatch h⟩
  | true => exact ⟨fun _ => rfl, fun _ => by decide⟩

theorem ofInt_crcBit (crc : Int) :
    BitVec.ofInt 32 (crcBit crc) = Crc32.step (BitVec.ofInt 32 crc) := by
  unfold crcBit Crc32.step
  rw [ofInt_bitXor, ofInt_unsignedShift]
  congr 1
  by_cases h : (BitVec.ofInt 32 crc).getLsbD 0 = true
  · rw [if_pos ((bitAnd_one crc).mpr h), if_pos h]
    rfl
  · rw [if_neg fun hand => h ((bitAnd_one crc).mp hand), if_neg h]
    rfl

theorem ofInt_crcByte (crc : Int) (byte : UInt8) :
    BitVec.ofInt 32 (crcByte crc byte) = Crc32.feed (BitVec.ofInt 32 crc) byte := by
  have hsteps (n : Nat) (a : Int) :
      BitVec.ofInt 32 (crcBit^[n] a) = Crc32.step^[n] (BitVec.ofInt 32 a) := by
    induction n with
    | zero => rfl
    | succ n ih => rw [Function.iterate_succ_apply', Function.iterate_succ_apply', ofInt_crcBit, ih]
  have hbyte : BitVec.ofInt 32 (byte.toNat : Int) = byte.toBitVec.setWidth 32 := by
    rw [BitVec.ofInt_natCast]
    exact BitVec.ofNat_toNat 32 byte.toBitVec
  unfold crcByte Crc32.feed
  rw [hsteps, ofInt_bitXor, hbyte]

/-- **The loop computes CRC-32.** -/
theorem crc32_eq (bytes : List UInt8) : crc32 bytes = (Crc32.checksum bytes).toNat := by
  have hrun (crc : Int) : BitVec.ofInt 32 (bytes.foldl crcByte crc) =
      bytes.foldl Crc32.feed (BitVec.ofInt 32 crc) := by
    induction bytes generalizing crc with
    | nil => rfl
    | cons byte bytes ih => rw [List.foldl_cons, List.foldl_cons, ih, ofInt_crcByte]
  have hones : BitVec.ofInt 32 0xFFFFFFFF = BitVec.allOnes 32 := rfl
  unfold crc32 unsignedShift Crc32.checksum
  rw [ofInt_bitXor, hrun, hones, BitVec.ushiftRight_zero, BitVec.xor_allOnes]

/-! ## 2. The container -/

structure ZipEntry where
  name : Text
  bytes : List UInt8
  deriving DecidableEq

def checksumOf (entry : ZipEntry) : Nat := (crc32 entry.bytes).toNat

def localPart (entry : ZipEntry) : List UInt8 :=
  let name := Utf8.encode entry.name
  let checksum := checksumOf entry
  let view := List.replicate (30 + name.length + entry.bytes.length) 0
  let view := setUint32 view 0 0x04034B50
  let view := setUint16 view 4 20
  let view := setUint16 view 6 0x0800
  let view := setUint16 view 8 0
  let view := setUint16 view 10 0
  let view := setUint16 view 12 0x0021
  let view := setUint32 view 14 checksum
  let view := setUint32 view 18 entry.bytes.length
  let view := setUint32 view 22 entry.bytes.length
  let view := setUint16 view 26 name.length
  let view := setUint16 view 28 0
  let view := setBytes view 30 name
  setBytes view (30 + name.length) entry.bytes

def centralPart (entry : ZipEntry) (offset : Nat) : List UInt8 :=
  let name := Utf8.encode entry.name
  let checksum := checksumOf entry
  let view := List.replicate (46 + name.length) 0
  let view := setUint32 view 0 0x02014B50
  let view := setUint16 view 4 20
  let view := setUint16 view 6 20
  let view := setUint16 view 8 0x0800
  let view := setUint16 view 10 0
  let view := setUint16 view 12 0
  let view := setUint16 view 14 0x0021
  let view := setUint32 view 16 checksum
  let view := setUint32 view 20 entry.bytes.length
  let view := setUint32 view 24 entry.bytes.length
  let view := setUint16 view 28 name.length
  let view := setUint16 view 30 0
  let view := setUint16 view 32 0
  let view := setUint16 view 34 0
  let view := setUint16 view 36 0
  let view := setUint32 view 38 0
  let view := setUint32 view 42 offset
  setBytes view 46 name

def endRecord (count centralSize centralOffset : Nat) : List UInt8 :=
  let view := List.replicate 22 0
  let view := setUint32 view 0 0x06054B50
  let view := setUint16 view 4 0
  let view := setUint16 view 6 0
  let view := setUint16 view 8 count
  let view := setUint16 view 10 count
  let view := setUint32 view 12 centralSize
  let view := setUint32 view 16 centralOffset
  setUint16 view 20 0

structure ZipState where
  localParts : List (List UInt8)
  centralParts : List (List UInt8)
  offset : Nat

def addEntry (s : ZipState) (entry : ZipEntry) : ZipState :=
  ⟨s.localParts ++ [localPart entry], s.centralParts ++ [centralPart entry s.offset],
    s.offset + (localPart entry).length⟩

/-- One part after the other. -/
def concatenate (parts : List (List UInt8)) : List UInt8 := parts.flatten

section Order

variable [LocaleOrder]

def sortedEntries (inputEntries : List ZipEntry) : List ZipEntry :=
  inputEntries.mergeSort fun left right => LocaleOrder.le left.name right.name

def createStoredZip (inputEntries : List ZipEntry) : List UInt8 :=
  let entries := sortedEntries inputEntries
  let s := entries.foldl addEntry ⟨[], [], 0⟩
  let centralSize := (s.centralParts.map List.length).sum
  concatenate (s.localParts ++ s.centralParts ++ [endRecord entries.length centralSize s.offset])

end Order

/-! ## 3. A reader -/

def localWidths : List Nat := [4, 2, 2, 2, 2, 2, 4, 4, 4, 2, 2]

def centralWidths : List Nat := [4, 2, 2, 2, 2, 2, 2, 4, 4, 4, 2, 2, 2, 2, 2, 4, 4]

def endWidths : List Nat := [4, 2, 2, 2, 2, 4, 4, 2]

/-- What the central directory says of a member. -/
structure DirectoryRecord where
  flags : Nat
  method : Nat
  crc : Nat
  compressedSize : Nat
  size : Nat
  offset : Nat
  name : List UInt8
  deriving DecidableEq

structure Member where
  name : Text
  crc : Nat
  data : List UInt8
  deriving DecidableEq

/-- So many records of the central directory, and what follows them. -/
def readDirectory : Nat → List UInt8 → Option (List DirectoryRecord × List UInt8)
  | 0, bytes => some ([], bytes)
  | count + 1, bytes =>
      match readFields centralWidths bytes with
      | some ([signature, _, _, flags, method, _, _, crc, compressedSize, size, nameLength,
          extraLength, commentLength, disk, _, _, offset], rest) =>
          if signature = 0x02014B50 ∧ disk = 0 ∧
              nameLength + extraLength + commentLength ≤ rest.length then
            (readDirectory count (rest.drop (nameLength + extraLength + commentLength))).map
              fun found =>
                (⟨flags, method, crc, compressedSize, size, offset, rest.take nameLength⟩ ::
                  found.1, found.2)
          else none
      | _ => none

/-- The member a record points to: its local header has to agree with the record, and its
    content with both. -/
def readMember (archive : List UInt8) (record : DirectoryRecord) : Option Member :=
  match readFields localWidths (archive.drop record.offset) with
  | some ([signature, _, flags, method, _, _, crc, compressedSize, size, nameLength,
      extraLength], rest) =>
      let data := (rest.drop (nameLength + extraLength)).take size
      if signature = 0x04034B50 ∧ flags = record.flags ∧ method = record.method ∧
          crc = record.crc ∧ compressedSize = record.compressedSize ∧ size = record.size ∧
          nameLength = record.name.length ∧ rest.take nameLength = record.name ∧
          method = 0 ∧ compressedSize = size ∧ data.length = size ∧
          crc = (Crc32.checksum data).toNat then
        some ⟨(Utf8.decode Utf8.start record.name).2, crc, data⟩
      else none
  | _ => none

/-- The end record without a comment is the archive's last 22 bytes, where a search from the
    end begins; the central directory ends where it begins. -/
def readZip (archive : List UInt8) : Option (List Member) :=
  let endOffset := archive.length - 22
  match readFields endWidths (archive.drop endOffset) with
  | some ([signature, disk, startDisk, here, total, size, offset, commentLength], rest) =>
      if signature = 0x06054B50 ∧ disk = 0 ∧ startDisk = 0 ∧ here = total ∧ commentLength = 0 ∧
          rest = [] ∧ offset + size = endOffset then
        match readDirectory total (archive.drop offset) with
        | some (records, rest) =>
            if rest.length = 22 then records.mapM (readMember archive) else none
        | none => none
      else none
  | _ => none

/-! ## 4. The records that are written -/

def localFields (entry : ZipEntry) : List (Nat × Nat) :=
  [(4, 0x04034B50), (2, 20), (2, 0x0800), (2, 0), (2, 0), (2, 0x0021), (4, checksumOf entry),
    (4, entry.bytes.length), (4, entry.bytes.length), (2, (Utf8.encode entry.name).length), (2, 0)]

def centralFields (entry : ZipEntry) (offset : Nat) : List (Nat × Nat) :=
  [(4, 0x02014B50), (2, 20), (2, 20), (2, 0x0800), (2, 0), (2, 0), (2, 0x0021),
    (4, checksumOf entry), (4, entry.bytes.length), (4, entry.bytes.length),
    (2, (Utf8.encode entry.name).length), (2, 0), (2, 0), (2, 0), (2, 0), (4, 0), (4, offset)]

def endFields (count centralSize centralOffset : Nat) : List (Nat × Nat) :=
  [(4, 0x06054B50), (2, 0), (2, 0), (2, count), (2, count), (4, centralSize), (4, centralOffset),
    (2, 0)]

/-- Zeros give way to the record, the record to what follows it. -/
theorem setFields_zeros (fields : List (Nat × Nat)) (n : Nat) :
    setFields (List.replicate ((fields.map (·.1)).sum + n) 0) 0 fields =
      writeFields fields ++ List.replicate n 0 :=
  @setFields_behind [] 0 rfl fields n

theorem sum_localFields (entry : ZipEntry) : ((localFields entry).map (·.1)).sum = 30 := by
  simp only [localFields, List.map_cons, List.map_nil, List.sum_cons, List.sum_nil, Nat.reduceAdd]

theorem sum_centralFields (entry : ZipEntry) (offset : Nat) :
    ((centralFields entry offset).map (·.1)).sum = 46 := by
  simp only [centralFields, List.map_cons, List.map_nil, List.sum_cons, List.sum_nil,
    Nat.reduceAdd]

theorem sum_endFields (count centralSize centralOffset : Nat) :
    ((endFields count centralSize centralOffset).map (·.1)).sum = 22 := by
  simp only [endFields, List.map_cons, List.map_nil, List.sum_cons, List.sum_nil, Nat.reduceAdd]

/-- **A local part** is its record, the name and the content. -/
theorem localPart_eq (entry : ZipEntry) :
    localPart entry =
      writeFields (localFields entry) ++ (Utf8.encode entry.name ++ entry.bytes) := by
  have hset : localPart entry =
      setBytes (setBytes (setFields (List.replicate
          (30 + (Utf8.encode entry.name).length + entry.bytes.length) 0) 0 (localFields entry))
        30 (Utf8.encode entry.name)) (30 + (Utf8.encode entry.name).length) entry.bytes := by
    simp only [localPart, localFields, setFields, setUint16, setUint32, Nat.reduceAdd]
  have hheader : (writeFields (localFields entry)).length = 30 := by
    rw [length_writeFields, sum_localFields]
  have hname : (writeFields (localFields entry) ++ Utf8.encode entry.name).length =
      30 + (Utf8.encode entry.name).length := by
    rw [List.length_append, hheader]
  have hfields := setFields_zeros (localFields entry)
    ((Utf8.encode entry.name).length + (entry.bytes.length + 0))
  rw [sum_localFields] at hfields
  rw [hset, Nat.add_assoc 30, ← Nat.add_zero entry.bytes.length, hfields, setBytes_behind hheader,
    setBytes_behind hname, List.replicate_zero, List.append_nil, List.append_assoc]

theorem centralPart_eq (entry : ZipEntry) (offset : Nat) :
    centralPart entry offset =
      writeFields (centralFields entry offset) ++ Utf8.encode entry.name := by
  have hset : centralPart entry offset =
      setBytes (setFields (List.replicate (46 + (Utf8.encode entry.name).length) 0) 0
        (centralFields entry offset)) 46 (Utf8.encode entry.name) := by
    simp only [centralPart, centralFields, setFields, setUint16, setUint32, Nat.reduceAdd]
  have hheader : (writeFields (centralFields entry offset)).length = 46 := by
    rw [length_writeFields, sum_centralFields]
  have hfields := setFields_zeros (centralFields entry offset)
    ((Utf8.encode entry.name).length + 0)
  rw [sum_centralFields] at hfields
  rw [hset, ← Nat.add_zero (Utf8.encode entry.name).length, hfields, setBytes_behind hheader,
    List.replicate_zero, List.append_nil]

theorem endRecord_eq (count centralSize centralOffset : Nat) :
    endRecord count centralSize centralOffset =
      writeFields (endFields count centralSize centralOffset) := by
  have hset : endRecord count centralSize centralOffset =
      setFields (List.replicate 22 0) 0 (endFields count centralSize centralOffset) := by
    simp only [endRecord, endFields, setFields, setUint16, setUint32, Nat.reduceAdd]
  have hfields := setFields_zeros (endFields count centralSize centralOffset) 0
  rw [sum_endFields] at hfields
  rw [hset, hfields, List.replicate_zero, List.append_nil]

theorem length_localPart (entry : ZipEntry) :
    (localPart entry).length =
      30 + ((Utf8.encode entry.name).length + entry.bytes.length) := by
  rw [localPart_eq, List.length_append, List.length_append, length_writeFields, sum_localFields]

theorem length_centralPart (entry : ZipEntry) (offset : Nat) :
    (centralPart entry offset).length = 46 + (Utf8.encode entry.name).length := by
  rw [centralPart_eq, List.length_append, length_writeFields, sum_centralFields]

theorem length_endRecord (count centralSize centralOffset : Nat) :
    (endRecord count centralSize centralOffset).length = 22 := by
  rw [endRecord_eq, length_writeFields, sum_endFields]

/-! ## 5. The archive -/

/-- The local parts, one after the other. -/
def localBytes (entries : List ZipEntry) : List UInt8 := (entries.map localPart).flatten

/-- The central parts of entries whose local parts begin at an offset. -/
def centralParts : Nat → List ZipEntry → List (List UInt8)
  | _, [] => []
  | offset, entry :: more =>
      centralPart entry offset :: centralParts (offset + (localPart entry).length) more

/-- **The loop**, with its three accumulators. -/
theorem foldl_addEntry (entries : List ZipEntry) (s : ZipState) :
    entries.foldl addEntry s =
      ⟨s.localParts ++ entries.map localPart, s.centralParts ++ centralParts s.offset entries,
        s.offset + (localBytes entries).length⟩ := by
  induction entries generalizing s with
  | nil =>
    show s = ⟨s.localParts ++ [], s.centralParts ++ [], s.offset + 0⟩
    rw [List.append_nil, List.append_nil, Nat.add_zero]
  | cons entry entries ih =>
    have hlength : (localBytes (entry :: entries)).length =
        (localPart entry).length + (localBytes entries).length := by
      unfold localBytes
      rw [List.map_cons, List.flatten_cons, List.length_append]
    rw [List.foldl_cons, ih, hlength]
    unfold addEntry
    dsimp only
    rw [List.append_assoc, List.append_assoc, Nat.add_assoc]
    rfl

section Archive

variable [LocaleOrder]

/-- Local parts, central directory, end record. -/
theorem createStoredZip_eq (inputEntries : List ZipEntry) :
    createStoredZip inputEntries =
      localBytes (sortedEntries inputEntries) ++
        ((centralParts 0 (sortedEntries inputEntries)).flatten ++
          endRecord (sortedEntries inputEntries).length
            (centralParts 0 (sortedEntries inputEntries)).flatten.length
            (localBytes (sortedEntries inputEntries)).length) := by
  unfold createStoredZip concatenate
  dsimp only
  rw [foldl_addEntry]
  dsimp only
  rw [List.nil_append, List.nil_append, Nat.zero_add, List.flatten_append, List.flatten_append,
    List.flatten_singleton, List.length_flatten, List.append_assoc]
  rfl

end Archive

/-! ## 6. Reading -/

/-- What the central directory says of an entry. -/
def recordOf (entry : ZipEntry) (offset : Nat) : DirectoryRecord :=
  ⟨0x0800, 0, checksumOf entry, entry.bytes.length, entry.bytes.length, offset,
    Utf8.encode entry.name⟩

def recordsFrom : Nat → List ZipEntry → List DirectoryRecord
  | _, [] => []
  | offset, entry :: more =>
      recordOf entry offset :: recordsFrom (offset + (localPart entry).length) more

def memberOf (entry : ZipEntry) : Member := ⟨entry.name, checksumOf entry, entry.bytes⟩

/-- Everything of an entry fits its field. -/
structure Fits (entry : ZipEntry) : Prop where
  name : (Utf8.encode entry.name).length < 65536
  bytes : entry.bytes.length < 2 ^ 32

theorem checksumOf_eq (entry : ZipEntry) :
    checksumOf entry = (Crc32.checksum entry.bytes).toNat := by
  unfold checksumOf
  rw [crc32_eq]
  rfl

theorem checksumOf_lt (entry : ZipEntry) : checksumOf entry < 2 ^ 32 := by
  rw [checksumOf_eq]
  exact (Crc32.checksum entry.bytes).isLt

theorem localFields_fit {entry : ZipEntry} (h : Fits entry) :
    ∀ field ∈ localFields entry, field.2 < 256 ^ field.1 := by
  have hname := h.name
  have hbytes := h.bytes
  have hcrc := checksumOf_lt entry
  unfold localFields
  simp only [List.forall_mem_cons, List.not_mem_nil, false_imp_iff, implies_true, and_true]
  omega

theorem centralFields_fit {entry : ZipEntry} (h : Fits entry) {offset : Nat}
    (hoffset : offset < 2 ^ 32) :
    ∀ field ∈ centralFields entry offset, field.2 < 256 ^ field.1 := by
  have hname := h.name
  have hbytes := h.bytes
  have hcrc := checksumOf_lt entry
  unfold centralFields
  simp only [List.forall_mem_cons, List.not_mem_nil, false_imp_iff, implies_true, and_true]
  omega

/-- **The central directory is read back.** -/
theorem readDirectory_centralParts (entries : List ZipEntry) (hfits : ∀ entry ∈ entries, Fits entry)
    (offset : Nat) (hoffset : offset + (localBytes entries).length < 2 ^ 32)
    (rest : List UInt8) :
    readDirectory entries.length ((centralParts offset entries).flatten ++ rest) =
      some (recordsFrom offset entries, rest) := by
  induction entries generalizing offset with
  | nil => rfl
  | cons entry entries ih =>
    have hlength : (localBytes (entry :: entries)).length =
        (localPart entry).length + (localBytes entries).length := by
      unfold localBytes
      rw [List.map_cons, List.flatten_cons, List.length_append]
    have hread := readFields_writeFields
      (centralFields_fit (hfits entry List.mem_cons_self) (show offset < 2 ^ 32 by omega))
      (Utf8.encode entry.name ++
        ((centralParts (offset + (localPart entry).length) entries).flatten ++ rest))
    have hwidths : (centralFields entry offset).map (·.1) = centralWidths := rfl
    have hvalues : (centralFields entry offset).map (·.2) =
        [0x02014B50, 20, 20, 0x0800, 0, 0, 0x0021, checksumOf entry, entry.bytes.length,
          entry.bytes.length, (Utf8.encode entry.name).length, 0, 0, 0, 0, 0, offset] := rfl
    rw [hwidths, hvalues] at hread
    have hrest := ih (fun other hother => hfits other (List.mem_cons_of_mem _ hother))
      (offset + (localPart entry).length) (by omega)
    rw [List.length_cons, centralParts, List.flatten_cons, centralPart_eq, List.append_assoc,
      List.append_assoc, readDirectory, hread]
    dsimp only
    rw [if_pos ⟨rfl, rfl, by rw [List.length_append]; omega⟩]
    show Option.map _ (readDirectory entries.length
      (List.drop (Utf8.encode entry.name).length (Utf8.encode entry.name ++ _))) = _
    rw [List.drop_left, List.take_left, hrest]
    rfl

/-- **A member is read back**, where its local part lies at the record's offset. -/
theorem readMember_localPart {entry : ZipEntry} (h : Fits entry) (before rest : List UInt8) :
    readMember (before ++ (localPart entry ++ rest)) (recordOf entry before.length) =
      some (memberOf entry) := by
  have hread := readFields_writeFields (localFields_fit h)
    (Utf8.encode entry.name ++ (entry.bytes ++ rest))
  have hwidths : (localFields entry).map (·.1) = localWidths := rfl
  have hvalues : (localFields entry).map (·.2) =
      [0x04034B50, 20, 0x0800, 0, 0, 0x0021, checksumOf entry, entry.bytes.length,
        entry.bytes.length, (Utf8.encode entry.name).length, 0] := rfl
  rw [hwidths, hvalues] at hread
  have hdrop : (before ++ (localPart entry ++ rest)).drop (recordOf entry before.length).offset =
      writeFields (localFields entry) ++ (Utf8.encode entry.name ++ (entry.bytes ++ rest)) := by
    show (before ++ (localPart entry ++ rest)).drop before.length = _
    rw [List.drop_left, localPart_eq, List.append_assoc, List.append_assoc]
  have hdata : ((Utf8.encode entry.name ++ (entry.bytes ++ rest)).drop
      ((Utf8.encode entry.name).length + 0)).take entry.bytes.length = entry.bytes := by
    rw [Nat.add_zero, List.drop_left, List.take_left]
  unfold readMember
  rw [hdrop, hread]
  dsimp only
  rw [hdata, if_pos ⟨rfl, rfl, rfl, rfl, rfl, rfl, rfl, List.take_left, rfl, rfl, rfl,
    checksumOf_eq entry⟩]
  unfold memberOf recordOf
  rw [Utf8.decode_encode]

/-- Every record points to its local part. -/
theorem mapM_readMember (entries : List ZipEntry) (hfits : ∀ entry ∈ entries, Fits entry)
    (before rest : List UInt8) :
    (recordsFrom before.length entries).mapM
        (readMember (before ++ (localBytes entries ++ rest))) =
      some (entries.map memberOf) := by
  induction entries generalizing before with
  | nil => rfl
  | cons entry entries ih =>
    have hsplit : localBytes (entry :: entries) = localPart entry ++ localBytes entries := by
      unfold localBytes
      rw [List.map_cons, List.flatten_cons]
    have hmember := readMember_localPart (hfits entry List.mem_cons_self) before
      (localBytes entries ++ rest)
    have hmore := ih (fun other hother => hfits other (List.mem_cons_of_mem _ hother))
      (before ++ localPart entry)
    rw [List.length_append, List.append_assoc] at hmore
    rw [recordsFrom, hsplit, List.append_assoc, List.mapM_cons, hmember, hmore]
    rfl

theorem length_encode_ascii {name : Text} (h : ∀ c ∈ name, c.toNat < 0x80) :
    (Utf8.encode name).length = name.length := by
  induction name with
  | nil => rfl
  | cons c name ih =>
    have hchar : (String.utf8EncodeChar c).length = 1 := by
      have hval : c.val.toNat = c.toNat := rfl
      have hc := h c List.mem_cons_self
      unfold String.utf8EncodeChar
      simp only [hval]
      rw [if_pos (by omega)]
      rfl
    have hcons : Utf8.encode (c :: name) = String.utf8EncodeChar c ++ Utf8.encode name := rfl
    rw [hcons, List.length_append, hchar, ih fun d hd => h d (List.mem_cons_of_mem c hd),
      List.length_cons, Nat.add_comm]

/-- The content of an entry is in the archive. -/
theorem bytes_le_localBytes {entries : List ZipEntry} {entry : ZipEntry} (h : entry ∈ entries) :
    entry.bytes.length ≤ (localBytes entries).length := by
  obtain ⟨before, after, rfl⟩ := List.append_of_mem h
  have hsplit : localBytes (before ++ entry :: after) =
      localBytes before ++ (localPart entry ++ localBytes after) := by
    unfold localBytes
    rw [List.map_append, List.map_cons, List.flatten_append, List.flatten_cons]
  rw [hsplit, List.length_append, List.length_append, length_localPart]
  omega

theorem endFields_fit {count centralSize centralOffset : Nat} (hcount : count < 65536)
    (hsize : centralSize < 2 ^ 32) (hoffset : centralOffset < 2 ^ 32) :
    ∀ field ∈ endFields count centralSize centralOffset, field.2 < 256 ^ field.1 := by
  unfold endFields
  simp only [List.forall_mem_cons, List.not_mem_nil, false_imp_iff, implies_true, and_true]
  omega

/-- **An archive of entries that fit is read back.** -/
theorem readZip_archive (entries : List ZipEntry) (hfits : ∀ entry ∈ entries, Fits entry)
    (hcount : entries.length < 65536)
    (hlocals : (localBytes entries).length < 2 ^ 32)
    (hcentrals : (centralParts 0 entries).flatten.length < 2 ^ 32) :
    readZip (localBytes entries ++ ((centralParts 0 entries).flatten ++
        endRecord entries.length (centralParts 0 entries).flatten.length
          (localBytes entries).length)) = some (entries.map memberOf) := by
  generalize hcentral : (centralParts 0 entries).flatten = central at *
  generalize hlocal : (localBytes entries).length = offset at *
  have hlast := length_endRecord entries.length central.length offset
  generalize htail : endRecord entries.length central.length offset = tail at *
  have hend : (localBytes entries ++ (central ++ tail)).length - 22 =
      (localBytes entries ++ central).length := by
    have hsum : ((localBytes entries ++ central) ++ tail).length =
        (localBytes entries ++ central).length + tail.length := List.length_append
    rw [← List.append_assoc, hsum, hlast]
    omega
  have hdropEnd : (localBytes entries ++ (central ++ tail)).drop
      ((localBytes entries ++ (central ++ tail)).length - 22) = tail := by
    rw [hend, ← List.append_assoc, List.drop_left]
  have hread := readFields_writeFields (endFields_fit hcount hcentrals hlocals) []
  have hwidths : (endFields entries.length central.length offset).map (·.1) = endWidths := rfl
  have hvalues : (endFields entries.length central.length offset).map (·.2) =
      [0x06054B50, 0, 0, entries.length, entries.length, central.length, offset, 0] := rfl
  rw [hwidths, hvalues, List.append_nil, ← endRecord_eq, htail] at hread
  have hdirectory := readDirectory_centralParts entries hfits 0 (by omega) tail
  rw [hcentral] at hdirectory
  have hdropCentral : (localBytes entries ++ (central ++ tail)).drop offset = central ++ tail := by
    rw [← hlocal, List.drop_left]
  have hmembers := mapM_readMember entries hfits [] (central ++ tail)
  rw [List.nil_append, List.length_nil] at hmembers
  unfold readZip
  dsimp only
  rw [hdropEnd, hread]
  dsimp only
  rw [if_pos ⟨rfl, rfl, rfl, rfl, rfl, rfl, by rw [hend, List.length_append, hlocal]⟩, hdropCentral,
    hdirectory]
  dsimp only
  rw [if_pos hlast, hmembers]

/-! ## 7. The stored ZIP -/

/-- **The archive can be read back**: whatever the order of the names, the reader accepts it and
    finds each entry once, with its name, its content and the CRC-32 of the content. -/
theorem stored_zip_read_back [LocaleOrder] (inputEntries : List ZipEntry)
    (hcount : inputEntries.length < 65536)
    (hdistinct : (inputEntries.map (·.name)).Nodup)
    (hnames : ∀ entry ∈ inputEntries, (∀ c ∈ entry.name, c.toNat < 0x80) ∧
      entry.name.length < 65536)
    (htotal : (createStoredZip inputEntries).length < 2 ^ 32) :
    ∃ members, readZip (createStoredZip inputEntries) = some members ∧
      (members.map fun member => (member.name, member.data)).Perm
        (inputEntries.map fun entry => (entry.name, entry.bytes)) ∧
      (members.map (·.name)).Nodup ∧
      ∀ member ∈ members, Crc32.IsCrc32 member.data (BitVec.ofNat 32 member.crc) := by
  have hperm : (sortedEntries inputEntries).Perm inputEntries := List.mergeSort_perm _ _
  have hmem {entry : ZipEntry} (h : entry ∈ sortedEntries inputEntries) : entry ∈ inputEntries :=
    hperm.mem_iff.mp h
  rw [createStoredZip_eq] at htotal ⊢
  generalize hentries : sortedEntries inputEntries = entries at *
  have hlength := htotal
  rw [List.length_append, List.length_append, length_endRecord] at hlength
  have hfits : ∀ entry ∈ entries, Fits entry := by
    intro entry hentry
    have hbytes := bytes_le_localBytes hentry
    obtain ⟨hascii, hname⟩ := hnames entry (hmem hentry)
    refine ⟨?_, by omega⟩
    rw [length_encode_ascii hascii]
    exact hname
  refine ⟨entries.map memberOf, ?_, ?_, ?_, ?_⟩
  · refine readZip_archive entries hfits ?_ (by omega) (by omega)
    rw [hperm.length_eq]
    exact hcount
  · rw [List.map_map]
    exact hperm.map fun entry => (entry.name, entry.bytes)
  · rw [List.map_map]
    exact (hperm.map fun entry => entry.name).nodup_iff.mpr hdistinct
  · intro member hmember
    obtain ⟨entry, -, rfl⟩ := List.mem_map.mp hmember
    show Crc32.IsCrc32 entry.bytes (BitVec.ofNat 32 (checksumOf entry))
    rw [checksumOf_eq, BitVec.ofNat_toNat, BitVec.setWidth_eq]
    exact Crc32.isCrc32_checksum entry.bytes

def sampleEntry : ZipEntry := ⟨['b', '.', 'x', 'm', 'l'], [60, 98, 47, 62]⟩

theorem stored_zip_read_back_sample :
    let _ : LocaleOrder := ⟨fun s t => decide (s ≤ t)⟩
    ∃ members, readZip (createStoredZip [sampleEntry]) = some members ∧
      (members.map fun member => (member.name, member.data)).Perm
        ([sampleEntry].map fun entry => (entry.name, entry.bytes)) ∧
      (members.map (·.name)).Nodup ∧
      ∀ member ∈ members, Crc32.IsCrc32 member.data (BitVec.ofNat 32 member.crc) := by
  let _ : LocaleOrder := ⟨fun s t => decide (s ≤ t)⟩
  have hascii : (sampleEntry.name.all fun c => decide (c.toNat < 0x80)) = true := rfl
  have hnames : ∀ entry ∈ [sampleEntry], (∀ c ∈ entry.name, c.toNat < 0x80) ∧
      entry.name.length < 65536 := by
    intro entry hentry
    rw [List.mem_singleton.mp hentry]
    exact ⟨fun c hc => of_decide_eq_true (List.all_eq_true.mp hascii c hc), by decide⟩
  refine stored_zip_read_back [sampleEntry] (by decide) (List.nodup_singleton _) hnames ?_
  have hsorted : sortedEntries [sampleEntry] = [sampleEntry] := List.mergeSort_singleton _
  have hlocal : (localBytes [sampleEntry]).length = 39 := by
    show ([localPart sampleEntry].flatten).length = 39
    rw [List.flatten_singleton, length_localPart]
    rfl
  have hcentral : (centralParts 0 [sampleEntry]).flatten.length = 51 := by
    show ([centralPart sampleEntry 0].flatten).length = 51
    rw [List.flatten_singleton, length_centralPart]
    rfl
  rw [createStoredZip_eq, hsorted, List.length_append, List.length_append, hlocal, hcentral,
    length_endRecord]
  decide

end OpenVac.StoredZip
