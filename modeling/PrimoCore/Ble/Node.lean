/-
**The advertising packet of a `BLENode`.**

A node keeps the last advertising report it was heard with; `getFieldInAdvPck` walks the stored packet
from length byte to length byte, looking for a structure of a given type. The bytes come from the
radio, and the walk tests only that the length byte is inside the packet.

* `BLENode.setAdvPck`, `BLENode.getFieldInAdvPck` — the two methods. The walk also reports what it
  reads of `_advPck` and how much it copies; memory behind the array is arbitrary.
* `FieldRun.Safe` — the reads stay inside the packet, and the copy fits the buffer of `printAdvData`.
* `FieldReadable` — a condition on the bytes of the packet alone.
* `getFieldInAdvPck_safe_iff` — the walk is safe exactly when the packet is readable.
* `getFieldInAdvPck_encode` — on a well-formed packet the walk is safe and returns the value of the
  first structure of the type.
-/

import Mathlib.Tactic.SplitIfs
import PrimoCore.Lib.Ltv

namespace PrimoCore.Ble

open PrimoCore.Lib

/-- `ble_gap_evt_adv_report_t`, without the fields no method of the node reads. -/
structure AdvReport where
  peerAddr : Vector UInt8 6
  rssi : Int8
  scanRsp : Bool
  type : Fin 4
  dlen : Fin 32
  data : Vector UInt8 31
  deriving DecidableEq, Repr

/-- `BLENode`. The packet length is one a report can have. -/
structure BLENode where
  address : Vector UInt8 6
  advPck : Vector UInt8 31
  dlen : Fin 32
  type : Fin 4
  sRsp : Bool
  rssi : Int8
  advReport : AdvReport
  deriving DecidableEq, Repr

namespace BLENode

/-- `setAdvPck`: bytes past the new length keep their old values. -/
def setAdvPck (node : BLENode) (report : AdvReport) : BLENode where
  address := report.peerAddr
  advPck := Vector.ofFn fun index =>
    if index.val < report.dlen.val then report.data[index] else node.advPck[index]
  dlen := report.dlen
  type := report.type
  sRsp := report.scanRsp
  rssi := report.rssi
  advReport := report

/-- `_advPck[index]`, where `behind` is the memory behind the array. -/
def byteAt (node : BLENode) (behind : Nat → UInt8) (index : Nat) : UInt8 :=
  if inside : index < 31 then node.advPck[index] else behind index

/-- The bytes of the stored packet. -/
def packet (node : BLENode) : List UInt8 := node.advPck.toList.take node.dlen.val

end BLENode

/-! ### The walk -/

/-- What a run of `getFieldInAdvPck` does: the ranges of `_advPck` it reads, each a first index and a
count, the byte count it hands to `memcpy`, the caller's buffer and `len` afterwards. -/
structure FieldRun where
  reads : List (Nat × Nat)
  copied : Option Int
  result : Int → UInt8
  len : UInt8

/-- A byte count as `memcpy` takes it, a `size_t` of 32 bits. -/
def sizeT (count : Int) : Nat := (count % 0x100000000).toNat

namespace BLENode

/-- The match branch at a length byte: `memcpy(result, &_advPck[i + 2], _advPck[i] - 1)`, the
terminating NUL at `result[_advPck[i] - 1]`, and `len`, which is a byte. -/
def copyField (node : BLENode) (behind : Nat → UInt8) (result : Int → UInt8) (index : Nat) :
    FieldRun :=
  let count : Int := (node.byteAt behind index).toNat - 1
  { reads := [(index + 1, 1), (index, 1), (index + 2, sizeT count)]
    copied := some count
    result := fun position =>
      if position = count then 0
      else if 0 ≤ position ∧ position < sizeT count then
        node.byteAt behind (index + 2 + position.toNat)
      else result position
    len := node.byteAt behind index - 1 }

/-- The loop of `getFieldInAdvPck` from a given index on. -/
def fieldWalk (node : BLENode) (behind : Nat → UInt8) (type : UInt8) (result : Int → UInt8)
    (index : Nat) : FieldRun :=
  if index < node.dlen.val then
    if node.byteAt behind (index + 1) = type then node.copyField behind result index
    else
      let rest := node.fieldWalk behind type result (index + ((node.byteAt behind index).toNat + 1))
      { rest with reads := (index + 1, 1) :: (index, 1) :: rest.reads }
  else { reads := [], copied := none, result := result, len := 0 }
termination_by node.dlen.val - index

/-- `getFieldInAdvPck`. -/
def getFieldInAdvPck (node : BLENode) (behind : Nat → UInt8) (type : UInt8)
    (result : Int → UInt8) : FieldRun :=
  node.fieldWalk behind type result 0

end BLENode

/-- The size of the buffer `printAdvData` passes. -/
def fieldBufferSize : Nat := 31

/-- Every read is below the packet length; a count that is copied is not negative, and leaves room
for the terminating NUL in the caller's buffer. -/
structure FieldRun.Safe (fieldRun : FieldRun) (dlen : Nat) : Prop where
  reads : ∀ range ∈ fieldRun.reads, range.1 + range.2 ≤ dlen
  notNegative : ∀ count ∈ fieldRun.copied, 0 ≤ count
  fits : ∀ count ∈ fieldRun.copied, count + 1 ≤ fieldBufferSize

/-- **What the packet must be for a type.** The walk skips the structures of other types, lengths
taken as they are; it must not meet a length byte that is the last byte of the packet, and the first
structure of the type must have a length that is not zero and does not run past the packet. `skip` is
the number of bytes the walk jumps over. -/
def FieldReadable (type : UInt8) : Nat → List UInt8 → Prop
  | _, [] => True
  | skip + 1, _ :: rest => FieldReadable type skip rest
  | 0, [_] => False
  | 0, length :: tag :: rest =>
      if tag = type then 1 ≤ length.toNat ∧ length.toNat ≤ rest.length + 1
      else FieldReadable type length.toNat (tag :: rest)

instance decidableFieldReadable (type : UInt8) :
    ∀ (skip : Nat) (bytes : List UInt8), Decidable (FieldReadable type skip bytes)
  | 0, [] | _ + 1, [] => isTrue trivial
  | skip + 1, _ :: rest => decidableFieldReadable type skip rest
  | 0, [_] => isFalse id
  | 0, length :: tag :: rest =>
      have : Decidable (FieldReadable type length.toNat (tag :: rest)) :=
        decidableFieldReadable type length.toNat (tag :: rest)
      inferInstanceAs (Decidable (if tag = type then _ else _))

theorem fieldReadable_skip (type : UInt8) (skip : Nat) (bytes : List UInt8) :
    FieldReadable type skip bytes ↔ FieldReadable type 0 (bytes.drop skip) := by
  induction skip generalizing bytes with
  | zero => rfl
  | succ skip ih =>
    cases bytes with
    | nil => simp [FieldReadable]
    | cons byte rest => exact ih rest

/-! ### The bytes of the packet -/

section Packet

variable (node : BLENode) (behind : Nat → UInt8)

@[simp] theorem packet_length : node.packet.length = node.dlen.val := by
  have := node.dlen.isLt
  simp only [BLENode.packet, List.length_take, Vector.length_toList]
  omega

theorem packet_drop {index : Nat} (inside : index < node.dlen.val) :
    node.packet.drop index = node.byteAt behind index :: node.packet.drop (index + 1) := by
  have inArray : index < 31 := by have := node.dlen.isLt; omega
  have inPacket : index < node.packet.length := by rwa [packet_length]
  rw [List.drop_eq_getElem_cons inPacket]
  congr 1
  simp [BLENode.packet, BLENode.byteAt, inArray]

theorem packet_drop_end {index : Nat} (past : node.dlen.val ≤ index) :
    node.packet.drop index = [] := by
  rw [List.drop_eq_nil_iff, packet_length]
  exact past

/-- The packet of a node is the data of the report it was last given. -/
theorem packet_setAdvPck (report : AdvReport) :
    (node.setAdvPck report).packet = report.data.toList.take report.dlen.val := by
  apply List.ext_getElem
  · simp [BLENode.packet, BLENode.setAdvPck]
  · intro index first second
    have inside : index < report.dlen.val := by
      rw [packet_length] at first
      exact first
    simp [BLENode.packet, BLENode.setAdvPck, inside]

end Packet

/-! ### Safety of the walk -/

section Walk

variable (node : BLENode) (behind : Nat → UInt8) (type : UInt8) (result : Int → UInt8)

/-- A copy is safe exactly when the structure has a length, and ends inside the packet. -/
theorem copyField_safe_iff {index : Nat} (inside : index + 1 < node.dlen.val) :
    (node.copyField behind result index).Safe node.dlen.val ↔
      1 ≤ (node.byteAt behind index).toNat ∧
        (node.byteAt behind index).toNat ≤ node.dlen.val - (index + 2) + 1 := by
  have small := node.dlen.isLt
  have byte := (node.byteAt behind index).toNat_lt
  constructor
  · intro safe
    have notNegative := safe.notNegative _ rfl
    have copy := safe.reads (index + 2, sizeT ((node.byteAt behind index).toNat - 1))
      (by simp [BLENode.copyField])
    simp only [sizeT] at copy
    omega
  · rintro ⟨positive, short⟩
    refine ⟨?_, ?_, ?_⟩
    · intro range member
      simp only [BLENode.copyField, List.mem_cons, List.not_mem_nil, or_false] at member
      rcases member with rfl | rfl | rfl
      · show index + 1 + 1 ≤ node.dlen.val
        omega
      · show index + 1 ≤ node.dlen.val
        omega
      · simp only [sizeT]
        omega
    · rintro count ⟨⟩
      omega
    · rintro count ⟨⟩
      simp only [fieldBufferSize]
      omega

/-- The type byte is outside the packet when the length byte is the last one. -/
theorem not_safe_of_reads {fieldRun : FieldRun} {index dlen : Nat} (last : index + 1 = dlen)
    (read : (index + 1, 1) ∈ fieldRun.reads) : ¬ fieldRun.Safe dlen := by
  intro safe
  have inside := safe.reads _ read
  simp only at inside
  omega

/-- Reading the type byte and the length byte of a structure inside the packet is safe. -/
theorem safe_cons_iff {fieldRun : FieldRun} {index dlen : Nat} (inside : index + 1 < dlen) :
    FieldRun.Safe { fieldRun with reads := (index + 1, 1) :: (index, 1) :: fieldRun.reads } dlen ↔
      fieldRun.Safe dlen := by
  constructor
  · intro safe
    refine ⟨fun range member => ?_, safe.notNegative, safe.fits⟩
    exact safe.reads range (List.mem_cons_of_mem _ (List.mem_cons_of_mem _ member))
  · intro safe
    refine ⟨fun range member => ?_, safe.notNegative, safe.fits⟩
    rcases List.mem_cons.mp member with rfl | member
    · exact inside
    · rcases List.mem_cons.mp member with rfl | member
      · exact Nat.le_of_lt inside
      · exact safe.reads range member

/-- **The walk from an index is safe exactly when the rest of the packet is readable.** -/
theorem fieldWalk_safe_iff (index : Nat) :
    (node.fieldWalk behind type result index).Safe node.dlen.val ↔
      FieldReadable type 0 (node.packet.drop index) := by
  fun_induction BLENode.fieldWalk node behind type result index with
  | case1 index inside isType =>
    rw [packet_drop node behind inside]
    by_cases last : index + 1 < node.dlen.val
    · have left : (node.packet.drop (index + 1 + 1)).length = node.dlen.val - (index + 2) := by
        rw [List.length_drop, packet_length]
      rw [packet_drop node behind last, copyField_safe_iff node behind result last]
      simp only [FieldReadable, isType, if_true, left]
    · have atEnd : index + 1 = node.dlen.val := by omega
      rw [packet_drop_end node (Nat.le_of_eq atEnd.symm)]
      exact iff_of_false (not_safe_of_reads atEnd (by simp [BLENode.copyField])) id
  | case2 index inside notType rest ih =>
    rw [packet_drop node behind inside]
    by_cases last : index + 1 < node.dlen.val
    · rw [safe_cons_iff last, ih, packet_drop node behind last]
      simp only [FieldReadable, if_neg notType]
      have jump : index + ((node.byteAt behind index).toNat + 1) =
          index + 1 + (node.byteAt behind index).toNat := by omega
      rw [← packet_drop node behind last, jump, ← List.drop_drop]
      exact (fieldReadable_skip type _ (node.packet.drop (index + 1))).symm
    · have atEnd : index + 1 = node.dlen.val := by omega
      rw [packet_drop_end node (Nat.le_of_eq atEnd.symm)]
      exact iff_of_false (not_safe_of_reads atEnd (by simp)) id
  | case3 index past =>
    rw [packet_drop_end node (Nat.le_of_not_lt past)]
    refine iff_of_true ⟨?_, ?_, ?_⟩ trivial <;> simp

end Walk

/-- **A stored report is searched safely for a type exactly when its packet is readable for it.** -/
theorem getFieldInAdvPck_safe_iff (node : BLENode) (report : AdvReport) (behind : Nat → UInt8)
    (type : UInt8) (result : Int → UInt8) :
    ((node.setAdvPck report).getFieldInAdvPck behind type result).Safe report.dlen.val ↔
      FieldReadable type 0 (report.data.toList.take report.dlen.val) := by
  rw [← packet_setAdvPck node report]
  exact fieldWalk_safe_iff (node.setAdvPck report) behind type result 0

/-- A report of 31 bytes that opens with a structure of 255 bytes. -/
def longField : AdvReport where
  peerAddr := .replicate 6 0
  rssi := -60
  scanRsp := false
  type := 0
  dlen := 31
  data := Vector.ofFn fun index => if index.val = 0 then 255 else 9

/-- The node a report is stored in. -/
def blankNode : BLENode :=
  ⟨.replicate 6 0, .replicate 31 0, 0, 0, false, 0, longField⟩

/-- **The walk is not safe on every report**: the long structure is copied whole, 254 bytes, when its
type is asked for. -/
theorem getFieldInAdvPck_overruns :
    ¬ ∀ (node : BLENode) (report : AdvReport) (behind : Nat → UInt8) (type : UInt8)
      (result : Int → UInt8),
      ((node.setAdvPck report).getFieldInAdvPck behind type result).Safe report.dlen.val := by
  intro always
  have safe := always blankNode longField (fun _ => 0) 9 (fun _ => 0)
  have copied : ((blankNode.setAdvPck longField).getFieldInAdvPck (fun _ => 0) 9
      (fun _ => 0)).copied = some 254 := by
    have first : (0 : Nat) < (blankNode.setAdvPck longField).dlen.val := by decide
    have isType : (blankNode.setAdvPck longField).byteAt (fun _ => 0) (0 + 1) = 9 := by decide
    rw [BLENode.getFieldInAdvPck, BLENode.fieldWalk, if_pos first, if_pos isType]
    decide
  have fits := safe.fits 254 copied
  exact absurd fits (by decide)

/-! ### Well-formed packets -/

theorem fieldReadable_encode (type : UInt8) (records : List Ltv.Record) :
    FieldReadable type 0 (Ltv.encode records) := by
  induction records with
  | nil => trivial
  | cons record rest ih =>
    simp only [Ltv.encode_cons, Ltv.Record.encode, List.cons_append, FieldReadable]
    rw [record.lengthByte_toNat]
    split_ifs with isType
    · simp
    · rw [fieldReadable_skip]
      simpa using ih

/-- The caller's buffer holds a value, NUL-terminated. -/
structure FieldRun.Holds (fieldRun : FieldRun) (value : List UInt8) : Prop where
  length : fieldRun.len.toNat = value.length
  bytes : ∀ (position : Nat) (inside : position < value.length),
    fieldRun.result position = value[position]
  terminated : fieldRun.result value.length = 0

/-- What a search for a type returns: the value, or an untouched buffer and length zero. -/
def FieldRun.Returns (fieldRun : FieldRun) (result : Int → UInt8) : Option Ltv.Record → Prop
  | none => fieldRun.len = 0 ∧ fieldRun.result = result
  | some record => fieldRun.Holds record.value

section WellFormed

variable (node : BLENode) (behind : Nat → UInt8) (type : UInt8) (result : Int → UInt8)

/-- The match branch, at a structure whose bytes are in the packet. -/
theorem copyField_holds {index : Nat} {record : Ltv.Record} {rest : List UInt8}
    (left : node.packet.drop index = record.encode ++ rest) :
    (node.copyField behind result index).Holds record.value := by
  have room := congrArg List.length left
  simp only [List.length_drop, packet_length, List.length_append, Ltv.Record.encode_length] at room
  have inside : index < node.dlen.val := by omega
  have inside' : index + 1 < node.dlen.val := by omega
  rw [packet_drop node behind inside, packet_drop node behind inside', Ltv.Record.encode] at left
  simp only [List.cons_append, List.cons.injEq] at left
  obtain ⟨lengthByte, _, value⟩ := left
  have count : ((node.byteAt behind index).toNat : Int) - 1 = record.value.length := by
    rw [lengthByte, record.lengthByte_toNat]
    omega
  have small := node.dlen.isLt
  have sameCount : sizeT record.value.length = record.value.length := by
    simp only [sizeT]
    omega
  refine ⟨?_, ?_, ?_⟩
  · show (node.byteAt behind index - 1).toNat = _
    rw [lengthByte, UInt8.toNat_sub_of_le, record.lengthByte_toNat]
    · rfl
    · rw [UInt8.le_iff_toNat_le, record.lengthByte_toNat]
      exact Nat.le_add_left 1 _
  · intro position short
    have notEnd : (position : Int) ≠ record.value.length := by omega
    have stored : (0 : Int) ≤ position ∧ (position : Int) < record.value.length := by omega
    simp only [BLENode.copyField, count, sameCount, if_neg notEnd, if_pos stored, Int.toNat_natCast]
    have at_position := congrArg (·[position]?) value
    have inPacket : index + 2 + position < node.dlen.val := by omega
    simp only [List.getElem?_drop, List.getElem?_append_left short,
      List.getElem?_eq_getElem short] at at_position
    have read := congrArg List.head? (packet_drop node behind inPacket)
    rw [List.head?_drop, List.head?_cons] at read
    rw [show index + 1 + 1 + position = index + 2 + position by omega, read] at at_position
    exact Option.some.inj at_position
  · simp only [BLENode.copyField, count, if_true]

/-- The walk from the start of a structure returns the first structure of the type. -/
theorem fieldWalk_returns (records : List Ltv.Record) (index : Nat)
    (left : node.packet.drop index = Ltv.encode records) :
    (node.fieldWalk behind type result index).Returns result
      (records.find? (fun record => record.tag = type)) := by
  induction records generalizing index with
  | nil =>
    have past : ¬ index < node.dlen.val := by
      rw [Ltv.encode_nil, List.drop_eq_nil_iff, packet_length] at left
      omega
    rw [BLENode.fieldWalk, if_neg past]
    exact ⟨rfl, rfl⟩
  | cons record rest ih =>
    rw [Ltv.encode_cons] at left
    have room := congrArg List.length left
    simp only [List.length_drop, packet_length, List.length_append, Ltv.Record.encode_length] at room
    have inside : index < node.dlen.val := by omega
    have inside' : index + 1 < node.dlen.val := by omega
    have bytes := left
    rw [packet_drop node behind inside, packet_drop node behind inside', Ltv.Record.encode] at bytes
    simp only [List.cons_append, List.cons.injEq] at bytes
    obtain ⟨lengthByte, tagByte, tail⟩ := bytes
    rw [BLENode.fieldWalk, if_pos inside, tagByte]
    by_cases isType : record.tag = type
    · rw [if_pos isType, List.find?_cons_of_pos (by simpa using isType)]
      exact copyField_holds node behind result left
    · rw [if_neg isType, List.find?_cons_of_neg (by simpa using isType)]
      have next : node.packet.drop (index + ((node.byteAt behind index).toNat + 1)) =
          Ltv.encode rest := by
        rw [lengthByte, record.lengthByte_toNat,
          show index + (record.value.length + 1 + 1) = index + 1 + 1 + record.value.length by omega,
          ← List.drop_drop, tail, List.drop_left]
      have found := ih _ next
      cases hit : rest.find? (fun record => record.tag = type) with
      | none => rw [hit] at found; exact found
      | some first => rw [hit] at found; exact ⟨found.1, found.2, found.3⟩

end WellFormed

/-- **On a well-formed packet the search is safe and returns the first structure of the type.** -/
theorem getFieldInAdvPck_encode (node : BLENode) (behind : Nat → UInt8) (type : UInt8)
    (result : Int → UInt8) {records : List Ltv.Record}
    (wellFormed : node.packet = Ltv.encode records) :
    (node.getFieldInAdvPck behind type result).Safe node.dlen.val ∧
      (node.getFieldInAdvPck behind type result).Returns result
        (records.find? (fun record => record.tag = type)) := by
  constructor
  · rw [BLENode.getFieldInAdvPck, fieldWalk_safe_iff, List.drop_zero, wellFormed]
    exact fieldReadable_encode type records
  · exact fieldWalk_returns node behind type result records 0 wellFormed

end PrimoCore.Ble
