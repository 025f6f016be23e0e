/-
**The report map of a HID service, `BLEHIDReportMapCharacteristic`.**

The value of the characteristic is not stored: its size is the sum of the lengths of the descriptors, and a byte is
found by walking over them. Both keep the bytes passed in a byte.

* `valueSize`, `byteAt` — the code; `byteAt` is `operator[]`.
* `reportMap` — the descriptors one behind the other, each with its report id.
* `byteAtFrom_eq` — the walk finds the byte, as long as the offset of a descriptor fits in a byte.
* `report_map_right_iff` — **the characteristic is the report map exactly when** that has at most 255 bytes, none of
  them from a HID that the byte for their number leaves out.
-/

import Mathlib.Algebra.GroupWithZero.Nat
import Mathlib.Data.List.Basic
import Mathlib.Tactic.SplitIfs

namespace PrimoCore.Ble

/-- `BLEHID`. A report id at offset zero stands for none. -/
structure BLEHID where
  reportId : UInt8
  descriptor : List UInt8
  reportIdOffset : UInt8
  fits : descriptor.length ≤ 255

namespace BLEHID

/-- `getDescriptorLength`. -/
def getDescriptorLength (hid : BLEHID) : UInt8 := UInt8.ofNat hid.descriptor.length

/-- `getDescriptorValueAtOffset`, at an offset within the descriptor. -/
def getDescriptorValueAtOffset (hid : BLEHID) (offset : UInt8) : UInt8 :=
  if offset = hid.reportIdOffset ∧ hid.reportIdOffset ≠ 0 then hid.reportId
  else hid.descriptor.getD offset.toNat 0

/-- The descriptor, with the report id in its place. -/
def report (hid : BLEHID) : List UInt8 :=
  if hid.reportIdOffset = 0 then hid.descriptor
  else hid.descriptor.set hid.reportIdOffset.toNat hid.reportId

end BLEHID

/-- `BLEHIDReportMapCharacteristic`: the HIDs, and their number. -/
structure BLEHIDReportMapCharacteristic where
  hids : List BLEHID
  numHids : UInt8

namespace BLEHIDReportMapCharacteristic

/-- `setHids`. The number of the HIDs is passed in a byte. -/
def setHids (hids : List BLEHID) : BLEHIDReportMapCharacteristic := ⟨hids, UInt8.ofNat hids.length⟩

/-- The HIDs that the loops go over. -/
def counted (characteristic : BLEHIDReportMapCharacteristic) : List BLEHID :=
  characteristic.hids.take characteristic.numHids.toNat

/-- `valueSize`. -/
def valueSize (characteristic : BLEHIDReportMapCharacteristic) : UInt8 :=
  characteristic.counted.foldl (fun valueSize hid => valueSize + hid.getDescriptorLength) 0

/-- `valueLength`. -/
def valueLength (characteristic : BLEHIDReportMapCharacteristic) : UInt8 := characteristic.valueSize

/-- The loop of `operator[]`, with the bytes passed. -/
def byteAtFrom (offset : Int) (totalOffset : UInt8) : List BLEHID → UInt8
  | [] => 0
  | hid :: rest =>
      let descriptorLength := hid.getDescriptorLength
      if (totalOffset.toNat : Int) ≤ offset ∧
          offset < (totalOffset.toNat + descriptorLength.toNat : Nat) then
        hid.getDescriptorValueAtOffset (UInt8.ofNat (offset - totalOffset.toNat).toNat)
      else byteAtFrom offset (totalOffset + descriptorLength) rest

/-- `operator[]`. -/
def byteAt (characteristic : BLEHIDReportMapCharacteristic) (offset : Int) : UInt8 :=
  byteAtFrom offset 0 characteristic.counted

/-- **The report map**: the descriptors one behind the other, each with its own report id. -/
def reportMap (hids : List BLEHID) : List UInt8 := hids.flatMap BLEHID.report

/-- **The characteristic is the report map** of the HIDs it was given. -/
def Right (hids : List BLEHID) : Prop :=
  (setHids hids).valueSize.toNat = (hids.map (·.descriptor.length)).sum ∧
  (setHids hids).valueLength.toNat = (hids.map (·.descriptor.length)).sum ∧
  ∀ index < (hids.map (·.descriptor.length)).sum, (reportMap hids)[index]? = some ((setHids hids).byteAt index)

/-! ### The sizes -/

theorem length_report (hid : BLEHID) : hid.report.length = hid.descriptor.length := by
  unfold BLEHID.report
  split_ifs
  · rfl
  · rw [List.length_set]

theorem getDescriptorLength_toNat (hid : BLEHID) :
    hid.getDescriptorLength.toNat = hid.descriptor.length :=
  UInt8.toNat_ofNat_of_lt' (Nat.lt_succ_of_le hid.fits)

theorem length_reportMap (hids : List BLEHID) :
    (reportMap hids).length = (hids.map (·.descriptor.length)).sum := by
  rw [reportMap, List.length_flatMap]
  simp only [length_report]

/-- The HIDs that are counted in a byte. -/
theorem counted_setHids (hids : List BLEHID) : (setHids hids).counted = hids.take (hids.length % 256) := by
  rw [counted, setHids, UInt8.toNat_ofNat']

/-- The size is counted in a byte. -/
theorem valueSize_toNat (characteristic : BLEHIDReportMapCharacteristic) :
    characteristic.valueSize.toNat = (characteristic.counted.map (·.descriptor.length)).sum % 256 := by
  have added : ∀ (hids : List BLEHID) (passed : UInt8),
      (hids.foldl (fun size hid => size + hid.getDescriptorLength) passed).toNat =
        (passed.toNat + (hids.map (·.descriptor.length)).sum) % 256 := by
    intro hids
    induction hids with
    | nil =>
      intro passed
      have bound := passed.toNat_lt
      simp only [List.foldl_nil, List.map_nil, List.sum_nil]
      omega
    | cons hid rest ih =>
      intro passed
      rw [List.foldl_cons, ih, UInt8.toNat_add, getDescriptorLength_toNat, List.map_cons, List.sum_cons]
      omega
  rw [valueSize, added]
  simp

/-! ### The bytes -/

/-- A byte of a descriptor. -/
theorem value_eq (hid : BLEHID) {offset : Nat} (inside : offset < hid.descriptor.length) :
    hid.report[offset]? = some (hid.getDescriptorValueAtOffset (UInt8.ofNat offset)) := by
  have fits := hid.fits
  have position : (UInt8.ofNat offset).toNat = offset :=
    UInt8.toNat_ofNat_of_lt' (by change offset < 256; omega)
  have there : UInt8.ofNat offset = hid.reportIdOffset ↔ hid.reportIdOffset.toNat = offset := by
    rw [← UInt8.toNat_inj, position, eq_comm]
  have stored : hid.descriptor[offset]? = some (hid.descriptor.getD offset 0) := by
    rw [List.getD_eq_getElem?_getD, List.getElem?_eq_getElem inside, Option.getD_some]
  unfold BLEHID.report BLEHID.getDescriptorValueAtOffset
  rw [position]
  by_cases absent : hid.reportIdOffset = 0
  · rw [if_pos absent, if_neg fun both => both.2 absent, stored]
  · rw [if_neg absent, List.getElem?_set]
    by_cases here : hid.reportIdOffset.toNat = offset
    · rw [if_pos here, if_pos (here ▸ inside), if_pos ⟨there.2 here, absent⟩]
    · rw [if_neg here, if_neg fun both => here (there.1 both.1), stored]

/-- The walk finds the byte, as long as the bytes passed are counted right. -/
theorem byteAtFrom_eq (hids : List BLEHID) {totalOffset : UInt8} {offset : Nat}
    (counted : totalOffset.toNat + (hids.map (·.descriptor.length)).sum ≤ 255)
    (passed : totalOffset.toNat ≤ offset)
    (inside : offset < totalOffset.toNat + (hids.map (·.descriptor.length)).sum) :
    (reportMap hids)[offset - totalOffset.toNat]? = some (byteAtFrom offset totalOffset hids) := by
  induction hids generalizing totalOffset with
  | nil => simp only [List.map_nil, List.sum_nil] at inside; omega
  | cons hid rest ih =>
    rw [List.map_cons, List.sum_cons] at counted inside
    have length := length_report hid
    have next : (totalOffset + hid.getDescriptorLength).toNat =
      totalOffset.toNat + hid.descriptor.length := by
      rw [UInt8.toNat_add, getDescriptorLength_toNat]
      omega
    unfold byteAtFrom
    simp only [getDescriptorLength_toNat, reportMap, List.flatMap_cons]
    by_cases here : offset < totalOffset.toNat + hid.descriptor.length
    · have difference : ((offset : Int) - totalOffset.toNat).toNat = offset - totalOffset.toNat := by
        omega
      rw [if_pos ⟨by omega, by omega⟩, List.getElem?_append_left (by omega), difference,
        value_eq hid (by omega)]
    · have rest_eq := ih (by omega) (by omega : (totalOffset + hid.getDescriptorLength).toNat ≤ offset)
        (by omega)
      rw [if_neg (by omega), List.getElem?_append_right (by omega), length, ← rest_eq, next,
        Nat.sub_add_eq, reportMap]

/-- **The characteristic is the report map exactly when** the descriptors together have at most 255 bytes, and
those of the HIDs that the byte does not count are empty. -/
theorem report_map_right_iff (hids : List BLEHID) :
    Right hids ↔ (hids.map (·.descriptor.length)).sum ≤ 255 ∧
      ∀ hid ∈ hids.drop (hids.length % 256), hid.descriptor = [] := by
  obtain ⟨front, is_front⟩ : ∃ front, front = hids.take (hids.length % 256) := ⟨_, rfl⟩
  obtain ⟨back, is_back⟩ : ∃ back, back = hids.drop (hids.length % 256) := ⟨_, rfl⟩
  have parts : hids = front ++ back := by rw [is_front, is_back, List.take_append_drop]
  have loops : (setHids hids).counted = front := is_front ▸ counted_setHids hids
  have size : (setHids hids).valueSize.toNat = (front.map (·.descriptor.length)).sum % 256 := by
    rw [valueSize_toNat, loops]
  have total : (hids.map (·.descriptor.length)).sum =
      (front.map (·.descriptor.length)).sum + (back.map (·.descriptor.length)).sum := by
    rw [parts, List.map_append, List.sum_append]
  have empty : (∀ hid ∈ back, hid.descriptor = []) ↔ (back.map (·.descriptor.length)).sum = 0 := by
    rw [List.sum_eq_zero_iff_forall_eq_nat]
    simp
  rw [← is_back, empty]
  constructor
  · intro right
    have equal := right.1
    omega
  · rintro ⟨small, none_left⟩
    have right : (setHids hids).valueSize.toNat = (hids.map (·.descriptor.length)).sum := by omega
    refine ⟨right, right, fun index inside => ?_⟩
    rw [total, none_left, Nat.add_zero] at small inside
    have map : reportMap hids = reportMap front ++ reportMap back := by
      rw [parts, reportMap, List.flatMap_append]; rfl
    rw [map, List.getElem?_append_left (by rwa [length_reportMap]), byteAt, loops]
    exact @byteAtFrom_eq front 0 index (by simpa using small) (Nat.zero_le _) (by simpa using inside)

/-- Two descriptors of 200 bytes. -/
def twoLongDescriptors : List BLEHID :=
  [⟨1, List.replicate 200 1, 0, by rw [List.length_replicate]; decide⟩,
    ⟨2, List.replicate 200 2, 0, by rw [List.length_replicate]; decide⟩]

/-- The size given for 400 bytes is 144. -/
theorem twoLongDescriptors_size :
    (setHids twoLongDescriptors).valueSize.toNat = 144 ∧ ¬ Right twoLongDescriptors := by
  have size : (setHids twoLongDescriptors).valueSize.toNat = 144 := by decide +kernel
  have length : (twoLongDescriptors.map (·.descriptor.length)).sum = 400 := by decide +kernel
  refine ⟨size, fun right => ?_⟩
  have equal := right.1
  omega

end BLEHIDReportMapCharacteristic
end PrimoCore.Ble
