/-
**The fields of the advertising packets.**

The packets a program builds are read back as sequences of fields. `addFieldInPck` chooses a packet by
the room that is left, and only then looks for a field of the type.

* `AdvPackets.chosen`, `AdvPackets.fields` — the packet the room test chooses; the fields of a packet.
* `addFieldInPck_records` — with a value of the size of its type, a call does `addField` to the packet
  chosen and nothing to the other.
* `addFieldInPck_right` — **what a call does to the fields**, for every type and every length that does
  not run past a field that is overwritten.
* `singleValued_iff` — **the appearance and the TX power occur once, with the last value given**,
  exactly in the runs where every update finds its field in the packet that the room test chooses.
* `decoding_undoes_building` — a node that receives a packet finds the first field of every type.
-/

import Mathlib.Logic.Function.Basic
import PrimoCore.Lib.Run
import PrimoCore.Ble.Advertising
import PrimoCore.Ble.Node

namespace PrimoCore.Ble

open PrimoCore.Lib

/-- One of the two packets. -/
inductive AdvPacket where
  | advData
  | scanData
  deriving DecidableEq

namespace AdvPackets

/-- The array of a packet. -/
def array (packets : AdvPackets) : AdvPacket → Buffer UInt8
  | .advData => packets.advData
  | .scanData => packets.scanData

/-- The length of a packet. -/
def arrayLength (packets : AdvPackets) : AdvPacket → UInt8
  | .advData => packets.advDataLength
  | .scanData => packets.scanDataLength

/-- The packets with one of them replaced. -/
def replace (packets : AdvPackets) (which : AdvPacket) (packet : Buffer UInt8 × UInt8) : AdvPackets :=
  match which with
  | .advData => { packets with advData := packet.1, advDataLength := packet.2 }
  | .scanData => { packets with scanData := packet.1, scanDataLength := packet.2 }

@[simp] theorem array_replace (packets : AdvPackets) (which : AdvPacket) (packet : Buffer UInt8 × UInt8) :
    (packets.replace which packet).array which = packet.1 := by
  cases which <;> rfl

@[simp] theorem arrayLength_replace (packets : AdvPackets) (which : AdvPacket)
    (packet : Buffer UInt8 × UInt8) : (packets.replace which packet).arrayLength which = packet.2 := by
  cases which <;> rfl

theorem replace_other (packets : AdvPackets) {which other : AdvPacket} (different : other ≠ which)
    (packet : Buffer UInt8 × UInt8) :
    (packets.replace which packet).array other = packets.array other ∧
      (packets.replace which packet).arrayLength other = packets.arrayLength other := by
  cases which <;> cases other <;> first | exact absurd rfl different | exact ⟨rfl, rfl⟩

/-- The packet the room test of `addFieldInPck` chooses for a value of some length. -/
def chosen (packets : AdvPackets) (len : UInt8) : Option AdvPacket :=
  if packets.advDataLength.toNat < advertisementDataMaxValueLength + 2 ∧
      len.toNat ≤ advertisementDataMaxValueLength + 2 - packets.advDataLength.toNat then
    some .advData
  else if packets.scanDataLength.toNat < scanDataMaxValueLength ∧
      len.toNat ≤ scanDataMaxValueLength - packets.scanDataLength.toNat then
    some .scanData
  else none

/-- The fields of a packet: its bytes up to its length, read as AD structures. -/
def fields (packets : AdvPackets) (which : AdvPacket) : Option (List Ltv.Record) :=
  Ltv.parse (slice (packets.array which).bytes 0 (packets.arrayLength which).toNat)

/-- The code updates the packet it chooses, or returns. -/
theorem addFieldInPck_eq (packets : AdvPackets) (type len : UInt8) (data : Memory UInt8) :
    packets.addFieldInPck type len data =
      match packets.chosen len with
      | none => some packets
      | some which =>
          (updatePacket (packets.array which) (packets.arrayLength which) type len data).map
            (packets.replace which) := by
  simp only [addFieldInPck, chosen]
  split_ifs <;> rfl

/-- A packet that is chosen has room for the value and a header. -/
theorem room_of_chosen {packets : AdvPackets} {len : UInt8} {which : AdvPacket}
    (choice : packets.chosen len = some which) :
    (packets.arrayLength which).toNat + len.toNat + 2 ≤ gapAdvMaxSize := by
  unfold chosen at choice
  split_ifs at choice with inAdv inScan
  · obtain rfl := Option.some.inj choice
    simp only [arrayLength, advertisementDataMaxValueLength, gapAdvMaxSize] at inAdv ⊢
    omega
  · obtain rfl := Option.some.inj choice
    simp only [arrayLength, scanDataMaxValueLength, gapAdvMaxSize] at inScan ⊢
    omega

/-! ### The sequences the packets hold -/

/-- The two packets hold two sequences. -/
def Holds (packets : AdvPackets) (records : AdvPacket → List Ltv.Record) : Prop :=
  ∀ which, PacketHolds (packets.array which) (packets.arrayLength which) (records which)

theorem holding_iff (packets : AdvPackets) : packets.Holding ↔ ∃ records, packets.Holds records := by
  constructor
  · rintro ⟨adv, scan, advHolds, scanHolds⟩
    refine ⟨fun | .advData => adv | .scanData => scan, fun which => ?_⟩
    cases which with
    | advData => exact advHolds
    | scanData => exact scanHolds
  · rintro ⟨records, holds⟩
    exact ⟨_, _, holds .advData, holds .scanData⟩

/-- The fields of a packet are the sequence it holds. -/
theorem Holds.fields {packets : AdvPackets} {records : AdvPacket → List Ltv.Record}
    (holds : packets.Holds records) (which : AdvPacket) :
    packets.fields which = some (records which) := by
  rw [AdvPackets.fields, (holds which).bytes, Ltv.parse_encode]

/-- **A call does `addField` to the packet chosen, and nothing to the other.** -/
theorem addFieldInPck_records {packets : AdvPackets} {records : AdvPacket → List Ltv.Record}
    (holds : packets.Holds records) {type len : UInt8} (data : Memory UInt8)
    (sized : FixedSize type len.toNat) :
    ∃ packets', packets.addFieldInPck type len data = some packets' ∧
      packets'.Holds (match packets.chosen len with
        | none => records
        | some which =>
            Function.update records which (addField type (slice data 0 len.toNat) (records which))) := by
  rw [addFieldInPck_eq]
  cases choice : packets.chosen len with
  | none => exact ⟨packets, rfl, holds⟩
  | some which =>
    obtain ⟨packet, length, updated, held⟩ :=
      updatePacket_holds (holds which) data (room_of_chosen choice) sized
    simp only [updated, Option.map_some]
    refine ⟨_, rfl, fun other => ?_⟩
    by_cases same : other = which
    · subst same
      rw [array_replace, arrayLength_replace, Function.update_self]
      exact held
    · obtain ⟨sameArray, sameLength⟩ := packets.replace_other same (packet, length)
      rw [sameArray, sameLength, Function.update_of_ne same]
      exact holds other

/-- The packets after the constructor. -/
def constructed : AdvPackets := (afterCalls []).getD initial

/-- The packets after the constructor and some calls hold structures. -/
theorem holds_of_calls {calls : List AdvCall} {packets : AdvPackets}
    (reached : AdvPackets.afterCalls calls = some packets) : ∃ records, packets.Holds records := by
  obtain ⟨after, called, holding⟩ :=
    calls_holding initial_holding (.setAppearance 0x0000 :: calls)
  obtain rfl := Option.some.inj (called.symm.trans reached)
  exact (holding_iff after).mp holding

end AdvPackets

/-! ### What a call does to the fields -/

/-- **What a value does to the fields of the packet it goes to.** A new type goes behind the others; a
list gets longer; a TX power or an appearance of the same length is replaced. Of one of another length
nothing is said but its type. -/
inductive FieldStored (type : UInt8) (value : List UInt8) : List Ltv.Record → List Ltv.Record → Prop
  | appended {fields : List Ltv.Record} {added : Ltv.Record}
      (absent : ∀ field ∈ fields, field.tag ≠ type) (isType : added.tag = type)
      (exact_value : added.value = value) : FieldStored type value fields (fields ++ [added])
  | extended {before after : List Ltv.Record} {field updated : Ltv.Record}
      (absent : ∀ other ∈ before, other.tag ≠ type) (isType : field.tag = type)
      (list : ¬ fixedLength type) (sameType : updated.tag = type)
      (longer : updated.value = field.value ++ value) :
      FieldStored type value (before ++ field :: after) (before ++ updated :: after)
  | overwritten {before after : List Ltv.Record} {field updated : Ltv.Record}
      (absent : ∀ other ∈ before, other.tag ≠ type) (isType : field.tag = type)
      (fixed : fixedLength type) (sameLength : field.value.length = value.length)
      (sameType : updated.tag = type) (replaced : updated.value = value) :
      FieldStored type value (before ++ field :: after) (before ++ updated :: after)
  | resized {before after : List Ltv.Record} {field updated : Ltv.Record}
      (absent : ∀ other ∈ before, other.tag ≠ type) (isType : field.tag = type)
      (fixed : fixedLength type) (otherLength : field.value.length ≠ value.length)
      (sameType : updated.tag = type) :
      FieldStored type value (before ++ field :: after) (before ++ updated :: after)

/-- The fields of other types stay, in their order. -/
theorem FieldStored.others {type : UInt8} {value : List UInt8} {fields fields' : List Ltv.Record}
    (stored : FieldStored type value fields fields') :
    fields'.filter (fun field => field.tag ≠ type) = fields.filter (fun field => field.tag ≠ type) := by
  cases stored with
  | appended _ isType _ => simp [isType]
  | extended _ isType _ sameType _ => simp [isType, sameType]
  | overwritten _ isType _ _ sameType _ => simp [isType, sameType]
  | resized _ isType _ _ sameType => simp [isType, sameType]

namespace AdvPackets

/-- **What one call does.** It returns at once, or it stores the value in the packet that the room test
chooses, and the other packet stays as it is. -/
def StoresField (packets : AdvPackets) (type len : UInt8) (data : Memory UInt8) : Prop :=
  match packets.chosen len with
  | none => packets.addFieldInPck type len data = some packets
  | some which => ∃ packets', packets.addFieldInPck type len data = some packets' ∧
      (∃ fields fields', packets.fields which = some fields ∧ packets'.fields which = some fields' ∧
        FieldStored type (slice data 0 len.toNat) fields fields') ∧
      ∀ other, other ≠ which →
        packets'.array other = packets.array other ∧ packets'.arrayLength other = packets.arrayLength other

/-- A TX power or an appearance that is in the packet chosen is not given more bytes than it has. -/
def NoLonger (packets : AdvPackets) (type len : UInt8) : Prop :=
  fixedLength type → ∀ which ∈ packets.chosen len, ∀ fields ∈ packets.fields which,
    ∀ field ∈ fields, field.tag = type → len.toNat ≤ field.value.length

end AdvPackets

section Stored

variable {packet : Buffer UInt8} {length : UInt8}

/-- A copy over the front of a value is a copy of the whole value, with its old bytes behind. -/
theorem memcpy_front (start : Nat) (data : Memory UInt8) {count whole : Nat} (short : count ≤ whole) :
    (packet.memcpy start data count).bytes =
      (packet.memcpy start (fun offset => if offset < count then data offset
        else packet.bytes (start + offset)) whole).bytes := by
  funext index
  simp only [Buffer.memcpy_at]
  by_cases copied : start ≤ index ∧ index < start + count
  · rw [if_pos copied, if_pos (by omega), if_pos (by omega)]
  · rw [if_neg copied]
    by_cases kept : start ≤ index ∧ index < start + whole
    · rw [if_pos kept, if_neg (by omega), Nat.add_sub_cancel' kept.1]
    · rw [if_neg kept]

/-- The code on the packet it has chosen stores the value. -/
theorem updatePacket_stores {fields : List Ltv.Record} (holds : PacketHolds packet length fields)
    {type len : UInt8} (data : Memory UInt8) (room : length.toNat + len.toNat + 2 ≤ gapAdvMaxSize)
    (short : fixedLength type → ∀ field ∈ fields, field.tag = type → len.toNat ≤ field.value.length) :
    ∃ packet' length' fields', updatePacket packet length type len data = some (packet', length') ∧
      slice packet'.bytes 0 length'.toNat = Ltv.encode fields' ∧
      FieldStored type (slice data 0 len.toNat) fields fields' := by
  have small : (slice data 0 len.toNat).length < 255 := by
    simp only [gapAdvMaxSize] at room
    rw [slice_length]
    omega
  rcases absent_or_first type fields with absent | ⟨before, field, after, rfl, absent, isType⟩
  · refine ⟨_, _, _, ?_, append_bytes holds data room,
      .appended absent rfl (adStructure_value type small)⟩
    rw [updatePacket, findField_absent holds absent]
    rfl
  · have fits := holds.fits
    obtain ⟨-, count⟩ := holds.parts
    have inside : (Ltv.encode before).length ≤ gapAdvMaxSize := by omega
    have position := position_toNat inside
    simp only [gapAdvMaxSize] at room
    by_cases isFixed : fixedLength type
    · have notLonger := short isFixed field (by simp) isType
      let filled : Memory UInt8 := fun offset =>
        if offset < len.toNat then data offset
        else packet.bytes ((Ltv.encode before).length + 2 + offset)
      have size : (UInt8.ofNat field.value.length).toNat = field.value.length :=
        position_toNat (by omega)
      have overwritten := overwrite_holds holds filled size.symm
      rw [size] at overwritten
      refine ⟨_, _, _, ?_, (congrArg (slice · 0 length.toNat)
        (memcpy_front _ data notLonger)).trans overwritten.bytes, ?_⟩
      · simp only [updatePacket, findField_present holds absent isType, Option.map_some, if_true,
          if_pos isFixed, position]
      · by_cases same : field.value.length = len.toNat
        · refine .overwritten absent isType isFixed (by rw [slice_length]; exact same) isType ?_
          have sameBytes : slice filled 0 field.value.length = slice data 0 len.toNat := by
            rw [same]
            apply slice_congr
            intro offset copied
            simp only [filled, Nat.zero_add, if_pos copied]
          rw [sameBytes]
          exact adStructure_value field.tag small
        · exact .resized absent isType isFixed (by rw [slice_length]; exact same) isType
    · have roomValue : length.toNat + len.toNat ≤ gapAdvMaxSize := by
        simp only [gapAdvMaxSize]
        omega
      have extended := extend_holds holds data roomValue (by rwa [isType]) position
      have longer : (field.value ++ slice data 0 len.toNat).length < 255 := by
        rw [List.length_append, slice_length]
        omega
      refine ⟨_, _, _, ?_, extended.bytes,
        .extended absent isType isFixed isType (adStructure_value field.tag longer)⟩
      simp only [updatePacket, findField_present holds absent isType, Option.map_some, if_true,
        if_neg isFixed]

end Stored

/-- **What `addFieldInPck` does**, in every state that calls lead to, for every type, length and data:
a value that is no longer than a TX power or an appearance it replaces is stored in the packet chosen,
every other field of that packet keeps its place and its bytes, and the other packet is unchanged. -/
theorem addFieldInPck_right {calls : List AdvCall} {packets : AdvPackets}
    (reached : AdvPackets.afterCalls calls = some packets) (type len : UInt8) (data : Memory UInt8)
    (short : packets.NoLonger type len) : packets.StoresField type len data := by
  obtain ⟨records, holds⟩ := AdvPackets.holds_of_calls reached
  unfold AdvPackets.StoresField
  rw [AdvPackets.addFieldInPck_eq]
  cases choice : packets.chosen len with
  | none => rfl
  | some which =>
    have notLonger : fixedLength type →
        ∀ field ∈ records which, field.tag = type → len.toNat ≤ field.value.length :=
      fun isFixed => short isFixed which choice _ (holds.fields which)
    obtain ⟨packet, length, fields', updated, bytes, stored⟩ :=
      updatePacket_stores (holds which) data (AdvPackets.room_of_chosen choice) notLonger
    refine ⟨packets.replace which (packet, length), ?_, ⟨_, fields', holds.fields which, ?_, stored⟩,
      fun other different => packets.replace_other different (packet, length)⟩
    · simp only [updated, Option.map_some]
    · rw [AdvPackets.fields, AdvPackets.array_replace, AdvPackets.arrayLength_replace, bytes,
        Ltv.parse_encode]

/-- A name, on the packets after the constructor. -/
theorem addFieldInPck_right_name : AdvPackets.constructed.StoresField 0x09 2 fun _ => 0x41 :=
  @addFieldInPck_right [] _ rfl 0x09 2 _ fun isFixed => absurd isFixed (by decide)

/-- The packets after one byte of manufacturer data. -/
def manufacturerPackets : AdvPackets :=
  (AdvPackets.afterCalls [.setManufacturerData (fun _ => 7) 1]).getD AdvPackets.initial

/-- An appearance of four bytes. -/
def longAppearance : Memory UInt8 := fun index => [9, 9, 2, 9].getD index 0

/-- The fields of a packet, from its bytes. -/
theorem fields_of_bytes {packets : AdvPackets} {which : AdvPacket} (fields : List Ltv.Record)
    (bytes : slice (packets.array which).bytes 0 (packets.arrayLength which).toNat =
      Ltv.encode fields) : packets.fields which = some fields := by
  rw [AdvPackets.fields, bytes, Ltv.parse_encode]

/-- **Not every length is safe**: four bytes over the two of the appearance turn the manufacturer data
behind it into a field of another type. -/
theorem addFieldInPck_overwrites :
    ¬ ∀ (calls : List AdvCall) (packets : AdvPackets), AdvPackets.afterCalls calls = some packets →
      ∀ (type len : UInt8) (data : Memory UInt8), packets.StoresField type len data := by
  intro always
  have stores := always [.setManufacturerData (fun _ => 7) 1] manufacturerPackets rfl 0x19 4
    longAppearance
  have choice : manufacturerPackets.chosen 4 = some .advData := by decide
  unfold AdvPackets.StoresField at stores
  rw [choice] at stores
  obtain ⟨packets', called, ⟨fields, fields', read, read', stored⟩, -⟩ := stores
  have result : manufacturerPackets.addFieldInPck 0x19 4 longAppearance =
      some ((manufacturerPackets.addFieldInPck 0x19 4 longAppearance).getD AdvPackets.initial) := rfl
  obtain rfl := Option.some.inj (result.symm.trans called)
  rw [fields_of_bytes [adStructure 0x01 [6], adStructure 0x19 [0, 0],
    adStructure 0xff [7]] (by decide)] at read
  rw [fields_of_bytes [adStructure 0x01 [6], adStructure 0x19 [9, 9],
    adStructure 0x09 [7]] (by decide)] at read'
  obtain rfl := Option.some.inj read
  obtain rfl := Option.some.inj read'
  exact absurd stored.others (by decide)

/-! ### Calls as fields -/

namespace AdvCall

/-- The type of the field a call stores. -/
def type : AdvCall → UInt8
  | .setAdvertisedServiceUuid uuid => if 2 < (BLEUuid.ofString uuid).length then 0x06 else 0x02
  | .setServiceSolicitationUuid uuid => if 2 < (BLEUuid.ofString uuid).length then 0x15 else 0x14
  | .setManufacturerData _ _ => 0xff
  | .setLocalName name =>
      if scanDataMaxValueLength < (UInt8.ofNat name.strlen).toNat then 0x08 else 0x09
  | .setTxPower _ => 0x0A
  | .setAppearance _ => 0x19

/-- The length a call passes. -/
def len : AdvCall → UInt8
  | .setAdvertisedServiceUuid uuid | .setServiceSolicitationUuid uuid =>
      (BLEUuid.ofString uuid).length
  | .setManufacturerData _ length => length
  | .setLocalName name =>
      if scanDataMaxValueLength < (UInt8.ofNat name.strlen).toNat then
        UInt8.ofNat scanDataMaxValueLength
      else UInt8.ofNat name.strlen
  | .setTxPower _ => 1
  | .setAppearance _ => 2

/-- The bytes a call passes. -/
def data : AdvCall → Memory UInt8
  | .setAdvertisedServiceUuid uuid | .setServiceSolicitationUuid uuid =>
      (BLEUuid.ofString uuid).data fun _ => 0
  | .setManufacturerData data _ => data
  | .setLocalName name => name.charAt
  | .setTxPower txPower => fun index => (txPower >>> (8 * UInt32.ofNat index)).toUInt8
  | .setAppearance appearance => fun index => (appearance >>> (8 * UInt16.ofNat index)).toUInt8

/-- The value a call stores. -/
def value (call : AdvCall) : List UInt8 := slice call.data 0 call.len.toNat

theorem call_eq (packets : AdvPackets) (call : AdvCall) :
    packets.call call = packets.addFieldInPck call.type call.len call.data := by
  cases call with
  | setLocalName name =>
    simp only [AdvPackets.call, AdvPackets.setLocalName, type, len, data]
    split_ifs <;> rfl
  | _ => rfl

theorem type_eq_power_iff (call : AdvCall) :
    call.type = 0x0A ↔ ∃ txPower, call = .setTxPower txPower := by
  cases call with
  | setTxPower txPower => exact iff_of_true rfl ⟨txPower, rfl⟩
  | setManufacturerData | setAppearance => simp [type]
  | setAdvertisedServiceUuid | setServiceSolicitationUuid | setLocalName =>
    refine iff_of_false ?_ (by simp)
    simp only [type]
    split_ifs <;> decide

theorem type_eq_appearance_iff (call : AdvCall) :
    call.type = 0x19 ↔ ∃ appearance, call = .setAppearance appearance := by
  cases call with
  | setAppearance appearance => exact iff_of_true rfl ⟨appearance, rfl⟩
  | setManufacturerData | setTxPower => simp [type]
  | setAdvertisedServiceUuid | setServiceSolicitationUuid | setLocalName =>
    refine iff_of_false ?_ (by simp)
    simp only [type]
    split_ifs <;> decide

/-- A TX power is one byte, an appearance two. -/
theorem sized (call : AdvCall) : FixedSize call.type call.len.toNat := by
  constructor
  · intro power
    obtain ⟨txPower, rfl⟩ := call.type_eq_power_iff.mp power
    rfl
  · intro appearance
    obtain ⟨value, rfl⟩ := call.type_eq_appearance_iff.mp appearance
    rfl

end AdvCall

/-! ### The fields of one type -/

/-- The fields of a type. -/
def ofType (type : UInt8) (fields : List Ltv.Record) : List Ltv.Record :=
  fields.filter fun field => field.tag = type

@[simp] theorem ofType_append (type : UInt8) (first second : List Ltv.Record) :
    ofType type (first ++ second) = ofType type first ++ ofType type second :=
  List.filter_append ..

theorem mem_ofType {type : UInt8} {field : Ltv.Record} {fields : List Ltv.Record} :
    field ∈ ofType type fields ↔ field ∈ fields ∧ field.tag = type := by
  simp [ofType]

/-- **A field that occurs at most once**, and then with a value. -/
structure SingleValued (type : UInt8) (last : Option (List UInt8)) (fields : List Ltv.Record) :
    Prop where
  once : (ofType type fields).length ≤ 1
  current : ∀ field ∈ fields, field.tag = type → last = some field.value

theorem singleValued_congr {type : UInt8} {last : Option (List UInt8)} {fields fields' : List Ltv.Record}
    (same : ofType type fields = ofType type fields') :
    SingleValued type last fields ↔ SingleValued type last fields' := by
  have one (some_fields other : List Ltv.Record) (eq : ofType type some_fields = ofType type other)
      (single : SingleValued type last some_fields) : SingleValued type last other := by
    refine ⟨eq ▸ single.once, fun field member isType => ?_⟩
    have inside : field ∈ ofType type some_fields := eq ▸ mem_ofType.mpr ⟨member, isType⟩
    exact single.current field (mem_ofType.mp inside).1 isType
  exact ⟨one _ _ same, one _ _ same.symm⟩

/-- `addField` leaves the fields of other types. -/
theorem ofType_addField_other {type other : UInt8} (different : other ≠ type) (value : List UInt8)
    (fields : List Ltv.Record) : ofType other (addField type value fields) = ofType other fields := by
  rcases absent_or_first type fields with absent | ⟨before, field, after, rfl, absent, isType⟩
  · rw [addField_absent absent, ofType_append]
    simp [ofType, adStructure, Ne.symm different]
  · rw [addField_present absent isType, ofType_append, ofType_append]
    simp [ofType, adStructure, isType, Ne.symm different]

/-- Of a type that is overwritten and occurs at most once, `addField` leaves the new value. -/
theorem ofType_addField {type : UInt8} (isFixed : fixedLength type) (value : List UInt8)
    {fields : List Ltv.Record} (once : (ofType type fields).length ≤ 1) :
    ofType type (addField type value fields) = [adStructure type value] := by
  rcases absent_or_first type fields with absent | ⟨before, field, after, rfl, absent, isType⟩
  · have none_here : ofType type fields = [] := by
      simpa [ofType] using absent
    rw [addField_absent absent, ofType_append, none_here]
    simp [ofType, adStructure]
  · have front : ofType type before = [] := by
      simpa [ofType] using absent
    have here : ofType type (field :: after) = field :: ofType type after := by
      simp [ofType, isType]
    have back : ofType type after = [] := by
      rw [ofType_append, front, here] at once
      exact List.length_eq_zero_iff.mp (by simpa using once)
    rw [addField_present absent isType, if_pos isFixed, ofType_append, front, List.nil_append]
    simp only [ofType, adStructure, List.filter_cons, decide_true, if_true] at back ⊢
    rw [back]

/-- The fields of both packets. -/
def bothPackets (records : AdvPacket → List Ltv.Record) : List Ltv.Record :=
  records .advData ++ records .scanData

theorem mem_bothPackets {records : AdvPacket → List Ltv.Record} {field : Ltv.Record} :
    field ∈ bothPackets records ↔ ∃ which, field ∈ records which := by
  rw [bothPackets, List.mem_append]
  constructor
  · rintro (inAdv | inScan)
    · exact ⟨.advData, inAdv⟩
    · exact ⟨.scanData, inScan⟩
  · rintro ⟨which, inside⟩
    cases which with
    | advData => exact Or.inl inside
    | scanData => exact Or.inr inside

theorem length_ofType_bothPackets (type : UInt8) (records : AdvPacket → List Ltv.Record)
    {which other : AdvPacket} (different : other ≠ which) :
    (ofType type (bothPackets records)).length =
      (ofType type (records which)).length + (ofType type (records other)).length := by
  rw [bothPackets, ofType_append, List.length_append]
  cases which <;> cases other <;>
    first | exact absurd rfl different | rfl | exact Nat.add_comm _ _

/-- A field of a type is the only one, where the type occurs at most once. -/
theorem eq_of_once {type : UInt8} {fields : List Ltv.Record} (once : (ofType type fields).length ≤ 1)
    {first second : Ltv.Record} (firstIn : first ∈ fields) (secondIn : second ∈ fields)
    (firstType : first.tag = type) (secondType : second.tag = type) : first = second := by
  have here := mem_ofType.mpr ⟨firstIn, firstType⟩
  have there := mem_ofType.mpr ⟨secondIn, secondType⟩
  cases listed : ofType type fields with
  | nil =>
    rw [listed] at here
    cases here
  | cons only rest =>
    rw [listed, List.length_cons] at once
    obtain rfl := List.length_eq_zero_iff.mp (Nat.le_zero.mp (Nat.le_of_succ_le_succ once))
    rw [listed] at here there
    exact (List.mem_singleton.mp here).trans (List.mem_singleton.mp there).symm

theorem exists_other (which : AdvPacket) : ∃ other, other ≠ which := by
  cases which with
  | advData => exact ⟨.scanData, by decide⟩
  | scanData => exact ⟨.advData, by decide⟩

section OneUpdate

variable {records : AdvPacket → List Ltv.Record} {type : UInt8} {value : List UInt8}

/-- An update that is dropped leaves the fields right exactly when they carry the value already. -/
theorem dropped_singleValued_iff (once : (ofType type (bothPackets records)).length ≤ 1) :
    SingleValued type (some value) (bothPackets records) ↔
      ∀ which, (∃ field ∈ records which, field.tag = type) →
        ∃ field ∈ records which, field.tag = type ∧ field.value = value := by
  constructor
  · rintro ⟨-, current⟩ which ⟨field, inside, isType⟩
    have stored := current field (mem_bothPackets.mpr ⟨which, inside⟩) isType
    exact ⟨field, inside, isType, (Option.some.inj stored).symm⟩
  · intro carries
    refine ⟨once, fun field member isType => ?_⟩
    obtain ⟨which, inside⟩ := mem_bothPackets.mp member
    obtain ⟨old, oldIn, oldType, same⟩ := carries which ⟨field, inside, isType⟩
    rw [eq_of_once once member (mem_bothPackets.mpr ⟨which, oldIn⟩) isType oldType, same]

/-- An update that is stored leaves the fields right exactly when the other packet has none of the
type. -/
theorem stored_singleValued_iff (isFixed : fixedLength type) (short : value.length < 255)
    (once : (ofType type (bothPackets records)).length ≤ 1) {which other : AdvPacket}
    (different : other ≠ which) :
    SingleValued type (some value) (bothPackets
        (Function.update records which (addField type value (records which)))) ↔
      ¬ ∃ field ∈ records other, field.tag = type := by
  have here : ofType type (addField type value (records which)) = [adStructure type value] := by
    rw [length_ofType_bothPackets type records different] at once
    exact ofType_addField isFixed value (by omega)
  have count : (ofType type (bothPackets
      (Function.update records which (addField type value (records which))))).length =
        1 + (ofType type (records other)).length := by
    rw [length_ofType_bothPackets type _ different, Function.update_self, here,
      Function.update_of_ne different, List.length_singleton]
  constructor
  · rintro ⟨onceAfter, -⟩ ⟨field, inside, isType⟩
    have occurs : 0 < (ofType type (records other)).length :=
      List.length_pos_of_mem (mem_ofType.mpr ⟨inside, isType⟩)
    omega
  · intro absent
    have elsewhere : ofType type (records other) = [] :=
      List.eq_nil_iff_forall_not_mem.mpr fun field member => absent ⟨field, mem_ofType.mp member⟩
    rw [elsewhere, List.length_nil] at count
    refine ⟨Nat.le_of_eq count, fun field member isType => ?_⟩
    obtain ⟨holder, inside⟩ := mem_bothPackets.mp member
    by_cases same : holder = which
    · subst same
      rw [Function.update_self] at inside
      have listed := mem_ofType.mpr ⟨inside, isType⟩
      rw [here] at listed
      rw [List.mem_singleton.mp listed, adStructure_value type short]
    · rw [Function.update_of_ne same] at inside
      have isOther : holder = other := by
        cases holder <;> cases other <;> cases which <;> first | rfl | contradiction
      subst isOther
      exact absurd ⟨field, inside, isType⟩ absent

end OneUpdate

/-! ### The appearance and the TX power over a run of calls -/

/-- A `BLEPeripheral` being set up: its packets, and what the program gave last for each type. The
packets are `none` after a call that does not come to an end. -/
structure AdvBuilder where
  packets : Option AdvPackets
  last : UInt8 → Option (List UInt8)

namespace AdvBuilder

def step (builder : AdvBuilder) (call : AdvCall) : AdvBuilder where
  packets := builder.packets.bind (·.call call)
  last := Function.update builder.last call.type (some call.value)

/-- The arrays as the constructor sets them up. -/
def initial : AdvBuilder := ⟨some AdvPackets.initial, fun _ => none⟩

/-- The constructor, which calls `setAppearance` itself. -/
def constructed : AdvBuilder := initial.step (.setAppearance 0x0000)

/-- **The TX power and the appearance** occur at most once over both packets, and then with the value
that the program gave last. -/
def Right (builder : AdvBuilder) : Prop :=
  ∃ packets advFields scanFields, builder.packets = some packets ∧
    packets.fields .advData = some advFields ∧ packets.fields .scanData = some scanFields ∧
    ∀ type, fixedLength type → SingleValued type (builder.last type) (advFields ++ scanFields)

/-- **An update finds its field**: a packet that has the field is the one the room test chooses; or no
packet has room, and the field has the value already. -/
def FindsField (builder : AdvBuilder) (call : AdvCall) : Prop :=
  fixedLength call.type → ∀ packets ∈ builder.packets, ∀ which, ∀ fields ∈ packets.fields which,
    (∃ field ∈ fields, field.tag = call.type) → packets.chosen call.len = some which ∨
      packets.chosen call.len = none ∧
        ∃ field ∈ fields, field.tag = call.type ∧ field.value = call.value

/-- The packets hold two sequences. -/
def Holding (builder : AdvBuilder) (records : AdvPacket → List Ltv.Record) : Prop :=
  ∃ packets, builder.packets = some packets ∧ packets.Holds records

theorem right_iff {builder : AdvBuilder} {records : AdvPacket → List Ltv.Record}
    (holding : builder.Holding records) : builder.Right ↔
      ∀ type, fixedLength type → SingleValued type (builder.last type) (bothPackets records) := by
  obtain ⟨packets, some_packets, holds⟩ := holding
  constructor
  · rintro ⟨packets', advFields, scanFields, same, adv, scan, single⟩
    obtain rfl := Option.some.inj (some_packets.symm.trans same)
    obtain rfl := Option.some.inj (adv.symm.trans (holds.fields .advData))
    obtain rfl := Option.some.inj (scan.symm.trans (holds.fields .scanData))
    exact single
  · exact fun single =>
      ⟨packets, _, _, some_packets, holds.fields .advData, holds.fields .scanData, single⟩

/-- The sequences after a call. -/
theorem step_holding {builder : AdvBuilder} {packets : AdvPackets}
    {records : AdvPacket → List Ltv.Record} (some_packets : builder.packets = some packets)
    (holds : packets.Holds records) (call : AdvCall) :
    (builder.step call).Holding (match packets.chosen call.len with
      | none => records
      | some which =>
          Function.update records which (addField call.type call.value (records which))) := by
  obtain ⟨packets', called, after⟩ :=
    AdvPackets.addFieldInPck_records holds call.data call.sized
  refine ⟨packets', ?_, after⟩
  rw [step, some_packets, Option.bind_some, call.call_eq, called]

/-- The fields of another type stay as they are. -/
theorem ofType_step {records : AdvPacket → List Ltv.Record} {type other : UInt8}
    (different : other ≠ type) (value : List UInt8) (which : AdvPacket) :
    ofType other (bothPackets (Function.update records which (addField type value (records which)))) =
      ofType other (bothPackets records) := by
  simp only [bothPackets, ofType_append]
  congr 1
  · cases which with
    | advData => rw [Function.update_self, ofType_addField_other different]
    | scanData => rw [Function.update_of_ne (by decide)]
  · cases which with
    | advData => rw [Function.update_of_ne (by decide)]
    | scanData => rw [Function.update_self, ofType_addField_other different]

theorem short_of_fixed {call : AdvCall} (isFixed : fixedLength call.type) : call.value.length < 255 := by
  rw [AdvCall.value, slice_length]
  rcases isFixed with power | appearance
  · rw [call.sized.1 power]
    decide
  · rw [call.sized.2 appearance]
    decide

theorem findsField_iff {builder : AdvBuilder} {packets : AdvPackets}
    {records : AdvPacket → List Ltv.Record} (some_packets : builder.packets = some packets)
    (holds : packets.Holds records) (call : AdvCall) :
    builder.FindsField call ↔ (fixedLength call.type → ∀ which,
      (∃ field ∈ records which, field.tag = call.type) → packets.chosen call.len = some which ∨
        packets.chosen call.len = none ∧
          ∃ field ∈ records which, field.tag = call.type ∧ field.value = call.value) := by
  constructor
  · exact fun finds isFixed which =>
      finds isFixed packets some_packets which _ (holds.fields which)
  · intro finds isFixed packets' same which fields read
    obtain rfl := Option.some.inj (some_packets.symm.trans same)
    obtain rfl := Option.some.inj ((holds.fields which).symm.trans read)
    exact finds isFixed which

/-- **A call keeps the fields right exactly when it finds its field.** -/
theorem step_right_iff {builder : AdvBuilder} {records : AdvPacket → List Ltv.Record}
    (holding : builder.Holding records) (right : builder.Right) (call : AdvCall) :
    (builder.step call).Right ↔ builder.FindsField call := by
  have single := (right_iff holding).mp right
  obtain ⟨packets, some_packets, holds⟩ := holding
  rw [right_iff (step_holding some_packets holds call), findsField_iff some_packets holds]
  have newest : (builder.step call).last call.type = some call.value := Function.update_self ..
  have others : ∀ type, type ≠ call.type → (builder.step call).last type = builder.last type :=
    fun type different => Function.update_of_ne different ..
  cases choice : packets.chosen call.len with
  | none =>
    constructor
    · intro after isFixed which occurs
      have now := after call.type isFixed
      rw [newest] at now
      exact Or.inr ⟨rfl, (dropped_singleValued_iff (single call.type isFixed).once).mp now which occurs⟩
    · intro finds type isFixed
      by_cases same : type = call.type
      · subst same
        rw [newest]
        refine (dropped_singleValued_iff (single call.type isFixed).once).mpr fun which occurs => ?_
        rcases finds isFixed which occurs with chosen | ⟨-, carries⟩
        · cases chosen
        · exact carries
      · rw [others type same]
        exact single type isFixed
  | some which =>
    obtain ⟨other, different⟩ := exists_other which
    constructor
    · intro after isFixed holder occurs
      have now := after call.type isFixed
      rw [newest] at now
      refine Or.inl (congrArg some ?_)
      by_contra elsewhere
      exact (stored_singleValued_iff isFixed (short_of_fixed isFixed) (single call.type isFixed).once
        (Ne.symm elsewhere)).mp now occurs
    · intro finds type isFixed
      by_cases same : type = call.type
      · subst same
        rw [newest]
        refine (stored_singleValued_iff isFixed (short_of_fixed isFixed)
          (single call.type isFixed).once different).mpr fun occurs => ?_
        rcases finds isFixed other occurs with chosen | ⟨none_chosen, -⟩
        · exact different (Option.some.inj chosen).symm
        · cases none_chosen
      · rw [others type same]
        exact (singleValued_congr (ofType_step same call.value which)).mpr (single type isFixed)

theorem constructed_holding : ∃ records, constructed.Holding records := by
  obtain ⟨records, holds⟩ := (AdvPackets.holding_iff _).mp initial_holding
  have packets : initial.packets = some AdvPackets.initial := rfl
  exact ⟨_, step_holding packets holds (.setAppearance 0x0000)⟩

theorem constructed_right : constructed.Right := by
  refine ⟨AdvPackets.constructed, [adStructure 0x01 [6], adStructure 0x19 [0, 0]], [], rfl,
    fields_of_bytes _ (by decide), fields_of_bytes _ (by decide), ?_⟩
  rintro type (rfl | rfl)
  · exact ⟨by decide, by decide⟩
  · exact ⟨by decide, by decide⟩

end AdvBuilder

/-- **The appearance and the TX power occur at most once over both packets, with the last value given,
after every call of a run, exactly when every call of the run finds its field.** -/
theorem singleValued_iff (calls : List AdvCall) :
    Always AdvBuilder.step AdvBuilder.Right .constructed calls ↔
      EachStep AdvBuilder.step AdvBuilder.FindsField .constructed calls := by
  have keep : ∀ (builder : AdvBuilder) (call : AdvCall), (∃ records, builder.Holding records) → True →
      ∃ records, (builder.step call).Holding records := by
    rintro builder call ⟨records, packets, some_packets, holds⟩ -
    exact ⟨_, AdvBuilder.step_holding some_packets holds call⟩
  have each := eachStep_of_invariant keep (fun _ _ holding _ => holding)
    AdvBuilder.constructed_holding (eachStep_of_forall (fun _ _ => trivial) _ calls)
  have exact_step : ∀ (builder : AdvBuilder) (call : AdvCall), builder.Right →
      (∃ records, builder.Holding records) → ((builder.step call).Right ↔ builder.FindsField call) :=
    fun _ call right ⟨_, holding⟩ => AdvBuilder.step_right_iff holding right call
  exact always_iff_eachStep exact_step AdvBuilder.constructed_right each

/-- **An update can miss its field**: after 20 bytes of manufacturer data the advertisement has no room
for two more bytes, and the new appearance goes into the scan response; the old one stays. -/
theorem appearance_duplicated :
    ¬ ∀ calls, Always AdvBuilder.step AdvBuilder.Right .constructed calls := by
  intro always
  have right := (always [.setManufacturerData (fun _ => 7) 20, .setAppearance 0x0001]).last
  obtain ⟨packets, advFields, scanFields, called, adv, scan, single⟩ := right
  have result : (run AdvBuilder.step .constructed
      [.setManufacturerData (fun _ => 7) 20, .setAppearance 0x0001]).packets =
        some ((AdvPackets.afterCalls [.setManufacturerData (fun _ => 7) 20,
          .setAppearance 0x0001]).getD AdvPackets.initial) := rfl
  obtain rfl := Option.some.inj (result.symm.trans called)
  rw [fields_of_bytes [adStructure 0x01 [6], adStructure 0x19 [0, 0],
    adStructure 0xff (List.replicate 20 7)] (by decide)] at adv
  rw [fields_of_bytes [adStructure 0x19 [1, 0]] (by decide)] at scan
  obtain rfl := Option.some.inj adv
  obtain rfl := Option.some.inj scan
  exact absurd (single 0x19 (Or.inr rfl)).once (by decide)

/-! ### Decoding undoes building -/

/-- A report that carries a packet as it is. -/
structure AdvReport.Carries (report : AdvReport) (packet : Buffer UInt8) (length : UInt8) : Prop where
  dlen : report.dlen.val = length.toNat
  data : ∀ index : Fin 31, index.val < length.toNat → report.data[index] = packet.bytes index

theorem packet_of_carries {report : AdvReport} {packet : Buffer UInt8} {length : UInt8}
    (carries : report.Carries packet length) (node : BLENode) :
    (node.setAdvPck report).packet = slice packet.bytes 0 length.toNat := by
  have small := report.dlen.isLt
  rw [packet_setAdvPck, carries.dlen]
  have fits := carries.dlen
  apply List.ext_getElem
  · rw [List.length_take, Vector.length_toList, slice_length]
    omega
  · intro index first second
    rw [slice_length] at second
    have inArray : index < 31 := by omega
    have stored := carries.data ⟨index, inArray⟩ second
    rw [getElem_slice, Nat.zero_add, ← stored]
    simp

/-- **Decoding undoes building.** In a node that receives either packet as calls have built it, a
search for a type is safe, and finds the value of the first field of the type, or nothing when there
is none. -/
theorem decoding_undoes_building {calls : List AdvCall} {packets : AdvPackets}
    (reached : AdvPackets.afterCalls calls = some packets) (which : AdvPacket) {report : AdvReport}
    (carries : report.Carries (packets.array which) (packets.arrayLength which)) (node : BLENode)
    (behind : Nat → UInt8) (type : UInt8) (result : Int → UInt8) :
    ∃ fields, packets.fields which = some fields ∧
      ((node.setAdvPck report).getFieldInAdvPck behind type result).Safe report.dlen.val ∧
      ((node.setAdvPck report).getFieldInAdvPck behind type result).Returns result
        (fields.find? fun field => field.tag = type) := by
  obtain ⟨records, holds⟩ := AdvPackets.holds_of_calls reached
  have wellFormed := (packet_of_carries carries node).trans (holds which).bytes
  exact ⟨records which, holds.fields which,
    getFieldInAdvPck_encode (node.setAdvPck report) behind type result wellFormed⟩

theorem constructed_length_lt : 7 < 32 := by decide

/-- A report with the advertisement that the constructor builds. -/
def constructedReport : AdvReport :=
  { longField with
    peerAddr := .replicate 6 1
    rssi := -50
    dlen := ⟨7, constructed_length_lt⟩
    data := Vector.ofFn fun index => AdvPackets.constructed.advData.bytes index }

/-- The appearance in the advertisement that the constructor builds. -/
theorem decoding_undoes_building_appearance :
    ((blankNode.setAdvPck constructedReport).getFieldInAdvPck (fun _ => 0) 0x19 fun _ => 0).Holds
      [0, 0] := by
  have carries : constructedReport.Carries (AdvPackets.constructed.array .advData)
      (AdvPackets.constructed.arrayLength .advData) :=
    ⟨rfl, fun index _ => by simp [constructedReport, AdvPackets.array]⟩
  obtain ⟨fields, read, -, returns⟩ := @decoding_undoes_building [] AdvPackets.constructed rfl .advData
    constructedReport carries blankNode (fun _ => 0) 0x19 fun _ => 0
  rw [fields_of_bytes [adStructure 0x01 [6], adStructure 0x19 [0, 0]] (by decide)] at read
  obtain rfl := Option.some.inj read
  exact returns

end PrimoCore.Ble
