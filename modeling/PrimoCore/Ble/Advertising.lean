/-
**The advertising packets of a `BLEPeripheral`.**

Two arrays of 32 bytes hold the advertisement and the scan response as sequences of AD structures. Each
setter hands a type and a value to `addFieldInPck`, which picks the packet with room, looks for a
structure of the type, and overwrites its value, extends it in place, or appends a new structure.

* `addFieldInPck`, `AdvPackets.call` — the code, on arrays that log what is written.
* `addField` — what it does to the sequence of structures.
* `PacketHolds` — a packet holds a sequence of structures, followed by zeros.
* `updatePacket_holds` — **refinement**: the code on the bytes does what `addField` does to the
  sequence.
* `calls_holding` — every sequence of calls leaves both packets holding structures.
-/

import Mathlib.Tactic.SplitIfs
import PrimoCore.Lib.Buffer
import PrimoCore.Lib.Ltv
import PrimoCore.Ble.Uuid

namespace PrimoCore.Ble

open PrimoCore.Lib

/-- The two packets, `_advData` and `_scanData`, with their lengths. -/
structure AdvPackets where
  advData : Buffer UInt8
  advDataLength : UInt8
  scanData : Buffer UInt8
  scanDataLength : UInt8

/-- `BLE_ADVERTISEMENT_DATA_MAX_VALUE_LENGTH`. -/
def advertisementDataMaxValueLength : Nat := 26

/-- `BLE_SCAN_DATA_MAX_VALUE_LENGTH`. -/
def scanDataMaxValueLength : Nat := 29

/-- `BLE_GAP_ADV_MAX_SIZE`. -/
def gapAdvMaxSize : Nat := 31

/-- The size of the two arrays. -/
def packetArraySize : Nat := 32

/-- The types whose value is overwritten: the TX power level and the appearance. -/
def fixedLength (type : UInt8) : Prop := type = 0x0A ∨ type = 0x19

instance (type : UInt8) : Decidable (fixedLength type) := inferInstanceAs (Decidable (_ ∨ _))

/-! ### The code -/

/-- The loop that looks for a structure of a type: whether it is in the packet, and `pos`, a byte. Only
positions below 31 are examined, so that a loop of 32 rounds has come back to a position and never
ends; it yields nothing. -/
def findField (packet : Memory UInt8) (type : UInt8) : Nat → UInt8 → Option (Bool × UInt8)
  | 0, _ => none
  | rounds + 1, pos =>
      if pos.toNat < gapAdvMaxSize ∧ packet pos.toNat ≠ 0 then
        if packet (pos.toNat + 1) = type then some (true, pos)
        else findField packet type rounds (pos + (packet pos.toNat + 1))
      else some (false, pos)

/-- `addFieldInPck` once it has chosen a packet. -/
def updatePacket (packet : Buffer UInt8) (pckLen type len : UInt8) (data : Memory UInt8) :
    Option (Buffer UInt8 × UInt8) :=
  (findField packet.bytes type 32 0).map fun (inPck, pos) =>
    if inPck then
      if fixedLength type then (packet.memcpy (pos.toNat + 2) data len.toNat, pckLen)
      else
        -- the bound of the loop reads `packet[pos]`, which lies below everything it writes
        let next := pos.toNat + (packet.bytes pos.toNat).toNat + 1
        let moved := packet.moveUp next len.toNat (pckLen.toNat - next)
        let copied :=
          moved.memcpy (pos.toNat + (moved.bytes pos.toNat).toNat + 1) data len.toNat
        (copied.set pos.toNat (copied.bytes pos.toNat + len), pckLen + len)
    else
      let named := (packet.set pckLen.toNat (len + 1)).set (pckLen.toNat + 1) type
      (named.memcpy (pckLen.toNat + 2) data len.toNat, pckLen + (len + 2))

namespace AdvPackets

/-- `addFieldInPck`. -/
def addFieldInPck (packets : AdvPackets) (type len : UInt8) (data : Memory UInt8) :
    Option AdvPackets :=
  if packets.advDataLength.toNat < advertisementDataMaxValueLength + 2 ∧
      len.toNat ≤ advertisementDataMaxValueLength + 2 - packets.advDataLength.toNat then
    (updatePacket packets.advData packets.advDataLength type len data).map fun (packet, pckLen) =>
      { packets with advData := packet, advDataLength := pckLen }
  else if packets.scanDataLength.toNat < scanDataMaxValueLength ∧
      len.toNat ≤ scanDataMaxValueLength - packets.scanDataLength.toNat then
    (updatePacket packets.scanData packets.scanDataLength type len data).map fun (packet, pckLen) =>
      { packets with scanData := packet, scanDataLength := pckLen }
  else some packets

def setAdvertisedServiceUuid (packets : AdvPackets) (advertisedServiceUuid : CString) :
    Option AdvPackets :=
  let uuid := BLEUuid.ofString advertisedServiceUuid
  packets.addFieldInPck (if 2 < uuid.length then 0x06 else 0x02) uuid.length (uuid.data fun _ => 0)

def setServiceSolicitationUuid (packets : AdvPackets) (serviceSolicitationUuid : CString) :
    Option AdvPackets :=
  let uuid := BLEUuid.ofString serviceSolicitationUuid
  packets.addFieldInPck (if 2 < uuid.length then 0x15 else 0x14) uuid.length (uuid.data fun _ => 0)

def setManufacturerData (packets : AdvPackets) (manufacturerData : Memory UInt8)
    (manufacturerDataLength : UInt8) : Option AdvPackets :=
  packets.addFieldInPck 0xff manufacturerDataLength manufacturerData

/-- `setLocalName`; `strlen` is stored in a byte. -/
def setLocalName (packets : AdvPackets) (localName : CString) : Option AdvPackets :=
  let len := UInt8.ofNat localName.strlen
  if scanDataMaxValueLength < len.toNat then
    packets.addFieldInPck 0x08 (UInt8.ofNat scanDataMaxValueLength) localName.charAt
  else packets.addFieldInPck 0x09 len localName.charAt

/-- `setTxPower`: the lowest byte of the argument. -/
def setTxPower (packets : AdvPackets) (txPower : UInt32) : Option AdvPackets :=
  packets.addFieldInPck 0x0A 1 fun index => (txPower >>> (8 * UInt32.ofNat index)).toUInt8

/-- `setAppearance`: the two bytes of the argument, the lower one first. -/
def setAppearance (packets : AdvPackets) (appearance : UInt16) : Option AdvPackets :=
  packets.addFieldInPck 0x19 2 fun index => (appearance >>> (8 * UInt16.ofNat index)).toUInt8

end AdvPackets

/-- A call of one of the setters. -/
inductive AdvCall where
  | setAdvertisedServiceUuid (advertisedServiceUuid : CString)
  | setServiceSolicitationUuid (serviceSolicitationUuid : CString)
  | setManufacturerData (manufacturerData : Memory UInt8) (manufacturerDataLength : UInt8)
  | setLocalName (localName : CString)
  | setTxPower (txPower : UInt32)
  | setAppearance (appearance : UInt16)

def AdvPackets.call (packets : AdvPackets) : AdvCall → Option AdvPackets
  | .setAdvertisedServiceUuid uuid => packets.setAdvertisedServiceUuid uuid
  | .setServiceSolicitationUuid uuid => packets.setServiceSolicitationUuid uuid
  | .setManufacturerData data length => packets.setManufacturerData data length
  | .setLocalName name => packets.setLocalName name
  | .setTxPower txPower => packets.setTxPower txPower
  | .setAppearance appearance => packets.setAppearance appearance

/-- The arrays the constructor of `BLEPeripheral` sets up: cleared, and the flags structure stored. -/
def AdvPackets.initial : AdvPackets where
  advData := ⟨fun index => [2, 0x01, 0x06].getD index 0, []⟩
  advDataLength := 3
  scanData := ⟨fun _ => 0, []⟩
  scanDataLength := 0

/-- The packets after the constructor, which ends with `setAppearance(DEFAULT_APPEARANCE)`, and a
sequence of calls. -/
def AdvPackets.afterCalls (calls : List AdvCall) : Option AdvPackets :=
  (AdvCall.setAppearance 0x0000 :: calls).foldlM AdvPackets.call AdvPackets.initial

/-! ### What the code does to the sequence of structures -/

/-- A structure with a value, cut to what a length byte can count. -/
def adStructure (type : UInt8) (value : List UInt8) : Ltv.Record where
  tag := type
  value := value.take 254
  fits := Nat.lt_of_le_of_lt (List.length_take_le 254 value) (by decide)

theorem adStructure_value (type : UInt8) {value : List UInt8} (short : value.length < 255) :
    (adStructure type value).value = value :=
  List.take_of_length_le (by omega)

/-- The first structure of the type gets a new value or a longer one; without one, a structure is
added at the end. -/
def addField (type : UInt8) (value : List UInt8) : List Ltv.Record → List Ltv.Record
  | [] => [adStructure type value]
  | record :: rest =>
      if record.tag = type then
        adStructure type (if fixedLength type then value else record.value ++ value) :: rest
      else record :: addField type value rest

theorem addField_absent {type : UInt8} {records : List Ltv.Record}
    (absent : ∀ record ∈ records, record.tag ≠ type) (value : List UInt8) :
    addField type value records = records ++ [adStructure type value] := by
  induction records with
  | nil => rfl
  | cons record rest ih =>
    rw [addField, if_neg (absent record (List.mem_cons_self ..)),
      ih fun other member => absent other (List.mem_cons_of_mem _ member)]
    rfl

theorem addField_present {type : UInt8} {before : List Ltv.Record} {record : Ltv.Record}
    (absent : ∀ other ∈ before, other.tag ≠ type) (isType : record.tag = type)
    (after : List Ltv.Record) (value : List UInt8) :
    addField type value (before ++ record :: after) = before ++
      adStructure type (if fixedLength type then value else record.value ++ value) :: after := by
  induction before with
  | nil => rw [List.nil_append, addField, if_pos isType, List.nil_append]
  | cons other rest ih =>
    rw [List.cons_append, addField, if_neg (absent other (List.mem_cons_self ..)),
      ih fun member inside => absent member (List.mem_cons_of_mem _ inside)]
    rfl

/-- A sequence has no structure of a type, or a first one. -/
theorem absent_or_first (type : UInt8) (records : List Ltv.Record) :
    (∀ record ∈ records, record.tag ≠ type) ∨
      ∃ before record after, records = before ++ record :: after ∧
        (∀ other ∈ before, other.tag ≠ type) ∧ record.tag = type := by
  cases hit : records.find? (fun record => record.tag = type) with
  | none =>
    left
    simpa using hit
  | some record =>
    right
    obtain ⟨isType, before, after, split, absent⟩ := List.find?_eq_some_iff_append.mp hit
    exact ⟨before, record, after, split, by simpa using absent, by simpa using isType⟩

/-- The values of the overwritten types have one size each. -/
def FixedSize (type : UInt8) (count : Nat) : Prop :=
  (type = 0x0A → count = 1) ∧ (type = 0x19 → count = 2)

theorem FixedSize.unique {type : UInt8} {first second : Nat} (one : FixedSize type first)
    (two : FixedSize type second) (isFixed : fixedLength type) : first = second := by
  rcases isFixed with power | appearance
  · rw [one.1 power, two.1 power]
  · rw [one.2 appearance, two.2 appearance]

/-! ### The walk over the structures -/

/-- **A packet holds a sequence of structures**: its first bytes are their encoding, zeros follow, the
length fits a packet, and nothing has been written past the packet. -/
structure PacketHolds (packet : Buffer UInt8) (length : UInt8) (records : List Ltv.Record) : Prop where
  bytes : slice packet.bytes 0 length.toNat = Ltv.encode records
  rest : ∀ index, length.toNat ≤ index → index < packetArraySize → packet.bytes index = 0
  fits : length.toNat ≤ gapAdvMaxSize
  written : packet.WritesBelow gapAdvMaxSize
  sized : ∀ record ∈ records, FixedSize record.tag record.value.length

theorem encode_count (records : List Ltv.Record) :
    2 * records.length ≤ (Ltv.encode records).length := by
  induction records with
  | nil => exact Nat.le_refl 0
  | cons record rest ih =>
    simp only [Ltv.encode_cons, List.length_append, Ltv.Record.encode_length, List.length_cons]
    omega

/-- A byte position, as a byte. -/
theorem position_toNat {position : Nat} (small : position ≤ gapAdvMaxSize) :
    (UInt8.ofNat position).toNat = position := by
  simp only [gapAdvMaxSize] at small
  rw [UInt8.toNat_ofNat']
  omega

theorem lengthByte_ne_zero (record : Ltv.Record) :
    UInt8.ofNat (record.value.length + 1) ≠ 0 := by
  intro zero
  have count := record.lengthByte_toNat
  rw [zero] at count
  exact absurd count (by simp)

/-- The walk passes over structures of other types. -/
theorem findField_skip {packet : Memory UInt8} {type : UInt8} (rounds : Nat)
    {before : List Ltv.Record} (absent : ∀ record ∈ before, record.tag ≠ type) (position : Nat)
    (fits : position + (Ltv.encode before).length ≤ gapAdvMaxSize)
    (bytes : slice packet position (Ltv.encode before).length = Ltv.encode before) :
    findField packet type (rounds + before.length) (UInt8.ofNat position) =
      findField packet type rounds (UInt8.ofNat (position + (Ltv.encode before).length)) := by
  induction before generalizing position with
  | nil => rfl
  | cons record rest ih =>
    simp only [Ltv.encode_cons, List.length_append, Ltv.Record.encode_length] at fits bytes
    obtain ⟨here, after⟩ := slice_split bytes
    rw [Ltv.Record.encode_length] at here after
    have lengthByte := slice_head here
    rw [Ltv.Record.encode, slice_succ] at here
    have tagByte := slice_head (List.cons.inj here).2
    have inside : position < gapAdvMaxSize := by omega
    have next : UInt8.ofNat position + (packet position + 1) =
        UInt8.ofNat (position + (record.value.length + 2)) := by
      rw [lengthByte, UInt8.ofNat_add, UInt8.ofNat_add, UInt8.ofNat_add, UInt8.add_assoc]
      rfl
    rw [List.length_cons, ← Nat.add_assoc, findField, position_toNat (by omega), lengthByte,
      if_pos ⟨inside, lengthByte_ne_zero record⟩, tagByte,
      if_neg (absent record (List.mem_cons_self ..)), ← lengthByte, next,
      ih (fun other member => absent other (List.mem_cons_of_mem _ member)) _ (by omega) after]
    simp only [Ltv.encode_cons, List.length_append, Ltv.Record.encode_length, Nat.add_assoc]

section Found

variable {packet : Buffer UInt8} {length type : UInt8}

/-- The walk reaches the end of a packet without a structure of the type. -/
theorem findField_absent {records : List Ltv.Record} (holds : PacketHolds packet length records)
    (absent : ∀ record ∈ records, record.tag ≠ type) :
    findField packet.bytes type 32 0 = some (false, length) := by
  have count := congrArg List.length holds.bytes
  rw [slice_length] at count
  have few := encode_count records
  have fits := holds.fits
  simp only [gapAdvMaxSize] at fits
  have walk := findField_skip (32 - records.length) absent 0 (by simp only [gapAdvMaxSize]; omega)
    (by rw [← count]; exact holds.bytes)
  rw [show 32 - records.length + records.length = 32 by omega, Nat.zero_add, ← count,
    UInt8.ofNat_toNat] at walk
  rw [show (0 : UInt8) = UInt8.ofNat 0 from rfl, walk,
    show 32 - records.length = (31 - records.length) + 1 by omega, findField]
  rw [if_neg]
  rintro ⟨inside, notZero⟩
  exact notZero (holds.rest _ (Nat.le_refl _) (Nat.lt_succ_of_lt inside))

/-- The walk stops at the first structure of the type. -/
theorem findField_present {before after : List Ltv.Record} {record : Ltv.Record}
    (holds : PacketHolds packet length (before ++ record :: after))
    (absent : ∀ other ∈ before, other.tag ≠ type) (isType : record.tag = type) :
    findField packet.bytes type 32 0 = some (true, UInt8.ofNat (Ltv.encode before).length) := by
  have bytes := holds.bytes
  have count := congrArg List.length holds.bytes
  have few := encode_count before
  have fits := holds.fits
  simp only [slice_length, Ltv.encode_append, Ltv.encode_cons, List.length_append,
    Ltv.Record.encode_length, gapAdvMaxSize] at count fits
  rw [Ltv.encode_append] at bytes
  obtain ⟨front, back⟩ := slice_split bytes
  rw [Nat.zero_add, Ltv.encode_cons, Ltv.Record.encode, List.cons_append] at back
  have lengthByte := slice_head back
  rw [List.length_cons, slice_succ] at back
  have tagByte := slice_head (List.cons.inj back).2
  have walk := findField_skip (32 - before.length) absent 0 (by simp only [gapAdvMaxSize]; omega)
    front
  rw [show 32 - before.length + before.length = 32 by omega, Nat.zero_add] at walk
  rw [show (0 : UInt8) = UInt8.ofNat 0 from rfl, walk,
    show 32 - before.length = (31 - before.length) + 1 by omega, findField,
    position_toNat (by simp only [gapAdvMaxSize]; omega), lengthByte,
    if_pos ⟨by simp only [gapAdvMaxSize]; omega, lengthByte_ne_zero record⟩, tagByte, if_pos isType]

end Found

/-! ### One field -/

/-- Where the parts of a packet lie around one structure. -/
structure Parts (memory : Memory UInt8) (before : List Ltv.Record) (record : Ltv.Record)
    (after : List Ltv.Record) : Prop where
  front : slice memory 0 (Ltv.encode before).length = Ltv.encode before
  lengthByte : memory (Ltv.encode before).length = UInt8.ofNat (record.value.length + 1)
  tagByte : memory ((Ltv.encode before).length + 1) = record.tag
  value : slice memory ((Ltv.encode before).length + 2) record.value.length = record.value
  back : slice memory ((Ltv.encode before).length + 2 + record.value.length)
    (Ltv.encode after).length = Ltv.encode after

/-- A packet reads as a sequence of structures exactly when its parts lie where they should. -/
theorem parts_iff (memory : Memory UInt8) (before : List Ltv.Record) (record : Ltv.Record)
    (after : List Ltv.Record) : Parts memory before record after ↔
      slice memory 0 ((Ltv.encode before).length + (record.value.length + 2) +
        (Ltv.encode after).length) = Ltv.encode (before ++ record :: after) := by
  constructor
  · intro parts
    have middle : slice memory (Ltv.encode before).length (record.value.length + 2) =
        record.encode := by
      rw [slice_succ, slice_succ, parts.lengthByte, parts.tagByte]
      exact congrArg (_ :: _ :: ·) parts.value
    rw [Nat.add_assoc, slice_add, parts.front, Nat.zero_add, slice_add, middle,
      show (Ltv.encode before).length + (record.value.length + 2) =
        (Ltv.encode before).length + 2 + record.value.length by omega, parts.back,
      Ltv.encode_append, Ltv.encode_cons]
  · intro whole
    rw [Nat.add_assoc, Ltv.encode_append, Ltv.encode_cons] at whole
    obtain ⟨front, rest⟩ := slice_split whole
    obtain ⟨middle, back⟩ := slice_split rest
    rw [Nat.zero_add, Ltv.Record.encode_length, Ltv.Record.encode, slice_succ, slice_succ] at middle
    simp only [List.cons.injEq] at middle
    obtain ⟨lengthByte, tagByte, value⟩ := middle
    rw [Nat.zero_add, Ltv.Record.encode_length, ← Nat.add_assoc, Nat.add_right_comm] at back
    exact ⟨front, lengthByte, tagByte, value, back⟩

section Update

variable {packet : Buffer UInt8} {length : UInt8}

/-- A packet that holds a sequence, seen around one of its structures. -/
theorem PacketHolds.parts {before after : List Ltv.Record} {record : Ltv.Record}
    (holds : PacketHolds packet length (before ++ record :: after)) :
    Parts packet.bytes before record after ∧ length.toNat =
      (Ltv.encode before).length + (record.value.length + 2) + (Ltv.encode after).length := by
  have count := congrArg List.length holds.bytes
  simp only [slice_length, Ltv.encode_append, Ltv.encode_cons, List.length_append,
    Ltv.Record.encode_length, ← Nat.add_assoc] at count
  refine ⟨(parts_iff _ _ _ _).mpr ?_, by omega⟩
  rw [show (Ltv.encode before).length + (record.value.length + 2) + (Ltv.encode after).length =
    length.toNat by omega]
  exact holds.bytes

/-- A sum of packet lengths, as a byte. -/
theorem toNat_add_small {first second : UInt8} (small : first.toNat + second.toNat < 256) :
    (first + second).toNat = first.toNat + second.toNat := by
  rw [UInt8.toNat_add]
  exact Nat.mod_eq_of_lt small

/-- The length with a new structure behind the others. -/
theorem append_length {len : UInt8} (room : length.toNat + len.toNat + 2 ≤ gapAdvMaxSize) :
    (length + (len + 2)).toNat = length.toNat + (len.toNat + 2) := by
  simp only [gapAdvMaxSize] at room
  have lenTwo : (len + 2).toNat = len.toNat + 2 := by
    have small : len.toNat + (2 : UInt8).toNat < 256 := by simp; omega
    exact toNat_add_small small
  rw [toNat_add_small (by omega), lenTwo]

/-- The bytes with a new structure behind the others. -/
theorem append_bytes {records : List Ltv.Record} (holds : PacketHolds packet length records)
    {type len : UInt8} (data : Memory UInt8)
    (room : length.toNat + len.toNat + 2 ≤ gapAdvMaxSize) :
    slice (((packet.set length.toNat (len + 1)).set (length.toNat + 1) type).memcpy
        (length.toNat + 2) data len.toNat).bytes 0 (length + (len + 2)).toNat =
      Ltv.encode (records ++ [adStructure type (slice data 0 len.toNat)]) := by
  have count := congrArg List.length holds.bytes
  rw [slice_length] at count
  have newLength := append_length room
  simp only [gapAdvMaxSize] at room
  have value : (adStructure type (slice data 0 len.toNat)).value = slice data 0 len.toNat :=
    adStructure_value type (by rw [slice_length]; omega)
  have parts : Parts (((packet.set length.toNat (len + 1)).set (length.toNat + 1) type).memcpy
      (length.toNat + 2) data len.toNat).bytes records
      (adStructure type (slice data 0 len.toNat)) [] := by
    refine ⟨?_, ?_, ?_, ?_, rfl⟩
    · apply slice_frame (by rw [← count]; exact holds.bytes)
      rw [← count]
      intro offset inside
      simp only [Buffer.memcpy_at, Buffer.set_at]
      rw [if_neg (by omega), if_neg (by omega), if_neg (by omega)]
    · rw [← count, value, slice_length, Buffer.memcpy_at, Buffer.set_at, Buffer.set_at,
        if_neg (by omega), if_neg (by omega), if_pos rfl, UInt8.ofNat_add, UInt8.ofNat_toNat]
      rfl
    · rw [← count]
      simp [adStructure]
    · rw [← count, value, slice_length]
      apply slice_congr
      intro offset inside
      simp only [Buffer.memcpy_at]
      rw [if_pos (by omega)]
      congr 1
      omega
  have whole := (parts_iff _ _ _ _).mp parts
  rw [value, slice_length, ← count] at whole
  rw [newLength]
  exact whole

/-- A new structure behind the others. -/
theorem append_holds {records : List Ltv.Record} (holds : PacketHolds packet length records)
    {type len : UInt8} (data : Memory UInt8) (room : length.toNat + len.toNat + 2 ≤ gapAdvMaxSize)
    (sized : FixedSize type len.toNat) :
    PacketHolds (((packet.set length.toNat (len + 1)).set (length.toNat + 1) type).memcpy
        (length.toNat + 2) data len.toNat) (length + (len + 2))
      (records ++ [adStructure type (slice data 0 len.toNat)]) := by
  have newLength := append_length room
  simp only [gapAdvMaxSize] at room
  refine ⟨append_bytes holds data room, ?_, ?_, ?_, ?_⟩
  · intro index past inside
    rw [newLength] at past
    simp only [Buffer.memcpy_at, Buffer.set_at]
    rw [if_neg (by omega), if_neg (by omega), if_neg (by omega)]
    exact holds.rest index (by omega) inside
  · rw [newLength]
    simp only [gapAdvMaxSize]
    omega
  · apply Buffer.WritesBelow.memcpy
    · exact (holds.written.set (by simp only [gapAdvMaxSize]; omega) _).set
        (by simp only [gapAdvMaxSize]; omega) _
    · simp only [gapAdvMaxSize]
      omega
  · intro record member
    rcases List.mem_append.mp member with member | member
    · exact holds.sized record member
    · obtain rfl := List.mem_singleton.mp member
      rw [adStructure_value type (by rw [slice_length]; omega), slice_length]
      exact sized

/-- The structures around one that gets a new value of the type keep their sizes. -/
theorem sized_replace {before after : List Ltv.Record} {record updated : Ltv.Record}
    (sized : ∀ other ∈ before ++ record :: after, FixedSize other.tag other.value.length)
    (updatedSized : FixedSize updated.tag updated.value.length) :
    ∀ other ∈ before ++ updated :: after, FixedSize other.tag other.value.length := by
  intro other member
  rcases List.mem_append.mp member with member | member
  · exact sized other (List.mem_append_left _ member)
  · rcases List.mem_cons.mp member with rfl | member
    · exact updatedSized
    · exact sized other (List.mem_append_right _ (List.mem_cons_of_mem _ member))

/-- A new value of the same length. -/
theorem overwrite_holds {before after : List Ltv.Record} {record : Ltv.Record}
    (holds : PacketHolds packet length (before ++ record :: after)) {len : UInt8}
    (data : Memory UInt8) (sameLength : record.value.length = len.toNat) :
    PacketHolds (packet.memcpy ((Ltv.encode before).length + 2) data len.toNat) length
      (before ++ adStructure record.tag (slice data 0 len.toNat) :: after) := by
  obtain ⟨parts, count⟩ := holds.parts
  have fits := holds.fits
  simp only [gapAdvMaxSize] at fits
  have value : (adStructure record.tag (slice data 0 len.toNat)).value = slice data 0 len.toNat :=
    adStructure_value record.tag (by rw [slice_length]; omega)
  refine ⟨?_, ?_, holds.fits, ?_, ?_⟩
  · have newParts : Parts (packet.memcpy ((Ltv.encode before).length + 2) data len.toNat).bytes before
        (adStructure record.tag (slice data 0 len.toNat)) after := by
      refine ⟨?_, ?_, ?_, ?_, ?_⟩
      · apply slice_frame parts.front
        intro offset inside
        rw [Buffer.memcpy_at, if_neg (by omega)]
      · rw [value, slice_length, Buffer.memcpy_at, if_neg (by omega), parts.lengthByte, sameLength]
      · rw [Buffer.memcpy_at, if_neg (by omega), parts.tagByte]
        rfl
      · rw [value, slice_length]
        apply slice_congr
        intro offset inside
        rw [Buffer.memcpy_at, if_pos (by omega)]
        congr 1
        omega
      · rw [value, slice_length, ← sameLength]
        apply slice_frame parts.back
        intro offset inside
        rw [Buffer.memcpy_at, if_neg (by omega)]
    have whole := (parts_iff _ _ _ _).mp newParts
    rw [value, slice_length, ← sameLength, ← count, sameLength] at whole
    exact whole
  · intro index past inside
    rw [Buffer.memcpy_at, if_neg (by omega)]
    exact holds.rest index past inside
  · exact holds.written.memcpy (by simp only [gapAdvMaxSize]; omega) _
  · refine sized_replace holds.sized ?_
    rw [value, slice_length, ← sameLength]
    exact holds.sized record (by simp)

/-- **A longer value**: the structures behind move up, the new bytes go behind the old value, and the
length byte grows. -/
theorem extend_holds {before after : List Ltv.Record} {record : Ltv.Record}
    (holds : PacketHolds packet length (before ++ record :: after)) {len : UInt8}
    (data : Memory UInt8) (room : length.toNat + len.toNat ≤ gapAdvMaxSize)
    (growing : ¬ fixedLength record.tag) {position : Nat}
    (here : position = (Ltv.encode before).length) :
    let next := position + (packet.bytes position).toNat + 1
    let moved := packet.moveUp next len.toNat (length.toNat - next)
    let copied := moved.memcpy (position + (moved.bytes position).toNat + 1) data len.toNat
    PacketHolds (copied.set position (copied.bytes position + len)) (length + len)
      (before ++ adStructure record.tag (record.value ++ slice data 0 len.toNat) :: after) := by
  obtain ⟨parts, count⟩ := holds.parts
  rw [← here] at count
  simp only [gapAdvMaxSize] at room
  intro next moved copied
  have value : (adStructure record.tag (record.value ++ slice data 0 len.toNat)).value =
      record.value ++ slice data 0 len.toNat :=
    adStructure_value record.tag (by rw [List.length_append, slice_length]; omega)
  have grown : (record.value ++ slice data 0 len.toNat).length = record.value.length + len.toNat := by
    rw [List.length_append, slice_length]
  have next_eq : next = position + 2 + record.value.length := by
    simp only [next]
    rw [here, parts.lengthByte, record.lengthByte_toNat]
    omega
  have behind : length.toNat - next = (Ltv.encode after).length := by omega
  have moved_at : ∀ index, moved.bytes index =
      if next + len.toNat ≤ index ∧ index < length.toNat + len.toNat then
        packet.bytes (index - len.toNat)
      else packet.bytes index := by
    intro index
    simp only [moved, Buffer.moveUp_at]
    congr 2
    simp only [eq_iff_iff]
    omega
  have copied_at : ∀ index, copied.bytes index =
      if next ≤ index ∧ index < next + len.toNat then data (index - next)
      else moved.bytes index := by
    intro index
    have start : position + (moved.bytes position).toNat + 1 = next := by
      rw [moved_at position, if_neg (by omega)]
    simp only [copied, Buffer.memcpy_at, start]
  have lengthByte : copied.bytes position = UInt8.ofNat (record.value.length + 1) := by
    rw [copied_at, if_neg (by omega), moved_at, if_neg (by omega), here, parts.lengthByte]
  have newLength : (length + len).toNat = length.toNat + len.toNat := toNat_add_small (by omega)
  refine ⟨?_, ?_, ?_, ?_, ?_⟩
  · have newParts : Parts (copied.set position (copied.bytes position + len)).bytes before
        (adStructure record.tag (record.value ++ slice data 0 len.toNat)) after := by
      refine ⟨?_, ?_, ?_, ?_, ?_⟩
      · apply slice_frame parts.front
        intro offset inside
        rw [Buffer.set_at, if_neg (by omega), copied_at, if_neg (by omega), moved_at,
          if_neg (by omega)]
      · rw [← here, Buffer.set_at, if_pos rfl, lengthByte, value, grown, Nat.add_right_comm,
          UInt8.ofNat_add (record.value.length + 1), UInt8.ofNat_toNat]
      · rw [← here, Buffer.set_at, if_neg (by omega), copied_at, if_neg (by omega), moved_at,
          if_neg (by omega), here, parts.tagByte]
        rfl
      · rw [← here, value, grown, slice_add]
        congr 1
        · apply slice_frame parts.value
          rw [← here]
          intro offset inside
          rw [Buffer.set_at, if_neg (by omega), copied_at, if_neg (by omega), moved_at,
            if_neg (by omega)]
        · apply slice_congr
          intro offset inside
          rw [Buffer.set_at, if_neg (by omega), copied_at, if_pos (by omega)]
          congr 1
          omega
      · rw [← here, value, grown]
        apply slice_frame parts.back
        rw [← here]
        intro offset inside
        rw [Buffer.set_at, if_neg (by omega), copied_at, if_neg (by omega), moved_at,
          if_pos (by omega)]
        congr 1
        omega
    have whole := (parts_iff _ _ _ _).mp newParts
    rw [value, grown, ← here, show position + (record.value.length + len.toNat + 2) +
      (Ltv.encode after).length = (length + len).toNat by omega] at whole
    exact whole
  · intro index past inside
    rw [newLength] at past
    rw [Buffer.set_at, if_neg (by omega), copied_at, if_neg (by omega), moved_at, if_neg (by omega)]
    exact holds.rest index (by omega) inside
  · rw [newLength]
    exact room
  · apply Buffer.WritesBelow.set
    · apply Buffer.WritesBelow.memcpy
      · exact holds.written.moveUp (by simp only [gapAdvMaxSize]; omega)
      · rw [moved_at position, if_neg (by omega)]
        simp only [gapAdvMaxSize]
        omega
    · simp only [gapAdvMaxSize]
      omega
  · refine sized_replace holds.sized ⟨fun power => ?_, fun appearance => ?_⟩
    · exact absurd (Or.inl power) growing
    · exact absurd (Or.inr appearance) growing

/-- **Refinement**: with room for the value and a header, the code comes to an end, and the packet holds
what `addField` makes of the structures it held. -/
theorem updatePacket_holds {records : List Ltv.Record} (holds : PacketHolds packet length records)
    {type len : UInt8} (data : Memory UInt8)
    (room : length.toNat + len.toNat + 2 ≤ gapAdvMaxSize) (sized : FixedSize type len.toNat) :
    ∃ packet' length', updatePacket packet length type len data = some (packet', length') ∧
      PacketHolds packet' length' (addField type (slice data 0 len.toNat) records) := by
  rcases absent_or_first type records with absent | ⟨before, record, after, rfl, absent, isType⟩
  · rw [addField_absent absent]
    refine ⟨_, _, ?_, append_holds holds data room sized⟩
    rw [updatePacket, findField_absent holds absent]
    rfl
  · have small : (Ltv.encode before).length ≤ gapAdvMaxSize := by
      have := holds.parts.2
      have := holds.fits
      omega
    have position := position_toNat small
    rw [addField_present absent isType]
    by_cases isFixed : fixedLength type
    · have sameLength : record.value.length = len.toNat := by
        have old := holds.sized record (by simp)
        rw [isType] at old
        exact old.unique sized isFixed
      have overwritten := overwrite_holds holds data sameLength
      rw [isType] at overwritten
      rw [if_pos isFixed]
      refine ⟨_, _, ?_, overwritten⟩
      simp only [updatePacket, findField_present holds absent isType, Option.map_some, if_true,
        if_pos isFixed, position]
    · have roomValue : length.toNat + len.toNat ≤ gapAdvMaxSize := by omega
      have extended := extend_holds holds data roomValue (by rwa [isType]) position
      rw [isType] at extended
      rw [if_neg isFixed]
      refine ⟨_, _, ?_, extended⟩
      simp only [updatePacket, findField_present holds absent isType, Option.map_some, if_true,
        if_neg isFixed]

end Update

/-! ### Every sequence of calls -/

/-- A call chooses a packet and a value, or changes nothing. -/
theorem addFieldInPck_holds {packets : AdvPackets} {advRecords scanRecords : List Ltv.Record}
    (adv : PacketHolds packets.advData packets.advDataLength advRecords)
    (scan : PacketHolds packets.scanData packets.scanDataLength scanRecords)
    {type len : UInt8} (data : Memory UInt8) (sized : FixedSize type len.toNat) :
    ∃ packets', packets.addFieldInPck type len data = some packets' ∧
      ∃ advRecords' scanRecords',
        PacketHolds packets'.advData packets'.advDataLength advRecords' ∧
          PacketHolds packets'.scanData packets'.scanDataLength scanRecords' := by
  unfold AdvPackets.addFieldInPck
  split_ifs with inAdv inScan
  · have room : packets.advDataLength.toNat + len.toNat + 2 ≤ gapAdvMaxSize := by
      simp only [advertisementDataMaxValueLength, gapAdvMaxSize] at inAdv ⊢
      omega
    obtain ⟨packet', length', updated, holds⟩ := updatePacket_holds adv data room sized
    rw [updated]
    exact ⟨_, rfl, _, _, holds, scan⟩
  · have room : packets.scanDataLength.toNat + len.toNat + 2 ≤ gapAdvMaxSize := by
      simp only [scanDataMaxValueLength, gapAdvMaxSize] at inScan ⊢
      omega
    obtain ⟨packet', length', updated, holds⟩ := updatePacket_holds scan data room sized
    rw [updated]
    exact ⟨_, rfl, _, _, adv, holds⟩
  · exact ⟨packets, rfl, _, _, adv, scan⟩

/-- **Good packets**: both hold structures. -/
def AdvPackets.Holding (packets : AdvPackets) : Prop :=
  ∃ advRecords scanRecords, PacketHolds packets.advData packets.advDataLength advRecords ∧
    PacketHolds packets.scanData packets.scanDataLength scanRecords

theorem initial_holding : AdvPackets.initial.Holding := by
  refine ⟨[adStructure 0x01 [0x06]], [], ⟨by decide, ?_, by decide, ?_, ?_⟩,
    ⟨rfl, fun _ _ _ => rfl, by decide, ?_, ?_⟩⟩
  · intro index past _
    have behind : ([2, 0x01, 0x06] : List UInt8).length ≤ index := past
    show ([2, 0x01, 0x06] : List UInt8).getD index 0 = 0
    rw [List.getD_eq_getElem?_getD, List.getElem?_eq_none behind]
    rfl
  · intro index member
    cases member
  · intro record member
    obtain rfl := List.mem_singleton.mp member
    exact ⟨by decide, by decide⟩
  · intro index member
    cases member
  · intro record member
    cases member

/-- A type that is not overwritten may have any size. -/
theorem fixedSize_of_not {type : UInt8} (growing : ¬ fixedLength type) (count : Nat) :
    FixedSize type count :=
  ⟨fun power => absurd (Or.inl power) growing, fun appearance => absurd (Or.inr appearance) growing⟩

/-- **One call keeps good packets good.** -/
theorem call_holding {packets : AdvPackets} (holding : packets.Holding) (call : AdvCall) :
    ∃ packets', packets.call call = some packets' ∧ packets'.Holding := by
  obtain ⟨advRecords, scanRecords, adv, scan⟩ := holding
  have field : ∀ (type len : UInt8) (data : Memory UInt8), FixedSize type len.toNat →
      ∃ packets', packets.addFieldInPck type len data = some packets' ∧ packets'.Holding :=
    fun _ _ data sized => addFieldInPck_holds adv scan data sized
  cases call with
  | setAdvertisedServiceUuid uuid =>
    refine field _ _ _ (fixedSize_of_not ?_ _)
    split_ifs <;> decide
  | setServiceSolicitationUuid uuid =>
    refine field _ _ _ (fixedSize_of_not ?_ _)
    split_ifs <;> decide
  | setManufacturerData data length => exact field _ _ _ (fixedSize_of_not (by decide) _)
  | setLocalName name =>
    simp only [AdvPackets.call, AdvPackets.setLocalName]
    split_ifs
    · exact field _ _ _ (fixedSize_of_not (by decide) _)
    · exact field _ _ _ (fixedSize_of_not (by decide) _)
  | setTxPower txPower => exact field _ _ _ ⟨fun _ => rfl, by decide⟩
  | setAppearance appearance => exact field _ _ _ ⟨by decide, fun _ => rfl⟩

/-- A sequence of calls keeps good packets good. -/
theorem calls_holding {packets : AdvPackets} (holding : packets.Holding) (calls : List AdvCall) :
    ∃ packets', calls.foldlM AdvPackets.call packets = some packets' ∧ packets'.Holding := by
  induction calls generalizing packets with
  | nil => exact ⟨packets, rfl, holding⟩
  | cons call rest ih =>
    obtain ⟨next, called, nextHolding⟩ := call_holding holding call
    obtain ⟨last, rest_called, lastHolding⟩ := ih nextHolding
    refine ⟨last, ?_, lastHolding⟩
    rw [List.foldlM_cons, called]
    exact rest_called

end PrimoCore.Ble
