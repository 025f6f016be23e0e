/-
**The advertisements a program can build.**

`begin` hands the packets of the `BLEPeripheral` to the device, and `broadcastCharacteristic` sets a
copy of the advertisement with a service data structure behind it.

* `PacketGood` — a packet fits, parses as AD structures followed by zeros, and nothing was written
  past it.
* `broadcast_wellFormed` — what is broadcast over a packet that holds structures fits and parses.
* `advertisement_wellFormed` — both, after every sequence of calls.
-/

import PrimoCore.Ble.Advertising
import PrimoCore.Ble.Device

namespace PrimoCore.Ble

open PrimoCore.Lib

/-- The part of `begin` that stores the advertisement: `_advData` and `_advDataLen`. -/
def Nrf51822.storeAdvertisement (device : Nrf51822) (packets : AdvPackets) : Nrf51822 :=
  { device with
    advData := (Buffer.memcpy ⟨device.advData, []⟩ 0 packets.advData.bytes
      packets.advDataLength.toNat).bytes
    advDataLen := packets.advDataLength }

/-- **A good packet**: its length and its writes stay inside 31 bytes, its bytes parse as AD structures,
and the array is zero behind them. -/
structure PacketGood (packet : Buffer UInt8) (length : UInt8) : Prop where
  fits : length.toNat ≤ gapAdvMaxSize
  written : packet.WritesBelow gapAdvMaxSize
  parses : (Ltv.parse (slice packet.bytes 0 length.toNat)).isSome
  zeros : ∀ index, length.toNat ≤ index → index < packetArraySize → packet.bytes index = 0

theorem PacketHolds.good {packet : Buffer UInt8} {length : UInt8} {records : List Ltv.Record}
    (holds : PacketHolds packet length records) : PacketGood packet length :=
  ⟨holds.fits, holds.written, (Ltv.parse_isSome_iff _).mpr ⟨records, holds.bytes.symm⟩, holds.rest⟩

/-- The structure `broadcastCharacteristic` adds: the service and the value. -/
def serviceData (uninit : Memory UInt8) (service : CString) (characteristic : LocalCharacteristic) :
    Ltv.Record where
  tag := 0x16
  value := slice ((BLEUuid.ofString service).data uninit) 0 2 ++ characteristic.value
  fits := by
    have short := characteristic.short
    simp only [attributeMaxValueLength] at short
    rw [List.length_append, slice_length]
    omega

section Broadcast

variable {packets : AdvPackets} {records : List Ltv.Record} (device : Nrf51822) (uninit : Memory UInt8)
  (service : CString) (characteristic : LocalCharacteristic)

theorem valueLength_toNat :
    characteristic.valueLength.toNat = characteristic.value.length := by
  have short := characteristic.short
  simp only [attributeMaxValueLength] at short
  rw [LocalCharacteristic.valueLength, UInt8.toNat_ofNat']
  omega

/-- The length byte and the length of the broadcast advertisement do not wrap. -/
theorem broadcast_lengths (fits : packets.advDataLength.toNat ≤ gapAdvMaxSize) :
    (3 + characteristic.valueLength).toNat = characteristic.value.length + 3 ∧
      (packets.advDataLength + (4 + characteristic.valueLength)).toNat =
        packets.advDataLength.toNat + (characteristic.value.length + 4) := by
  have short := characteristic.short
  have length := valueLength_toNat characteristic
  simp only [attributeMaxValueLength, gapAdvMaxSize] at short fits
  have three : (3 + characteristic.valueLength).toNat = characteristic.value.length + 3 := by
    rw [toNat_add_small (by simp; omega), length, Nat.add_comm]
    rfl
  have four : (4 + characteristic.valueLength).toNat = characteristic.value.length + 4 := by
    rw [toNat_add_small (by simp; omega), length, Nat.add_comm]
    rfl
  exact ⟨three, by rw [toNat_add_small (by omega), four]⟩

/-- **What is set is the advertisement, and the service data structure behind it.** -/
theorem broadcastData_eq (holds : PacketHolds packets.advData packets.advDataLength records)
    {data : List UInt8}
    (sent : (device.storeAdvertisement packets).broadcastData uninit service characteristic =
      some data) :
    data = Ltv.encode (records ++ [serviceData uninit service characteristic]) ∧
      data.length ≤ gapAdvMaxSize := by
  obtain ⟨three, total⟩ := broadcast_lengths characteristic holds.fits
  have count := congrArg List.length holds.bytes
  rw [slice_length] at count
  simp only [Nrf51822.broadcastData] at sent
  split at sent
  · rename_i room
    replace room : packets.advDataLength + (4 + characteristic.valueLength) ≤ 31 := room
    rw [UInt8.le_iff_toNat_le, total] at room
    obtain rfl := Option.some.inj sent
    simp only [Nrf51822.storeAdvertisement]
    constructor
    · have valueSize : (serviceData uninit service characteristic).value.length =
          2 + characteristic.value.length := by
        simp [serviceData]
      have size : (packets.advDataLength + (4 + characteristic.valueLength)).toNat =
          (Ltv.encode records).length + ((serviceData uninit service characteristic).value.length + 2) +
            (Ltv.encode []).length := by
        rw [total, valueSize, ← count, Ltv.encode_nil, List.length_nil]
        omega
      rw [size]
      apply (parts_iff _ _ _ _).mp
      refine ⟨?_, ?_, ?_, ?_, rfl⟩
      · apply slice_frame (by rw [← count]; exact holds.bytes)
        rw [← count]
        intro offset inside
        simp only [Buffer.memcpy_at, Buffer.set_at]
        rw [if_neg (by omega), if_neg (by omega), if_neg (by omega), if_neg (by omega),
          if_pos (by omega), if_pos (by omega)]
        rfl
      · rw [← count, valueSize]
        simp only [Buffer.memcpy_at, Buffer.set_at]
        rw [if_neg (by omega), if_neg (by omega), if_neg (by omega), if_pos (by omega)]
        apply UInt8.toNat_inj.mp
        have small := (serviceData uninit service characteristic).lengthByte_toNat
        rw [valueSize] at small
        rw [three, small]
        omega
      · rw [← count]
        simp only [Buffer.memcpy_at, Buffer.set_at]
        rw [if_neg (by omega), if_neg (by omega), if_pos trivial]
        rfl
      · rw [← count, valueSize, slice_add]
        show _ = slice ((BLEUuid.ofString service).data uninit) 0 2 ++ characteristic.value
        congr 1
        · apply slice_congr
          intro offset inside
          simp only [Buffer.memcpy_at]
          rw [if_neg (by omega), if_pos (by omega)]
          congr 1
          omega
        · apply List.ext_getElem
          · rw [slice_length]
          · intro index first second
            rw [getElem_slice]
            simp only [Buffer.memcpy_at, valueLength_toNat]
            rw [if_pos (by omega),
              show packets.advDataLength.toNat + 2 + 2 + index -
                (packets.advDataLength.toNat + 4) = index by omega]
            simp [second]
    · rw [slice_length, total]
      exact room
  · cases sent

/-- A broadcast sets at most one advertisement, the one `broadcastData` gives. -/
theorem broadcastData_of_broadcast {device : Nrf51822} {data : List UInt8}
    (sent : .call (.gapAdvDataSet data) ∈ (device.broadcast uninit characteristic).2.1) :
    ∃ service, device.broadcastData uninit service characteristic = some data := by
  unfold Nrf51822.broadcast at sent
  split at sent
  · cases sent
  · split at sent
    · rename_i service _
      split at sent
      · split at sent
        · rename_i payload given
          refine ⟨service, ?_⟩
          have same : data = payload := by simpa using sent
          rw [same]
          exact given
        · cases sent
      · cases sent
    · cases sent

/-- **What is broadcast over a packet of structures fits and parses.** -/
theorem broadcast_wellFormed (holds : PacketHolds packets.advData packets.advDataLength records)
    {data : List UInt8} (sent : .call (.gapAdvDataSet data) ∈
      ((device.storeAdvertisement packets).broadcast uninit characteristic).2.1) :
    data.length ≤ gapAdvMaxSize ∧ (Ltv.parse data).isSome := by
  obtain ⟨service, given⟩ := broadcastData_of_broadcast uninit characteristic sent
  obtain ⟨same, fits⟩ := broadcastData_eq device uninit service characteristic holds given
  exact ⟨fits, (Ltv.parse_isSome_iff data).mpr ⟨_, same.symm⟩⟩

end Broadcast

/-- **After every sequence of calls both packets are good, and so is what is broadcast over the
advertisement.** -/
theorem advertisement_wellFormed (calls : List AdvCall) :
    ∃ packets, AdvPackets.afterCalls calls = some packets ∧
      PacketGood packets.advData packets.advDataLength ∧
      PacketGood packets.scanData packets.scanDataLength ∧
      ∀ (device : Nrf51822) (uninit : Memory UInt8) (characteristic : LocalCharacteristic)
        (data : List UInt8),
        .call (.gapAdvDataSet data) ∈
          ((device.storeAdvertisement packets).broadcast uninit characteristic).2.1 →
        data.length ≤ gapAdvMaxSize ∧ (Ltv.parse data).isSome := by
  obtain ⟨packets, called, advRecords, scanRecords, adv, scan⟩ :=
    calls_holding initial_holding (.setAppearance 0x0000 :: calls)
  exact ⟨packets, called, adv.good, scan.good, fun device uninit characteristic _ sent =>
    broadcast_wellFormed device uninit characteristic adv sent⟩

end PrimoCore.Ble
