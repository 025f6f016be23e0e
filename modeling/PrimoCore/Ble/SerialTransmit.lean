/-
**The transmit half of `BLESerial`.**

`write` collects bytes, and `flush` hands them to the transmit characteristic, whose value the device sends
in a notification where it has credit. `flush` empties the buffer whatever the device has made of it.

* `SubscriptionTable.Notifying` — the peer is subscribed; `Polled.Keeps` — and stays so in a poll.
* `pollDevice_keeps` — what a poll leaves alone.
* `notified_update` — what the stack takes of an update; `flush_spec` — what it takes of a `flush`.
* `Transmission` — a run, with all calls of the stack and the bytes `write` has returned 1 for.
* `transmission_iff` — **every byte is delivered or pending exactly when** each `flush` of some bytes finds
  credit, and the stack accepts the notification.
-/

import PrimoCore.Ble.Serial
import PrimoCore.Ble.Subscription

namespace PrimoCore.Ble

open PrimoCore.Lib

/-! ### The peer stays subscribed -/

namespace SubscriptionTable

/-- A characteristic has an entry with these handles, its value handle is its own, and the peer is
subscribed to its notifications. -/
structure Notifying (table : SubscriptionTable) (characteristic : Nat) (handle cccd : UInt16) : Prop where
  distinct : table.Distinct
  entry : ∃ info ∈ table.infos, info.characteristic = characteristic ∧ info.valueHandle = handle ∧
    info.cccdHandle = cccd ∧ info.notifySubscribed = true
  own : ∀ info ∈ table.infos, info.valueHandle = handle → info.characteristic = characteristic
  subscribed : table.subscribed characteristic = true

/-- A write that leaves the bit of the notifications set. -/
theorem Notifying.write {table : SubscriptionTable} {characteristic : Nat} {handle cccd : UInt16}
    (notifying : table.Notifying characteristic handle cccd) {written : UInt16} {data : List UInt8}
    (stays : written = cccd → (cccdFlags data).1 = true) :
    (table.write written data).Notifying characteristic handle cccd := by
  obtain ⟨distinct, ⟨info, member, isEntry, value, isCccd, notify⟩, own, subscribed⟩ := notifying
  refine ⟨distinct.congr (write_layout table written data), ?_, ?_, ?_⟩
  · refine ⟨_, List.mem_map_of_mem member, ?_⟩
    split_ifs with hit
    · exact ⟨isEntry, value, isCccd, stays (hit.symm.trans isCccd)⟩
    · exact ⟨isEntry, value, isCccd, notify⟩
  · intro other inside same
    obtain ⟨original, was, rfl⟩ := List.mem_map.mp inside
    split_ifs at same ⊢
    · exact own original was same
    · exact own original was same
  · simp only [SubscriptionTable.write]
    split_ifs with hit
    · obtain ⟨other, inside, found⟩ := List.any_eq_true.mp hit
      obtain ⟨cccdHit, sameCharacteristic⟩ := of_decide_eq_true found
      have same := distinct.eq_of_characteristic inside member (sameCharacteristic.trans isEntry.symm)
      rw [stays (cccdHit.symm.trans (same ▸ isCccd)), Bool.true_or]
    · exact subscribed

end SubscriptionTable

/-- The link stays up, the peer does not write the value, and leaves its notifications on. -/
def StackEvent.KeepsPeer (handle cccd : UInt16) (event : StackEvent) : Prop :=
  match event.params with
  | .connected _ _ | .disconnected _ => False
  | .gattsWrite written data =>
      written ≠ 0 ∧ written ≠ handle ∧ (written = cccd → (cccdFlags data).1 = true)
  | _ => True

/-- **The peer stays subscribed** in a poll. -/
def Polled.Keeps (handle cccd : UInt16) (polled : Polled) : Prop :=
  ∀ event ∈ polled.event, event.KeepsPeer handle cccd

namespace Nrf51822

variable {device : Nrf51822} {characteristic : Nat} {handle cccd : UInt16}

theorem poll_notifying (notifying : device.table.Notifying characteristic handle cccd)
    {event : StackEvent} (keeps : event.KeepsPeer handle cccd) :
    (device.poll event).1.table.Notifying characteristic handle cccd := by
  by_cases touches : event.touchesTable = false
  · rw [poll_table device touches]
    exact notifying
  · obtain ⟨connHandle, params⟩ := event
    cases params with
    | gattsWrite written data =>
      obtain ⟨proper, -, stays⟩ := keeps
      have loop := SubscriptionTable.writeLoop_eq data proper notifying.distinct []
      show (device.writeLocal written data [] device.localCharacteristicInfo).1.table.Notifying _ _ _
      rw [writeLocal_table]
      exact loop ▸ notifying.write stays
    | disconnected reason => exact keeps.elim
    | _ => exact absurd rfl touches

/-- The loop of a write tells of a value with the handle. -/
theorem writeLocal_values (device : Nrf51822) (written : UInt16) (data : List UInt8)
    (passed infos : List LocalCharacteristicInfo) {changed : Nat} {value : List UInt8}
    (member : .notice (.valueChanged changed value) ∈ (device.writeLocal written data passed infos).2) :
    ∃ info ∈ infos, info.valueHandle = written ∧ info.characteristic = changed := by
  induction infos generalizing passed with
  | nil => cases member
  | cons info rest ih =>
    have later : ∀ entry, .notice (.valueChanged changed value) ∈
        (device.writeLocal written data (passed ++ [entry]) rest).2 →
          ∃ other ∈ info :: rest, other.valueHandle = written ∧ other.characteristic = changed := by
      intro entry inside
      obtain ⟨other, found, handles⟩ := ih _ inside
      exact ⟨other, List.mem_cons_of_mem _ found, handles⟩
    simp only [writeLocal] at member
    split_ifs at member with isValue isCccd differs
    · simp only [List.mem_singleton, Output.notice.injEq, Notice.valueChanged.injEq] at member
      exact ⟨info, List.mem_cons_self .., isValue, member.1.symm⟩
    · simp at member
    · exact later _ member
    · exact later _ member

/-- A value changes where the peer writes it. -/
theorem poll_values {event : StackEvent} {changed : Nat} {value : List UInt8}
    (keeps : event.KeepsPeer handle cccd)
    (member : .notice (.valueChanged changed value) ∈ (device.poll event).2) :
    ∃ info ∈ device.localCharacteristicInfo,
      info.valueHandle ≠ handle ∧ info.characteristic = changed := by
  obtain ⟨connHandle, params⟩ := event
  have remote : ∀ remoteHandle data,
      .notice (.valueChanged changed value) ∉ device.remoteValue remoteHandle data := by
    intro remoteHandle data
    unfold remoteValue
    split <;> simp
  cases params with
  | gattsWrite written data =>
    obtain ⟨info, inside, isValue, isEntry⟩ := device.writeLocal_values written data [] _ member
    exact ⟨info, inside, fun same => keeps.2.1 (isValue.symm.trans same), isEntry⟩
  | connected peerAddr txPacketCount => exact keeps.elim
  | disconnected reason => exact keeps.elim
  | advReport report => simp [poll] at member
  | txComplete count => simp [poll] at member
  | sysAttrMissing => simp [poll] at member
  | primSrvcDiscRsp gattStatus services last =>
    simp only [poll, onServices] at member
    split_ifs at member
    · simp at member
    · split at member <;> simp at member
    · simp at member
  | charDiscRsp gattStatus chars =>
    simp only [poll, onChars] at member
    split_ifs at member
    · simp at member
    · split at member <;> simp at member
    · simp at member
  | readRsp gattStatus remoteHandle data =>
    simp only [poll, onReadRsp] at member
    split_ifs at member
    · simp at member
    · exact absurd member (remote _ _)
    · simp at member
  | writeRsp gattStatus =>
    simp only [poll, onWriteRsp] at member
    split_ifs at member <;> simp at member
  | hvx type remoteHandle data =>
    simp only [poll, onHvx, List.mem_append] at member
    rcases member with confirm | told
    · split_ifs at confirm <;> simp at confirm
    · exact absurd told (remote _ _)

/-- The calls of an event are no notifications. -/
theorem poll_silent {event : StackEvent} (keeps : event.KeepsPeer handle cccd) (codes : Nat → UInt32) :
    Silent handle (answered codes (device.poll event).2) := by
  refine silent_of_transfers (fun connHandle => ?_) codes
  have inConnection : (DeviceInput.event event).inConnection := by
    obtain ⟨connHandle, params⟩ := event
    cases params with
    | connected peerAddr txPacketCount => exact keeps.elim
    | disconnected reason => exact keeps.elim
    | _ => rfl
  rw [(poll_credit device event inConnection).1]
  exact List.not_mem_nil

/-! ### What an update sends -/

theorem mem_attempts {updated : Nat} {infos : List LocalCharacteristicInfo} {value : UInt16 × HvxType}
    (member : value ∈ attempts updated infos) :
    ∃ info ∈ infos, info.characteristic = updated ∧ info.valueHandle = value.1 := by
  induction infos with
  | nil => cases member
  | cons info rest ih =>
    have later : value ∈ attempts updated rest → ∃ other ∈ info :: rest,
        other.characteristic = updated ∧ other.valueHandle = value.1 := by
      intro inside
      obtain ⟨other, found, handles⟩ := ih inside
      exact ⟨other, List.mem_cons_of_mem _ found, handles⟩
    rw [attempts] at member
    split_ifs at member with isEntry
    · rcases List.mem_append.mp member with here | after
      · refine ⟨info, List.mem_cons_self .., isEntry, ?_⟩
        rw [LocalCharacteristicInfo.values, List.mem_append] at here
        rcases here with here | here
        all_goals
          split_ifs at here
          · rw [List.mem_singleton.mp here]
          · cases here
      · exact later after
    · exact later member

/-- An update of another characteristic is silent. -/
theorem update_silent_of_ne (device : Nrf51822) (uninit : Memory UInt8)
    (updated : LocalCharacteristic) (codes : Nat → UInt32)
    (others : ∀ info ∈ device.localCharacteristicInfo, info.valueHandle = handle →
      info.characteristic ≠ updated.id) :
    Silent handle (answered codes (device.updateCharacteristicValue uninit updated).2.1) := by
  refine silent_of_transfers (fun connHandle member => ?_) codes
  have sends := updateEntries_sends device uninit updated device.localCharacteristicInfo
  rw [updateCharacteristicValue, sends.sent] at member
  obtain ⟨value, inside, same⟩ := List.mem_map.mp member
  obtain ⟨info, found, isEntry, isValue⟩ := mem_attempts (List.mem_of_mem_take inside)
  simp only [hvxCall, StackCall.gattsHvx.injEq] at same
  exact others info found (isValue.trans same.2.1) isEntry

theorem updateEntries_absent (device : Nrf51822) (uninit : Memory UInt8)
    (updated : LocalCharacteristic) {infos : List LocalCharacteristicInfo}
    (absent : ∀ info ∈ infos, info.characteristic ≠ updated.id) :
    device.updateEntries uninit updated infos = (device, [], true) := by
  induction infos with
  | nil => rfl
  | cons info rest ih =>
    rw [updateEntries, if_neg (absent info (List.mem_cons_self ..))]
    exact ih fun other member => absent other (List.mem_cons_of_mem _ member)

/-- With one entry, an update is the one of the entry. -/
theorem updateEntries_outputs (device : Nrf51822) (uninit : Memory UInt8)
    (updated : LocalCharacteristic) {infos : List LocalCharacteristicInfo}
    {info : LocalCharacteristicInfo} (member : info ∈ infos) (isEntry : info.characteristic = updated.id)
    (once : (infos.map LocalCharacteristicInfo.characteristic).Nodup) :
    (device.updateEntries uninit updated infos).2.1 =
      (device.updateEntry uninit updated info).2.1 := by
  induction infos with
  | nil => cases member
  | cons first rest ih =>
    rw [List.map_cons, List.nodup_cons] at once
    rcases List.mem_cons.mp member with rfl | later
    · have absent : ∀ other ∈ rest, other.characteristic ≠ updated.id := by
        intro other inside same
        refine once.1 ?_
        rw [isEntry, ← same]
        exact List.mem_map_of_mem inside
      simp only [updateEntries, if_pos isEntry, updateEntries_absent _ uninit updated absent,
        List.append_nil]
    · have other : first.characteristic ≠ updated.id := by
        intro same
        refine once.1 ?_
        rw [same, ← isEntry]
        exact List.mem_map_of_mem later
      rw [updateEntries, if_neg other]
      exact ih later once.2

/-- **What the stack takes of an update** the peer is subscribed to: the value, where the device has credit
and the stack accepts the notification. -/
theorem notified_update (notifying : device.table.Notifying characteristic handle cccd)
    (uninit : Memory UInt8) {updated : LocalCharacteristic} (isIt : updated.id = characteristic)
    (codes : Nat → UInt32) (held : List UInt8) :
    notified handle held (answered codes (device.updateCharacteristicValue uninit updated).2.1) =
      if 0 < device.txBufferCount ∧ codes 0 = nrfSuccess then updated.value else [] := by
  obtain ⟨distinct, ⟨info, member, isEntry, isValue, -, notify⟩, -, -⟩ := notifying
  have once : (device.updateCharacteristicValue uninit updated).2.1 =
      (device.updateEntry uninit updated info).2.1 :=
    updateEntries_outputs device uninit updated member (isEntry.trans isIt.symm)
      distinct.characteristics
  have advertised := advertise_sends device uninit updated
  rw [once]
  simp only [updateEntry]
  generalize (if device.broadcastCharacteristic = some updated.id then
    device.broadcast uninit updated else (device, [], false)) = first at advertised ⊢
  have credit : first.1.txBufferCount = device.txBufferCount :=
    UInt8.toNat_inj.mp advertised.credit
  have quiet : transfers first.2.1 = [] := by
    rw [advertised.sent, List.take_nil, List.map_nil]
  have advertisedSilent : Silent handle (answered codes first.2.1) :=
    silent_of_transfers (fun connHandle => quiet ▸ List.not_mem_nil) codes
  rw [answered_append, notified_append, notified_of_silent advertisedSilent, quiet]
  have stored : ∀ before rest, notified handle before (answered codes
      (.call (.gattsValueSet info.valueHandle updated.value) :: rest)) =
        notified handle updated.value (answered codes rest) := by
    intro before rest
    simp only [answered, StackCall.isTransfer, notified, isValue, if_true, Bool.false_eq_true, if_false]
  have indicated : ∀ (later : Nrf51822) (answers : Nat → UInt32), Silent handle (answered answers
      (later.sendValue info.indicateSubscribed info.valueHandle .indication).2.1) := by
    intro later answers
    refine silent_of_transfers (fun connHandle => ?_) answers
    unfold sendValue
    split_ifs <;> simp [transfers, StackCall.isTransfer]
  show notified handle _ (answered codes _) = _
  rw [stored, answered_append, notified_append, notified_of_silent (indicated _ _), List.append_nil]
  simp only [sendValue, notify, if_true, credit, isValue]
  by_cases some_credit : 0 < device.txBufferCount
  · simp only [some_credit, if_true, true_and, answered, StackCall.isTransfer, notified, List.append_nil]
  · simp only [some_credit, if_false, false_and]
    rfl

end Nrf51822

namespace BLESerial

variable {serial : BLESerial} {handle cccd : UInt16}

/-! ### A poll -/

/-- The peer is subscribed to the transmit characteristic. -/
def Ready (serial : BLESerial) (handle cccd : UInt16) : Prop :=
  serial.device.table.Notifying serial.txCharacteristic.id handle cccd

/-- The buffer and the characteristic of the transmit half are the same. -/
structure SameTx (before after : BLESerial) : Prop where
  count : after.txCount = before.txCount
  buffer : after.txBuffer = before.txBuffer
  identity : after.txCharacteristic.id = before.txCharacteristic.id

theorem SameTx.pending {before after : BLESerial} (same : SameTx before after) :
    after.pending = before.pending := by
  rw [BLESerial.pending, BLESerial.pending, same.count, same.buffer]

theorem SameTx.trans {first middle last : BLESerial} (one : SameTx first middle)
    (two : SameTx middle last) : SameTx first last :=
  ⟨two.count.trans one.count, two.buffer.trans one.buffer, two.identity.trans one.identity⟩

theorem valueChanged_sameTx (serial : BLESerial) (polled : Polled) (characteristic : Nat)
    (data : List UInt8) : SameTx serial (serial.valueChanged polled characteristic data).1 := by
  unfold valueChanged
  split_ifs <;> exact ⟨rfl, rfl, rfl⟩

theorem told_sameTx (serial : BLESerial) (polled : Polled) (outputs : List (Output Notice)) :
    SameTx serial (serial.told polled outputs).1 := by
  induction outputs generalizing serial with
  | nil => exact ⟨rfl, rfl, rfl⟩
  | cons output rest ih =>
    unfold told
    split
    · exact ⟨rfl, rfl, rfl⟩
    · rename_i same
      obtain ⟨-, rfl⟩ := List.cons.inj same
      exact (valueChanged_sameTx serial polled _ _).trans (ih _)
    · rename_i same
      obtain ⟨-, rfl⟩ := List.cons.inj same
      exact ih serial

/-- A poll leaves the buffer alone. -/
theorem pollDevice_sameTx (serial : BLESerial) (polled : Polled) :
    SameTx serial (serial.pollDevice polled).1 := by
  unfold pollDevice
  split
  · exact ⟨rfl, rfl, rfl⟩
  · rename_i event _
    obtain ⟨count, buffer, identity⟩ :=
      told_sameTx { serial with device := (serial.device.poll event).1 } polled
        (serial.device.poll event).2
    exact ⟨count, buffer, identity⟩

/-- The value of another characteristic changes. -/
theorem valueChanged_keeps (ready : serial.Ready handle cccd) (polled : Polled) {characteristic : Nat}
    (other : characteristic ≠ serial.txCharacteristic.id) (data : List UInt8) :
    (serial.valueChanged polled characteristic data).1.Ready handle cccd ∧
      Silent handle (serial.valueChanged polled characteristic data).2 := by
  unfold valueChanged
  split_ifs with isRx
  · refine ⟨?_, ?_⟩
    · show (Nrf51822.updateEntries _ _ _ _).1.table.Notifying _ _ _
      rw [Nrf51822.updateEntries_table]
      exact ready
    · refine Nrf51822.update_silent_of_ne _ _ _ _ fun info member isValue isEntry => other ?_
      rw [isRx]
      exact isEntry.symm.trans (ready.own info member isValue)
  · exact ⟨ready, silent_nil handle⟩

theorem told_keeps (ready : serial.Ready handle cccd) (polled : Polled) {outputs : List (Output Notice)}
    (others : ∀ characteristic data, .notice (.valueChanged characteristic data) ∈ outputs →
      characteristic ≠ serial.txCharacteristic.id) :
    (serial.told polled outputs).1.Ready handle cccd ∧
      Silent handle (serial.told polled outputs).2 := by
  induction outputs generalizing serial with
  | nil => exact ⟨ready, silent_nil handle⟩
  | cons output rest ih =>
    unfold told
    split
    · exact ⟨ready, silent_nil handle⟩
    · rename_i characteristic data tail same
      obtain ⟨rfl, rfl⟩ := List.cons.inj same
      have other := others characteristic data (List.mem_cons_self ..)
      have identity := (valueChanged_sameTx serial polled characteristic data).identity
      obtain ⟨still, silent⟩ := valueChanged_keeps ready polled other data
      obtain ⟨after, more⟩ := ih still fun changed value member =>
        identity ▸ others changed value (List.mem_cons_of_mem _ member)
      exact ⟨after, silent.append more⟩
    · rename_i same
      obtain ⟨-, rfl⟩ := List.cons.inj same
      exact ih ready fun changed value member => others changed value (List.mem_cons_of_mem _ member)

/-- **A poll in which the peer stays subscribed** sends no notification of the transmit characteristic. -/
theorem pollDevice_keeps (ready : serial.Ready handle cccd) {polled : Polled}
    (keeps : polled.Keeps handle cccd) :
    (serial.pollDevice polled).1.Ready handle cccd ∧ Silent handle (serial.pollDevice polled).2 := by
  unfold pollDevice
  split
  · exact ⟨ready, silent_nil handle⟩
  · rename_i event isEvent
    have kept := keeps event isEvent
    have others : ∀ characteristic data,
        .notice (.valueChanged characteristic data) ∈ (serial.device.poll event).2 →
          characteristic ≠ serial.txCharacteristic.id := by
      rintro characteristic data member rfl
      obtain ⟨info, inside, different, isEntry⟩ := Nrf51822.poll_values kept member
      obtain ⟨entry, entryInside, entryIs, isValue, -⟩ := ready.entry
      have same := ready.distinct.eq_of_characteristic inside entryInside (isEntry.trans entryIs.symm)
      exact different (same ▸ isValue)
    have polledReady : Ready { serial with device := (serial.device.poll event).1 } handle cccd :=
      Nrf51822.poll_notifying ready kept
    obtain ⟨after, silent⟩ := told_keeps polledReady polled others
    exact ⟨after, (Nrf51822.poll_silent kept polled.codes).append silent⟩

/-! ### A flush -/

/-- The device has credit, and the stack accepts the notification. -/
def Accepted (serial : BLESerial) (flushing : Flushing) : Prop :=
  0 < serial.device.txBufferCount ∧ flushing.codes 0 = nrfSuccess

instance (serial : BLESerial) (flushing : Flushing) : Decidable (serial.Accepted flushing) :=
  inferInstanceAs (Decidable (_ ∧ _))

/-- A `flush` leaves the buffer empty. -/
theorem flush_count (serial : BLESerial) (flushing : Flushing) :
    (serial.flush flushing).1.txCount = 0 := by
  unfold flush
  split_ifs with empty
  · exact empty
  · exact (pollDevice_sameTx _ flushing.polled).count

/-- The value of the transmit characteristic is set. -/
theorem setValue_notified (ready : serial.Ready handle cccd) (uninit : Memory UInt8)
    (codes : Nat → UInt32) {value : List UInt8} (fits : value.length ≤ attributeMaxValueLength)
    (held : List UInt8) :
    notified handle held (serial.txCharacteristic.setValue value serial.device uninit codes).2.2.1 =
      if 0 < serial.device.txBufferCount ∧ codes 0 = nrfSuccess then value else [] := by
  have taken := Nrf51822.notified_update ready uninit
    (rfl : (serial.txCharacteristic.setValue value serial.device uninit codes).1.id = _) codes held
  refine taken.trans ?_
  show (if _ then value.take attributeMaxValueLength else []) = _
  rw [List.take_of_length_le fits]

/-- **A `flush`**: the stack takes the bytes in the buffer, or they are gone. -/
theorem flush_spec (ready : serial.Ready handle cccd) {flushing : Flushing}
    (keeps : flushing.polled.Keeps handle cccd) (room : serial.txCount ≤ attributeMaxValueLength)
    (held : List UInt8) : (serial.flush flushing).1.Ready handle cccd ∧
      notified handle held (serial.flush flushing).2 =
        if serial.Accepted flushing then serial.pending else [] := by
  unfold flush
  by_cases empty : serial.txCount = 0
  · have none : serial.pending = [] := by
      rw [pending, empty]
      rfl
    rw [if_pos empty, none, ite_self]
    exact ⟨ready, rfl⟩
  · have fits : serial.pending.length ≤ attributeMaxValueLength := by
      rw [pending, slice_length]
      exact room
    have taken := setValue_notified ready flushing.uninit flushing.codes fits
    have updatedReady : Ready { serial with
        device := (serial.txCharacteristic.setValue serial.pending serial.device flushing.uninit
          flushing.codes).2.1
        txCharacteristic := (serial.txCharacteristic.setValue serial.pending serial.device
          flushing.uninit flushing.codes).1
        flushed := flushing.millis
        txCount := 0 } handle cccd := by
      show (Nrf51822.updateEntries _ _ _ _).1.table.Notifying _ _ _
      rw [Nrf51822.updateEntries_table]
      exact ready
    obtain ⟨after, silent⟩ := pollDevice_keeps updatedReady keeps
    rw [if_neg empty]
    refine ⟨after, ?_⟩
    rw [notified_append, taken, notified_of_silent silent, List.append_nil]
    rfl

end BLESerial

/-! ### Runs -/

/-- What can happen: a call, with what it meets. -/
inductive SerialInput where
  | write (byte : UInt8) (polled : Polled) (flushing : Flushing)
  | flush (flushing : Flushing)
  | poll (millis : UInt32) (polled : Polled) (flushing : Flushing)
  | receive (call : ReceiveCall) (polled : Polled)

/-- A run: the object, the calls the stack has got, and the bytes for which `write` has returned 1. -/
structure Transmission where
  serial : BLESerial
  log : List (StackCall × UInt32)
  written : List UInt8

namespace Transmission

/-- A run begins, perhaps with some bytes in the buffer. -/
def start (serial : BLESerial) : Transmission := ⟨serial, [], serial.pending⟩

def step (run : Transmission) : SerialInput → Transmission
  | .write byte polled flushing =>
      let (result, serial, log) := run.serial.write byte polled flushing
      ⟨serial, run.log ++ log, if result = 1 then run.written ++ [byte] else run.written⟩
  | .flush flushing =>
      let (serial, log) := run.serial.flush flushing
      { run with serial := serial, log := run.log ++ log }
  | .poll millis polled flushing =>
      let (serial, log) := run.serial.poll millis polled flushing
      { run with serial := serial, log := run.log ++ log }
  | .receive call polled =>
      let (_, serial, log) := run.serial.receive call polled
      { run with serial := serial, log := run.log ++ log }

/-- The peer stays subscribed in all polls of a call. -/
def Legal (handle cccd : UInt16) (_ : Transmission) : SerialInput → Prop
  | .write _ polled flushing | .poll _ polled flushing =>
      polled.Keeps handle cccd ∧ flushing.polled.Keeps handle cccd
  | .flush flushing => flushing.polled.Keeps handle cccd
  | .receive _ polled => polled.Keeps handle cccd

/-- There is room in the buffer. -/
def Room (run : Transmission) : Prop := run.serial.txCount < attributeMaxValueLength

/-- **Every byte written** has been taken by the stack in a notification, in order and once, or is in the
buffer. -/
def Delivered (handle : UInt16) (run : Transmission) : Prop :=
  notified handle [] run.log ++ run.serial.pending = run.written

/-- The condition on a step: a `flush` of some bytes, wherever it comes from, is accepted. -/
def Sends (run : Transmission) : SerialInput → Prop
  | .write byte polled flushing =>
      let serial := (run.serial.pollDevice polled).1
      serial.txCount + 1 = attributeMaxValueLength ∨ byte = BLESerial.newline →
        serial.Accepted flushing
  | .flush flushing => run.serial.txCount ≠ 0 → run.serial.Accepted flushing
  | .poll millis _ flushing =>
      ¬ millis < run.serial.flushed + 100 → run.serial.txCount ≠ 0 → run.serial.Accepted flushing
  | .receive _ _ => True

instance (run : Transmission) (input : SerialInput) : Decidable (run.Sends input) :=
  match input with
  | .write .. => inferInstanceAs (Decidable (_ ∨ _ → _))
  | .flush _ => inferInstanceAs (Decidable (_ → _))
  | .poll .. => inferInstanceAs (Decidable (_ → _ → _))
  | .receive .. => isTrue trivial

/-! ### One step -/

/-- **No step fills the buffer.** -/
theorem step_room (run : Transmission) (input : SerialInput) (room : run.Room) :
    (run.step input).Room := by
  have polledCount : ∀ polled, (run.serial.pollDevice polled).1.txCount = run.serial.txCount :=
    fun polled => (run.serial.pollDevice_sameTx polled).count
  have flushed : ∀ (serial : BLESerial) flushing,
      (serial.flush flushing).1.txCount < attributeMaxValueLength := by
    intro serial flushing
    rw [serial.flush_count]
    decide
  cases input with
  | write byte polled flushing =>
    simp only [Room, step, BLESerial.write]
    split_ifs with unsubscribed full
    · exact (polledCount polled).symm ▸ room
    · exact flushed _ _
    · have below := not_or.mp full
      have grown := polledCount polled
      simp only [Room] at room
      show _ + 1 < _
      have notFull : (run.serial.pollDevice polled).1.txCount + 1 ≠ attributeMaxValueLength := below.1
      omega
  | flush flushing => exact flushed _ _
  | poll millis polled flushing =>
    simp only [Room, step, BLESerial.poll]
    split_ifs
    · exact (polledCount polled).symm ▸ room
    · exact flushed _ _
  | receive call polled =>
    show (run.serial.pollDevice polled).1.txCount < _
    rw [polledCount]
    exact room

variable {handle cccd : UInt16}

/-- Some bytes are delivered or in a buffer: after a `flush` they still are exactly when there was nothing
in it, or the `flush` is accepted. -/
theorem flush_delivered_iff {serial : BLESerial} (ready : serial.Ready handle cccd)
    {flushing : Flushing} (keeps : flushing.polled.Keeps handle cccd)
    (room : serial.txCount ≤ attributeMaxValueLength) {log : List (StackCall × UInt32)}
    {written : List UInt8} (delivered : notified handle [] log ++ serial.pending = written) :
    notified handle [] (log ++ (serial.flush flushing).2) ++ (serial.flush flushing).1.pending = written ↔
      (serial.txCount ≠ 0 → serial.Accepted flushing) := by
  have emptied : (serial.flush flushing).1.pending = [] := by
    rw [BLESerial.pending, serial.flush_count]
    rfl
  rw [notified_append, (BLESerial.flush_spec ready keeps room _).2, emptied, List.append_nil]
  by_cases accepted : serial.Accepted flushing
  · rw [if_pos accepted]
    exact iff_of_true delivered fun _ => accepted
  · rw [if_neg accepted, ← delivered, List.append_cancel_left_eq]
    have length : serial.pending.length = serial.txCount := slice_length ..
    constructor
    · intro none some_bytes
      rw [← none] at length
      exact absurd length.symm some_bytes
    · intro only
      have zero : serial.txCount = 0 := not_not.mp (mt only accepted)
      rw [zero] at length
      exact (List.eq_nil_of_length_eq_zero length).symm

/-- A poll delivers nothing, and takes nothing from the buffer. -/
theorem poll_delivered {run : Transmission} (ready : run.serial.Ready handle cccd)
    (delivered : run.Delivered handle) {polled : Polled} (keeps : polled.Keeps handle cccd) :
    notified handle [] (run.log ++ (run.serial.pollDevice polled).2) ++
      (run.serial.pollDevice polled).1.pending = run.written := by
  rw [notified_append, notified_of_silent (BLESerial.pollDevice_keeps ready keeps).2, List.append_nil,
    (run.serial.pollDevice_sameTx polled).pending]
  exact delivered

/-- A byte is put into the buffer. -/
theorem pending_push (serial : BLESerial) (byte : UInt8) :
    (serial.push byte).pending = serial.pending ++ [byte] := by
  have before : slice (Function.update serial.txBuffer serial.txCount byte) 0 serial.txCount =
      serial.pending := by
    refine slice_congr fun offset below => Function.update_of_ne ?_ _ _
    omega
  show slice (Function.update serial.txBuffer serial.txCount byte) 0 (serial.txCount + 1) = _
  rw [slice_add, before, Nat.zero_add, slice_succ, slice_zero, Function.update_self]

/-- **One step.** While the peer stays subscribed, it is still subscribed after it; and every byte is
delivered or pending after it exactly when it meets `Sends`. -/
theorem step_iff (run : Transmission) (input : SerialInput) (ready : run.serial.Ready handle cccd)
    (room : run.Room) (delivered : run.Delivered handle) (legal : Legal handle cccd run input) :
    (run.step input).serial.Ready handle cccd ∧ ((run.step input).Delivered handle ↔ run.Sends input) := by
  have below : run.serial.txCount ≤ attributeMaxValueLength := Nat.le_of_lt room
  cases input with
  | write byte polled flushing =>
    obtain ⟨keeps, flushKeeps⟩ := legal
    have polledReady := (BLESerial.pollDevice_keeps ready keeps).1
    have polledDelivered := poll_delivered ready delivered keeps
    have count := (run.serial.pollDevice_sameTx polled).count
    simp only [step, BLESerial.write, Sends]
    generalize run.serial.pollDevice polled = after at polledReady polledDelivered count ⊢
    have subscribed : after.1.device.subscribed after.1.txCharacteristic.id ≠ false := by
      have still : after.1.device.subscribed after.1.txCharacteristic.id = true := polledReady.subscribed
      rw [still]
      exact Bool.noConfusion
    have pushedReady : (after.1.push byte).Ready handle cccd := polledReady
    have pushedCount : (after.1.push byte).txCount = after.1.txCount + 1 := rfl
    have pushedRoom : (after.1.push byte).txCount ≤ attributeMaxValueLength := by
      rw [pushedCount, count]
      exact room
    have pushedDelivered : notified handle [] (run.log ++ after.2) ++ (after.1.push byte).pending =
        run.written ++ [byte] := by
      rw [pending_push, ← List.append_assoc, polledDelivered]
    rw [if_neg subscribed, pushedCount]
    by_cases full : after.1.txCount + 1 = attributeMaxValueLength ∨ byte = BLESerial.newline
    · have kept := BLESerial.flush_spec pushedReady flushKeeps pushedRoom []
      have exactly_then := flush_delivered_iff pushedReady flushKeeps pushedRoom pushedDelivered
      rw [if_pos full]
      refine ⟨kept.1, ?_⟩
      rw [List.append_assoc] at exactly_then
      refine exactly_then.trans ⟨fun meets _ => meets (Nat.succ_ne_zero _), fun meets _ => meets full⟩
    · rw [if_neg full]
      exact ⟨pushedReady, iff_of_true pushedDelivered fun now => absurd now full⟩
  | flush flushing =>
    exact ⟨(BLESerial.flush_spec ready legal below []).1,
      flush_delivered_iff ready legal below delivered⟩
  | poll millis polled flushing =>
    obtain ⟨keeps, flushKeeps⟩ := legal
    simp only [step, BLESerial.poll, Sends]
    split_ifs with early
    · exact ⟨(BLESerial.pollDevice_keeps ready keeps).1,
        iff_of_true (poll_delivered ready delivered keeps) fun late => absurd early late⟩
    · refine ⟨(BLESerial.flush_spec ready flushKeeps below []).1, ?_⟩
      exact (flush_delivered_iff ready flushKeeps below delivered).trans
        ⟨fun meets _ => meets, fun meets => meets early⟩
  | receive call polled =>
    exact ⟨(BLESerial.pollDevice_keeps ready legal).1,
      iff_of_true (poll_delivered ready delivered legal) trivial⟩

instance (handle : UInt16) (run : Transmission) : Decidable (run.Delivered handle) :=
  inferInstanceAs (Decidable (_ = _))

/-- **When the transmit half loses nothing.** Over every run of calls during which the peer stays
subscribed, whatever events come and whatever credit there is: there is always room in the buffer; and
every byte written is always delivered, in order and once, or pending, exactly when each `flush` of some
bytes is accepted. -/
theorem transmission_iff {serial : BLESerial} (ready : serial.Ready handle cccd)
    (room : serial.txCount < attributeMaxValueLength) {inputs : List SerialInput}
    (legal : EachStep step (Legal handle cccd) (start serial) inputs) :
    Always step Room (start serial) inputs ∧
      (Always step (Delivered handle) (start serial) inputs ↔ EachStep step Sends (start serial) inputs) := by
  have begins : (start serial).Delivered handle := rfl
  refine ⟨?_, ?_⟩
  · exact always_of_eachStep (fun run input here _ => step_room run input here) room legal
  · have keep : ∀ run input, (run.serial.Ready handle cccd ∧ run.Room ∧ run.Delivered handle) →
        Legal handle cccd run input → (run.step input).Delivered handle →
        (run.step input).serial.Ready handle cccd ∧ (run.step input).Room ∧
          (run.step input).Delivered handle :=
      fun run input ⟨isReady, hasRoom, delivered⟩ kept next =>
        ⟨(step_iff run input isReady hasRoom delivered kept).1, step_room run input hasRoom, next⟩
    have same : ∀ run input, (run.serial.Ready handle cccd ∧ run.Room ∧ run.Delivered handle) →
        Legal handle cccd run input → ((run.step input).Delivered handle ↔ run.Sends input) :=
      fun run input ⟨isReady, hasRoom, delivered⟩ kept =>
        (step_iff run input isReady hasRoom delivered kept).2
    exact always_iff_of_invariant keep same begins ⟨ready, room, begins⟩ legal

/-- The entries of a receive and a transmit characteristic, the peer subscribed to the latter. -/
def serialEntries : List LocalCharacteristicInfo :=
  [⟨0, none, 8, 0, false, false⟩, ⟨1, none, 10, 11, true, false⟩]

/-- A serial line whose peer is subscribed, with some credit. -/
def serialLine (credit : UInt8) : BLESerial where
  device := { oneCharacteristic with
    connectionHandle := 0
    txBufferCount := credit
    localCharacteristicInfo := serialEntries
    subscribed := fun characteristic => characteristic = 1 }
  flushed := 0
  rx := .new fun _ => 0
  txCount := 0
  txBuffer := fun _ => 0
  rxCharacteristic := ⟨0, 0x04, [], Nat.zero_le _⟩
  txCharacteristic := ⟨1, 0x10, [], Nat.zero_le _⟩

theorem serialLine_ready (credit : UInt8) : (serialLine credit).Ready 10 11 where
  distinct := by
    show SubscriptionTable.Distinct ⟨serialEntries, fun characteristic => characteristic = 1⟩
    decide
  entry := ⟨⟨1, none, 10, 11, true, false⟩, List.mem_of_getLast? rfl, rfl, rfl, rfl, rfl⟩
  own := by
    show ∀ info ∈ serialEntries, info.valueHandle = 10 → info.characteristic = 1
    decide
  subscribed := rfl

/-- A poll without an event. -/
def noEvent : Polled := ⟨none, fun _ => nrfSuccess, fun _ => 0⟩

theorem noEvent_keeps (handle cccd : UInt16) : noEvent.Keeps handle cccd := fun _ none => by cases none

/-- A `flush` at some time, whose notification the stack accepts. -/
def flushAt (millis : UInt32) : Flushing := ⟨fun _ => nrfSuccess, fun _ => 0, millis, noEvent⟩

/-- A line is written. -/
def lineWritten : List SerialInput :=
  [.write 104 noEvent (flushAt 5), .write 105 noEvent (flushAt 6),
    .write BLESerial.newline noEvent (flushAt 7)]

theorem lineWritten_legal (run : Transmission) : EachStep step (Legal 10 11) run lineWritten :=
  have keeps := noEvent_keeps 10 11
  ⟨⟨keeps, keeps⟩, ⟨keeps, keeps⟩, ⟨keeps, keeps⟩, trivial⟩

/-- A line, with one credit. -/
theorem transmission_iff_line : Always step Room (start (serialLine 1)) lineWritten ∧
    Always step (Delivered 10) (start (serialLine 1)) lineWritten :=
  (transmission_iff (serialLine_ready 1) (by decide) (lineWritten_legal _)).imp_right fun right =>
    right.mpr (by decide)

/-- **Without credit the line is lost**: `write` returns 1 for every byte, nothing is delivered, and the
buffer is empty. -/
theorem line_lost : (serialLine 0).Ready 10 11 ∧
    EachStep step (Legal 10 11) (start (serialLine 0)) lineWritten ∧
    ¬ Always step (Delivered 10) (start (serialLine 0)) lineWritten ∧
    (Lib.run step (start (serialLine 0)) lineWritten).written = [104, 105, 10] ∧
    notified 10 [] (Lib.run step (start (serialLine 0)) lineWritten).log = [] ∧
    (Lib.run step (start (serialLine 0)) lineWritten).serial.pending = [] :=
  ⟨serialLine_ready 0, lineWritten_legal _, by decide⟩

end Transmission

end PrimoCore.Ble
