/-
**The transmission credit of the peripheral role.**

`_txBufferCount` starts a connection at the number of packets the stack grants. By the rule of `ble.h`
a packet is taken by a notification or a write without response that the stack accepts, and given back
in `BLE_EVT_TX_COMPLETE`; the packets taken and not given back are in flight.

* `CreditState` — the device and the packets in flight; `CreditState.call` counts them. A step is a call
  or event and the update of a value that a peer has written in it.
* `Sends` — what the methods do to the credit when they send values; `updateEntries_sends`.
* `KeepsCredit` — what a step must meet: all it sends are packets that count, and are accepted.
* `conserved_step_iff` — a step conserves the credit exactly when it meets `KeepsCredit`.
* `credit_conserved_iff` — **over every run of a connection**, the credit and the packets in flight add
  up to the grant in every state exactly when every step meets `KeepsCredit`.
-/

import Mathlib.Tactic.SplitIfs
import PrimoCore.Lib.Run
import PrimoCore.Ble.Device

namespace PrimoCore.Ble

open PrimoCore.Lib

/-- A connection: the device, the packets in flight and the grant of the stack. -/
structure CreditState where
  device : Nrf51822
  inFlight : Nat
  granted : UInt8

/-- The packets an input reports as completed. -/
def DeviceInput.completed : DeviceInput → Nat
  | .event ⟨_, .txComplete count⟩ => count.toNat
  | _ => 0

/-- The input neither starts nor ends a connection. -/
def DeviceInput.inConnection : DeviceInput → Bool
  | .event ⟨_, .connected _ _⟩ | .event ⟨_, .disconnected _⟩ => false
  | _ => true

/-- The packets a step takes from the stack. -/
def packetsTaken (outputs : List (Output Notice)) (codes : Nat → UInt32) : Nat :=
  ((accepted (transfers outputs) codes).filter StackCall.consumesPacket).length

namespace CreditState

/-- One call or event, by itself. -/
def call (state : CreditState) (input : DeviceInput) : CreditState where
  device := (state.device.step input).1
  inFlight :=
    state.inFlight + packetsTaken (state.device.step input).2 input.codes - input.completed
  granted := state.granted

/-- A call or event, and the update of the value a peer has written in it. -/
def step (state : CreditState) (turn : DeviceTurn) : CreditState :=
  match turn.reply state.device with
  | some update => (state.call turn.input).call update
  | none => state.call turn.input

/-- The state after `BLE_GAP_EVT_CONNECTED`. -/
def afterConnected (device : Nrf51822) (connHandle : UInt16) (peerAddr : Vector UInt8 6)
    (granted : UInt8) : CreditState where
  device := (device.poll ⟨connHandle, .connected peerAddr granted⟩).1
  inFlight := 0
  granted := granted

/-- Credit and packets in flight add up to the grant. -/
def Conserved (state : CreditState) : Prop :=
  state.device.txBufferCount.toNat + state.inFlight = state.granted.toNat

/-- The stack completes no more packets than are in flight, and the connection goes on. -/
def Legal (state : CreditState) (turn : DeviceTurn) : Prop :=
  turn.input.inConnection ∧ turn.input.completed ≤ state.inFlight

end CreditState

/-! ### What a step sends -/

/-- The values an entry of the characteristic would send: a notification and an indication, as the peer
has subscribed. -/
def LocalCharacteristicInfo.values (info : LocalCharacteristicInfo) : List (UInt16 × HvxType) :=
  (if info.notifySubscribed then [(info.valueHandle, .notification)] else []) ++
    (if info.indicateSubscribed then [(info.valueHandle, .indication)] else [])

/-- The values an update would send, with enough credit. -/
def attempts (characteristic : Nat) : List LocalCharacteristicInfo → List (UInt16 × HvxType)
  | [] => []
  | info :: rest =>
      if info.characteristic = characteristic then info.values ++ attempts characteristic rest
      else attempts characteristic rest

/-- A call that sends a value. -/
def hvxCall (connHandle : UInt16) (value : UInt16 × HvxType) : StackCall :=
  .gattsHvx connHandle value.1 value.2

/-- **Sending some values**: the first ones go out, as far as the credit lasts, and each costs one. The
flag of an outstanding request is not touched. -/
structure Sends (before after : Nrf51822) (outputs : List (Output Notice))
    (values : List (UInt16 × HvxType)) : Prop where
  credit : after.txBufferCount.toNat = before.txBufferCount.toNat - values.length
  link : after.connectionHandle = before.connectionHandle
  flag : after.remoteRequestInProgress = before.remoteRequestInProgress
  sent : transfers outputs =
    (values.take before.txBufferCount.toNat).map (hvxCall before.connectionHandle)

theorem Sends.trans {first middle last : Nrf51822} {outputs outputs' : List (Output Notice)}
    {values values' : List (UInt16 × HvxType)} (one : Sends first middle outputs values)
    (two : Sends middle last outputs' values') :
    Sends first last (outputs ++ outputs') (values ++ values') where
  credit := by
    rw [two.credit, one.credit, List.length_append]
    omega
  link := two.link.trans one.link
  flag := two.flag.trans one.flag
  sent := by
    rw [transfers_append, one.sent, two.sent, one.credit, one.link, List.take_append,
      List.map_append]

/-- What changes neither the credit nor the link, and transfers nothing. -/
theorem sends_nothing {before after : Nrf51822} {outputs : List (Output Notice)}
    (credit : after.txBufferCount = before.txBufferCount)
    (link : after.connectionHandle = before.connectionHandle)
    (flag : after.remoteRequestInProgress = before.remoteRequestInProgress)
    (quiet : transfers outputs = []) : Sends before after outputs [] :=
  ⟨by rw [credit]; rfl, link, flag, by rw [quiet, List.take_nil, List.map_nil]⟩

section Update

variable (device : Nrf51822) (uninit : Memory UInt8) (characteristic : LocalCharacteristic)

theorem broadcast_sends : Sends device (device.broadcast uninit characteristic).1
    (device.broadcast uninit characteristic).2.1 [] := by
  unfold Nrf51822.broadcast
  split
  · exact sends_nothing rfl rfl rfl rfl
  · split
    · split
      · split
        · exact sends_nothing rfl rfl rfl rfl
        · exact sends_nothing rfl rfl rfl rfl
      · exact sends_nothing rfl rfl rfl rfl
    · exact sends_nothing rfl rfl rfl rfl

theorem sendValue_sends (subscribed : Bool) (handle : UInt16) (type : HvxType) :
    Sends device (device.sendValue subscribed handle type).1
      (device.sendValue subscribed handle type).2.1 (if subscribed then [(handle, type)] else []) := by
  unfold Nrf51822.sendValue
  split_ifs with wanted credit
  · have positive : 0 < device.txBufferCount.toNat := UInt8.lt_iff_toNat_lt.mp credit
    refine ⟨?_, rfl, rfl, ?_⟩
    · show (device.txBufferCount - 1).toNat = device.txBufferCount.toNat - 1
      exact UInt8.toNat_sub_of_le _ _ (UInt8.le_iff_toNat_le.mpr positive)
    · rw [List.take_of_length_le positive]
      rfl
  · have none_left : device.txBufferCount.toNat = 0 := by
      have notPositive : ¬ 0 < device.txBufferCount.toNat := fun positive =>
        credit (UInt8.lt_iff_toNat_lt.mpr positive)
      omega
    refine ⟨?_, rfl, rfl, ?_⟩
    · rw [none_left]
      rfl
    · rw [none_left]
      rfl
  · exact sends_nothing rfl rfl rfl rfl

/-- An update first advertises the value, if it is broadcast. -/
theorem advertise_sends : Sends device
    (if device.broadcastCharacteristic = some characteristic.id then
      device.broadcast uninit characteristic else (device, [], false)).1
    (if device.broadcastCharacteristic = some characteristic.id then
      device.broadcast uninit characteristic else (device, [], false)).2.1 [] := by
  split_ifs
  · exact broadcast_sends device uninit characteristic
  · exact sends_nothing rfl rfl rfl rfl

theorem updateEntry_sends (info : LocalCharacteristicInfo) :
    Sends device (device.updateEntry uninit characteristic info).1
      (device.updateEntry uninit characteristic info).2.1 info.values := by
  have advertised := advertise_sends device uninit characteristic
  simp only [Nrf51822.updateEntry]
  generalize (if device.broadcastCharacteristic = some characteristic.id then
    device.broadcast uninit characteristic else (device, [], false)) = first at advertised ⊢
  have stored : Sends first.1 first.1
      [.call (.gattsValueSet info.valueHandle characteristic.value)] [] := sends_nothing rfl rfl rfl rfl
  have notified := sendValue_sends first.1 info.notifySubscribed info.valueHandle .notification
  have indicated := sendValue_sends
    (first.1.sendValue info.notifySubscribed info.valueHandle .notification).1
    info.indicateSubscribed info.valueHandle .indication
  exact advertised.trans (stored.trans (notified.trans indicated))

/-- **An update sends its attempts**, as far as the credit lasts. -/
theorem updateEntries_sends (infos : List LocalCharacteristicInfo) :
    Sends device (device.updateEntries uninit characteristic infos).1
      (device.updateEntries uninit characteristic infos).2.1 (attempts characteristic.id infos) := by
  induction infos generalizing device with
  | nil => exact sends_nothing rfl rfl rfl rfl
  | cons info rest ih =>
    by_cases isEntry : info.characteristic = characteristic.id
    · rw [Nrf51822.updateEntries, attempts, if_pos isEntry, if_pos isEntry]
      exact (updateEntry_sends device uninit characteristic info).trans (ih _)
    · rw [Nrf51822.updateEntries, attempts, if_neg isEntry, if_neg isEntry]
      exact ih device

end Update

/-! ### What leaves the credit alone -/

/-- The credit is unchanged and nothing is transferred. -/
structure Quiet (before after : Nrf51822) (outputs : List (Output Notice)) : Prop where
  credit : after.txBufferCount = before.txBufferCount
  silent : transfers outputs = []

theorem writeLocal_quiet (device : Nrf51822) (handle : UInt16) (data : List UInt8)
    (passed infos : List LocalCharacteristicInfo) :
    Quiet device (device.writeLocal handle data passed infos).1
      (device.writeLocal handle data passed infos).2 := by
  obtain ⟨_, _, notices, after⟩ := device.writeLocal_changes handle data passed infos
  rw [after]
  exact ⟨rfl, transfers_notices notices⟩

theorem onServices_quiet (device : Nrf51822) (gattStatus : UInt16) (services : List FoundService)
    (last : FoundService) : Quiet device (device.onServices gattStatus services last).1
      (device.onServices gattStatus services last).2 := by
  unfold Nrf51822.onServices
  split_ifs
  · exact ⟨rfl, rfl⟩
  · split
    · exact ⟨rfl, rfl⟩
    · exact ⟨rfl, rfl⟩
  · exact ⟨rfl, rfl⟩

theorem onChars_quiet (device : Nrf51822) (gattStatus : UInt16) (chars : List FoundChar) :
    Quiet device (device.onChars gattStatus chars).1 (device.onChars gattStatus chars).2 := by
  unfold Nrf51822.onChars
  split_ifs
  · exact ⟨rfl, rfl⟩
  · split
    · exact ⟨rfl, rfl⟩
    · exact ⟨rfl, rfl⟩
  · exact ⟨rfl, rfl⟩

theorem remoteValue_silent (device : Nrf51822) (handle : UInt16) (data : List UInt8) :
    transfers (device.remoteValue handle data) = [] := by
  unfold Nrf51822.remoteValue
  split <;> rfl

theorem onReadRsp_quiet (device : Nrf51822) (gattStatus handle : UInt16) (data : List UInt8) :
    Quiet device (device.onReadRsp gattStatus handle data).1
      (device.onReadRsp gattStatus handle data).2 := by
  refine ⟨rfl, ?_⟩
  simp only [Nrf51822.onReadRsp]
  split_ifs
  · rfl
  · exact remoteValue_silent device handle data
  · rfl

theorem onWriteRsp_quiet (device : Nrf51822) (gattStatus : UInt16) :
    Quiet device (device.onWriteRsp gattStatus).1 (device.onWriteRsp gattStatus).2 := by
  refine ⟨rfl, ?_⟩
  simp only [Nrf51822.onWriteRsp]
  split_ifs <;> rfl

theorem onHvx_quiet (device : Nrf51822) (type : HvxType) (handle : UInt16) (data : List UInt8) :
    Quiet device (device.onHvx type handle data).1 (device.onHvx type handle data).2 := by
  refine ⟨rfl, ?_⟩
  simp only [Nrf51822.onHvx, transfers_append, remoteValue_silent, List.append_nil]
  split_ifs <;> rfl

/-- **An event within a connection** gives back the packets it reports and is otherwise quiet. -/
theorem poll_credit (device : Nrf51822) (event : StackEvent)
    (inConnection : (DeviceInput.event event).inConnection) :
    transfers (device.poll event).2 = [] ∧ (device.poll event).1.txBufferCount =
      device.txBufferCount + UInt8.ofNat (DeviceInput.event event).completed := by
  have quiet : ∀ {after : Nrf51822} {outputs : List (Output Notice)}, Quiet device after outputs →
      transfers outputs = [] ∧ after.txBufferCount = device.txBufferCount + UInt8.ofNat 0 :=
    fun same => ⟨same.silent, by rw [same.credit]; exact (UInt8.add_zero _).symm⟩
  obtain ⟨connHandle, params⟩ := event
  cases params with
  | advReport report => exact quiet ⟨rfl, rfl⟩
  | txComplete count =>
    refine ⟨rfl, ?_⟩
    show device.txBufferCount + count = device.txBufferCount + UInt8.ofNat count.toNat
    rw [UInt8.ofNat_toNat]
  | connected peerAddr txPacketCount => cases inConnection
  | disconnected reason => cases inConnection
  | gattsWrite handle data => exact quiet (writeLocal_quiet device handle data [] _)
  | sysAttrMissing => exact quiet ⟨rfl, rfl⟩
  | primSrvcDiscRsp gattStatus services last =>
    exact quiet (onServices_quiet device gattStatus services last)
  | charDiscRsp gattStatus chars => exact quiet (onChars_quiet device gattStatus chars)
  | readRsp gattStatus handle data => exact quiet (onReadRsp_quiet device gattStatus handle data)
  | writeRsp gattStatus => exact quiet (onWriteRsp_quiet device gattStatus)
  | hvx type handle data => exact quiet (onHvx_quiet device type handle data)

/-- Calls that are not packets take none. -/
theorem packetsTaken_eq_zero {outputs : List (Output Notice)} (codes : Nat → UInt32)
    (others : ∀ call ∈ transfers outputs, call.consumesPacket = false) :
    packetsTaken outputs codes = 0 := by
  rw [packetsTaken, List.length_eq_zero_iff, List.filter_eq_nil_iff]
  intro call inside
  rw [others call (mem_of_accepted inside)]
  exact Bool.false_ne_true

theorem read_credit (device : Nrf51822) (characteristic : Nat) (code : UInt32) :
    (device.readRemoteCharacteristic characteristic code).1.txBufferCount = device.txBufferCount ∧
      ∀ call ∈ transfers (device.readRemoteCharacteristic characteristic code).2.1,
        call.consumesPacket = false := by
  unfold Nrf51822.readRemoteCharacteristic
  split
  · split_ifs <;> simp [transfers, StackCall.isTransfer, StackCall.consumesPacket]
  · simp

theorem writeCccd_credit (device : Nrf51822) (characteristic : Nat) (subscribe : Bool)
    (code : UInt32) :
    (device.writeCccd characteristic subscribe code).1.txBufferCount = device.txBufferCount ∧
      ∀ call ∈ transfers (device.writeCccd characteristic subscribe code).2.1,
        call.consumesPacket = false := by
  unfold Nrf51822.writeCccd
  split
  · split_ifs <;> simp [transfers, StackCall.isTransfer, StackCall.consumesPacket]
  · simp

/-! ### Conservation -/

namespace CreditState

/-- The values an update sends in a state. -/
def sendable (state : CreditState) (characteristic : Nat) : List (UInt16 × HvxType) :=
  (attempts characteristic state.device.localCharacteristicInfo).take
    state.device.txBufferCount.toNat

/-- What a call or event must meet to conserve the credit: all the values an update sends are notifications
and are accepted; a write that is sent is a write without response and is accepted. -/
def CallKeeps (state : CreditState) : DeviceInput → Prop
  | .updateCharacteristicValue _ characteristic codes =>
      ∀ (index : Nat) (inside : index < (state.sendable characteristic.id).length),
        (state.sendable characteristic.id)[index].2 = .notification ∧ codes index = nrfSuccess
  | .writeRemoteCharacteristic characteristic _ code =>
      ∀ info ∈ state.device.remoteInfo characteristic, state.device.Writes info →
        info.properties.write = false ∧ code = nrfSuccess
  | _ => True

/-- **What a step must meet**: the call or event does, and so does the update of a value that a peer has
written. -/
def KeepsCredit (state : CreditState) (turn : DeviceTurn) : Prop :=
  state.CallKeeps turn.input ∧
    ∀ update ∈ turn.reply state.device, (state.call turn.input).CallKeeps update

instance (state : CreditState) (input : DeviceInput) : Decidable (state.CallKeeps input) :=
  match input with
  | .updateCharacteristicValue _ _ _ =>
      inferInstanceAs (Decidable (∀ (index : Nat) (_ : index < _), _ ∧ _))
  | .writeRemoteCharacteristic characteristic _ code =>
      decidable_of_iff ((state.device.remoteInfo characteristic).all fun info =>
          decide (state.device.Writes info → info.properties.write = false ∧ code = nrfSuccess)) (by
        simp only [CallKeeps, Option.all_eq_true, decide_eq_true_eq]
        rfl)
  | .event _ | .broadcastCharacteristic _ _ | .readRemoteCharacteristic _ _
  | .subscribeRemoteCharacteristic _ _ | .unsubcribeRemoteCharacteristic _ _ =>
      inferInstanceAs (Decidable True)

instance (state : CreditState) (turn : DeviceTurn) : Decidable (state.KeepsCredit turn) :=
  have : Decidable (∀ update ∈ turn.reply state.device, (state.call turn.input).CallKeeps update) :=
    Option.decidableForallMem _
  inferInstanceAs (Decidable (_ ∧ _))

instance (state : CreditState) : Decidable state.Conserved := inferInstanceAs (Decidable (_ = _))

instance (state : CreditState) (turn : DeviceTurn) : Decidable (state.Legal turn) :=
  inferInstanceAs (Decidable (_ ∧ _))

end CreditState

/-- A call that leaves the credit alone and takes no packet conserves it. -/
theorem conserved_of_quiet {state : CreditState} {input : DeviceInput}
    (conserved : state.Conserved) (notCompleted : input.completed = 0)
    (credit : (state.device.step input).1.txBufferCount = state.device.txBufferCount)
    (taken : packetsTaken (state.device.step input).2 input.codes = 0) :
    (state.call input).Conserved := by
  simp only [CreditState.Conserved, CreditState.call, credit, taken, notCompleted] at conserved ⊢
  omega

/-- An update conserves the credit exactly when every value it sends is a packet the stack takes. -/
theorem update_conserved_iff {state : CreditState} (conserved : state.Conserved)
    (uninit : Memory UInt8) (characteristic : LocalCharacteristic) (codes : Nat → UInt32) :
    (state.call (.updateCharacteristicValue uninit characteristic codes)).Conserved ↔
      state.CallKeeps (.updateCharacteristicValue uninit characteristic codes) := by
  have sends := updateEntries_sends state.device uninit characteristic
    state.device.localCharacteristicInfo
  have spent : (state.sendable characteristic.id).length =
      min state.device.txBufferCount.toNat
        (attempts characteristic.id state.device.localCharacteristicInfo).length := List.length_take
  have each := accepted_filter_length_iff StackCall.consumesPacket
    ((state.sendable characteristic.id).map (hvxCall state.device.connectionHandle)) codes
  have most := accepted_filter_le StackCall.consumesPacket
    ((state.sendable characteristic.id).map (hvxCall state.device.connectionHandle)) codes
  have packet : ∀ value : UInt16 × HvxType,
      (hvxCall state.device.connectionHandle value).consumesPacket = true ↔
        value.2 = .notification := by
    rintro ⟨handle, type⟩
    cases type <;> simp [hvxCall, StackCall.consumesPacket]
  simp only [List.length_map, List.getElem_map, packet] at each most
  have calls : packetsTaken
      (state.device.step (.updateCharacteristicValue uninit characteristic codes)).2 codes =
        ((accepted ((state.sendable characteristic.id).map
          (hvxCall state.device.connectionHandle)) codes).filter StackCall.consumesPacket).length :=
    congrArg (fun calls => ((accepted calls codes).filter StackCall.consumesPacket).length) sends.sent
  have credit : (state.device.step (.updateCharacteristicValue uninit characteristic
      codes)).1.txBufferCount.toNat = state.device.txBufferCount.toNat -
        (attempts characteristic.id state.device.localCharacteristicInfo).length := sends.credit
  rw [show state.CallKeeps (.updateCharacteristicValue uninit characteristic codes) ↔ _ from
    each.symm]
  simp only [CreditState.Conserved, CreditState.call, DeviceInput.completed, DeviceInput.codes,
    calls, credit] at conserved ⊢
  omega

/-- A write conserves the credit exactly when what it sends is a packet the stack takes. -/
theorem write_conserved_iff {state : CreditState} (conserved : state.Conserved)
    (characteristic : Nat) (value : List UInt8) (code : UInt32) :
    (state.call (.writeRemoteCharacteristic characteristic value code)).Conserved ↔
      state.CallKeeps (.writeRemoteCharacteristic characteristic value code) := by
  have stepped : state.device.step (.writeRemoteCharacteristic characteristic value code) =
      ((state.device.writeRemoteCharacteristic characteristic value code).1,
        (state.device.writeRemoteCharacteristic characteristic value code).2.1) := rfl
  by_cases sends : ∃ info, state.device.remoteInfo characteristic = some info ∧
      state.device.Writes info
  · obtain ⟨info, found, writes⟩ := sends
    have positive : 0 < state.device.txBufferCount.toNat := UInt8.lt_iff_toNat_lt.mp writes.2.2
    have spent : (state.device.txBufferCount - 1).toNat = state.device.txBufferCount.toNat - 1 :=
      UInt8.toNat_sub_of_le _ _ (UInt8.le_iff_toNat_le.mpr positive)
    have condition : state.CallKeeps (.writeRemoteCharacteristic characteristic value code) ↔
        info.properties.write = false ∧ code = nrfSuccess := by
      simp [CreditState.CallKeeps, found, writes]
    rw [condition]
    simp only [CreditState.Conserved, CreditState.call, stepped, Nrf51822.write_sends found writes,
      spent, DeviceInput.completed, DeviceInput.codes, packetsTaken, transfers,
      StackCall.isTransfer, if_true, accepted] at conserved ⊢
    by_cases success : code = nrfSuccess
    · cases request : info.properties.write with
      | true =>
        simp [success, Nrf51822.writeOp, request]
        omega
      | false =>
        simp [success, Nrf51822.writeOp, request]
        omega
    · simp [success]
      omega
  · have idle : ∀ info, state.device.remoteInfo characteristic = some info →
        ¬ state.device.Writes info := fun info found writes => sends ⟨info, found, writes⟩
    refine iff_of_true (conserved_of_quiet conserved rfl ?_ ?_) fun info found writes =>
      absurd writes (idle info found)
    · rw [stepped, Nrf51822.write_idle idle]
    · rw [stepped, Nrf51822.write_idle idle]
      rfl

/-- A call or event conserves the credit exactly when it meets the condition. -/
theorem conserved_call_iff {state : CreditState} {input : DeviceInput} (conserved : state.Conserved)
    (inConnection : input.inConnection) (fits : input.completed ≤ state.inFlight) :
    (state.call input).Conserved ↔ state.CallKeeps input := by
  cases input with
  | event event =>
    obtain ⟨silent, credit⟩ := poll_credit state.device event inConnection
    refine iff_of_true ?_ trivial
    have taken : packetsTaken (state.device.poll event).2 (fun _ => nrfSuccess) = 0 := by
      rw [packetsTaken, silent]
      rfl
    have small := state.granted.toNat_lt
    simp only [CreditState.Conserved, CreditState.call, Nrf51822.step, DeviceInput.codes, taken,
      credit] at conserved fits ⊢
    rw [UInt8.toNat_add, UInt8.toNat_ofNat']
    omega
  | updateCharacteristicValue uninit characteristic codes =>
    exact update_conserved_iff conserved uninit characteristic codes
  | broadcastCharacteristic uninit characteristic =>
    have sends := broadcast_sends state.device uninit characteristic
    refine iff_of_true (conserved_of_quiet conserved rfl ?_ ?_) trivial
    · exact UInt8.toNat_inj.mp sends.credit
    · have silent : transfers (state.device.step (.broadcastCharacteristic uninit characteristic)).2 =
          [] := by
        rw [show transfers (state.device.step (.broadcastCharacteristic uninit characteristic)).2 = _
          from sends.sent, List.take_nil, List.map_nil]
      rw [packetsTaken, silent]
      rfl
  | readRemoteCharacteristic characteristic code =>
    obtain ⟨credit, others⟩ := read_credit state.device characteristic code
    exact iff_of_true (conserved_of_quiet conserved rfl credit (packetsTaken_eq_zero _ others)) trivial
  | writeRemoteCharacteristic characteristic value code =>
    exact write_conserved_iff conserved characteristic value code
  | subscribeRemoteCharacteristic characteristic code =>
    obtain ⟨credit, others⟩ := writeCccd_credit state.device characteristic true code
    exact iff_of_true (conserved_of_quiet conserved rfl credit (packetsTaken_eq_zero _ others)) trivial
  | unsubcribeRemoteCharacteristic characteristic code =>
    obtain ⟨credit, others⟩ := writeCccd_credit state.device characteristic false code
    exact iff_of_true (conserved_of_quiet conserved rfl credit (packetsTaken_eq_zero _ others)) trivial

/-- Only an event is answered with an update. -/
theorem reply_update {turn : DeviceTurn} {device : Nrf51822} {update : DeviceInput}
    (replied : turn.reply device = some update) : (∃ event, turn.input = .event event) ∧
      ∃ uninit characteristic codes,
        update = .updateCharacteristicValue uninit characteristic codes := by
  unfold DeviceTurn.reply at replied
  split at replied
  · rename_i event isEvent
    obtain ⟨written, _, rfl⟩ := Option.map_eq_some_iff.mp replied
    exact ⟨⟨event, isEvent⟩, _, _, _, rfl⟩
  · cases replied

/-- **The step lemma.** A legal step conserves the credit exactly when it meets `KeepsCredit`. -/
theorem conserved_step_iff (state : CreditState) (turn : DeviceTurn) (conserved : state.Conserved)
    (legal : state.Legal turn) : (state.step turn).Conserved ↔ state.KeepsCredit turn := by
  have called := conserved_call_iff conserved legal.1 legal.2
  unfold CreditState.step CreditState.KeepsCredit
  cases replied : turn.reply state.device with
  | none => simpa using called
  | some update =>
    obtain ⟨⟨event, isEvent⟩, _, _, _, rfl⟩ := reply_update replied
    -- An event conserves the credit by itself, so all depends on the update.
    have keeps : state.CallKeeps turn.input := by
      rw [isEvent]
      trivial
    simpa [keeps] using update_conserved_iff (called.mpr keeps) _ _ _

/-- **In every run of a connection, credit and packets in flight add up to the grant in every state
exactly when every step meets `KeepsCredit`.** -/
theorem credit_conserved_iff (device : Nrf51822) (connHandle : UInt16) (peerAddr : Vector UInt8 6)
    (granted : UInt8) (turns : List DeviceTurn)
    (legal : EachStep CreditState.step CreditState.Legal
      (.afterConnected device connHandle peerAddr granted) turns) :
    Always CreditState.step CreditState.Conserved
        (.afterConnected device connHandle peerAddr granted) turns ↔
      EachStep CreditState.step CreditState.KeepsCredit
        (.afterConnected device connHandle peerAddr granted) turns := by
  have base : (CreditState.afterConnected device connHandle peerAddr granted).Conserved := rfl
  exact always_iff_eachStep conserved_step_iff base legal

/-- A device with one local characteristic, its value at handle 10 and its CCCD at handle 11. -/
def oneCharacteristic : Nrf51822 where
  advData := fun _ => 0
  advDataLen := 0
  broadcastCharacteristic := none
  connectionHandle := connHandleInvalid
  txBufferCount := 0
  minimumConnectionInterval := 0
  maximumConnectionInterval := 0
  bondStore := false
  localCharacteristicInfo := [⟨1, none, 10, 11, false, false⟩]
  subscribed := fun _ => false
  remoteServiceInfo := []
  remoteServiceDiscoveryIndex := 0
  remoteCharacteristicInfo := []
  remoteRequestInProgress := false

/-- A characteristic that peers read, write and subscribe to, with room for 20 bytes. -/
def twentyBytes : CharacteristicLimits := ⟨0x1A, 20, by decide⟩

/-- The characteristics have room for 20 bytes, and the stack accepts what is sent. -/
def acceptedTurn (input : DeviceInput) : DeviceTurn :=
  ⟨input, fun _ => twentyBytes, fun _ => 0, fun _ => nrfSuccess⟩

/-- The value of that characteristic changes. -/
def acceptedUpdate : DeviceTurn :=
  acceptedTurn (.updateCharacteristicValue (fun _ => 0) ⟨1, 0x1A, [42], by decide⟩ fun _ => nrfSuccess)

/-- The peer subscribes to notifications and is sent one, writes the value and is sent another, and
acknowledges both. -/
theorem credit_conserved_iff_notification :
    Always CreditState.step CreditState.Conserved (.afterConnected oneCharacteristic 0 (.replicate 6 1) 6)
      [acceptedTurn (.event ⟨0, .gattsWrite 11 [1, 0]⟩), acceptedUpdate,
        acceptedTurn (.event ⟨0, .gattsWrite 10 [7]⟩), acceptedTurn (.event ⟨0, .txComplete 2⟩)] :=
  (credit_conserved_iff oneCharacteristic 0 (.replicate 6 1) 6
    [acceptedTurn (.event ⟨0, .gattsWrite 11 [1, 0]⟩), acceptedUpdate,
      acceptedTurn (.event ⟨0, .gattsWrite 10 [7]⟩), acceptedTurn (.event ⟨0, .txComplete 2⟩)]
    (by decide)).mpr (by decide)

/-- **An indication leaks a credit**: the peer subscribes to indications and is sent one, which the
stack accepts and never counts as a packet. -/
theorem credit_leaks :
    ¬ ∀ (device : Nrf51822) (connHandle : UInt16) (peerAddr : Vector UInt8 6) (granted : UInt8)
      (turns : List DeviceTurn),
      EachStep CreditState.step CreditState.Legal
        (.afterConnected device connHandle peerAddr granted) turns →
      Always CreditState.step CreditState.Conserved
        (.afterConnected device connHandle peerAddr granted) turns := by
  intro always
  have conserved := always oneCharacteristic 0 (.replicate 6 1) 6
    [acceptedTurn (.event ⟨0, .gattsWrite 11 [2, 0]⟩), acceptedUpdate] (by decide)
  exact absurd conserved (by decide)

end PrimoCore.Ble
