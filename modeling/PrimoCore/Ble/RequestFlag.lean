/-
**The flag of an outstanding request.**

`_remoteRequestInProgress` is to say that a request the stack accepted is still waiting for its
response on a live link. Both roles set it before the call, whatever the stack returns, and clear it at
any response and any disconnection, after the handlers of the disconnection have run.

* `DeviceRequests`, `CentralRequests` — the roles with the links that are up and the links that wait.
* `DeviceStage`, `CentralStage` — the calls and events, a disconnection also in its two halves.
* `FlagRight` — the flag says whether some link waits.
* `CallFair` — a call that sends nothing or is refused leaves the flag and the credit alone, and a
  write without response does not set the flag.
* `KeepsFlag` — the exact condition on a step.
* `requestFlag_iff` — **over every run of either role**, the flag is right in every state and every
  call is fair exactly when every step meets `KeepsFlag`.
-/

import PrimoCore.Ble.Central
import PrimoCore.Ble.Credit

namespace PrimoCore.Ble

open PrimoCore.Lib

/-! ### The peripheral role -/

/-- The peripheral role, its link, whether a request waits on it, and whether the handlers of a
disconnection have been called and not returned. -/
structure DeviceRequests where
  device : Nrf51822
  linked : Bool
  awaiting : Bool
  handling : Bool

/-- A call or event; or one of the two halves of a disconnection whose handlers the program has set, with
the calls it makes from them in between. -/
inductive DeviceStage where
  | whole (input : DeviceInput)
  | dropped (reason : UInt8)
  | returned

/-- The event answers the outstanding request, or ends the link it waits on. -/
def EventParams.endsRequest : EventParams → Bool
  | .readRsp _ _ _ | .writeRsp _ | .disconnected _ => true
  | _ => false

/-- The input ends a request. -/
def DeviceInput.endsRequest : DeviceInput → Bool
  | .event reported => reported.params.endsRequest
  | _ => false

/-- The input is a call of one of the four methods that make requests. -/
def DeviceInput.isRequest : DeviceInput → Bool
  | .readRemoteCharacteristic _ _ | .writeRemoteCharacteristic _ _ _
  | .subscribeRemoteCharacteristic _ _ | .unsubcribeRemoteCharacteristic _ _ => true
  | _ => false

namespace DeviceRequests

/-- The role as it is constructed, whatever is registered then. -/
def initial (device : Nrf51822) : DeviceRequests where
  device := { device with remoteRequestInProgress := false }
  linked := false
  awaiting := false
  handling := false

/-- The transfers of a call that the stack accepts. -/
def acceptedCalls (state : DeviceRequests) (input : DeviceInput) : List StackCall :=
  accepted (transfers (state.device.step input).2) input.codes

/-- The link after an input. -/
def linkedAfter (state : DeviceRequests) : DeviceInput → Bool
  | .event ⟨_, .connected _ _⟩ => true
  | .event ⟨_, .disconnected _⟩ => false
  | _ => state.linked

/-- One call or event. -/
def call (state : DeviceRequests) (input : DeviceInput) : DeviceRequests where
  device := (state.device.step input).1
  linked := state.linkedAfter input
  awaiting := (state.awaiting && !input.endsRequest) ||
    (state.acceptedCalls input).any StackCall.isRequest
  handling := state.handling

/-- The handlers of a disconnection are called when the link is gone, and with it what waited on it. -/
def step (state : DeviceRequests) : DeviceStage → DeviceRequests
  | .whole input => state.call input
  | .dropped reason => ⟨(state.device.dropLink reason).1, false, false, true⟩
  | .returned => ⟨state.device.forgetRemote.1, state.linked, state.awaiting, false⟩

/-- The stack reports one link at a time, and answers a request that waits; no event is taken from within
the handlers. -/
def expected (state : DeviceRequests) : DeviceInput → Bool
  | .event ⟨_, .connected _ _⟩ => !state.linked && !state.handling
  | .event ⟨_, .disconnected _⟩ => state.linked && !state.handling
  | .event ⟨_, .readRsp _ _ _⟩ | .event ⟨_, .writeRsp _⟩ => state.awaiting && !state.handling
  | .event _ => !state.handling
  | _ => true

/-- What the stack does: its events are expected, and it accepts a request only on a link where none
waits. -/
def Legal (state : DeviceRequests) : DeviceStage → Prop
  | .whole input => state.expected input ∧ ((state.acceptedCalls input).any StackCall.isRequest →
      state.linked = true ∧ state.awaiting = false)
  | .dropped _ => state.linked = true ∧ state.handling = false
  | .returned => state.handling = true

/-- The flag says whether a request waits. -/
def FlagRight (state : DeviceRequests) : Prop :=
  state.device.remoteRequestInProgress = state.awaiting

instance (state : DeviceRequests) : Decidable state.FlagRight := inferInstanceAs (Decidable (_ = _))

instance (state : DeviceRequests) (stage : DeviceStage) : Decidable (state.Legal stage) :=
  match stage with
  | .whole _ | .dropped _ => inferInstanceAs (Decidable (_ ∧ _))
  | .returned => inferInstanceAs (Decidable (_ = true))

/-- A call for a request that is not accepted leaves the flag and the credit alone; one that makes a
write without response leaves the flag alone. -/
def CallFair (state : DeviceRequests) (input : DeviceInput) : Prop :=
  input.isRequest →
    (state.acceptedCalls input = [] →
      (state.call input).device.remoteRequestInProgress = state.device.remoteRequestInProgress ∧
        (state.call input).device.txBufferCount = state.device.txBufferCount) ∧
      ((transfers (state.device.step input).2).any StackCall.consumesPacket →
        (state.call input).device.remoteRequestInProgress = state.device.remoteRequestInProgress)

/-- The calls of a step are fair. -/
def Fair (state : DeviceRequests) : DeviceStage → Prop
  | .whole input => state.CallFair input
  | .dropped _ | .returned => True

/-- A read or a CCCD write that reaches the stack is accepted, or a request waits already. A write that
reaches the stack is accepted, and it is a write request, or a request waits already. -/
def CallKeeps (state : DeviceRequests) : DeviceInput → Prop
  | .readRemoteCharacteristic characteristic code =>
      ∀ info ∈ state.device.remoteInfo characteristic, Nrf51822.Reads info →
        code = nrfSuccess ∨ state.awaiting
  | .writeRemoteCharacteristic characteristic _ code =>
      ∀ info ∈ state.device.remoteInfo characteristic, state.device.Writes info →
        code = nrfSuccess ∧ (info.properties.write ∨ state.awaiting)
  | .subscribeRemoteCharacteristic characteristic code
  | .unsubcribeRemoteCharacteristic characteristic code =>
      ∀ info ∈ state.device.remoteInfo characteristic, Nrf51822.Subscribes info →
        code = nrfSuccess ∨ state.awaiting
  | .event _ | .updateCharacteristicValue _ _ _ | .broadcastCharacteristic _ _ => True

/-- **What a step must meet**: what a call must; and no request waits when the handlers of a disconnection
are called, and none when they return. -/
def KeepsFlag (state : DeviceRequests) : DeviceStage → Prop
  | .whole input => state.CallKeeps input
  | .dropped _ | .returned => state.awaiting = false

end DeviceRequests

/-! ### What a step of the peripheral role does to the flag -/

theorem unsubscribe_silent (infos : List LocalCharacteristicInfo)
    (done : Nrf51822 × List (Output Notice)) (silent : transfers done.2 = []) :
    transfers (infos.foldl Nrf51822.unsubscribe done).2 = [] := by
  induction infos generalizing done with
  | nil => exact silent
  | cons info rest ih =>
    apply ih
    unfold Nrf51822.unsubscribe
    split_ifs
    · rw [transfers_append, silent]
      rfl
    · exact silent

theorem onDisconnected_silent (device : Nrf51822) (reason : UInt8) :
    transfers (device.onDisconnected reason).2 = [] := by
  simp only [Nrf51822.onDisconnected, Nrf51822.dropLink, transfers_append]
  rw [Nrf51822.unsubscribeAll, unsubscribe_silent _ _ rfl]
  rfl

theorem unsubscribe_flag (infos : List LocalCharacteristicInfo)
    (done : Nrf51822 × List (Output Notice)) :
    (infos.foldl Nrf51822.unsubscribe done).1.remoteRequestInProgress =
      done.1.remoteRequestInProgress := by
  induction infos generalizing done with
  | nil => rfl
  | cons info rest ih =>
    rw [List.foldl_cons, ih]
    unfold Nrf51822.unsubscribe
    split_ifs <;> rfl

/-- The handlers of a disconnection find the flag as it was. -/
theorem dropLink_flag (device : Nrf51822) (reason : UInt8) :
    (device.dropLink reason).1.remoteRequestInProgress = device.remoteRequestInProgress :=
  unsubscribe_flag _ _

/-- No event makes the device transfer anything. -/
theorem poll_silent (device : Nrf51822) (event : StackEvent) :
    transfers (device.poll event).2 = [] := by
  cases inConnection : (DeviceInput.event event).inConnection with
  | true => exact (poll_credit device event inConnection).1
  | false =>
    obtain ⟨connHandle, params⟩ := event
    cases params with
    | connected peerAddr txPacketCount =>
      simp only [Nrf51822.poll, Nrf51822.onConnected]
      split_ifs <;> rfl
    | disconnected reason => exact onDisconnected_silent device reason
    | _ => cases inConnection

/-- **An event clears the flag** exactly when it is a response or a disconnection. -/
theorem poll_flag (device : Nrf51822) (event : StackEvent) :
    (device.poll event).1.remoteRequestInProgress =
      (device.remoteRequestInProgress && !event.params.endsRequest) := by
  obtain ⟨connHandle, params⟩ := event
  cases params with
  | gattsWrite handle data =>
    obtain ⟨_, _, _, after⟩ :=
      device.writeLocal_changes handle data [] device.localCharacteristicInfo
    simp [Nrf51822.poll, after, EventParams.endsRequest]
  | primSrvcDiscRsp gattStatus services last =>
    obtain ⟨_, _, after⟩ := device.onServices_changes gattStatus services last
    simp [Nrf51822.poll, after, EventParams.endsRequest]
  | charDiscRsp gattStatus chars =>
    obtain ⟨_, _, after⟩ := device.onChars_changes gattStatus chars
    simp [Nrf51822.poll, after, EventParams.endsRequest]
  | _ => simp [Nrf51822.poll, Nrf51822.onConnected, Nrf51822.onDisconnected, Nrf51822.forgetRemote,
      Nrf51822.onReadRsp, Nrf51822.onWriteRsp, Nrf51822.onHvx, EventParams.endsRequest]

/-! ### Runs of the peripheral role -/

section Device

variable {state : DeviceRequests} {input : DeviceInput}

/-- A step whose transfers are no requests keeps the flag right when it ends a request exactly as it
clears the flag. -/
theorem right_of_noRequest (right : state.FlagRight)
    (none : (transfers (state.device.step input).2).any StackCall.isRequest = false)
    (flag : (state.device.step input).1.remoteRequestInProgress =
      (state.device.remoteRequestInProgress && !input.endsRequest)) :
    (state.call input).FlagRight := by
  have noneAccepted : (state.acceptedCalls input).any StackCall.isRequest = false :=
    accepted_any_eq_false none _
  simp only [DeviceRequests.FlagRight, DeviceRequests.call, noneAccepted, Bool.or_false] at right ⊢
  rw [flag, right]

/-- A call that does nothing is fair. -/
theorem fair_of_idle {outputs : List (Output Notice)} (idle : state.device.step input =
    (state.device, outputs)) (silent : transfers outputs = []) : state.CallFair input := by
  intro _
  simp [DeviceRequests.call, idle, silent]

/-- **A call that reaches the stack** sets the flag. It is accepted, and is a request or finds one
waiting; or it is refused, finds one waiting, and has not touched the credit. -/
theorem sent_iff {call : StackCall} (right : state.FlagRight) (isRequest : input.isRequest)
    (flagged : (state.device.step input).1.remoteRequestInProgress = true)
    (sent : transfers (state.device.step input).2 = [call])
    (kind : call.consumesPacket = !call.isRequest) :
    (state.call input).FlagRight ∧ state.CallFair input ↔
      (input.codes 0 = nrfSuccess ∧ (call.isRequest ∨ state.awaiting)) ∨
        (input.codes 0 ≠ nrfSuccess ∧ state.awaiting ∧
          (state.device.step input).1.txBufferCount = state.device.txBufferCount) := by
  have notEnds : input.endsRequest = false := by
    cases input <;> first | rfl | cases isRequest
  simp only [DeviceRequests.FlagRight] at right
  simp only [DeviceRequests.FlagRight, DeviceRequests.CallFair, DeviceRequests.call,
    DeviceRequests.acceptedCalls, sent, accepted, flagged, right, isRequest, notEnds,
    List.any_cons, List.any_nil, kind]
  by_cases success : input.codes 0 = nrfSuccess
  · cases waiting : state.awaiting <;> cases request : call.isRequest <;> simp [success, request]
  · cases waiting : state.awaiting <;> cases request : call.isRequest <;> simp [success]

/-- A call that does nothing keeps the flag right. -/
theorem right_and_fair_of_idle (right : state.FlagRight) (isRequest : input.isRequest)
    (idle : state.device.step input = (state.device, [])) :
    (state.call input).FlagRight ∧ state.CallFair input := by
  have notEnds : input.endsRequest = false := by
    cases input <;> first | rfl | cases isRequest
  refine ⟨right_of_noRequest right ?_ ?_, fair_of_idle idle rfl⟩
  · rw [idle]
    rfl
  · rw [idle, notEnds, Bool.not_false, Bool.and_true]

theorem read_keeps_iff (right : state.FlagRight) (characteristic : Nat) (code : UInt32) :
    ((state.call (.readRemoteCharacteristic characteristic code)).FlagRight ∧
        state.CallFair (.readRemoteCharacteristic characteristic code)) ↔
      state.CallKeeps (.readRemoteCharacteristic characteristic code) := by
  have stepped : state.device.step (.readRemoteCharacteristic characteristic code) =
      ((state.device.readRemoteCharacteristic characteristic code).1,
        (state.device.readRemoteCharacteristic characteristic code).2.1) := rfl
  simp only [DeviceRequests.CallKeeps]
  by_cases sends : ∃ info, state.device.remoteInfo characteristic = some info ∧ Nrf51822.Reads info
  · obtain ⟨info, found, reads⟩ := sends
    rw [Nrf51822.read_sends found reads] at stepped
    rw [sent_iff right rfl (by rw [stepped]) (by rw [stepped]; rfl) rfl, stepped]
    simp only [found, Option.mem_some_iff, forall_eq', reads, DeviceInput.codes,
      StackCall.isRequest]
    tauto
  · have idle : ∀ info, state.device.remoteInfo characteristic = some info →
        ¬ Nrf51822.Reads info := fun info found reads => sends ⟨info, found, reads⟩
    rw [Nrf51822.read_idle idle] at stepped
    exact iff_of_true (right_and_fair_of_idle right rfl stepped)
      fun info found reads => absurd reads (idle info found)

theorem cccd_keeps_iff (right : state.FlagRight) (isRequest : input.isRequest)
    {characteristic : Nat} {subscribe : Bool} {code : UInt32} (codes : input.codes 0 = code)
    (stepped : state.device.step input =
      ((state.device.writeCccd characteristic subscribe code).1,
        (state.device.writeCccd characteristic subscribe code).2.1)) :
    ((state.call input).FlagRight ∧ state.CallFair input) ↔
      ∀ info ∈ state.device.remoteInfo characteristic, Nrf51822.Subscribes info →
        code = nrfSuccess ∨ state.awaiting := by
  by_cases sends : ∃ info, state.device.remoteInfo characteristic = some info ∧
      Nrf51822.Subscribes info
  · obtain ⟨info, found, subscribes⟩ := sends
    obtain ⟨value, written⟩ := Nrf51822.cccd_sends found subscribes subscribe code
    rw [written] at stepped
    rw [sent_iff right isRequest (by rw [stepped]) (by rw [stepped]; rfl) rfl, stepped, codes]
    simp only [found, Option.mem_some_iff, forall_eq', subscribes, StackCall.isRequest]
    tauto
  · have idle : ∀ info, state.device.remoteInfo characteristic = some info →
        ¬ Nrf51822.Subscribes info := fun info found subscribes => sends ⟨info, found, subscribes⟩
    rw [Nrf51822.cccd_idle idle] at stepped
    exact iff_of_true (right_and_fair_of_idle right isRequest stepped)
      fun info found subscribes => absurd subscribes (idle info found)

theorem write_keeps_iff (right : state.FlagRight) (characteristic : Nat) (value : List UInt8)
    (code : UInt32) :
    ((state.call (.writeRemoteCharacteristic characteristic value code)).FlagRight ∧
        state.CallFair (.writeRemoteCharacteristic characteristic value code)) ↔
      state.CallKeeps (.writeRemoteCharacteristic characteristic value code) := by
  have stepped : state.device.step (.writeRemoteCharacteristic characteristic value code) =
      ((state.device.writeRemoteCharacteristic characteristic value code).1,
        (state.device.writeRemoteCharacteristic characteristic value code).2.1) := rfl
  simp only [DeviceRequests.CallKeeps]
  by_cases sends : ∃ info, state.device.remoteInfo characteristic = some info ∧
      state.device.Writes info
  · obtain ⟨info, found, writes⟩ := sends
    have spent : state.device.txBufferCount - 1 ≠ state.device.txBufferCount := by
      have positive : 0 < state.device.txBufferCount.toNat := UInt8.lt_iff_toNat_lt.mp writes.2.2
      intro same
      have shrunk := UInt8.toNat_sub_of_le state.device.txBufferCount 1
        (UInt8.le_iff_toNat_le.mpr positive)
      rw [same] at shrunk
      simp only [UInt8.toNat_one] at shrunk
      omega
    rw [Nrf51822.write_sends found writes] at stepped
    have kind : (StackCall.gattcWrite state.device.connectionHandle
        (Nrf51822.writeOp info.properties) info.valueHandle value).isRequest =
          info.properties.write := by
      cases request : info.properties.write <;> simp [Nrf51822.writeOp, request, StackCall.isRequest]
    have packet : (StackCall.gattcWrite state.device.connectionHandle
        (Nrf51822.writeOp info.properties) info.valueHandle value).consumesPacket =
          !info.properties.write := by
      cases request : info.properties.write <;> simp [Nrf51822.writeOp, request]
    rw [sent_iff right rfl (by rw [stepped]) (by rw [stepped]; rfl) (by rw [kind, packet]), stepped]
    simp only [found, Option.mem_some_iff, forall_eq', writes, DeviceInput.codes, kind, spent]
    tauto
  · have idle : ∀ info, state.device.remoteInfo characteristic = some info →
        ¬ state.device.Writes info := fun info found writes => sends ⟨info, found, writes⟩
    rw [Nrf51822.write_idle idle] at stepped
    exact iff_of_true (right_and_fair_of_idle right rfl stepped)
      fun info found writes => absurd writes (idle info found)

/-- What only sends values keeps the flag right. -/
theorem right_of_sends (right : state.FlagRight) (notEnds : input.endsRequest = false)
    {values : List (UInt16 × HvxType)}
    (sends : Sends state.device (state.device.step input).1 (state.device.step input).2 values) :
    (state.call input).FlagRight := by
  apply right_of_noRequest right
  · rw [sends.sent, List.any_eq_false]
    rintro call member
    obtain ⟨value, _, rfl⟩ := List.mem_map.mp member
    exact Bool.false_ne_true
  · rw [sends.flag, notEnds, Bool.not_false, Bool.and_true]

/-- A call or event keeps the flag right, and is fair, exactly when it meets the condition. -/
theorem deviceFlag_call_iff (state : DeviceRequests) (input : DeviceInput) (right : state.FlagRight) :
    ((state.call input).FlagRight ∧ state.CallFair input) ↔ state.CallKeeps input := by
  cases input with
  | event event =>
    refine iff_of_true ⟨right_of_noRequest right ?_ ?_, fun call => by cases call⟩ trivial
    · rw [show transfers (state.device.step (.event event)).2 = [] from
        poll_silent state.device event]
      rfl
    · exact poll_flag state.device event
  | updateCharacteristicValue uninit characteristic codes =>
    have sends := updateEntries_sends state.device uninit characteristic
      state.device.localCharacteristicInfo
    exact iff_of_true ⟨right_of_sends right rfl sends, fun call => by cases call⟩ trivial
  | broadcastCharacteristic uninit characteristic =>
    have sends := broadcast_sends state.device uninit characteristic
    exact iff_of_true ⟨right_of_sends right rfl sends, fun call => by cases call⟩ trivial
  | readRemoteCharacteristic characteristic code => exact read_keeps_iff right characteristic code
  | writeRemoteCharacteristic characteristic value code =>
    exact write_keeps_iff right characteristic value code
  | subscribeRemoteCharacteristic characteristic code => exact cccd_keeps_iff right rfl rfl rfl
  | unsubcribeRemoteCharacteristic characteristic code => exact cccd_keeps_iff right rfl rfl rfl

/-- **The step lemma of the peripheral role.** -/
theorem deviceFlag_step_iff (state : DeviceRequests) (stage : DeviceStage) (right : state.FlagRight) :
    ((state.step stage).FlagRight ∧ state.Fair stage) ↔ state.KeepsFlag stage := by
  cases stage with
  | whole input => exact deviceFlag_call_iff state input right
  | dropped reason =>
    have kept : (state.device.dropLink reason).1.remoteRequestInProgress = state.awaiting :=
      (dropLink_flag state.device reason).trans right
    simp only [DeviceRequests.FlagRight, DeviceRequests.step, DeviceRequests.Fair,
      DeviceRequests.KeepsFlag, kept, and_true]
  | returned =>
    simp only [DeviceRequests.FlagRight, DeviceRequests.step, DeviceRequests.Fair,
      DeviceRequests.KeepsFlag, Nrf51822.forgetRemote, and_true]
    exact eq_comm

end Device

/-! ### The central role -/

/-- The central role, its links, the links on which a request waits, and whether the handlers of a
disconnection have been called and not returned. -/
structure CentralRequests where
  central : CentralRole
  live : List UInt16
  awaiting : List UInt16
  handling : Bool

/-- As for the peripheral role. -/
inductive CentralStage where
  | whole (input : CentralInput)
  | dropped (connHandle : UInt16) (reason : UInt8)
  | returned

/-- The input ends the request of a link. -/
def CentralInput.endsRequest (connHandle : UInt16) : CentralInput → Bool
  | .event reported => reported.params.endsRequest && connHandle = reported.connHandle
  | _ => false

/-- The input is a call of one of the four methods that make requests. -/
def CentralInput.isRequest : CentralInput → Bool
  | .readRemoteCharacteristic _ _ | .writeRemoteCharacteristic _ _ _
  | .subscribeRemoteCharacteristic _ _ | .unsubcribeRemoteCharacteristic _ _ => true
  | _ => false

namespace CentralRequests

/-- The role as it is constructed, without links. -/
def initial (central : CentralRole) : CentralRequests where
  central := { central with remoteRequestInProgress := false }
  live := []
  awaiting := []
  handling := false

/-- The transfers of a call that the stack accepts. -/
def acceptedCalls (state : CentralRequests) (input : CentralInput) : List StackCall :=
  accepted (transfers (state.central.step input).2) input.codes

/-- The links on which a call makes a request that is accepted. -/
def requested (state : CentralRequests) (input : CentralInput) : List UInt16 :=
  ((state.acceptedCalls input).filter StackCall.isRequest).map StackCall.transferHandle

/-- One call or event. -/
def call (state : CentralRequests) (input : CentralInput) : CentralRequests where
  central := (state.central.step input).1
  live := input.linksAfter state.live
  awaiting := (state.awaiting.filter fun connHandle => !input.endsRequest connHandle) ++
    state.requested input
  handling := state.handling

/-- The handlers of a disconnection are called when the link is gone, and with it what waited on it. -/
def step (state : CentralRequests) : CentralStage → CentralRequests
  | .whole input => state.call input
  | .dropped connHandle reason =>
      ⟨(state.central.dropLink connHandle reason).1, state.live.filter (· ≠ connHandle),
        state.awaiting.filter (· ≠ connHandle), true⟩
  | .returned => ⟨state.central.forgetRemote.1, state.live, state.awaiting, false⟩

/-- The stack reports the links that come and go, and answers a request that waits; no event is taken
from within the handlers. -/
def expected (state : CentralRequests) (input : CentralInput) : Bool :=
  input.linkExpected state.live && match input with
    | .event ⟨connHandle, .readRsp _ _ _⟩ | .event ⟨connHandle, .writeRsp _⟩ =>
        connHandle ∈ state.awaiting && !state.handling
    | .event _ => !state.handling
    | _ => true

/-- What the stack does: its events are expected, and it accepts a request only on a link where none
waits. -/
def Legal (state : CentralRequests) : CentralStage → Prop
  | .whole input =>
      state.expected input ∧ (∀ connHandle ∈ state.requested input, connHandle ∈ state.live) ∧
        (state.awaiting ++ state.requested input).Nodup
  | .dropped connHandle _ => connHandle ∈ state.live ∧ state.handling = false
  | .returned => state.handling = true

/-- The flag says whether a request waits. -/
def FlagRight (state : CentralRequests) : Prop :=
  state.central.remoteRequestInProgress = true ↔ state.awaiting ≠ []

/-- As for the peripheral role. -/
def CallFair (state : CentralRequests) (input : CentralInput) : Prop :=
  input.isRequest →
    (state.acceptedCalls input = [] →
      (state.call input).central.remoteRequestInProgress = state.central.remoteRequestInProgress ∧
        (state.call input).central.txBufferCount = state.central.txBufferCount) ∧
      ((transfers (state.central.step input).2).any StackCall.consumesPacket →
        (state.call input).central.remoteRequestInProgress = state.central.remoteRequestInProgress)

/-- The calls of a step are fair. -/
def Fair (state : CentralRequests) : CentralStage → Prop
  | .whole input => state.CallFair input
  | .dropped _ _ | .returned => True

/-- A call that finds an allowed entry makes a request that is accepted on some link, or finds one
waiting. -/
def RequestKeeps (state : CentralRequests) (characteristic : Nat)
    (allowed waits : CentralCharacteristicInfo → Bool) (codes : Nat → UInt32) : Prop :=
  ∀ info ∈ state.central.remoteInfo characteristic, info.valueHandle ≠ 0 ∧ allowed info →
    state.awaiting ≠ [] ∨
      waits info ∧ ∃ index < (state.central.targets info).length, codes index = nrfSuccess

/-- A response or a disconnection comes while no other link waits. A call that finds its
characteristic discovered and allowed makes a request that is accepted on some link, or a request waits
already; a write without response is no request. -/
def CallKeeps (state : CentralRequests) : CentralInput → Prop
  | .event reported =>
      reported.params.endsRequest → ∀ waiting ∈ state.awaiting, waiting = reported.connHandle
  | .updateCharacteristicValue _ _ => True
  | .readRemoteCharacteristic characteristic codes =>
      state.RequestKeeps characteristic (fun info => info.properties.read) (fun _ => true) codes
  | .writeRemoteCharacteristic characteristic _ codes =>
      state.RequestKeeps characteristic
        (fun info => info.properties.writeWoResp || info.properties.write)
        (fun info => info.properties.write) codes
  | .subscribeRemoteCharacteristic characteristic codes
  | .unsubcribeRemoteCharacteristic characteristic codes =>
      state.RequestKeeps characteristic
        (fun info => info.properties.notify || info.properties.indicate) (fun _ => true) codes

/-- **What a step must meet**: what a call or event must. When the handlers of a disconnection are called
no link waits, or another one still does; when they return none does. -/
def KeepsFlag (state : CentralRequests) : CentralStage → Prop
  | .whole input => state.CallKeeps input
  | .dropped connHandle _ =>
      state.awaiting = [] ∨ ∃ waiting ∈ state.awaiting, waiting ≠ connHandle
  | .returned => state.awaiting = []

end CentralRequests

/-! ### What a step of the central role does to the flag -/

/-- **An event clears the flag** exactly when it is a response or a disconnection. -/
theorem central_poll_flag (central : CentralRole) (event : StackEvent) :
    (central.poll event).1.remoteRequestInProgress =
      (central.remoteRequestInProgress && !event.params.endsRequest) := by
  obtain ⟨connHandle, params⟩ := event
  have kept : central.remoteRequestInProgress = (central.remoteRequestInProgress && !false) := by
    rw [Bool.not_false, Bool.and_true]
  have cleared : false = (central.remoteRequestInProgress && !true) := by
    rw [Bool.not_true, Bool.and_false]
  cases params with
  | advReport report => exact kept
  | txComplete count => exact kept
  | connected peerAddr txPacketCount => exact kept
  | disconnected reason => exact cleared
  | gattsWrite handle data =>
    obtain ⟨_, _, _, after⟩ := central.writeLocal_changes (central.nodeAt (central.slot connHandle))
      handle data [] central.localCharacteristicInfo
    simp only [CentralRole.poll, after]
    exact kept
  | sysAttrMissing => exact kept
  | primSrvcDiscRsp gattStatus services last =>
    obtain ⟨_, _, after⟩ := central.onServices_changes connHandle gattStatus services last
    simp only [CentralRole.poll, after]
    exact kept
  | charDiscRsp gattStatus chars =>
    obtain ⟨_, _, after⟩ := central.onChars_changes connHandle gattStatus chars
    simp only [CentralRole.poll, after]
    exact kept
  | readRsp gattStatus handle data =>
    obtain ⟨_, after⟩ := central.onReadRsp_changes connHandle gattStatus handle data
    simp only [CentralRole.poll, after]
    exact cleared
  | writeRsp gattStatus =>
    simp only [CentralRole.poll, CentralRole.onWriteRsp_changes]
    exact cleared
  | hvx type handle data =>
    obtain ⟨_, after⟩ := central.onHvx_changes connHandle type handle data
    simp only [CentralRole.poll, after]
    exact kept

/-- **An event transfers nothing.** -/
theorem central_poll_transfers (central : CentralRole) (event : StackEvent) :
    transfers (central.poll event).2 = [] := by
  obtain ⟨connHandle, params⟩ := event
  cases params with
  | advReport report => rfl
  | txComplete count => rfl
  | connected peerAddr txPacketCount =>
    simp only [CentralRole.poll, CentralRole.onConnected, transfers, transfers_append]
    split_ifs <;> rfl
  | disconnected reason => rfl
  | gattsWrite handle data =>
    obtain ⟨_, _, notices, after⟩ := central.writeLocal_changes
      (central.nodeAt (central.slot connHandle)) handle data [] central.localCharacteristicInfo
    simp only [CentralRole.poll, after]
    exact transfers_notices notices
  | sysAttrMissing =>
    simp only [CentralRole.poll, CentralRole.onSysAttrMissing]
    generalize List.filter _ _ = slots
    induction slots with
    | nil => rfl
    | cons slot rest ih => exact ih
  | primSrvcDiscRsp gattStatus services last =>
    simp only [CentralRole.poll, CentralRole.onServices]
    split_ifs
    · rfl
    · split <;> rfl
    · rfl
  | charDiscRsp gattStatus chars =>
    simp only [CentralRole.poll, CentralRole.onChars]
    split_ifs
    · rfl
    · split <;> rfl
    · rfl
  | readRsp gattStatus handle data =>
    obtain ⟨_, notices, stored⟩ := CentralRole.storeRemoteValue_changes
      { central with remoteRequestInProgress := false } connHandle handle data
    simp only [CentralRole.poll, CentralRole.onReadRsp, CentralRole.authenticate, stored]
    split_ifs
    · rfl
    · rfl
    · exact transfers_notices notices
    · rfl
  | writeRsp gattStatus =>
    simp only [CentralRole.poll, CentralRole.onWriteRsp, CentralRole.authenticate]
    split_ifs <;> rfl
  | hvx type handle data =>
    obtain ⟨_, notices, stored⟩ := central.storeRemoteValue_changes connHandle handle data
    simp only [CentralRole.poll, CentralRole.onHvx, stored, transfers_append, transfers_notices]
    split_ifs <;> rfl

theorem central_sendValue_requests (central : CentralRole) (subscribed : Bool) (handle : UInt16)
    (type : HvxType) :
    (transfers (central.sendValue subscribed handle type).2.1).any StackCall.isRequest = false := by
  unfold CentralRole.sendValue
  split_ifs
  · dsimp only
    generalize central.linkedSlots = slots
    induction slots with
    | nil => rfl
    | cons slot rest ih => exact ih
  · rfl
  · rfl

/-- An update makes no requests. -/
theorem central_updateEntries_requests (central : CentralRole) (characteristic : LocalCharacteristic)
    (infos : List LocalCharacteristicInfo) :
    (transfers (central.updateEntries characteristic infos).2.1).any StackCall.isRequest = false := by
  induction infos generalizing central with
  | nil => rfl
  | cons info rest ih =>
    simp only [CentralRole.updateEntries]
    split_ifs
    · simp only [transfers, StackCall.isTransfer, transfers_append, List.any_append,
        central_sendValue_requests, ih, Bool.or_self, Bool.false_eq_true, if_false]
    · exact ih central

/-! ### Runs of the central role -/

section Central

variable {state : CentralRequests} {input : CentralInput}

/-- A step whose transfers are no requests leaves waiting who is not answered. -/
theorem awaiting_of_noRequest
    (none : (transfers (state.central.step input).2).any StackCall.isRequest = false) :
    (state.call input).awaiting =
      state.awaiting.filter fun connHandle => !input.endsRequest connHandle := by
  have noneAccepted := accepted_any_eq_false none input.codes
  have noneRequested : state.requested input = [] := by
    rw [CentralRequests.requested, List.map_eq_nil_iff, List.filter_eq_nil_iff]
    rw [List.any_eq_false] at noneAccepted
    exact noneAccepted
  rw [CentralRequests.call, noneRequested, List.append_nil]

theorem filter_not_ends (notRequest : ∀ connHandle, input.endsRequest connHandle = false) :
    (state.awaiting.filter fun connHandle => !input.endsRequest connHandle) = state.awaiting := by
  rw [List.filter_eq_self]
  intro connHandle _
  rw [notRequest]
  rfl

/-- **An event** leaves the flag right exactly when no link waits but the one it answers. -/
theorem event_keeps_iff (right : state.FlagRight) (event : StackEvent) :
    (state.call (.event event)).FlagRight ↔ state.CallKeeps (.event event) := by
  have awaiting : (state.call (.event event)).awaiting = _ :=
    awaiting_of_noRequest (show (transfers (state.central.poll event).2).any _ = false by
      rw [central_poll_transfers]
      rfl)
  have flagAfter : (state.call (.event event)).central.remoteRequestInProgress =
      (state.central.remoteRequestInProgress && !event.params.endsRequest) :=
    central_poll_flag state.central event
  simp only [CentralRequests.FlagRight] at right ⊢
  rw [flagAfter, awaiting, ne_eq, List.filter_eq_nil_iff]
  cases ends : event.params.endsRequest with
  | true => simp [CentralRequests.CallKeeps, CentralInput.endsRequest, ends]
  | false =>
    simp only [CentralRequests.CallKeeps, CentralInput.endsRequest, ends, Bool.not_false,
      Bool.and_true, Bool.false_and, Bool.false_eq_true, false_implies, iff_true, right, ne_eq]
    simp [List.eq_nil_iff_forall_not_mem]

/-- A call is refused exactly when it is on all of its links. -/
theorem refused_iff {slots : List UInt16} {call : UInt16 → StackCall}
    (acceptedCalls : state.acceptedCalls input = accepted (slots.map call) input.codes) :
    state.acceptedCalls input = [] ↔ ¬ ∃ index < slots.length, input.codes index = nrfSuccess := by
  rw [acceptedCalls, accepted_eq_nil_iff, List.length_map]
  push Not
  rfl

/-- Some link has a request to answer exactly when the calls are requests and one is accepted. -/
theorem requested_iff {slots : List UInt16} {call : UInt16 → StackCall} {request : Bool}
    (acceptedCalls : state.acceptedCalls input = accepted (slots.map call) input.codes)
    (kind : ∀ connHandle, (call connHandle).isRequest = request) :
    state.requested input ≠ [] ↔
      request ∧ ∃ index < slots.length, input.codes index = nrfSuccess := by
  have kinds : ∀ made ∈ state.acceptedCalls input, made.isRequest = request := by
    intro made member
    rw [acceptedCalls] at member
    obtain ⟨connHandle, _, rfl⟩ := List.mem_map.mp (mem_of_accepted member)
    exact kind connHandle
  rw [CentralRequests.requested, ne_eq, List.map_eq_nil_iff]
  cases request with
  | true => rw [List.filter_eq_self.mpr kinds, refused_iff acceptedCalls, not_not, eq_self_iff_true, true_and]
  | false =>
    have none : (state.acceptedCalls input).filter StackCall.isRequest = [] := by
      rw [List.filter_eq_nil_iff]
      intro made member
      rw [kinds made member]
      exact Bool.false_ne_true
    rw [none]
    simp

/-- **A call for a request** is fair and leaves the flag right exactly when it meets the condition. -/
theorem request_keeps_iff (right : state.FlagRight) (isRequest : input.isRequest)
    {characteristic : Nat} {allowed waits : CentralCharacteristicInfo → Bool}
    {call : CentralCharacteristicInfo → UInt16 → StackCall} {codes : Nat → UInt32}
    (codesOf : input.codes = codes)
    (stepped : state.central.step input =
      ((state.central.request characteristic allowed call codes).1,
        (state.central.request characteristic allowed call codes).2.1))
    (transfer : ∀ info connHandle, (call info connHandle).isTransfer)
    (kind : ∀ info connHandle, (call info connHandle).isRequest = waits info)
    (packet : ∀ info connHandle, (call info connHandle).consumesPacket = !waits info) :
    ((state.call input).FlagRight ∧ state.CallFair input) ↔
      state.RequestKeeps characteristic allowed waits codes := by
  subst codesOf
  have notEnds : ∀ connHandle, input.endsRequest connHandle = false := by
    cases input <;> first | exact fun _ => rfl | cases isRequest
  by_cases sends : ∃ info, state.central.remoteInfo characteristic = some info ∧
      (info.valueHandle ≠ 0 ∧ allowed info)
  · obtain ⟨info, found, allows⟩ := sends
    have sent := request_sends input.codes transfer found allows
    rw [request_made input.codes found allows] at stepped sent
    have calls : transfers (state.central.step input).2 =
        (state.central.targets info).map (call info) := by
      rw [stepped]
      exact sent
    have acceptedCalls : state.acceptedCalls input =
        accepted ((state.central.targets info).map (call info)) input.codes := by
      rw [CentralRequests.acceptedCalls, calls]
    have asked := requested_iff acceptedCalls (kind info)
    have awaitingAfter : (state.call input).awaiting = state.awaiting ++ state.requested input := by
      rw [CentralRequests.call, filter_not_ends notEnds]
    have flagAfter : (state.call input).central.remoteRequestInProgress = true := by
      rw [CentralRequests.call, stepped]
    have creditAfter : (state.call input).central.txBufferCount = state.central.txBufferCount := by
      rw [CentralRequests.call, stepped]
    have keeps : state.RequestKeeps characteristic allowed waits input.codes ↔
        state.awaiting ≠ [] ∨ state.requested input ≠ [] := by
      simp only [CentralRequests.RequestKeeps, found, Option.mem_some_iff, forall_eq', allows,
        asked, true_implies, ne_eq, not_false_eq_true, and_self]
    have rightAfter : (state.call input).FlagRight ↔
        state.awaiting ≠ [] ∨ state.requested input ≠ [] := by
      simp only [CentralRequests.FlagRight, flagAfter, awaitingAfter, true_iff, ne_eq,
        List.append_eq_nil_iff, not_and_or]
    rw [keeps, rightAfter, and_iff_left_iff_imp]
    rintro (waiting | requested) _
    · have flag : state.central.remoteRequestInProgress = true := right.mpr waiting
      rw [flagAfter, flag, creditAfter]
      exact ⟨fun _ => ⟨rfl, rfl⟩, fun _ => rfl⟩
    · obtain ⟨request, someAccepted⟩ := asked.mp requested
      refine ⟨fun none => absurd someAccepted ((refused_iff acceptedCalls).mp none), fun packets => ?_⟩
      rw [calls, List.any_eq_true] at packets
      obtain ⟨made, member, isPacket⟩ := packets
      obtain ⟨connHandle, _, rfl⟩ := List.mem_map.mp member
      rw [packet, request] at isPacket
      cases isPacket
  · rw [request_idle input.codes sends] at stepped
    have silent : transfers (state.central.step input).2 = [] := by rw [stepped]; rfl
    refine iff_of_true ⟨?_, ?_⟩ fun info found allows => absurd ⟨info, found, allows⟩ sends
    · have awaiting : (state.call input).awaiting = _ :=
        awaiting_of_noRequest (by rw [silent]; rfl)
      rw [CentralRequests.FlagRight, awaiting, filter_not_ends notEnds, CentralRequests.call, stepped]
      exact right
    · intro _
      simp [CentralRequests.call, stepped]

/-- A call or event keeps the flag right, and is fair, exactly when it meets the condition. -/
theorem centralFlag_call_iff (state : CentralRequests) (input : CentralInput)
    (right : state.FlagRight) :
    ((state.call input).FlagRight ∧ state.CallFair input) ↔ state.CallKeeps input := by
  cases input with
  | event event =>
    rw [event_keeps_iff right event, and_iff_left_iff_imp]
    exact fun _ call => by cases call
  | updateCharacteristicValue characteristic codes =>
    obtain ⟨_, changed⟩ := state.central.updateEntries_changes characteristic
      state.central.localCharacteristicInfo
    have awaiting : (state.call (.updateCharacteristicValue characteristic codes)).awaiting = _ :=
      awaiting_of_noRequest (central_updateEntries_requests _ _ _)
    refine iff_of_true ⟨?_, fun call => by cases call⟩ trivial
    have flagAfter : (state.call (.updateCharacteristicValue characteristic
        codes)).central.remoteRequestInProgress = state.central.remoteRequestInProgress := by
      show (state.central.updateEntries characteristic
        state.central.localCharacteristicInfo).1.remoteRequestInProgress = _
      rw [changed]
    rw [CentralRequests.FlagRight, awaiting, filter_not_ends fun _ => rfl, flagAfter]
    exact right
  | readRemoteCharacteristic characteristic codes =>
    exact request_keeps_iff right rfl rfl rfl (fun _ _ => rfl) (fun _ _ => rfl) (fun _ _ => rfl)
  | writeRemoteCharacteristic characteristic value codes =>
    refine request_keeps_iff right rfl rfl rfl (fun _ _ => rfl) (fun info _ => ?_) (fun info _ => ?_)
    · cases request : info.properties.write <;> simp [Nrf51822.writeOp, request, StackCall.isRequest]
    · cases request : info.properties.write <;> simp [Nrf51822.writeOp, request]
  | subscribeRemoteCharacteristic characteristic codes =>
    exact request_keeps_iff right rfl rfl rfl (fun _ _ => rfl) (fun _ _ => rfl) (fun _ _ => rfl)
  | unsubcribeRemoteCharacteristic characteristic codes =>
    exact request_keeps_iff right rfl rfl rfl (fun _ _ => rfl) (fun _ _ => rfl) (fun _ _ => rfl)

/-- **The step lemma of the central role.** -/
theorem centralFlag_step_iff (state : CentralRequests) (stage : CentralStage)
    (right : state.FlagRight) :
    ((state.step stage).FlagRight ∧ state.Fair stage) ↔ state.KeepsFlag stage := by
  cases stage with
  | whole input => exact centralFlag_call_iff state input right
  | dropped connHandle reason =>
    have kept : (state.central.dropLink connHandle reason).1.remoteRequestInProgress = true ↔
        state.awaiting ≠ [] := right
    have others : state.awaiting.filter (· ≠ connHandle) ≠ [] ↔
        ∃ waiting ∈ state.awaiting, waiting ≠ connHandle := by
      simp [List.filter_eq_nil_iff]
    simp only [CentralRequests.FlagRight, CentralRequests.step, CentralRequests.Fair,
      CentralRequests.KeepsFlag, kept, others, and_true]
    constructor
    · intro same
      by_cases none : state.awaiting = []
      · exact .inl none
      · exact .inr (same.mp none)
    · rintro (none | ⟨waiting, member, other⟩)
      · simp [none]
      · exact iff_of_true (List.ne_nil_of_mem member) ⟨waiting, member, other⟩
  | returned =>
    simp [CentralRequests.FlagRight, CentralRequests.step, CentralRequests.Fair,
      CentralRequests.KeepsFlag, CentralRole.forgetRemote]

end Central

/-! ### Both roles -/

/-- A device that knows of one remote service and one characteristic of it. -/
def oneRemoteCharacteristic : Nrf51822 :=
  { oneCharacteristic with
    remoteServiceInfo := [⟨1, ⟨0x180F, 1⟩, .zero⟩]
    remoteCharacteristicInfo := [⟨1, 1, ⟨0x2A19, 1⟩, .none, 0⟩] }

/-- A peer connects and reports that the characteristic can be written without response. -/
def discovery : List DeviceInput :=
  [.event ⟨0, .connected (.replicate 6 1) 6⟩,
    .event ⟨0, .primSrvcDiscRsp statusSuccess [] ⟨⟨0x180F, 1⟩, ⟨1, 0xFFFF⟩⟩⟩,
    .event ⟨0, .primSrvcDiscRsp statusInvalidHandle [] ⟨⟨0x180F, 1⟩, ⟨1, 0xFFFF⟩⟩⟩,
    .event ⟨0, .charDiscRsp statusSuccess [⟨⟨0x2A19, 1⟩, ⟨true, true, false, false, false⟩, 2, 3⟩]⟩,
    .event ⟨0, .charDiscRsp statusAttributeNotFound []⟩]

end PrimoCore.Ble
