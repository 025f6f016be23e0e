/-
**The SoftDevice as the roles see it.**

A role hands calls to the stack and is handed events. Calls and notices to the program are returned as
data; the return code of a call comes from outside, since the stack may refuse any call.

* `StackCall`, `Output` — what a method or an event handler does.
* `StackEvent` — what the stack reports, with the connection it reports about.
* `transfers`, `accepted` — the calls that carry values or requests, and those the stack accepted.
* `RemoteServiceInfo`, `RemoteCharacteristicInfo` — the tables of registered remote attributes, filled
  in by discovery. Both roles carry the same loops over them.
-/

import Mathlib.Data.List.Basic
import Mathlib.Tactic.SplitIfs
import PrimoCore.Lib.Buffer
import PrimoCore.Ble.Node

namespace PrimoCore.Ble

open PrimoCore.Lib

/-- `BLE_CONN_HANDLE_INVALID`. -/
def connHandleInvalid : UInt16 := 0xFFFF

/-- `NRF_SUCCESS`. -/
def nrfSuccess : UInt32 := 0

/-- `BLE_GATT_STATUS_SUCCESS`. -/
def statusSuccess : UInt16 := 0x0000

/-- `BLE_GATT_STATUS_ATTERR_INVALID_HANDLE`. -/
def statusInvalidHandle : UInt16 := 0x0101

/-- `BLE_GATT_STATUS_ATTERR_INSUF_AUTHENTICATION`. -/
def statusInsufAuthentication : UInt16 := 0x0105

/-- `BLE_GATT_STATUS_ATTERR_ATTRIBUTE_NOT_FOUND`. -/
def statusAttributeNotFound : UInt16 := 0x010A

/-- `ble_uuid_t`. -/
structure Uuid where
  uuid : UInt16
  type : UInt8
  deriving DecidableEq, Repr

/-- `ble_gattc_handle_range_t`. -/
structure HandleRange where
  startHandle : UInt16
  endHandle : UInt16
  deriving DecidableEq, Repr

/-- The members of `ble_gatt_char_props_t` the roles read. -/
structure CharProps where
  read : Bool
  writeWoResp : Bool
  write : Bool
  notify : Bool
  indicate : Bool
  deriving DecidableEq, Repr

/-- `ble_gattc_service_t`. -/
structure FoundService where
  uuid : Uuid
  handleRange : HandleRange
  deriving DecidableEq, Repr

/-- `ble_gattc_char_t`. -/
structure FoundChar where
  uuid : Uuid
  charProps : CharProps
  handleDecl : UInt16
  handleValue : UInt16
  deriving DecidableEq, Repr

/-- `BLE_GATT_HVX_NOTIFICATION`, `BLE_GATT_HVX_INDICATION`. -/
inductive HvxType where
  | notification
  | indication
  deriving DecidableEq, Repr

/-- `BLE_GATT_OP_WRITE_REQ`, `BLE_GATT_OP_WRITE_CMD`. -/
inductive WriteOp where
  | writeReq
  | writeCmd
  deriving DecidableEq, Repr

/-! ### Calls and events -/

/-- A call of the SoftDevice. -/
inductive StackCall where
  | gapAdvStart
  | gapScanStart
  | gapAdvDataSet (data : List UInt8)
  | gapConnect (peerAddr : Vector UInt8 6)
  | gapDisconnect (connHandle : UInt16)
  | gapEncrypt (connHandle : UInt16)
  | gapAuthenticate (connHandle : UInt16)
  | gapConnParamUpdate (connHandle minInterval maxInterval : UInt16)
  | gattsValueSet (handle : UInt16) (value : List UInt8)
  | gattsHvx (connHandle handle : UInt16) (type : HvxType)
  | gattsSysAttrSet (connHandle : UInt16)
  | gattcPrimaryServicesDiscover (connHandle startHandle : UInt16)
  | gattcCharacteristicsDiscover (connHandle : UInt16) (handleRange : HandleRange)
  | gattcRead (connHandle handle : UInt16)
  | gattcWrite (connHandle : UInt16) (writeOp : WriteOp) (handle : UInt16) (value : List UInt8)
  | gattcHvConfirm (connHandle handle : UInt16)
  deriving DecidableEq, Repr

/-- What a role does: a call of the stack, or a notice to the program, of the kind the role gives. -/
inductive Output (Notice : Type) where
  | call (call : StackCall)
  | notice (notice : Notice)
  deriving DecidableEq, Repr

/-- The event of the stack, with its parameters. A successful discovery of services reports at least
one, the last one apart. `connected` comes with the packet count `sd_ble_tx_packet_count_get` reads for
the new link. -/
inductive EventParams where
  | advReport (report : AdvReport)
  | txComplete (count : UInt8)
  | connected (peerAddr : Vector UInt8 6) (txPacketCount : UInt8)
  | disconnected (reason : UInt8)
  | gattsWrite (handle : UInt16) (data : List UInt8)
  | sysAttrMissing
  | primSrvcDiscRsp (gattStatus : UInt16) (services : List FoundService) (last : FoundService)
  | charDiscRsp (gattStatus : UInt16) (chars : List FoundChar)
  | readRsp (gattStatus : UInt16) (handle : UInt16) (data : List UInt8)
  | writeRsp (gattStatus : UInt16)
  | hvx (type : HvxType) (handle : UInt16) (data : List UInt8)
  deriving DecidableEq, Repr

/-- `ble_evt_t`. -/
structure StackEvent where
  connHandle : UInt16
  params : EventParams
  deriving DecidableEq, Repr

/-- A transfer: a notification or indication, a read or a write. Only the return codes of transfers
matter, here and to the roles. -/
def StackCall.isTransfer : StackCall → Bool
  | .gattsHvx _ _ _ | .gattcRead _ _ | .gattcWrite _ _ _ _ => true
  | _ => false

variable {Notice : Type}

/-- The transfers among some outputs, in order. -/
def transfers : List (Output Notice) → List StackCall
  | [] => []
  | .call call :: rest => if call.isTransfer then call :: transfers rest else transfers rest
  | .notice _ :: rest => transfers rest

@[simp] theorem transfers_nil : transfers ([] : List (Output Notice)) = [] := rfl

theorem transfers_append (first second : List (Output Notice)) :
    transfers (first ++ second) = transfers first ++ transfers second := by
  induction first with
  | nil => rfl
  | cons output rest ih =>
    cases output with
    | call call =>
      simp only [List.cons_append, transfers, ih]
      split <;> rfl
    | notice notice => exact ih

/-- Notices are no transfers. -/
theorem transfers_notices (notices : List Notice) :
    transfers (notices.map .notice : List (Output Notice)) = [] := by
  induction notices with
  | nil => rfl
  | cons notice rest ih => exact ih

/-- Transfers are their own transfers. -/
theorem transfers_calls {calls : List StackCall} (all : ∀ call ∈ calls, call.isTransfer) :
    transfers (calls.map fun call => (Output.call call : Output Notice)) = calls := by
  induction calls with
  | nil => rfl
  | cons call rest ih =>
    rw [List.map_cons, transfers, if_pos (all call (List.mem_cons_self ..)),
      ih fun later member => all later (List.mem_cons_of_mem _ member)]

/-- The transfers the stack accepts, when its return codes for them are `codes`, in order. -/
def accepted (calls : List StackCall) (codes : Nat → UInt32) : List StackCall :=
  match calls with
  | [] => []
  | call :: rest =>
      let later := accepted rest fun index => codes (index + 1)
      if codes 0 = nrfSuccess then call :: later else later

/-- The accepted calls are among the calls. -/
theorem mem_of_accepted {calls : List StackCall} {codes : Nat → UInt32} {call : StackCall}
    (member : call ∈ accepted calls codes) : call ∈ calls := by
  induction calls generalizing codes with
  | nil => exact member
  | cons first rest ih =>
    simp only [accepted] at member
    split at member
    · rcases List.mem_cons.mp member with rfl | later
      · exact List.mem_cons_self ..
      · exact List.mem_cons_of_mem _ (ih later)
    · exact List.mem_cons_of_mem _ (ih member)

/-- No call is accepted exactly when each is refused. -/
theorem accepted_eq_nil_iff {calls : List StackCall} {codes : Nat → UInt32} :
    accepted calls codes = [] ↔ ∀ index < calls.length, codes index ≠ nrfSuccess := by
  induction calls generalizing codes with
  | nil => simp [accepted]
  | cons call rest ih =>
    simp only [accepted, List.length_cons]
    constructor
    · intro empty
      split at empty
      · cases empty
      · rename_i refused
        intro index inside
        cases index with
        | zero => exact refused
        | succ index => exact ih.mp empty index (Nat.lt_of_succ_lt_succ inside)
    · intro refused
      rw [if_neg (refused 0 (Nat.succ_pos _))]
      exact ih.mpr fun index inside => refused (index + 1) (Nat.succ_lt_succ inside)

/-- Where no call meets a test, no accepted call does. -/
theorem accepted_any_eq_false {test : StackCall → Bool} {calls : List StackCall}
    (none : calls.any test = false) (codes : Nat → UInt32) :
    (accepted calls codes).any test = false := by
  rw [List.any_eq_false] at none ⊢
  exact fun call member => none call (mem_of_accepted member)

/-- No more calls are accepted and meet a test than are made. -/
theorem accepted_filter_le (test : StackCall → Bool) (calls : List StackCall) (codes : Nat → UInt32) :
    ((accepted calls codes).filter test).length ≤ calls.length := by
  induction calls generalizing codes with
  | nil => exact Nat.le_refl 0
  | cons call rest ih =>
    have later := ih fun index => codes (index + 1)
    simp only [accepted, List.length_cons]
    split
    · have one := List.length_filter_le test [call]
      rw [← List.singleton_append, List.filter_append, List.length_append]
      rw [List.length_singleton] at one
      omega
    · omega

/-- All calls are accepted and meet a test exactly when each does. -/
theorem accepted_filter_length_iff (test : StackCall → Bool) (calls : List StackCall)
    (codes : Nat → UInt32) :
    ((accepted calls codes).filter test).length = calls.length ↔
      ∀ (index : Nat) (inside : index < calls.length),
        test calls[index] = true ∧ codes index = nrfSuccess := by
  induction calls generalizing codes with
  | nil => simp [accepted]
  | cons call rest ih =>
    have later := accepted_filter_le test rest fun index => codes (index + 1)
    have all := ih fun index => codes (index + 1)
    simp only [accepted, List.length_cons]
    constructor
    · intro whole
      split at whole
      · rename_i success
        by_cases meets : test call
        · rw [List.filter_cons_of_pos meets, List.length_cons, Nat.add_right_cancel_iff] at whole
          intro index inside
          cases index with
          | zero => exact ⟨meets, success⟩
          | succ index => exact all.mp whole index (Nat.lt_of_succ_lt_succ inside)
        · rw [List.filter_cons_of_neg meets] at whole
          omega
      · omega
    · intro each
      obtain ⟨meets, success⟩ : test call = true ∧ codes 0 = nrfSuccess := each 0 (Nat.succ_pos _)
      have rest_all := all.mpr fun index inside => each (index + 1) (Nat.succ_lt_succ inside)
      rw [if_pos success, List.filter_cons_of_pos meets, List.length_cons, rest_all]

/-- The rule of `ble.h` for application packets: a notification and a write without response consume
one, nothing else does. -/
def StackCall.consumesPacket : StackCall → Bool
  | .gattsHvx _ _ .notification => true
  | .gattcWrite _ .writeCmd _ _ => true
  | _ => false

@[simp] theorem consumesPacket_write (connHandle : UInt16) (writeOp : WriteOp) (handle : UInt16)
    (value : List UInt8) : (StackCall.gattcWrite connHandle writeOp handle value).consumesPacket =
      decide (writeOp = .writeCmd) := by
  cases writeOp <;> rfl

/-- The call starts an ATT request, which is answered by a read or a write response. -/
def StackCall.isRequest : StackCall → Bool
  | .gattcRead _ _ => true
  | .gattcWrite _ .writeReq _ _ => true
  | _ => false

/-- The connection a transfer is made on. -/
def StackCall.transferHandle : StackCall → UInt16
  | .gattsHvx connHandle _ _ | .gattcRead connHandle _ | .gattcWrite connHandle _ _ _ => connHandle
  | _ => connHandleInvalid

/-! ### The tables of remote attributes -/

/-- `remoteServiceInfo`. -/
structure RemoteServiceInfo where
  service : Nat
  uuid : Uuid
  handlesRange : HandleRange
  deriving DecidableEq, Repr

/-- `remoteCharacteristicInfo`, without the links of the central role. -/
structure RemoteCharacteristicInfo where
  characteristic : Nat
  service : Nat
  uuid : Uuid
  properties : CharProps
  valueHandle : UInt16
  deriving DecidableEq, Repr

/-- A cleared `handlesRange`. -/
def HandleRange.zero : HandleRange := ⟨0, 0⟩

/-- Cleared `properties`. -/
def CharProps.none : CharProps := ⟨false, false, false, false, false⟩

/-- The range of a service has been discovered. -/
def RemoteServiceInfo.found (info : RemoteServiceInfo) : Bool :=
  info.handlesRange.startHandle ≠ 0 ∧ info.handlesRange.endHandle ≠ 0

/-- The inner loop of the service response: the first registered service with the UUID gets the
range. -/
def storeService (found : FoundService) : List RemoteServiceInfo → List RemoteServiceInfo
  | [] => []
  | info :: rest =>
      if found.uuid = info.uuid then { info with handlesRange := found.handleRange } :: rest
      else info :: storeService found rest

/-- The loops of the service response. -/
def storeServices (services : List FoundService) (infos : List RemoteServiceInfo) :
    List RemoteServiceInfo :=
  services.foldl (fun infos found => storeService found infos) infos

/-- The first service from an index on whose range has been discovered. -/
def nextFound (infos : List RemoteServiceInfo) (first : Nat) : Option Nat :=
  ((infos.drop first).findIdx? RemoteServiceInfo.found).map (· + first)

/-- A discovered characteristic is the registered one: the scanned service and the UUID agree. -/
def RemoteCharacteristicInfo.isFound (info : RemoteCharacteristicInfo)
    (service : Option Nat) (found : FoundChar) : Prop :=
  service = some info.service ∧ found.uuid = info.uuid

instance (info : RemoteCharacteristicInfo) (service : Option Nat) (found : FoundChar) :
    Decidable (info.isFound service found) := inferInstanceAs (Decidable (_ ∧ _))

/-- What the characteristic response stores. -/
def RemoteCharacteristicInfo.store (info : RemoteCharacteristicInfo) (service : Option Nat)
    (found : FoundChar) : RemoteCharacteristicInfo :=
  if info.isFound service found then
    { info with properties := found.charProps, valueHandle := found.handleValue }
  else info

/-- A disconnection clears what was discovered of a characteristic. -/
def RemoteCharacteristicInfo.clear (info : RemoteCharacteristicInfo) : RemoteCharacteristicInfo :=
  { info with properties := .none, valueHandle := 0 }

def RemoteServiceInfo.clear (info : RemoteServiceInfo) : RemoteServiceInfo :=
  { info with handlesRange := .zero }

/-- The range of the next characteristic request: from the last value handle reported on. -/
def continueRange (range : HandleRange) (chars : List FoundChar) : HandleRange :=
  chars.foldl (fun range found => { range with startHandle := found.handleValue }) range

/-- The range has a handle. -/
def HandleRange.has (range : HandleRange) (handle : UInt16) : Bool :=
  range.startHandle ≤ handle && handle ≤ range.endHandle

/-- The services that are registered, with their UUIDs. -/
def registered (infos : List RemoteServiceInfo) : List (Nat × Uuid) :=
  infos.map fun info => (info.service, info.uuid)

theorem registered_clear (infos : List RemoteServiceInfo) :
    registered (infos.map RemoteServiceInfo.clear) = registered infos := by
  simp [registered, RemoteServiceInfo.clear, Function.comp_def]

theorem registered_storeService (found : FoundService) (infos : List RemoteServiceInfo) :
    registered (storeService found infos) = registered infos := by
  induction infos with
  | nil => rfl
  | cons info rest ih =>
    simp only [storeService]
    split_ifs
    · rfl
    · exact congrArg ((info.service, info.uuid) :: ·) ih

theorem registered_storeServices (services : List FoundService) (infos : List RemoteServiceInfo) :
    registered (storeServices services infos) = registered infos := by
  induction services generalizing infos with
  | nil => rfl
  | cons found rest ih => exact (ih _).trans (registered_storeService found infos)

/-- The next service to scan has a range. -/
theorem nextFound_found {infos : List RemoteServiceInfo} {first index : Nat}
    (next : nextFound infos first = some index) :
    ∃ info, infos[index]? = some info ∧ info.found = true := by
  rw [nextFound, Option.map_eq_some_iff] at next
  obtain ⟨offset, found, rfl⟩ := next
  obtain ⟨inside, isFound, _⟩ := List.findIdx?_eq_some_iff_getElem.mp found
  rw [List.length_drop] at inside
  rw [List.getElem_drop] at isFound
  have here : infos[offset + first]? = some infos[first + offset] := by
    rw [Nat.add_comm, List.getElem?_eq_getElem (by omega)]
  exact ⟨_, here, isFound⟩

/-- The range of the next request ends where the range ends, and starts there or at one of the
characteristics. -/
theorem continueRange_cases (range : HandleRange) (chars : List FoundChar) :
    (continueRange range chars).endHandle = range.endHandle ∧
      ((continueRange range chars).startHandle = range.startHandle ∨
        ∃ found ∈ chars, (continueRange range chars).startHandle = found.handleValue) := by
  induction chars generalizing range with
  | nil => exact ⟨rfl, .inl rfl⟩
  | cons first rest ih =>
    obtain ⟨last, start⟩ := ih { range with startHandle := first.handleValue }
    refine ⟨last, .inr ?_⟩
    rcases start with same | ⟨found, member, same⟩
    · exact ⟨first, List.mem_cons_self .., same⟩
    · exact ⟨found, List.mem_cons_of_mem _ member, same⟩

theorem continueRange_concat (range : HandleRange) (front : List FoundChar) (last : FoundChar) :
    continueRange range (front ++ [last]) = ⟨last.handleValue, range.endHandle⟩ := by
  have ends := (continueRange_cases range front).1
  rw [continueRange] at ends ⊢
  rw [List.foldl_append]
  show HandleRange.mk last.handleValue _ = _
  rw [ends]

end PrimoCore.Ble
