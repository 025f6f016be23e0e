/-
**The central role, `BLECentralRole`.**

Up to seven links, each in a slot of `_connectionHandle` and `_node`; the tables of remote attributes
are shared by all links, with a flag per slot and characteristic. The slot of a link is searched for
among the first `_allowedPeripherals` slots, and the index is used whether or not it was found.

* `CentralRole` — the state. The two slot arrays are buffers that log their writes.
* `slot` — the search loops.
* `poll`, `allowMultilink`, `connected` and the methods on characteristics — the code.
* `CentralInput`, `CentralRole.step` — the calls and events in one type.
* `CentralTurn.reply` — the update made of a value a peer writes.
-/

import PrimoCore.Ble.Device
import PrimoCore.Lib.Slots

namespace PrimoCore.Ble

open PrimoCore.Lib

/-- `MAX_PERIPHERAL`. -/
def maxPeripheral : UInt8 := 7

/-- A call of an event handler of the program, if it has set one, with the node it is handed. -/
inductive CentralNotice where
  | scanReceived (node : BLENode)
  | connected (node : BLENode)
  | disconnected (node : BLENode)
  | message (status : UInt16)
  | remoteServicesDiscovered (node : BLENode)
  | valueChanged (characteristic : Nat) (node : BLENode) (value : List UInt8)
  | subscribedChanged (characteristic : Nat) (node : BLENode) (subscribed : Bool)
  | remoteValueChanged (characteristic : Nat) (node : BLENode) (value : List UInt8)
  deriving DecidableEq, Repr

/-- `remoteCharacteristicInfo` of the central role: with a flag for each slot whose peripheral has
reported the characteristic. -/
structure CentralCharacteristicInfo extends RemoteCharacteristicInfo where
  connectionIndex : Memory Bool

/-- What `setValue` stores in a `BLERemoteCharacteristic`. -/
structure RemoteValue where
  value : List UInt8
  updated : Bool
  deriving DecidableEq, Repr

/-- `BLECentralRole`. -/
structure CentralRole where
  connectionHandle : Buffer UInt16
  node : Buffer BLENode
  tempNode : BLENode
  allowedPeripherals : UInt8
  peripheralConnected : UInt8
  txBufferCount : UInt8
  minimumConnectionInterval : UInt16
  maximumConnectionInterval : UInt16
  bond : Bool
  /-- `_bondStore.hasData()`. -/
  bonded : Bool
  localCharacteristicInfo : List LocalCharacteristicInfo
  /-- `subscribed()` of each local characteristic. -/
  subscribed : Nat → Bool
  remoteServiceInfo : List RemoteServiceInfo
  remoteServiceDiscoveryIndex : Nat
  remoteCharacteristicInfo : List CentralCharacteristicInfo
  /-- The value of each remote characteristic. -/
  remoteValue : Nat → RemoteValue
  remoteRequestInProgress : Bool

namespace CentralRole

/-- The slot of a handle, as the loops over the allowed slots find it. -/
def slot (central : CentralRole) (handle : UInt16) : Nat :=
  findSlot central.connectionHandle.bytes handle central.allowedPeripherals.toNat

/-- The handle in a slot. -/
def handleAt (central : CentralRole) (slot : Nat) : UInt16 := central.connectionHandle.bytes slot

/-- The node in a slot. -/
def nodeAt (central : CentralRole) (slot : Nat) : BLENode := central.node.bytes slot

/-! ### Links -/

/-- `allowMultilink`. -/
def allowMultilink (central : CentralRole) (linksNo : UInt8) : CentralRole :=
  { central with allowedPeripherals := if maxPeripheral < linksNo then maxPeripheral else linksNo }

/-- `connected`. -/
def connected (central : CentralRole) : Bool :=
  (List.range central.allowedPeripherals.toNat).any fun slot =>
    central.handleAt slot ≠ connHandleInvalid

/-- `disconnect`. -/
def disconnect (central : CentralRole) : List (Output CentralNotice) :=
  ((List.range central.allowedPeripherals.toNat).filter fun slot =>
    central.handleAt slot ≠ connHandleInvalid).map fun slot =>
      .call (.gapDisconnect (central.handleAt slot))

/-- `connect`. -/
def connect (node : BLENode) : List (Output CentralNotice) :=
  [.call (.gapConnect node.advReport.peerAddr)]

/-- `BLE_GAP_EVT_ADV_REPORT`. -/
def onAdvReport (central : CentralRole) (report : AdvReport) :
    CentralRole × List (Output CentralNotice) :=
  let tempNode := central.tempNode.setAdvPck report
  ({ central with tempNode := tempNode }, [.notice (.scanReceived tempNode)])

/-- `BLE_GAP_EVT_CONNECTED`. -/
def onConnected (central : CentralRole) (connHandle : UInt16) (txPacketCount : UInt8) :
    CentralRole × List (Output CentralNotice) :=
  let index := central.slot connHandleInvalid
  let update := if minConnIntervalMin ≤ central.minimumConnectionInterval ∧
      central.maximumConnectionInterval ≤ maxConnIntervalMax then
    [.call (.gapConnParamUpdate connHandle central.minimumConnectionInterval
      central.maximumConnectionInterval)] else []
  let discover := if central.remoteServiceInfo ≠ [] then
    [.call (.gattcPrimaryServicesDiscover connHandle 1)] else []
  let secure := if central.bond then
    [.call (if central.bonded then .gapEncrypt connHandle else .gapAuthenticate connHandle)] else []
  let scan := if central.peripheralConnected + 1 < central.allowedPeripherals then
    [.call .gapScanStart] else []
  ({ central with
      connectionHandle := central.connectionHandle.set index connHandle
      node := central.node.set index central.tempNode
      txBufferCount := txPacketCount
      peripheralConnected := central.peripheralConnected + 1 },
    .notice (.connected central.tempNode) :: (update ++ discover ++ secure ++ scan))

/-- The characteristics are cleared when the last peripheral goes; the flags of the slots are not. -/
def clearCharacteristics (infos : List CentralCharacteristicInfo) : List CentralCharacteristicInfo :=
  infos.map fun info => { info with properties := .none, valueHandle := 0 }

/-- `BLE_GAP_EVT_DISCONNECTED` up to its calls of the handlers, which find the remote attributes and the
flag as they were. -/
def dropLink (central : CentralRole) (connHandle : UInt16) (reason : UInt8) :
    CentralRole × List (Output CentralNotice) :=
  let currentPeripheral := central.slot connHandle
  ({ central with
      connectionHandle := central.connectionHandle.set currentPeripheral connHandleInvalid
      peripheralConnected := central.peripheralConnected - 1
      txBufferCount := 0 },
    [.notice (.message reason.toUInt16), .notice (.disconnected (central.nodeAt currentPeripheral))])

/-- The rest of it, when the handlers have returned. -/
def forgetRemote (central : CentralRole) : CentralRole × List (Output CentralNotice) :=
  ({ central with
      remoteServiceInfo := central.remoteServiceInfo.map RemoteServiceInfo.clear
      remoteCharacteristicInfo := if central.peripheralConnected = 0 then
        clearCharacteristics central.remoteCharacteristicInfo else central.remoteCharacteristicInfo
      remoteRequestInProgress := false },
    [.call .gapScanStart])

/-- `BLE_GAP_EVT_DISCONNECTED`, where the program calls nothing from its handlers. -/
def onDisconnected (central : CentralRole) (connHandle : UInt16) (reason : UInt8) :
    CentralRole × List (Output CentralNotice) :=
  let (central, told) := central.dropLink connHandle reason
  let (central, restarted) := central.forgetRemote
  (central, told ++ restarted)

/-- `BLE_GATTS_EVT_SYS_ATTR_MISSING`: the loop has no break. -/
def onSysAttrMissing (central : CentralRole) (connHandle : UInt16) :
    CentralRole × List (Output CentralNotice) :=
  (central, ((List.range central.allowedPeripherals.toNat).filter fun slot =>
    central.handleAt slot = connHandle).map fun slot =>
      .call (.gattsSysAttrSet (central.handleAt slot)))

/-! ### Discovery -/

/-- The part of `begin` that clears the tables of what is registered. -/
def clearTables (central : CentralRole) : CentralRole :=
  { central with
    remoteServiceInfo := central.remoteServiceInfo.map RemoteServiceInfo.clear
    remoteCharacteristicInfo := central.remoteCharacteristicInfo.map fun info =>
      { info with properties := .none, valueHandle := 0, connectionIndex := fun _ => false } }

/-- `BLE_GATTC_EVT_PRIM_SRVC_DISC_RSP`. -/
def onServices (central : CentralRole) (connHandle gattStatus : UInt16)
    (services : List FoundService) (last : FoundService) : CentralRole × List (Output CentralNotice) :=
  let peripheral := central.handleAt (central.slot connHandle)
  if gattStatus = statusSuccess then
    ({ central with
        remoteServiceInfo := storeServices (services ++ [last]) central.remoteServiceInfo },
      [.call (.gattcPrimaryServicesDiscover peripheral (last.handleRange.endHandle + 1))])
  else if gattStatus = statusInvalidHandle then
    match nextFound central.remoteServiceInfo 0 with
    | some index =>
        ({ central with remoteServiceDiscoveryIndex := index },
          [.call (.gattcCharacteristicsDiscover peripheral
            ((central.remoteServiceInfo[index]?.map RemoteServiceInfo.handlesRange).getD .zero))])
    | none => (central, [])
  else (central, [.notice (.message gattStatus)])

/-- What the characteristic response stores: the characteristic, and the flag of the slot. -/
def storeChar (service : Option Nat) (slot : Nat) (info : CentralCharacteristicInfo)
    (found : FoundChar) : CentralCharacteristicInfo :=
  if info.isFound service found then
    { info with
      properties := found.charProps
      valueHandle := found.handleValue
      connectionIndex := Function.update info.connectionIndex slot true }
  else info

/-- `BLE_GATTC_EVT_CHAR_DISC_RSP`. -/
def onChars (central : CentralRole) (connHandle gattStatus : UInt16) (chars : List FoundChar) :
    CentralRole × List (Output CentralNotice) :=
  let periphIndex := central.slot connHandle
  let peripheral := central.handleAt periphIndex
  if gattStatus = statusSuccess then
    let scanned := central.remoteServiceInfo[central.remoteServiceDiscoveryIndex]?
    let infos := central.remoteCharacteristicInfo.map fun info =>
      chars.foldl (storeChar (scanned.map RemoteServiceInfo.service) periphIndex) info
    ({ central with remoteCharacteristicInfo := infos },
      [.call (.gattcCharacteristicsDiscover peripheral
        (continueRange ((scanned.map RemoteServiceInfo.handlesRange).getD .zero) chars))])
  else if gattStatus = statusAttributeNotFound then
    match nextFound central.remoteServiceInfo (central.remoteServiceDiscoveryIndex + 1) with
    | some index =>
        ({ central with remoteServiceDiscoveryIndex := index },
          [.call (.gattcCharacteristicsDiscover peripheral
            ((central.remoteServiceInfo[index]?.map RemoteServiceInfo.handlesRange).getD .zero))])
    | none => (central, [.notice (.remoteServicesDiscovered (central.nodeAt periphIndex))])
  else (central, [.notice (.message gattStatus)])

/-! ### Values from the peripherals -/

/-- `BLERemoteCharacteristic::setValue`. -/
def setRemoteValue (central : CentralRole) (characteristic : Nat) (node : BLENode)
    (value : List UInt8) : CentralRole × List (Output CentralNotice) :=
  ({ central with
      remoteValue := Function.update central.remoteValue characteristic ⟨value, true⟩ },
    [.notice (.remoteValueChanged characteristic node value)])

/-- The lookup of a value's handle: the first remote characteristic that has it. -/
def characteristicOf (central : CentralRole) (handle : UInt16) : Option CentralCharacteristicInfo :=
  central.remoteCharacteristicInfo.find? fun info => info.valueHandle = handle

/-- The loops that hand a value to the characteristic with its handle. -/
def storeRemoteValue (central : CentralRole) (connHandle handle : UInt16) (data : List UInt8) :
    CentralRole × List (Output CentralNotice) :=
  match central.characteristicOf handle with
  | some info =>
      central.setRemoteValue info.characteristic (central.nodeAt (central.slot connHandle)) data
  | none => (central, [])

/-- The calls of `sd_ble_gap_authenticate` after a response: the loop breaks at the link's slot. -/
def authenticate (central : CentralRole) (connHandle : UInt16) : List (Output CentralNotice) :=
  if central.slot connHandle < central.allowedPeripherals.toNat then
    [.call (.gapAuthenticate connHandle)] else []

/-- `BLE_GATTC_EVT_READ_RSP`. -/
def onReadRsp (central : CentralRole) (connHandle gattStatus handle : UInt16) (data : List UInt8) :
    CentralRole × List (Output CentralNotice) :=
  let central := { central with remoteRequestInProgress := false }
  if gattStatus = statusInsufAuthentication ∧ central.bond then
    (central, central.authenticate connHandle)
  else if gattStatus = statusSuccess then central.storeRemoteValue connHandle handle data
  else (central, [.notice (.message gattStatus)])

/-- `BLE_GATTC_EVT_WRITE_RSP`. -/
def onWriteRsp (central : CentralRole) (connHandle gattStatus : UInt16) :
    CentralRole × List (Output CentralNotice) :=
  let central := { central with remoteRequestInProgress := false }
  if gattStatus = statusInsufAuthentication ∧ central.bond then
    (central, central.authenticate connHandle)
  else if gattStatus ≠ statusSuccess then (central, [.notice (.message gattStatus)])
  else (central, [])

/-- `BLE_GATTC_EVT_HVX`. The code reads the value through `params.read_rsp`, which has its layout. -/
def onHvx (central : CentralRole) (connHandle : UInt16) (type : HvxType) (handle : UInt16)
    (data : List UInt8) : CentralRole × List (Output CentralNotice) :=
  let confirm := if type = .indication then
    [.call (.gattcHvConfirm (central.handleAt (central.slot connHandle)) handle)] else []
  let (central, outputs) := central.storeRemoteValue connHandle handle data
  (central, confirm ++ outputs)

/-! ### Local characteristics -/

/-- The loop of `BLE_GATTS_EVT_WRITE` from some entries on, with those already passed. A value handle
ends it with `setValue`, whose part is `CentralTurn.reply`. -/
def writeLocal (central : CentralRole) (node : BLENode) (handle : UInt16) (data : List UInt8)
    (passed : List LocalCharacteristicInfo) :
    List LocalCharacteristicInfo → CentralRole × List (Output CentralNotice)
  | [] => ({ central with localCharacteristicInfo := passed }, [])
  | info :: rest =>
      if info.valueHandle = handle then
        ({ central with localCharacteristicInfo := passed ++ info :: rest },
          [.notice (.valueChanged info.characteristic node data)])
      else if info.cccdHandle = handle then
        let notify := data.getD 0 0 &&& 0x01 ≠ 0
        let indicate := data.getD 0 0 &&& 0x02 ≠ 0
        let info := { info with notifySubscribed := notify, indicateSubscribed := indicate }
        let subscribed := decide notify || decide indicate
        if subscribed ≠ central.subscribed info.characteristic then
          ({ central with
              localCharacteristicInfo := passed ++ info :: rest
              subscribed := Function.update central.subscribed info.characteristic subscribed },
            [.notice (.subscribedChanged info.characteristic node subscribed)])
        else central.writeLocal node handle data (passed ++ [info]) rest
      else central.writeLocal node handle data (passed ++ [info]) rest

/-- The slots in use, in order: the loops that send to every link. -/
def linkedSlots (central : CentralRole) : List Nat :=
  (List.range central.allowedPeripherals.toNat).filter fun slot =>
    central.handleAt slot ≠ connHandleInvalid

/-- One of the two branches of `updateCharacteristicValue`: one credit for all links. -/
def sendValue (central : CentralRole) (subscribed : Bool) (handle : UInt16) (type : HvxType) :
    CentralRole × List (Output CentralNotice) × Bool :=
  if subscribed then
    if 0 < central.txBufferCount then
      ({ central with txBufferCount := central.txBufferCount - 1 },
        central.linkedSlots.map fun slot => .call (.gattsHvx (central.handleAt slot) handle type), true)
    else (central, [], false)
  else (central, [], true)

/-- The loop of `updateCharacteristicValue`. -/
def updateEntries (central : CentralRole) (characteristic : LocalCharacteristic) :
    List LocalCharacteristicInfo → CentralRole × List (Output CentralNotice) × Bool
  | [] => (central, [], true)
  | info :: rest =>
      if info.characteristic = characteristic.id then
        let (central, notified, first) :=
          central.sendValue info.notifySubscribed info.valueHandle .notification
        let (central, indicated, second) :=
          central.sendValue info.indicateSubscribed info.valueHandle .indication
        let (central, more, others) := central.updateEntries characteristic rest
        (central,
          .call (.gattsValueSet info.valueHandle characteristic.value) ::
            (notified ++ indicated ++ more),
          first && second && others)
      else central.updateEntries characteristic rest

/-- `updateCharacteristicValue`. -/
def updateCharacteristicValue (central : CentralRole) (characteristic : LocalCharacteristic) :
    CentralRole × List (Output CentralNotice) × Bool :=
  central.updateEntries characteristic central.localCharacteristicInfo

/-- `canNotifyCharacteristic`, and `canIndicateCharacteristic` the same. -/
def canNotifyCharacteristic (central : CentralRole) : Bool := 0 < central.txBufferCount

/-! ### Requests to the peripherals -/

/-- The loops that look for a remote characteristic stop at its first entry. -/
def remoteInfo (central : CentralRole) (characteristic : Nat) : Option CentralCharacteristicInfo :=
  central.remoteCharacteristicInfo.find? fun info => info.characteristic = characteristic

/-- The links a request goes to: the slots in use whose flag is set. -/
def targets (central : CentralRole) (info : CentralCharacteristicInfo) : List UInt16 :=
  ((List.range central.allowedPeripherals.toNat).filter fun slot =>
    central.handleAt slot ≠ connHandleInvalid ∧ info.connectionIndex slot).map central.handleAt

/-- `success` after the loop over the links: that of the last call. -/
def lastSuccess (calls : Nat) (codes : Nat → UInt32) : Bool :=
  calls ≠ 0 && codes (calls - 1) = nrfSuccess

/-- The body shared by the four requests: under a condition on the entry, the flag is set and the
request goes to the links of the characteristic. -/
def request (central : CentralRole) (characteristic : Nat)
    (allowed : CentralCharacteristicInfo → Bool)
    (call : CentralCharacteristicInfo → UInt16 → StackCall) (codes : Nat → UInt32) :
    CentralRole × List (Output CentralNotice) × Bool :=
  match central.remoteInfo characteristic with
  | some info =>
      if info.valueHandle ≠ 0 ∧ allowed info then
        ({ central with remoteRequestInProgress := true },
          (central.targets info).map fun connHandle => .call (call info connHandle),
          lastSuccess (central.targets info).length codes)
      else (central, [], false)
  | none => (central, [], false)

def canReadRemoteCharacteristic (central : CentralRole) (characteristic : Nat) : Bool :=
  match central.remoteInfo characteristic with
  | some info => info.valueHandle ≠ 0 && info.properties.read && !central.remoteRequestInProgress
  | none => false

def readRemoteCharacteristic (central : CentralRole) (characteristic : Nat) (codes : Nat → UInt32) :
    CentralRole × List (Output CentralNotice) × Bool :=
  central.request characteristic (fun info => info.properties.read)
    (fun info connHandle => .gattcRead connHandle info.valueHandle) codes

def canWriteRemoteCharacteristic (central : CentralRole) (characteristic : Nat) : Bool :=
  match central.remoteInfo characteristic with
  | some info =>
      if info.valueHandle ≠ 0 then
        if info.properties.write then !central.remoteRequestInProgress
        else if info.properties.writeWoResp then 0 < central.txBufferCount
        else false
      else false
  | none => false

/-- `writeRemoteCharacteristic`: unlike the peripheral role's, it takes no credit. -/
def writeRemoteCharacteristic (central : CentralRole) (characteristic : Nat) (value : List UInt8)
    (codes : Nat → UInt32) : CentralRole × List (Output CentralNotice) × Bool :=
  central.request characteristic (fun info => info.properties.writeWoResp || info.properties.write)
    (fun info connHandle =>
      .gattcWrite connHandle (Nrf51822.writeOp info.properties) info.valueHandle value) codes

def canSubscribeRemoteCharacteristic (central : CentralRole) (characteristic : Nat) : Bool :=
  match central.remoteInfo characteristic with
  | some info => info.valueHandle ≠ 0 && (info.properties.notify || info.properties.indicate)
  | none => false

def subscribeRemoteCharacteristic (central : CentralRole) (characteristic : Nat)
    (codes : Nat → UInt32) : CentralRole × List (Output CentralNotice) × Bool :=
  central.request characteristic (fun info => info.properties.notify || info.properties.indicate)
    (fun info connHandle => .gattcWrite connHandle .writeReq (info.valueHandle + 1)
      (if info.properties.notify then [1, 0] else [2, 0])) codes

def unsubcribeRemoteCharacteristic (central : CentralRole) (characteristic : Nat)
    (codes : Nat → UInt32) : CentralRole × List (Output CentralNotice) × Bool :=
  central.request characteristic (fun info => info.properties.notify || info.properties.indicate)
    (fun info connHandle => .gattcWrite connHandle .writeReq (info.valueHandle + 1) [0, 0]) codes

/-! ### Events -/

/-- `poll`. -/
def poll (central : CentralRole) (event : StackEvent) : CentralRole × List (Output CentralNotice) :=
  match event.params with
  | .advReport report => central.onAdvReport report
  | .connected _ txPacketCount => central.onConnected event.connHandle txPacketCount
  | .disconnected reason => central.onDisconnected event.connHandle reason
  | .txComplete count => ({ central with txBufferCount := central.txBufferCount + count }, [])
  | .sysAttrMissing => central.onSysAttrMissing event.connHandle
  | .gattsWrite handle data =>
      central.writeLocal (central.nodeAt (central.slot event.connHandle)) handle data []
        central.localCharacteristicInfo
  | .primSrvcDiscRsp gattStatus services last =>
      central.onServices event.connHandle gattStatus services last
  | .charDiscRsp gattStatus chars => central.onChars event.connHandle gattStatus chars
  | .readRsp gattStatus handle data => central.onReadRsp event.connHandle gattStatus handle data
  | .writeRsp gattStatus => central.onWriteRsp event.connHandle gattStatus
  | .hvx type handle data => central.onHvx event.connHandle type handle data

end CentralRole

/-- What can happen to the central role. `codes` are the return codes of the transfers it makes, in
order. -/
inductive CentralInput where
  | event (event : StackEvent)
  | updateCharacteristicValue (characteristic : LocalCharacteristic) (codes : Nat → UInt32)
  | readRemoteCharacteristic (characteristic : Nat) (codes : Nat → UInt32)
  | writeRemoteCharacteristic (characteristic : Nat) (value : List UInt8) (codes : Nat → UInt32)
  | subscribeRemoteCharacteristic (characteristic : Nat) (codes : Nat → UInt32)
  | unsubcribeRemoteCharacteristic (characteristic : Nat) (codes : Nat → UInt32)

/-- The return codes of the transfers of a step. -/
def CentralInput.codes : CentralInput → Nat → UInt32
  | .event _ => fun _ => nrfSuccess
  | .updateCharacteristicValue _ codes | .readRemoteCharacteristic _ codes
  | .writeRemoteCharacteristic _ _ codes | .subscribeRemoteCharacteristic _ codes
  | .unsubcribeRemoteCharacteristic _ codes => codes

/-- One call or event: the new state, and what the role does. -/
def CentralRole.step (central : CentralRole) :
    CentralInput → CentralRole × List (Output CentralNotice)
  | .event event => central.poll event
  | .updateCharacteristicValue characteristic _ =>
      let (central, outputs, _) := central.updateCharacteristicValue characteristic
      (central, outputs)
  | .readRemoteCharacteristic characteristic codes =>
      let (central, outputs, _) := central.readRemoteCharacteristic characteristic codes
      (central, outputs)
  | .writeRemoteCharacteristic characteristic value codes =>
      let (central, outputs, _) := central.writeRemoteCharacteristic characteristic value codes
      (central, outputs)
  | .subscribeRemoteCharacteristic characteristic codes =>
      let (central, outputs, _) := central.subscribeRemoteCharacteristic characteristic codes
      (central, outputs)
  | .unsubcribeRemoteCharacteristic characteristic codes =>
      let (central, outputs, _) := central.unsubcribeRemoteCharacteristic characteristic codes
      (central, outputs)

/-! ### Values a peer writes -/

/-- The value that a peer has written, of the characteristic `setValue` is called on. -/
def centralWritten : List (Output CentralNotice) → Option (Nat × List UInt8)
  | [] => none
  | .notice (.valueChanged characteristic _ data) :: _ => some (characteristic, data)
  | _ :: rest => centralWritten rest

/-- A call or event, with what a value finds that it may write: the limits of the characteristics and the
return codes of the transfers. -/
structure CentralTurn where
  input : CentralInput
  limits : Nat → CharacteristicLimits
  codes : Nat → UInt32

/-- What `setValue` does with a value a peer writes: its listener is the role, whose
`characteristicValueChanged` updates the characteristic before `poll` returns. -/
def CentralTurn.reply (turn : CentralTurn) (central : CentralRole) : Option CentralInput :=
  match turn.input with
  | .event event =>
      (centralWritten (central.poll event).2).map fun (characteristic, data) =>
        .updateCharacteristicValue ((turn.limits characteristic).setValue characteristic data) turn.codes
  | _ => none

/-! ### What each function changes -/

namespace CentralRole

variable (central : CentralRole)

/-- A write to the local attributes changes their entries and which characteristics are subscribed, and
is told. -/
theorem writeLocal_changes (node : BLENode) (handle : UInt16) (data : List UInt8)
    (passed infos : List LocalCharacteristicInfo) :
    ∃ entries subscribed, ∃ notices : List CentralNotice,
      central.writeLocal node handle data passed infos =
        ({ central with localCharacteristicInfo := entries, subscribed := subscribed },
          notices.map .notice) := by
  induction infos generalizing passed with
  | nil => exact ⟨_, _, [], rfl⟩
  | cons info rest ih =>
    simp only [writeLocal]
    split_ifs
    · exact ⟨_, _, [_], rfl⟩
    · exact ⟨_, _, [_], rfl⟩
    · exact ih _
    · exact ih _

/-- A value of a peripheral changes the value of a characteristic, and is told. -/
theorem storeRemoteValue_changes (connHandle handle : UInt16) (data : List UInt8) :
    ∃ values, ∃ notices : List CentralNotice, central.storeRemoteValue connHandle handle data =
      ({ central with remoteValue := values }, notices.map .notice) := by
  unfold storeRemoteValue
  split
  · exact ⟨_, [_], rfl⟩
  · exact ⟨_, [], rfl⟩

/-- The responses to the discovery of services change the services, and how far their discovery is. -/
theorem onServices_changes (connHandle gattStatus : UInt16) (services : List FoundService)
    (last : FoundService) : ∃ infos index,
      (central.onServices connHandle gattStatus services last).1 =
        { central with remoteServiceInfo := infos, remoteServiceDiscoveryIndex := index } := by
  unfold onServices
  split_ifs
  · exact ⟨_, _, rfl⟩
  · split <;> exact ⟨_, _, rfl⟩
  · exact ⟨_, _, rfl⟩

/-- Those to the discovery of characteristics change the characteristics, and how far it is. -/
theorem onChars_changes (connHandle gattStatus : UInt16) (chars : List FoundChar) :
    ∃ infos index, (central.onChars connHandle gattStatus chars).1 =
      { central with remoteCharacteristicInfo := infos, remoteServiceDiscoveryIndex := index } := by
  unfold onChars
  split_ifs
  · exact ⟨_, _, rfl⟩
  · split <;> exact ⟨_, _, rfl⟩
  · exact ⟨_, _, rfl⟩

/-- A response to a read ends the request, and may change a value. -/
theorem onReadRsp_changes (connHandle gattStatus handle : UInt16) (data : List UInt8) :
    ∃ values, (central.onReadRsp connHandle gattStatus handle data).1 =
      { central with remoteRequestInProgress := false, remoteValue := values } := by
  unfold onReadRsp
  dsimp only
  split_ifs
  · exact ⟨_, rfl⟩
  · obtain ⟨values, _, stored⟩ := storeRemoteValue_changes
      { central with remoteRequestInProgress := false } connHandle handle data
    exact ⟨values, congrArg Prod.fst stored⟩
  · exact ⟨_, rfl⟩

/-- A response to a write ends the request. -/
theorem onWriteRsp_changes (connHandle gattStatus : UInt16) :
    (central.onWriteRsp connHandle gattStatus).1 = { central with remoteRequestInProgress := false } := by
  unfold onWriteRsp
  dsimp only
  split_ifs <;> rfl

/-- A notification changes a value. -/
theorem onHvx_changes (connHandle : UInt16) (type : HvxType) (handle : UInt16) (data : List UInt8) :
    ∃ values, (central.onHvx connHandle type handle data).1 =
      { central with remoteValue := values } := by
  obtain ⟨values, _, stored⟩ := central.storeRemoteValue_changes connHandle handle data
  exact ⟨values, congrArg Prod.fst stored⟩

/-- An update changes the credit. -/
theorem sendValue_changes (subscribed : Bool) (handle : UInt16) (type : HvxType) :
    ∃ credit, (central.sendValue subscribed handle type).1 =
      { central with txBufferCount := credit } := by
  unfold sendValue
  split_ifs <;> exact ⟨_, rfl⟩

theorem updateEntries_changes (characteristic : LocalCharacteristic)
    (infos : List LocalCharacteristicInfo) :
    ∃ credit, (central.updateEntries characteristic infos).1 =
      { central with txBufferCount := credit } := by
  induction infos generalizing central with
  | nil => exact ⟨_, rfl⟩
  | cons info rest ih =>
    simp only [updateEntries]
    split_ifs
    · obtain ⟨first, notified⟩ := central.sendValue_changes info.notifySubscribed info.valueHandle
        .notification
      obtain ⟨second, indicated⟩ := sendValue_changes
        (central.sendValue info.notifySubscribed info.valueHandle .notification).1
        info.indicateSubscribed info.valueHandle .indication
      rw [notified] at indicated ⊢
      rw [indicated]
      exact ih _
    · exact ih central

/-- A request changes the flag. -/
theorem request_changes (characteristic : Nat) (allowed : CentralCharacteristicInfo → Bool)
    (call : CentralCharacteristicInfo → UInt16 → StackCall) (codes : Nat → UInt32) :
    ∃ flag, (central.request characteristic allowed call codes).1 =
      { central with remoteRequestInProgress := flag } := by
  unfold request
  split
  · split_ifs <;> exact ⟨_, rfl⟩
  · exact ⟨_, rfl⟩

end CentralRole

/-! ### What a request sends -/

section Request

variable {central : CentralRole} {characteristic : Nat} {allowed : CentralCharacteristicInfo → Bool}
  {call : CentralCharacteristicInfo → UInt16 → StackCall}

/-- A request that finds an allowed entry sets the flag and goes to its links. -/
theorem request_made (codes : Nat → UInt32) {info : CentralCharacteristicInfo}
    (found : central.remoteInfo characteristic = some info)
    (allows : info.valueHandle ≠ 0 ∧ allowed info) :
    central.request characteristic allowed call codes =
      ({ central with remoteRequestInProgress := true },
        (central.targets info).map fun connHandle => .call (call info connHandle),
        CentralRole.lastSuccess (central.targets info).length codes) := by
  simp only [CentralRole.request, found]
  exact if_pos allows

/-- A request that finds none does nothing. -/
theorem request_idle (codes : Nat → UInt32)
    (idle : ¬ ∃ info, central.remoteInfo characteristic = some info ∧
      (info.valueHandle ≠ 0 ∧ allowed info)) :
    central.request characteristic allowed call codes = (central, [], false) := by
  unfold CentralRole.request
  split
  · rename_i info found
    exact if_neg fun allows => idle ⟨info, found, allows⟩
  · rfl

theorem targets_transfer {info : CentralCharacteristicInfo}
    (transfer : ∀ info connHandle, (call info connHandle).isTransfer) :
    ∀ made ∈ (central.targets info).map (call info), made.isTransfer := by
  intro made member
  obtain ⟨connHandle, _, rfl⟩ := List.mem_map.mp member
  exact transfer info connHandle

/-- The calls of a request. -/
theorem request_sends (codes : Nat → UInt32)
    (transfer : ∀ info connHandle, (call info connHandle).isTransfer)
    {info : CentralCharacteristicInfo} (found : central.remoteInfo characteristic = some info)
    (allows : info.valueHandle ≠ 0 ∧ allowed info) :
    transfers (central.request characteristic allowed call codes).2.1 =
      (central.targets info).map (call info) := by
  have all : ∀ made ∈ (central.targets info).map (call info), made.isTransfer :=
    targets_transfer transfer
  have whole : transfers (((central.targets info).map (call info)).map
      fun made => (Output.call made : Output CentralNotice)) = _ := transfers_calls all
  rw [List.map_map] at whole
  rw [request_made codes found allows]
  exact whole

end Request

/-! ### Links of the stack -/

/-- The number of central links `SoftDeviceManager::begin` configures. -/
def centralLinkCount : Nat := 7

/-- The links that are up after an input. -/
def CentralInput.linksAfter (live : List UInt16) : CentralInput → List UInt16
  | .event ⟨connHandle, .connected _ _⟩ => connHandle :: live
  | .event ⟨connHandle, .disconnected _⟩ => live.filter (· ≠ connHandle)
  | _ => live

/-- The stack reports a new link under a valid handle of its own, as long as it has links left, and
the end of a link that is up. -/
def CentralInput.linkExpected (live : List UInt16) : CentralInput → Bool
  | .event ⟨connHandle, .connected _ _⟩ =>
      connHandle ∉ live && connHandle ≠ connHandleInvalid && live.length < centralLinkCount
  | .event ⟨connHandle, .disconnected _⟩ => connHandle ∈ live
  | _ => true

end PrimoCore.Ble
