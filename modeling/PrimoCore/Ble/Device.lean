/-
**The peripheral role, `nRF51822`.**

One link at a time. `poll` handles an event of the stack, the other methods are called by the program;
each returns the new state and what it does, in order. The listener is the `BLEPeripheral` the device
belongs to, which registers itself in its constructor; what it or the program does when it is told
something is a further call. A disconnection is in two halves, for the calls from its handlers.

* `Nrf51822` — the state, with the `subscribed()` flags of the local characteristics.
* `poll`, `updateCharacteristicValue`, `broadcastCharacteristic` and the methods on remote
  characteristics — the code.
* `DeviceInput`, `Nrf51822.step` — the calls and events in one type.
* `DeviceTurn.reply` — the update the listener makes of a value a peer writes.
-/

import PrimoCore.Ble.Stack
import PrimoCore.Ble.Uuid

namespace PrimoCore.Ble

open PrimoCore.Lib

/-- `BLE_ATTRIBUTE_MAX_VALUE_LENGTH`. -/
def attributeMaxValueLength : Nat := 20

/-- A `BLECharacteristic` as the device reads it: its identity, properties and value. -/
structure LocalCharacteristic where
  id : Nat
  properties : UInt8
  value : List UInt8
  short : value.length ≤ attributeMaxValueLength

/-- `valueLength()`. -/
def LocalCharacteristic.valueLength (characteristic : LocalCharacteristic) : UInt8 :=
  UInt8.ofNat characteristic.value.length

/-- `BLEBroadcast`. -/
def bleBroadcast : UInt8 := 0x01

/-- `localCharacteristicInfo`; of the service, the device reads the UUID. -/
structure LocalCharacteristicInfo where
  characteristic : Nat
  service : Option CString
  valueHandle : UInt16
  cccdHandle : UInt16
  notifySubscribed : Bool
  indicateSubscribed : Bool
  deriving DecidableEq

/-- A call of the listener. Characteristics are named by number, where the source has pointers. -/
inductive Notice where
  | connected (peerAddr : Vector UInt8 6)
  | disconnected
  | message (status : UInt16)
  | valueChanged (characteristic : Nat) (value : List UInt8)
  | subscribedChanged (characteristic : Nat) (subscribed : Bool)
  | remoteServicesDiscovered
  | remoteValueChanged (characteristic : Nat) (value : List UInt8)
  deriving DecidableEq, Repr

/-- `nRF51822`. -/
structure Nrf51822 where
  advData : Memory UInt8
  advDataLen : UInt8
  broadcastCharacteristic : Option Nat
  connectionHandle : UInt16
  txBufferCount : UInt8
  minimumConnectionInterval : UInt16
  maximumConnectionInterval : UInt16
  /-- A bond store has been set. -/
  bondStore : Bool
  localCharacteristicInfo : List LocalCharacteristicInfo
  /-- `subscribed()` of each local characteristic, which the listener sets. -/
  subscribed : Nat → Bool
  remoteServiceInfo : List RemoteServiceInfo
  remoteServiceDiscoveryIndex : Nat
  remoteCharacteristicInfo : List RemoteCharacteristicInfo
  remoteRequestInProgress : Bool

/-- `BLE_GAP_CP_MIN_CONN_INTVL_MIN`. -/
def minConnIntervalMin : UInt16 := 0x0006

/-- `BLE_GAP_CP_MAX_CONN_INTVL_MAX`. -/
def maxConnIntervalMax : UInt16 := 0x0C80

namespace Nrf51822

/-! ### Events -/

/-- The call of the listener that sets `subscribed()`. -/
def setSubscribed (device : Nrf51822) (characteristic : Nat) (subscribed : Bool) : Nrf51822 :=
  { device with subscribed := Function.update device.subscribed characteristic subscribed }

/-- `BLE_GAP_EVT_CONNECTED`. -/
def onConnected (device : Nrf51822) (connHandle : UInt16) (peerAddr : Vector UInt8 6)
    (txPacketCount : UInt8) : Nrf51822 × List (Output Notice) :=
  let update := if minConnIntervalMin ≤ device.minimumConnectionInterval ∧
      device.maximumConnectionInterval ≤ maxConnIntervalMax then
    [.call (.gapConnParamUpdate connHandle device.minimumConnectionInterval
      device.maximumConnectionInterval)] else []
  let discover := if device.remoteServiceInfo ≠ [] then
    [.call (.gattcPrimaryServicesDiscover connHandle 1)] else []
  ({ device with connectionHandle := connHandle, txBufferCount := txPacketCount },
    .notice (.connected peerAddr) :: (update ++ discover))

/-- The body of the loop over the local characteristics in `BLE_GAP_EVT_DISCONNECTED`, with what has
been done so far: a characteristic that was subscribed is told that it no longer is. -/
def unsubscribe (done : Nrf51822 × List (Output Notice)) (info : LocalCharacteristicInfo) :
    Nrf51822 × List (Output Notice) :=
  if done.1.subscribed info.characteristic then
    (done.1.setSubscribed info.characteristic false,
      done.2 ++ [.notice (.subscribedChanged info.characteristic false)])
  else done

/-- The loop; it also clears the two flags of every entry. -/
def unsubscribeAll (device : Nrf51822) : Nrf51822 × List (Output Notice) :=
  let cleared := device.localCharacteristicInfo.map fun info =>
    { info with notifySubscribed := false, indicateSubscribed := false }
  device.localCharacteristicInfo.foldl unsubscribe
    ({ device with localCharacteristicInfo := cleared }, [])

/-- `BLE_GAP_EVT_DISCONNECTED` up to its calls of the listener, which find the remote attributes and the
flag as they were. -/
def dropLink (device : Nrf51822) (reason : UInt8) : Nrf51822 × List (Output Notice) :=
  let (device, told) :=
    unsubscribeAll { device with connectionHandle := connHandleInvalid, txBufferCount := 0 }
  (device, told ++ [.notice (.message reason.toUInt16), .notice .disconnected])

/-- The rest of it, when the listener has returned. -/
def forgetRemote (device : Nrf51822) : Nrf51822 × List (Output Notice) :=
  ({ device with
      remoteServiceInfo := device.remoteServiceInfo.map RemoteServiceInfo.clear
      remoteCharacteristicInfo := device.remoteCharacteristicInfo.map RemoteCharacteristicInfo.clear
      remoteRequestInProgress := false },
    [.call .gapAdvStart])

/-- `BLE_GAP_EVT_DISCONNECTED`, where the program calls nothing from its handlers. -/
def onDisconnected (device : Nrf51822) (reason : UInt8) : Nrf51822 × List (Output Notice) :=
  let (device, told) := device.dropLink reason
  let (device, restarted) := device.forgetRemote
  (device, told ++ restarted)

/-- The loop of `BLE_GATTS_EVT_WRITE` from some entries on, with those already passed. A value handle
ends it with a call of the listener, whose part is `DeviceTurn.reply`; a CCCD handle ends it when the
subscription changes. -/
def writeLocal (device : Nrf51822) (handle : UInt16) (data : List UInt8)
    (passed : List LocalCharacteristicInfo) : List LocalCharacteristicInfo → Nrf51822 × List (Output Notice)
  | [] => ({ device with localCharacteristicInfo := passed }, [])
  | info :: rest =>
      if info.valueHandle = handle then
        ({ device with localCharacteristicInfo := passed ++ info :: rest },
          [.notice (.valueChanged info.characteristic data)])
      else if info.cccdHandle = handle then
        let notify := data.getD 0 0 &&& 0x01 ≠ 0
        let indicate := data.getD 0 0 &&& 0x02 ≠ 0
        let info := { info with notifySubscribed := notify, indicateSubscribed := indicate }
        let subscribed := decide notify || decide indicate
        if subscribed ≠ device.subscribed info.characteristic then
          (({ device with localCharacteristicInfo := passed ++ info :: rest }).setSubscribed
              info.characteristic subscribed,
            [.notice (.subscribedChanged info.characteristic subscribed)])
        else device.writeLocal handle data (passed ++ [info]) rest
      else device.writeLocal handle data (passed ++ [info]) rest

/-- `BLE_GATTC_EVT_PRIM_SRVC_DISC_RSP`. The next start handle is a 16-bit sum. -/
def onServices (device : Nrf51822) (gattStatus : UInt16) (services : List FoundService)
    (last : FoundService) : Nrf51822 × List (Output Notice) :=
  if gattStatus = statusSuccess then
    ({ device with
        remoteServiceInfo := storeServices (services ++ [last]) device.remoteServiceInfo },
      [.call (.gattcPrimaryServicesDiscover device.connectionHandle (last.handleRange.endHandle + 1))])
  else if gattStatus = statusInvalidHandle then
    match nextFound device.remoteServiceInfo 0 with
    | some index =>
        ({ device with remoteServiceDiscoveryIndex := index },
          [.call (.gattcCharacteristicsDiscover device.connectionHandle
            ((device.remoteServiceInfo[index]?.map RemoteServiceInfo.handlesRange).getD .zero))])
    | none => (device, [])
  else (device, [.notice (.message gattStatus)])

/-- `BLE_GATTC_EVT_CHAR_DISC_RSP`. -/
def onChars (device : Nrf51822) (gattStatus : UInt16) (chars : List FoundChar) :
    Nrf51822 × List (Output Notice) :=
  if gattStatus = statusSuccess then
    let scanned := device.remoteServiceInfo[device.remoteServiceDiscoveryIndex]?
    let infos := chars.foldl (fun infos found =>
      infos.map fun (info : RemoteCharacteristicInfo) =>
        info.store (scanned.map RemoteServiceInfo.service) found) device.remoteCharacteristicInfo
    ({ device with remoteCharacteristicInfo := infos },
      [.call (.gattcCharacteristicsDiscover device.connectionHandle
        (continueRange ((scanned.map RemoteServiceInfo.handlesRange).getD .zero) chars))])
  else if gattStatus = statusAttributeNotFound then
    match nextFound device.remoteServiceInfo (device.remoteServiceDiscoveryIndex + 1) with
    | some index =>
        ({ device with remoteServiceDiscoveryIndex := index },
          [.call (.gattcCharacteristicsDiscover device.connectionHandle
            ((device.remoteServiceInfo[index]?.map RemoteServiceInfo.handlesRange).getD .zero))])
    | none => (device, [.notice .remoteServicesDiscovered])
  else (device, [.notice (.message gattStatus)])

/-- The listener is told of a value for the first remote characteristic with the handle. -/
def remoteValue (device : Nrf51822) (handle : UInt16) (data : List UInt8) : List (Output Notice) :=
  match device.remoteCharacteristicInfo.find? (fun info => info.valueHandle = handle) with
  | some info => [.notice (.remoteValueChanged info.characteristic data)]
  | none => []

/-- `BLE_GATTC_EVT_READ_RSP`. -/
def onReadRsp (device : Nrf51822) (gattStatus handle : UInt16) (data : List UInt8) :
    Nrf51822 × List (Output Notice) :=
  ({ device with remoteRequestInProgress := false },
    if gattStatus = statusInsufAuthentication ∧ device.bondStore then
      [.call (.gapAuthenticate device.connectionHandle)]
    else if gattStatus = statusSuccess then device.remoteValue handle data
    else [.notice (.message gattStatus)])

/-- `BLE_GATTC_EVT_WRITE_RSP`. -/
def onWriteRsp (device : Nrf51822) (gattStatus : UInt16) : Nrf51822 × List (Output Notice) :=
  ({ device with remoteRequestInProgress := false },
    if gattStatus = statusInsufAuthentication ∧ device.bondStore then
      [.call (.gapAuthenticate device.connectionHandle)]
    else if gattStatus ≠ statusSuccess then [.notice (.message gattStatus)]
    else [])

/-- `BLE_GATTC_EVT_HVX`. -/
def onHvx (device : Nrf51822) (type : HvxType) (handle : UInt16) (data : List UInt8) :
    Nrf51822 × List (Output Notice) :=
  let confirm := if type = .indication then
    [.call (.gattcHvConfirm device.connectionHandle handle)] else []
  (device, confirm ++ device.remoteValue handle data)

/-- `poll`. -/
def poll (device : Nrf51822) (event : StackEvent) : Nrf51822 × List (Output Notice) :=
  match event.params with
  | .advReport _ => (device, [])
  | .txComplete count => ({ device with txBufferCount := device.txBufferCount + count }, [])
  | .connected peerAddr txPacketCount =>
      device.onConnected event.connHandle peerAddr txPacketCount
  | .disconnected reason => device.onDisconnected reason
  | .gattsWrite handle data => device.writeLocal handle data [] device.localCharacteristicInfo
  | .sysAttrMissing => (device, [.call (.gattsSysAttrSet device.connectionHandle)])
  | .primSrvcDiscRsp gattStatus services last => device.onServices gattStatus services last
  | .charDiscRsp gattStatus chars => device.onChars gattStatus chars
  | .readRsp gattStatus handle data => device.onReadRsp gattStatus handle data
  | .writeRsp gattStatus => device.onWriteRsp gattStatus
  | .hvx type handle data => device.onHvx type handle data

/-! ### Local characteristics -/

/-- The advertisement `broadcastCharacteristic` sets, when it fits: the device's own advertisement, and
a service data structure with the value. `uninit` is what the two local arrays held before. -/
def broadcastData (device : Nrf51822) (uninit : Memory UInt8) (service : CString)
    (characteristic : LocalCharacteristic) : Option (List UInt8) :=
  let advDataLen := device.advDataLen + (4 + characteristic.valueLength)
  if advDataLen ≤ 31 then
    let len := device.advDataLen.toNat
    let copied : Buffer UInt8 := Buffer.memcpy ⟨uninit, []⟩ 0 device.advData len
    let headed := (copied.set (len + 0) (3 + characteristic.valueLength)).set (len + 1) 0x16
    let named := headed.memcpy (len + 2) ((BLEUuid.ofString service).data uninit) 2
    let valued := named.memcpy (len + 4) (fun index => characteristic.value.getD index 0)
      characteristic.valueLength.toNat
    some (slice valued.bytes 0 advDataLen.toNat)
  else none

/-- `broadcastCharacteristic`, for the first entry of the characteristic. -/
def broadcast (device : Nrf51822) (uninit : Memory UInt8) (characteristic : LocalCharacteristic) :
    Nrf51822 × List (Output Notice) × Bool :=
  match device.localCharacteristicInfo.find? (fun info => info.characteristic = characteristic.id) with
  | none => (device, [], false)
  | some info =>
      match info.service with
      | some service =>
          if characteristic.properties &&& bleBroadcast ≠ 0 then
            match device.broadcastData uninit service characteristic with
            | some data =>
                ({ device with broadcastCharacteristic := some characteristic.id },
                  [.call (.gapAdvDataSet data)], true)
            | none => (device, [], false)
          else (device, [], false)
      | none => (device, [], false)

/-- One of the two branches of `updateCharacteristicValue` that send the value, when the peer has
subscribed to its kind. -/
def sendValue (device : Nrf51822) (subscribed : Bool) (handle : UInt16) (type : HvxType) :
    Nrf51822 × List (Output Notice) × Bool :=
  if subscribed then
    if 0 < device.txBufferCount then
      ({ device with txBufferCount := device.txBufferCount - 1 },
        [.call (.gattsHvx device.connectionHandle handle type)], true)
    else (device, [], false)
  else (device, [], true)

/-- The body of the loop of `updateCharacteristicValue`, for an entry of the characteristic. -/
def updateEntry (device : Nrf51822) (uninit : Memory UInt8) (characteristic : LocalCharacteristic)
    (info : LocalCharacteristicInfo) : Nrf51822 × List (Output Notice) × Bool :=
  let (device, advertised, _) :=
    if device.broadcastCharacteristic = some characteristic.id then
      device.broadcast uninit characteristic else (device, [], false)
  let (device, notified, first) :=
    device.sendValue info.notifySubscribed info.valueHandle .notification
  let (device, indicated, second) :=
    device.sendValue info.indicateSubscribed info.valueHandle .indication
  (device,
    advertised ++ .call (.gattsValueSet info.valueHandle characteristic.value) ::
      (notified ++ indicated),
    first && second)

/-- The loop of `updateCharacteristicValue`. -/
def updateEntries (device : Nrf51822) (uninit : Memory UInt8) (characteristic : LocalCharacteristic) :
    List LocalCharacteristicInfo → Nrf51822 × List (Output Notice) × Bool
  | [] => (device, [], true)
  | info :: rest =>
      if info.characteristic = characteristic.id then
        let (device, outputs, success) := device.updateEntry uninit characteristic info
        let (device, more, others) := device.updateEntries uninit characteristic rest
        (device, outputs ++ more, success && others)
      else device.updateEntries uninit characteristic rest

/-- `updateCharacteristicValue`. -/
def updateCharacteristicValue (device : Nrf51822) (uninit : Memory UInt8)
    (characteristic : LocalCharacteristic) : Nrf51822 × List (Output Notice) × Bool :=
  device.updateEntries uninit characteristic device.localCharacteristicInfo

/-! ### Remote characteristics -/

/-- The loops that look for a remote characteristic stop at its first entry. -/
def remoteInfo (device : Nrf51822) (characteristic : Nat) : Option RemoteCharacteristicInfo :=
  device.remoteCharacteristicInfo.find? fun info => info.characteristic = characteristic

def canReadRemoteCharacteristic (device : Nrf51822) (characteristic : Nat) : Bool :=
  match device.remoteInfo characteristic with
  | some info => info.valueHandle ≠ 0 && info.properties.read && !device.remoteRequestInProgress
  | none => false

/-- `readRemoteCharacteristic`, where the stack answers `code`. -/
def readRemoteCharacteristic (device : Nrf51822) (characteristic : Nat) (code : UInt32) :
    Nrf51822 × List (Output Notice) × Bool :=
  match device.remoteInfo characteristic with
  | some info =>
      if info.valueHandle ≠ 0 ∧ info.properties.read then
        ({ device with remoteRequestInProgress := true },
          [.call (.gattcRead device.connectionHandle info.valueHandle)], code = nrfSuccess)
      else (device, [], false)
  | none => (device, [], false)

def canWriteRemoteCharacteristic (device : Nrf51822) (characteristic : Nat) : Bool :=
  match device.remoteInfo characteristic with
  | some info =>
      if info.valueHandle ≠ 0 then
        if info.properties.write then !device.remoteRequestInProgress
        else if info.properties.writeWoResp then 0 < device.txBufferCount
        else false
      else false
  | none => false

/-- The operation a write uses. -/
def writeOp (properties : CharProps) : WriteOp := if properties.write then .writeReq else .writeCmd

/-- `writeRemoteCharacteristic`, where the stack answers `code`. -/
def writeRemoteCharacteristic (device : Nrf51822) (characteristic : Nat) (value : List UInt8)
    (code : UInt32) : Nrf51822 × List (Output Notice) × Bool :=
  match device.remoteInfo characteristic with
  | some info =>
      if info.valueHandle ≠ 0 ∧ (info.properties.writeWoResp ∨ info.properties.write) ∧
          0 < device.txBufferCount then
        ({ device with remoteRequestInProgress := true, txBufferCount := device.txBufferCount - 1 },
          [.call (.gattcWrite device.connectionHandle (writeOp info.properties) info.valueHandle value)],
          code = nrfSuccess)
      else (device, [], false)
  | none => (device, [], false)

def canSubscribeRemoteCharacteristic (device : Nrf51822) (characteristic : Nat) : Bool :=
  match device.remoteInfo characteristic with
  | some info => info.valueHandle ≠ 0 && (info.properties.notify || info.properties.indicate)
  | none => false

/-- The two methods that write the CCCD, which is taken to lie behind the value: `subscribe` is false
in `unsubcribeRemoteCharacteristic`. -/
def writeCccd (device : Nrf51822) (characteristic : Nat) (subscribe : Bool) (code : UInt32) :
    Nrf51822 × List (Output Notice) × Bool :=
  match device.remoteInfo characteristic with
  | some info =>
      if info.valueHandle ≠ 0 ∧ (info.properties.notify ∨ info.properties.indicate) then
        let value := if subscribe then (if info.properties.notify then [1, 0] else [2, 0]) else [0, 0]
        ({ device with remoteRequestInProgress := true },
          [.call (.gattcWrite device.connectionHandle .writeReq (info.valueHandle + 1) value)],
          code = nrfSuccess)
      else (device, [], false)
  | none => (device, [], false)

def subscribeRemoteCharacteristic (device : Nrf51822) (characteristic : Nat) (code : UInt32) :
    Nrf51822 × List (Output Notice) × Bool :=
  device.writeCccd characteristic true code

def unsubcribeRemoteCharacteristic (device : Nrf51822) (characteristic : Nat) (code : UInt32) :
    Nrf51822 × List (Output Notice) × Bool :=
  device.writeCccd characteristic false code

/-! ### What the requests do -/

/-- The condition under which `writeRemoteCharacteristic` sends. -/
def Writes (device : Nrf51822) (info : RemoteCharacteristicInfo) : Prop :=
  info.valueHandle ≠ 0 ∧ (info.properties.writeWoResp ∨ info.properties.write) ∧
    0 < device.txBufferCount

instance (device : Nrf51822) (info : RemoteCharacteristicInfo) : Decidable (device.Writes info) :=
  inferInstanceAs (Decidable (_ ∧ _))

/-- The condition under which `readRemoteCharacteristic` sends. -/
def Reads (info : RemoteCharacteristicInfo) : Prop :=
  info.valueHandle ≠ 0 ∧ info.properties.read

/-- The condition under which the CCCD is written. -/
def Subscribes (info : RemoteCharacteristicInfo) : Prop :=
  info.valueHandle ≠ 0 ∧ (info.properties.notify ∨ info.properties.indicate)

instance (info : RemoteCharacteristicInfo) : Decidable (Reads info) :=
  inferInstanceAs (Decidable (_ ∧ _))

instance (info : RemoteCharacteristicInfo) : Decidable (Subscribes info) :=
  inferInstanceAs (Decidable (_ ∧ _))

section Requests

variable {device : Nrf51822} {characteristic : Nat} {info : RemoteCharacteristicInfo}

theorem read_sends (found : device.remoteInfo characteristic = some info) (reads : Reads info)
    (code : UInt32) : device.readRemoteCharacteristic characteristic code =
      ({ device with remoteRequestInProgress := true },
        [Output.call (.gattcRead device.connectionHandle info.valueHandle)],
        decide (code = nrfSuccess)) := by
  simp only [readRemoteCharacteristic, found]
  exact if_pos reads

theorem read_idle (idle : ∀ info, device.remoteInfo characteristic = some info → ¬ Reads info)
    (code : UInt32) : device.readRemoteCharacteristic characteristic code = (device, [], false) := by
  unfold readRemoteCharacteristic
  split
  · rename_i info found
    exact if_neg (idle info found)
  · rfl

theorem cccd_sends (found : device.remoteInfo characteristic = some info)
    (subscribes : Subscribes info) (subscribe : Bool) (code : UInt32) : ∃ value,
    device.writeCccd characteristic subscribe code =
      ({ device with remoteRequestInProgress := true },
        [Output.call (.gattcWrite device.connectionHandle .writeReq (info.valueHandle + 1) value)],
        decide (code = nrfSuccess)) := by
  simp only [writeCccd, found]
  exact ⟨_, if_pos subscribes⟩

theorem cccd_idle
    (idle : ∀ info, device.remoteInfo characteristic = some info → ¬ Subscribes info)
    (subscribe : Bool) (code : UInt32) :
    device.writeCccd characteristic subscribe code = (device, [], false) := by
  unfold writeCccd
  split
  · rename_i info found
    exact if_neg (idle info found)
  · rfl

theorem write_sends (found : device.remoteInfo characteristic = some info)
    (writes : device.Writes info) (value : List UInt8) (code : UInt32) :
    device.writeRemoteCharacteristic characteristic value code =
      ({ device with remoteRequestInProgress := true, txBufferCount := device.txBufferCount - 1 },
        [Output.call
          (.gattcWrite device.connectionHandle (writeOp info.properties) info.valueHandle value)],
        decide (code = nrfSuccess)) := by
  simp only [writeRemoteCharacteristic, found]
  exact if_pos writes

theorem write_idle (idle : ∀ info, device.remoteInfo characteristic = some info →
    ¬ device.Writes info) (value : List UInt8) (code : UInt32) :
    device.writeRemoteCharacteristic characteristic value code = (device, [], false) := by
  unfold writeRemoteCharacteristic
  split
  · rename_i info found
    exact if_neg (idle info found)
  · rfl

end Requests

end Nrf51822

/-! ### Runs -/

/-- What can happen to the device. `codes` are the return codes of the transfers it makes, in order. -/
inductive DeviceInput where
  | event (event : StackEvent)
  | updateCharacteristicValue (uninit : Memory UInt8) (characteristic : LocalCharacteristic)
      (codes : Nat → UInt32)
  | broadcastCharacteristic (uninit : Memory UInt8) (characteristic : LocalCharacteristic)
  | readRemoteCharacteristic (characteristic : Nat) (code : UInt32)
  | writeRemoteCharacteristic (characteristic : Nat) (value : List UInt8) (code : UInt32)
  | subscribeRemoteCharacteristic (characteristic : Nat) (code : UInt32)
  | unsubcribeRemoteCharacteristic (characteristic : Nat) (code : UInt32)

/-- The return codes of the transfers of a step. -/
def DeviceInput.codes : DeviceInput → Nat → UInt32
  | .updateCharacteristicValue _ _ codes => codes
  | .readRemoteCharacteristic _ code | .writeRemoteCharacteristic _ _ code
  | .subscribeRemoteCharacteristic _ code | .unsubcribeRemoteCharacteristic _ code => fun _ => code
  | .event _ | .broadcastCharacteristic _ _ => fun _ => nrfSuccess

/-- One call or event: the new state, and what the device does. -/
def Nrf51822.step (device : Nrf51822) : DeviceInput → Nrf51822 × List (Output Notice)
  | .event event => device.poll event
  | .updateCharacteristicValue uninit characteristic _ =>
      let (device, outputs, _) := device.updateCharacteristicValue uninit characteristic
      (device, outputs)
  | .broadcastCharacteristic uninit characteristic =>
      let (device, outputs, _) := device.broadcast uninit characteristic
      (device, outputs)
  | .readRemoteCharacteristic characteristic code =>
      let (device, outputs, _) := device.readRemoteCharacteristic characteristic code
      (device, outputs)
  | .writeRemoteCharacteristic characteristic value code =>
      let (device, outputs, _) := device.writeRemoteCharacteristic characteristic value code
      (device, outputs)
  | .subscribeRemoteCharacteristic characteristic code =>
      let (device, outputs, _) := device.subscribeRemoteCharacteristic characteristic code
      (device, outputs)
  | .unsubcribeRemoteCharacteristic characteristic code =>
      let (device, outputs, _) := device.unsubcribeRemoteCharacteristic characteristic code
      (device, outputs)

/-! ### Values a peer writes -/

/-- What the constructor of a `BLECharacteristic` stores for good. -/
structure CharacteristicLimits where
  properties : UInt8
  valueSize : UInt8
  fits : valueSize.toNat ≤ attributeMaxValueLength

/-- `BLECharacteristic::setValue`: what there is room for is stored. The length is a byte. -/
def CharacteristicLimits.setValue (limits : CharacteristicLimits) (characteristic : Nat)
    (data : List UInt8) : LocalCharacteristic where
  id := characteristic
  properties := limits.properties
  value := data.take (min (UInt8.ofNat data.length).toNat limits.valueSize.toNat)
  short := Nat.le_trans (List.length_take_le ..) (Nat.le_trans (Nat.min_le_right ..) limits.fits)

/-- The value the listener is told a peer has written. -/
def writtenValue : List (Output Notice) → Option (Nat × List UInt8)
  | [] => none
  | .notice (.valueChanged characteristic data) :: _ => some (characteristic, data)
  | _ :: rest => writtenValue rest

/-- A call or event, with what a value finds that it may write: the limits of the characteristics, what
the arrays of a broadcast held before, and the return codes of the transfers. -/
structure DeviceTurn where
  input : DeviceInput
  limits : Nat → CharacteristicLimits
  uninit : Memory UInt8
  codes : Nat → UInt32

/-- What the listener does with a value a peer writes: `BLEDeviceCharacteristicValueChanged` sets it, and
`characteristicValueChanged` hands the characteristic back to the device, before `poll` returns. -/
def DeviceTurn.reply (turn : DeviceTurn) (device : Nrf51822) : Option DeviceInput :=
  match turn.input with
  | .event event =>
      (writtenValue (device.poll event).2).map fun (characteristic, data) =>
        .updateCharacteristicValue turn.uninit ((turn.limits characteristic).setValue characteristic data)
          turn.codes
  | _ => none

/-! ### What an event changes -/

namespace Nrf51822

variable (device : Nrf51822)

/-- A write to the local attributes changes their entries and which characteristics are subscribed, and
is told. -/
theorem writeLocal_changes (handle : UInt16) (data : List UInt8)
    (passed infos : List LocalCharacteristicInfo) :
    ∃ entries subscribed, ∃ notices : List Notice,
      device.writeLocal handle data passed infos =
        ({ device with localCharacteristicInfo := entries, subscribed := subscribed },
          notices.map .notice) := by
  induction infos generalizing passed with
  | nil => exact ⟨_, _, [], rfl⟩
  | cons info rest ih =>
    simp only [writeLocal]
    split_ifs
    · exact ⟨_, _, [_], rfl⟩
    · exact ⟨_, _, [_], rfl⟩
    · exact ih _
    · exact ih _

/-- The responses to the discovery of services change the services, and how far their discovery is. -/
theorem onServices_changes (gattStatus : UInt16) (services : List FoundService)
    (last : FoundService) : ∃ infos index, (device.onServices gattStatus services last).1 =
      { device with remoteServiceInfo := infos, remoteServiceDiscoveryIndex := index } := by
  unfold onServices
  split_ifs
  · exact ⟨_, _, rfl⟩
  · split <;> exact ⟨_, _, rfl⟩
  · exact ⟨_, _, rfl⟩

/-- Those to the discovery of characteristics change the characteristics, and how far it is. -/
theorem onChars_changes (gattStatus : UInt16) (chars : List FoundChar) :
    ∃ infos index, (device.onChars gattStatus chars).1 =
      { device with remoteCharacteristicInfo := infos, remoteServiceDiscoveryIndex := index } := by
  unfold onChars
  split_ifs
  · exact ⟨_, _, rfl⟩
  · split <;> exact ⟨_, _, rfl⟩
  · exact ⟨_, _, rfl⟩

end Nrf51822

end PrimoCore.Ble
