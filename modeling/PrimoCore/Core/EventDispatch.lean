/-
**Which events reach the DFU service, `ble_evt_dispatch`.**

The service works for links on which the board is the peripheral. Besides the role that the connection table
gives, the test reads the `connected.role` of the event, whatever kind of event it is: of any other event, that is
a byte of its own parameters, or of what is left in the buffer behind them.

* `bleEvtDispatch` — the code, with the calls of handlers in their order.
* `gattsWrite` — the bytes of a write by the peer; `gattsWrite_role` — the byte that is read is the fifth of its
  data.
* `dispatch_independent_iff` — **two events alike but for their parameters are treated alike exactly when** the
  byte is that of the central role in both or in neither, as far as it is looked at.
-/

import PrimoCore.Lib.Buffer

namespace PrimoCore.Core

open PrimoCore.Lib

/-- `BLE_GAP_ROLE_PERIPH`. -/
def gapRolePeriph : UInt8 := 1

/-- `BLE_GAP_ROLE_CENTRAL`. -/
def gapRoleCentral : UInt8 := 2

/-- `BLE_GAP_EVT_CONNECTED`. -/
def gapEvtConnected : UInt16 := 0x10

/-- `BLE_GAP_EVT_DISCONNECTED`. -/
def gapEvtDisconnected : UInt16 := 0x11

/-- `BLE_CONN_HANDLE_INVALID`. -/
def connHandleInvalid : UInt16 := 0xFFFF

/-- `ble_evt_t`: the identifier, and the bytes of the union, with those behind the event. -/
structure BleEvt where
  evtId : UInt16
  evt : Memory UInt8

namespace BleEvt

/-- `evt.gap_evt.conn_handle`, which stands first in all events. -/
def connHandle (event : BleEvt) : UInt16 := UInt16.ofNat ((event.evt 0).toNat + 256 * (event.evt 1).toNat)

/-- `evt.gap_evt.params.connected.role`: the parameters are aligned to a word, and two addresses of seven bytes
come first. -/
def connectedRole (event : BleEvt) : UInt8 := event.evt (4 + 2 * 7)

end BleEvt

/-- What is called. -/
inductive EvtCall where
  | dmBleEvtHandler (event : BleEvt)
  | bleDfuOnBleEvt (event : BleEvt)
  | gapAdvStart
  | processBleEvents (event : BleEvt)

/-- The file-scope variables, and whether a sketch has linked the BLE library in. -/
structure DfuService where
  dfuService : Bool
  mConnHandle : UInt16
  processBleEvents : Bool

/-- `on_ble_evt`. -/
def DfuService.onBleEvt (service : DfuService) (event : BleEvt) : DfuService × List EvtCall :=
  if event.evtId = gapEvtConnected then ({ service with mConnHandle := event.connHandle }, [])
  else if event.evtId = gapEvtDisconnected then
    ({ service with mConnHandle := connHandleInvalid }, [.gapAdvStart])
  else (service, [])

/-- `ble_evt_dispatch`, where `role` is `ble_conn_state_role`. -/
def bleEvtDispatch (role : UInt16 → UInt8) (service : DfuService) (event : BleEvt) :
    DfuService × List EvtCall :=
  let (handled, calls) :=
    if service.dfuService ∧ role event.connHandle ≠ gapRoleCentral ∧
      event.connectedRole ≠ gapRoleCentral then
      let (handled, calls) := service.onBleEvt event
      (handled, .dmBleEvtHandler event :: .bleDfuOnBleEvt event :: calls)
    else (service, [])
  (handled, calls ++ if service.processBleEvents then [.processBleEvents event] else [])

variable (role : UInt16 → UInt8) (service : DfuService)

/-- The event is forwarded to the device manager. -/
def ReachesManager (event : BleEvt) : Prop :=
  .dmBleEvtHandler event ∈ (bleEvtDispatch role service event).2

/-- The event is forwarded to the DFU handler. -/
def ReachesDfu (event : BleEvt) : Prop :=
  .bleDfuOnBleEvt event ∈ (bleEvtDispatch role service event).2

/-- **Two events that differ in their parameters**: of the same kind, which is not that of a new link, and of the
same link. -/
structure Twins where
  first : BleEvt
  second : BleEvt
  sameId : first.evtId = second.evtId
  notConnected : first.evtId ≠ gapEvtConnected
  sameHandle : first.connHandle = second.connHandle

/-- **The parameters play no part**: either both events are forwarded or neither is, to each of the two handlers,
and where the link is one in the peripheral role, they are. -/
def Independent (twins : Twins) : Prop :=
  (ReachesManager role service twins.first ↔ ReachesManager role service twins.second) ∧
  (ReachesDfu role service twins.first ↔ ReachesDfu role service twins.second) ∧
  (service.dfuService = true → role twins.first.connHandle = gapRolePeriph →
    (ReachesManager role service twins.first ∧ ReachesDfu role service twins.first) ∧
    (ReachesManager role service twins.second ∧ ReachesDfu role service twins.second))

/-- The service is off, or the table says central, or the byte is that of the central role in both events or in
neither, and on a link in the peripheral role in neither. -/
def Harmless (twins : Twins) : Prop :=
  service.dfuService = true → role twins.first.connHandle ≠ gapRoleCentral →
    (twins.first.connectedRole = gapRoleCentral ↔ twins.second.connectedRole = gapRoleCentral) ∧
    (role twins.first.connHandle = gapRolePeriph → twins.first.connectedRole ≠ gapRoleCentral)

/-- The calls of `on_ble_evt` are not the two. -/
theorem onBleEvt_calls (service : DfuService) (event : BleEvt) {call : EvtCall}
    (member : call ∈ (service.onBleEvt event).2) : call = .gapAdvStart := by
  unfold DfuService.onBleEvt at member
  split_ifs at member
  · cases member
  · simpa using member
  · cases member

/-- **Which events are forwarded.** -/
theorem reaches_iff (role : UInt16 → UInt8) (service : DfuService) (event : BleEvt) :
    (ReachesManager role service event ↔
      service.dfuService ∧ role event.connHandle ≠ gapRoleCentral ∧
        event.connectedRole ≠ gapRoleCentral) ∧
    (ReachesDfu role service event ↔
      service.dfuService ∧ role event.connHandle ≠ gapRoleCentral ∧
        event.connectedRole ≠ gapRoleCentral) := by
  unfold ReachesManager ReachesDfu bleEvtDispatch
  by_cases forwards : service.dfuService ∧ role event.connHandle ≠ gapRoleCentral ∧
      event.connectedRole ≠ gapRoleCentral
  · simp [forwards]
  · rw [if_neg forwards]
    constructor <;> refine iff_of_false (fun member => ?_) forwards
    · split_ifs at member <;> simp at member
    · split_ifs at member <;> simp at member

/-- **Two events are treated alike exactly when** the byte that is taken for a role is harmless. -/
theorem dispatch_independent_iff (role : UInt16 → UInt8) (service : DfuService) (twins : Twins) :
    Independent role service twins ↔ Harmless role service twins := by
  have distinct : gapRoleCentral ≠ gapRolePeriph := by decide
  unfold Independent Harmless
  simp only [reaches_iff, ← twins.sameHandle]
  by_cases on : service.dfuService = true
  · by_cases central : role twins.first.connHandle = gapRoleCentral
    · simp [central, distinct]
    · by_cases first : twins.first.connectedRole = gapRoleCentral <;>
        by_cases second : twins.second.connectedRole = gapRoleCentral <;>
        simp [on, central, first, second]
  · simp [on]

/-! ### A write by the peer -/

/-- The parameters of `BLE_GATTS_EVT_WRITE`. -/
structure GattsWrite where
  handle : UInt16
  uuid : UInt16
  uuidType : UInt8
  op : UInt8
  authRequired : UInt8
  offset : UInt16
  data : List UInt8

/-- `BLE_GATTS_EVT_WRITE`. -/
def gattsEvtWrite : UInt16 := 0x50

/-- A number in two bytes. -/
def halfword (number : UInt16) : List UInt8 := [number.toUInt8, (number >>> 8).toUInt8]

/-- The bytes of a write on a link, in front of those left in the buffer. -/
def gattsWrite (connHandle : UInt16) (write : GattsWrite) (left : Memory UInt8) : BleEvt where
  evtId := gattsEvtWrite
  evt := fun index =>
    (halfword connHandle ++ halfword write.handle ++ halfword write.uuid ++ [write.uuidType, 0, write.op,
      write.authRequired] ++ halfword write.offset ++ halfword (UInt16.ofNat write.data.length) ++
      write.data).getD index (left index)

/-- **The byte that is taken for a role** is the fifth that the peer has written. -/
theorem gattsWrite_role (connHandle : UInt16) (write : GattsWrite) (left : Memory UInt8) :
    (gattsWrite connHandle write left).connectedRole = write.data.getD 4 (left 18) := by
  simp [gattsWrite, BleEvt.connectedRole, halfword]

/-- A write of five bytes on the link 0. -/
def fiveBytes (last : UInt8) : BleEvt :=
  gattsWrite 0 ⟨0x0E, 0x2A19, 1, 1, 0, 0, [0, 0, 0, 0, last]⟩ fun _ => 0

/-- Two of them: one whose last byte is zero, and one where it is that of the central role. -/
def fiveBytesTwice : Twins := ⟨fiveBytes 0, fiveBytes 2, rfl, by decide, by decide⟩

/-- On a link in the peripheral role, the second write does not reach the service. -/
theorem write_withheld :
    ¬ Independent (fun _ => gapRolePeriph) ⟨true, connHandleInvalid, true⟩ fiveBytesTwice := by
  rintro ⟨-, -, reaches⟩
  have seen := ((reaches_iff _ _ _).1.mp (reaches rfl rfl).2.1).2.2
  exact seen (by decide)

end PrimoCore.Core
