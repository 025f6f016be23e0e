/-
**`BLESerial`.**

A serial line over two characteristics of the peripheral role: what the peer writes to one is received,
what the program writes is sent in notifications of the other.

* `LocalCharacteristic.setValue` — `BLECharacteristic::setValue`, whose listener is the device.
* `BLESerial.write`, `BLESerial.flush`, `BLESerial.poll` — the code. `Polled` and `Flushing` are what comes
  from outside while they run.
* `answered`, `notified` — the calls the stack gets with its answers, and the bytes it has taken for
  notifications of an attribute.

`available`, `peek` and `read` are the receive half behind a poll. Of the other local characteristics,
none can be written by a peer.
-/

import PrimoCore.Ble.Device
import PrimoCore.Ble.SerialReceive

namespace PrimoCore.Ble

open PrimoCore.Lib

/-- The calls of the stack among some outputs, with its answers: `codes` are the return codes of the
transfers, in order. -/
def answered (codes : Nat → UInt32) : List (Output Notice) → List (StackCall × UInt32)
  | [] => []
  | .call call :: rest =>
      if call.isTransfer then (call, codes 0) :: answered (fun index => codes (index + 1)) rest
      else (call, nrfSuccess) :: answered codes rest
  | .notice _ :: rest => answered codes rest

/-- The value the stack holds of an attribute after some calls. -/
def holding (handle : UInt16) : List UInt8 → List (StackCall × UInt32) → List UInt8
  | held, [] => held
  | held, (.gattsValueSet other value, _) :: rest =>
      holding handle (if other = handle then value else held) rest
  | held, _ :: rest => holding handle held rest

/-- **The bytes the stack has taken** for notifications of an attribute: each accepted one carries the
value the stack holds. -/
def notified (handle : UInt16) : List UInt8 → List (StackCall × UInt32) → List UInt8
  | _, [] => []
  | held, (.gattsValueSet other value, _) :: rest =>
      notified handle (if other = handle then value else held) rest
  | held, (.gattsHvx _ other .notification, code) :: rest =>
      (if other = handle ∧ code = nrfSuccess then held else []) ++ notified handle held rest
  | held, _ :: rest => notified handle held rest

/-- `BLECharacteristic::setValue`: the characteristic, and what the device makes of it. -/
def LocalCharacteristic.setValue (characteristic : LocalCharacteristic) (value : List UInt8)
    (device : Nrf51822) (uninit : Memory UInt8) (codes : Nat → UInt32) :
    LocalCharacteristic × Nrf51822 × List (StackCall × UInt32) × Bool :=
  let characteristic : LocalCharacteristic := { characteristic with
    value := value.take attributeMaxValueLength
    short := List.length_take_le .. }
  let (device, outputs, success) := device.updateCharacteristicValue uninit characteristic
  (characteristic, device, answered codes outputs, success)

/-- `BLESerial`, with the device of its `BLEPeripheral`. -/
structure BLESerial where
  device : Nrf51822
  flushed : UInt32
  rx : SerialRx
  txCount : Nat
  txBuffer : Memory UInt8
  rxCharacteristic : LocalCharacteristic
  txCharacteristic : LocalCharacteristic

/-- What a poll of the device meets: an event, if the stack has one, and, where a value is updated, the
answers of the stack and what the arrays of a broadcast held before. -/
structure Polled where
  event : Option StackEvent
  codes : Nat → UInt32
  uninit : Memory UInt8

/-- What a `flush` meets: the same for its `setValue`, the time, and a poll. -/
structure Flushing where
  codes : Nat → UInt32
  uninit : Memory UInt8
  millis : UInt32
  polled : Polled

namespace BLESerial

/-- `BLEDeviceCharacteristicValueChanged`: the value is set, and `_received` gets that of the receive
characteristic. -/
def valueChanged (serial : BLESerial) (polled : Polled) (characteristic : Nat) (data : List UInt8) :
    BLESerial × List (StackCall × UInt32) :=
  if characteristic = serial.rxCharacteristic.id then
    let (characteristic, device, log, _) :=
      serial.rxCharacteristic.setValue data serial.device polled.uninit polled.codes
    ({ serial with
        device := device
        rxCharacteristic := characteristic
        rx := serial.rx.received characteristic.value }, log)
  else if characteristic = serial.txCharacteristic.id then
    let (characteristic, device, log, _) :=
      serial.txCharacteristic.setValue data serial.device polled.uninit polled.codes
    ({ serial with device := device, txCharacteristic := characteristic }, log)
  else (serial, [])

/-- The calls of the listener, of which only a changed value concerns the object. -/
def told (serial : BLESerial) (polled : Polled) :
    List (Output Notice) → BLESerial × List (StackCall × UInt32)
  | [] => (serial, [])
  | .notice (.valueChanged characteristic data) :: rest =>
      let (serial, log) := serial.valueChanged polled characteristic data
      let (serial, more) := serial.told polled rest
      (serial, log ++ more)
  | _ :: rest => serial.told polled rest

/-- `BLEPeripheral::poll`. -/
def pollDevice (serial : BLESerial) (polled : Polled) : BLESerial × List (StackCall × UInt32) :=
  match polled.event with
  | none => (serial, [])
  | some event =>
      let (device, outputs) := serial.device.poll event
      let (serial, log) := ({ serial with device := device }).told polled outputs
      (serial, answered polled.codes outputs ++ log)

/-- The bytes in `_txBuffer`. -/
def pending (serial : BLESerial) : List UInt8 := slice serial.txBuffer 0 serial.txCount

/-- `flush`. What `setValue` returns is dropped. -/
def flush (serial : BLESerial) (flushing : Flushing) : BLESerial × List (StackCall × UInt32) :=
  if serial.txCount = 0 then (serial, [])
  else
    let (characteristic, device, log, _) :=
      serial.txCharacteristic.setValue serial.pending serial.device flushing.uninit flushing.codes
    let (serial, more) := ({ serial with
      device := device
      txCharacteristic := characteristic
      flushed := flushing.millis
      txCount := 0 }).pollDevice flushing.polled
    (serial, log ++ more)

/-- `'\n'`. -/
def newline : UInt8 := 10

/-- `_txBuffer[_txCount++] = byte`. -/
def push (serial : BLESerial) (byte : UInt8) : BLESerial :=
  { serial with
    txBuffer := Function.update serial.txBuffer serial.txCount byte
    txCount := serial.txCount + 1 }

/-- `write`: what it returns, the object and the calls of the stack. -/
def write (serial : BLESerial) (byte : UInt8) (polled : Polled) (flushing : Flushing) :
    Nat × BLESerial × List (StackCall × UInt32) :=
  let (serial, log) := serial.pollDevice polled
  if serial.device.subscribed serial.txCharacteristic.id = false then (0, serial, log)
  else
    let serial := serial.push byte
    if serial.txCount = attributeMaxValueLength ∨ byte = newline then
      let (serial, more) := serial.flush flushing
      (1, serial, log ++ more)
    else (1, serial, log)

/-- `poll`: for 100 ms after a `flush` it polls the device, else it flushes. -/
def poll (serial : BLESerial) (millis : UInt32) (polled : Polled) (flushing : Flushing) :
    BLESerial × List (StackCall × UInt32) :=
  if millis < serial.flushed + 100 then serial.pollDevice polled else serial.flush flushing

/-- `available`, `peek` and `read`. -/
def receive (serial : BLESerial) (call : ReceiveCall) (polled : Polled) :
    Option Int × BLESerial × List (StackCall × UInt32) :=
  let (serial, log) := serial.pollDevice polled
  let (result, rx) := serial.rx.call ⟨call, []⟩
  (result, { serial with rx := rx }, log)

end BLESerial

/-! ### The calls of the stack -/

theorem answered_append (codes : Nat → UInt32) (first second : List (Output Notice)) :
    answered codes (first ++ second) = answered codes first ++
      answered (fun index => codes (index + (transfers first).length)) second := by
  induction first generalizing codes with
  | nil => rfl
  | cons output rest ih =>
    cases output with
    | notice notice => exact ih codes
    | call call =>
      simp only [List.cons_append, answered, transfers]
      split_ifs with carries
      · rw [ih, List.length_cons, List.cons_append]
        simp only [Nat.add_right_comm, Nat.add_assoc, Nat.add_comm 1]
      · rw [ih, List.cons_append]

/-- The calls with answers are among the outputs. -/
theorem mem_of_answered {codes : Nat → UInt32} {outputs : List (Output Notice)}
    {entry : StackCall × UInt32} (member : entry ∈ answered codes outputs) :
    .call entry.1 ∈ outputs := by
  induction outputs generalizing codes with
  | nil => cases member
  | cons output rest ih =>
    cases output with
    | notice notice => exact List.mem_cons_of_mem _ (ih member)
    | call call =>
      rw [answered] at member
      split_ifs at member
      · rcases List.mem_cons.mp member with rfl | later
        · exact List.mem_cons_self ..
        · exact List.mem_cons_of_mem _ (ih later)
      · rcases List.mem_cons.mp member with rfl | later
        · exact List.mem_cons_self ..
        · exact List.mem_cons_of_mem _ (ih later)

theorem mem_transfers {outputs : List (Output Notice)} {call : StackCall}
    (member : .call call ∈ outputs) (carries : call.isTransfer = true) : call ∈ transfers outputs := by
  induction outputs with
  | nil => cases member
  | cons output rest ih =>
    rcases List.mem_cons.mp member with rfl | later
    · rw [transfers, if_pos carries]
      exact List.mem_cons_self ..
    · cases output with
      | notice notice => exact ih later
      | call other =>
        rw [transfers]
        split_ifs
        · exact List.mem_cons_of_mem _ (ih later)
        · exact ih later

theorem notified_append (handle : UInt16) (held : List UInt8) (first second : List (StackCall × UInt32)) :
    notified handle held (first ++ second) =
      notified handle held first ++ notified handle (holding handle held first) second := by
  induction first generalizing held with
  | nil => rfl
  | cons entry rest ih =>
    obtain ⟨call, code⟩ := entry
    cases call with
    | gattsHvx connHandle other type =>
      cases type with
      | notification =>
        simp only [List.cons_append, notified, holding, ih, List.append_assoc]
      | indication => exact ih held
    | gattsValueSet other value => exact ih _
    | _ => exact ih held

/-- No notification of an attribute. -/
def Silent (handle : UInt16) (log : List (StackCall × UInt32)) : Prop :=
  ∀ entry ∈ log, ∀ connHandle, entry.1 ≠ .gattsHvx connHandle handle .notification

theorem silent_nil (handle : UInt16) : Silent handle [] := fun _ member => absurd member List.not_mem_nil

theorem Silent.append {handle : UInt16} {first second : List (StackCall × UInt32)}
    (one : Silent handle first) (two : Silent handle second) : Silent handle (first ++ second) := by
  intro entry member
  rcases List.mem_append.mp member with inside | inside
  · exact one entry inside
  · exact two entry inside

theorem notified_of_silent {handle : UInt16} {log : List (StackCall × UInt32)}
    (silent : Silent handle log) (held : List UInt8) : notified handle held log = [] := by
  induction log generalizing held with
  | nil => rfl
  | cons entry rest ih =>
    have later := ih fun other member => silent other (List.mem_cons_of_mem _ member)
    have here := silent entry (List.mem_cons_self ..)
    obtain ⟨call, code⟩ := entry
    cases call with
    | gattsHvx connHandle other type =>
      cases type with
      | notification =>
        have another : other ≠ handle := fun same => here connHandle (by rw [same])
        simp only [notified, another, false_and, if_false, List.nil_append, later]
      | indication => exact later held
    | gattsValueSet other value => exact later _
    | _ => exact later held

/-- What sends nothing is silent. -/
theorem silent_of_transfers {handle : UInt16} {outputs : List (Output Notice)}
    (others : ∀ connHandle, .gattsHvx connHandle handle .notification ∉ transfers outputs)
    (codes : Nat → UInt32) : Silent handle (answered codes outputs) := by
  intro entry member connHandle same
  have inside := mem_of_answered member
  rw [same] at inside
  exact others connHandle (mem_transfers inside rfl)

/-! ### The receive half -/

namespace BLESerial

theorem told_rx (serial : BLESerial) (polled : Polled) (outputs : List (Output Notice)) :
    ∃ data, (serial.told polled outputs).1.rx = serial.rx.received data := by
  induction outputs generalizing serial with
  | nil => exact ⟨[], rfl⟩
  | cons output rest ih =>
    have changed : ∀ characteristic value, ∃ data,
        (serial.valueChanged polled characteristic value).1.rx = serial.rx.received data := by
      intro characteristic value
      unfold valueChanged
      split_ifs
      · exact ⟨_, rfl⟩
      · exact ⟨[], rfl⟩
      · exact ⟨[], rfl⟩
    unfold told
    split
    · exact ⟨[], rfl⟩
    · rename_i characteristic value tail same
      obtain ⟨first, arrived⟩ := changed characteristic value
      obtain ⟨second, later⟩ := ih (serial.valueChanged polled characteristic value).1
      obtain rfl : rest = tail := (List.cons.inj same).2
      refine ⟨first ++ second, later.trans ?_⟩
      rw [arrived, SerialRx.received, SerialRx.received, SerialRx.received, List.foldl_append]
    · rename_i same
      obtain rfl := (List.cons.inj same).2
      exact ih serial

/-- **The receive half behind a poll** is the call with what has arrived in it. -/
theorem receive_rx (serial : BLESerial) (call : ReceiveCall) (polled : Polled) :
    ∃ data, (serial.receive call polled).1 = (serial.rx.call ⟨call, data⟩).1 ∧
      (serial.receive call polled).2.1.rx = (serial.rx.call ⟨call, data⟩).2 := by
  have arrives : ∃ data, (serial.pollDevice polled).1.rx = serial.rx.received data := by
    unfold pollDevice
    split
    · exact ⟨[], rfl⟩
    · exact told_rx _ polled _
  obtain ⟨data, arrived⟩ := arrives
  refine ⟨data, ?_⟩
  simp only [receive, arrived]
  cases call <;> exact ⟨rfl, rfl⟩

end BLESerial

end PrimoCore.Ble
