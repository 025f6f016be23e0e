/-
**`SoftwareSerial`.**

All objects share one buffer for what they receive. One of them is active: it has a channel of GPIOTE,
whose interrupt comes with the start bit of a byte.

* `Serials` — the objects and their static data, with the channels: `begin`, `listen`,
  `stopListening`, `end`, `read`, `peek`, `available`, `overflow`, `flush`, `write` and
  `handle_interrupt`, down to the levels of the line.
* `sampled_frame` — **what `recv` samples of the frame that `write` sends of a byte is the byte**.
* `Serials.contents` — the unread bytes; `read_contents`, `received_contents` — the buffer is a queue
  of 63.
-/

import PrimoCore.Core.Interrupts
import PrimoCore.Core.RingBuffer

namespace PrimoCore.Bus

open PrimoCore.Lib PrimoCore.Core

/-- `_SS_MAX_RX_BUFF`. -/
def ssMaxRxBuff : Int := 64

/-- How many bytes can be unread. -/
def ssCapacity : Nat := 63

/-- The function `handle_interrupt`, as a callback. -/
def handleInterrupt : Nat := 0

/-- `SoftwareSerial`. -/
structure SoftwareSerial where
  receivePin : UInt8
  inverseLogic : Bool
  intMask : UInt32
  rxDelayCentering : UInt16
  rxDelayIntrabit : UInt16
  rxDelayStopbit : UInt16
  txDelay : UInt16
  bufferOverflow : Bool
  writeError : Int

namespace SoftwareSerial

/-- The constructor. It leaves the interrupt mask as it finds it. -/
def new (receivePin : UInt8) (inverseLogic : Bool) (uninit : UInt32) : SoftwareSerial :=
  ⟨receivePin, inverseLogic, uninit, 0, 0, 0, 0, false, 0⟩

/-- The delays that `begin` calculates from the distance between two bits in microseconds. -/
def setDelays (serial : SoftwareSerial) (bitDelay : UInt32) : SoftwareSerial :=
  { serial with
    txDelay := bitDelay.toUInt16
    rxDelayCentering := (bitDelay / 2 - 2).toUInt16
    rxDelayIntrabit := (bitDelay - 1).toUInt16
    rxDelayStopbit := bitDelay.toUInt16 }

end SoftwareSerial

/-- The objects, their static data, and the channels. -/
structure Serials where
  object : Nat → SoftwareSerial
  activeObject : Option Nat
  receiveBuffer : Int → UInt8
  receiveBufferTail : Int
  receiveBufferHead : Int
  channels : Channels

/-- The interrupt mask that the result of `attachInterrupt` makes. Where there was no channel, it is
-1. -/
def resultMask : Option Nat → UInt32
  | none => 0xFFFFFFFF
  | some channel => UInt32.ofNat (1 <<< channel)

/-- A write of `INTENCLR`. -/
def intenclr (channels : Channels) (mask : UInt32) : Channels :=
  { channels with
    gpiote := { channels.gpiote with
      intEnabled := fun channel => channels.gpiote.intEnabled channel && !mask.toNat.testBit channel } }

/-- A write of `INTENSET`. -/
def intenset (channels : Channels) (mask : UInt32) : Channels :=
  { channels with
    gpiote := { channels.gpiote with
      intEnabled := fun channel => channels.gpiote.intEnabled channel || mask.toNat.testBit channel } }

/-- The loop of `write`: the levels of `count` bits of a byte, the lowest one first. -/
def bitLevels : Nat → UInt8 → List Bool
  | 0, _ => []
  | count + 1, b => (b &&& 1 != 0) :: bitLevels count (b >>> 1)

/-- The levels that `write` puts on the line. -/
def frame (inverseLogic : Bool) (b : UInt8) : List Bool :=
  inverseLogic :: bitLevels 8 (if inverseLogic then ~~~b else b) ++ [!inverseLogic]

/-- The loop of `recv`, and the inversion after it. The start bit is at 0 on the line. -/
def sampled (inverseLogic : Bool) (line : Nat → Bool) : UInt8 :=
  let d : UInt8 :=
    (List.range 8).foldl (fun d bit => if line (bit + 1) then d >>> 1 ||| 0x80 else d >>> 1) 0
  if inverseLogic then ~~~d else d

namespace Serials

/-- `isListening`. -/
def isListening (serials : Serials) (this : Nat) : Bool := serials.activeObject = some this

/-- An object is changed. -/
def setObject (serials : Serials) (this : Nat) (serial : SoftwareSerial) : Serials :=
  { serials with object := Function.update serials.object this serial }

/-- The interrupts of the mask of an object are switched off. -/
def clearInterrupts (serials : Serials) (this : Nat) : Serials :=
  { serials with channels := intenclr serials.channels (serials.object this).intMask }

/-- And on. -/
def setInterrupts (serials : Serials) (this : Nat) : Serials :=
  { serials with channels := intenset serials.channels (serials.object this).intMask }

/-- `stopListening`. -/
def stopListening (serials : Serials) (this : Nat) : Bool × Serials :=
  if serials.isListening this then
    (true, { serials with
      channels := serials.channels.detachInterrupt (serials.object this).receivePin.toUInt32
      activeObject := none })
  else (false, serials)

/-- `end`. -/
def ends (serials : Serials) (this : Nat) : Serials := (serials.stopListening this).2

/-- The call of `stopListening` in `listen`. -/
def stopActive (serials : Serials) : Serials :=
  match serials.activeObject with
  | none => serials
  | some active => (serials.stopListening active).2

/-- The lines of `listen` after it. `RISING` is 4, `FALLING` is 3. -/
def startListening (description : UInt32 → UInt32) (serials : Serials) (this : Nat) : Serials :=
  let serial := serials.object this
  let (channels, result) := serials.channels.attachInterrupt description serial.receivePin.toUInt32
    handleInterrupt (if serial.inverseLogic then 4 else 3)
  { serials.setObject this { serial with bufferOverflow := false, intMask := resultMask result } with
    receiveBufferHead := 0
    receiveBufferTail := 0
    activeObject := some this
    channels := channels }

/-- `listen`. -/
def listen (description : UInt32 → UInt32) (serials : Serials) (this : Nat) : Bool × Serials :=
  if (serials.object this).rxDelayStopbit = 0 then (false, serials)
  else if serials.isListening this then (false, serials)
  else (true, serials.stopActive.startListening description this)

/-- `begin` after the pins are set up, up to the call of `listen`. -/
def setDelays (serials : Serials) (this : Nat) (bitDelay : UInt32) : Serials :=
  serials.setObject this ((serials.object this).setDelays bitDelay)

/-- `begin`. -/
def begins (description : UInt32 → UInt32) (serials : Serials) (this : Nat) (bitDelay : UInt32) :
    Serials :=
  ((serials.setDelays this bitDelay).listen description this).2

/-- `read`. -/
def read (serials : Serials) (this : Nat) : Int × Serials :=
  if !serials.isListening this then (-1, serials)
  else if serials.receiveBufferHead = serials.receiveBufferTail then (-1, serials)
  else ((serials.receiveBuffer serials.receiveBufferHead).toNat,
    { serials with receiveBufferHead := (serials.receiveBufferHead + 1) % ssMaxRxBuff })

/-- `peek`. A `char` has no sign here. -/
def peek (serials : Serials) (this : Nat) : Int :=
  if !serials.isListening this then -1
  else if serials.receiveBufferHead = serials.receiveBufferTail then -1
  else (serials.receiveBuffer serials.receiveBufferHead).toNat

/-- `available`. -/
def available (serials : Serials) (this : Nat) : Int :=
  if !serials.isListening this then 0
  else (serials.receiveBufferTail + ssMaxRxBuff - serials.receiveBufferHead) % ssMaxRxBuff

/-- `overflow`. -/
def overflow (serials : Serials) (this : Nat) : Bool × Serials :=
  let ret := (serials.object this).bufferOverflow
  if ret then (ret, serials.setObject this { serials.object this with bufferOverflow := false })
  else (ret, serials)

/-- `flush`. -/
def flush (serials : Serials) (this : Nat) : Serials :=
  if !serials.isListening this then serials
  else
    { serials.clearInterrupts this with
      receiveBufferHead := 0
      receiveBufferTail := 0 : Serials }.setInterrupts this

/-- `write`: what it returns, and the levels it puts on the line. -/
def write (serials : Serials) (this : Nat) (b : UInt8) : (Nat × List Bool) × Serials :=
  let serial := serials.object this
  if serial.txDelay = 0 then ((0, []), serials.setObject this { serial with writeError := 1 })
  else ((1, frame serial.inverseLogic b), (serials.clearInterrupts this).setInterrupts this)

/-- The lines of `recv` that save the byte. -/
def received (serials : Serials) (this : Nat) (d : UInt8) : Serials :=
  let next := (serials.receiveBufferTail + 1) % ssMaxRxBuff
  if next ≠ serials.receiveBufferHead then
    { serials with
      receiveBuffer := Function.update serials.receiveBuffer serials.receiveBufferTail d
      receiveBufferTail := next }
  else serials.setObject this { serials.object this with bufferOverflow := true }

/-- `recv`, with the levels of the line from the interrupt on. -/
def recv (serials : Serials) (this : Nat) (line : Nat → Bool) : Serials :=
  let inverseLogic := (serials.object this).inverseLogic
  if (if inverseLogic then line 0 else !line 0) then
    ((serials.clearInterrupts this).received this (sampled inverseLogic line)).setInterrupts this
  else serials

/-- `handle_interrupt`. -/
def handle (serials : Serials) (line : Nat → Bool) : Serials :=
  match serials.activeObject with
  | none => serials
  | some active => serials.recv active line

/-- The static data before the first call, with the objects as their constructors leave them. -/
def initial (receivePin : Nat → UInt8) (inverseLogic : Nat → Bool) (uninit : Nat → UInt32) :
    Serials where
  object := fun this => .new (receivePin this) (inverseLogic this) (uninit this)
  activeObject := none
  receiveBuffer := fun _ => 0
  receiveBufferTail := 0
  receiveBufferHead := 0
  channels := .initial

end Serials

/-! ### Bytes on the line -/

/-- The loop of `recv` over the levels of a byte. -/
theorem folded_bitLevels (b : UInt8) :
    (bitLevels 8 b).foldl (fun (d : UInt8) level => if level then d >>> 1 ||| 0x80 else d >>> 1) 0 =
      b := by
  have each : ∀ value : Fin 256, (bitLevels 8 (UInt8.ofNat value)).foldl
      (fun (d : UInt8) level => if level then d >>> 1 ||| 0x80 else d >>> 1) 0 = UInt8.ofNat value := by
    decide +kernel
  have byte := each ⟨b.toNat, b.toNat_lt⟩
  rwa [UInt8.ofNat_toNat] at byte

/-- **A byte arrives as it was sent**, by objects of the same logic, and after a start bit. -/
theorem sampled_frame (inverseLogic idle : Bool) (b : UInt8) :
    (frame inverseLogic b).getD 0 idle = inverseLogic ∧
      sampled inverseLogic (fun bit => (frame inverseLogic b).getD bit idle) = b := by
  refine ⟨rfl, ?_⟩
  cases inverseLogic with
  | false => exact folded_bitLevels b
  | true =>
    have inverted : sampled true (fun bit => (frame true b).getD bit idle) = ~~~(~~~b) :=
      congrArg (~~~·) (folded_bitLevels (~~~b))
    rw [inverted, UInt8.not_not]

namespace Serials

/-! ### The buffer -/

/-- The ring of the buffer. -/
def ring (serials : Serials) : RingQueue UInt8 :=
  ⟨serials.receiveBuffer, serials.receiveBufferTail, serials.receiveBufferHead⟩

/-- The unread bytes, the oldest one first. -/
def contents (serials : Serials) : List UInt8 := serials.ring.contents ssMaxRxBuff

/-- Both indices are in the buffer. -/
def Within (serials : Serials) : Prop := serials.ring.Within ssMaxRxBuff

variable {serials : Serials} {this : Nat}

@[simp] theorem setObject_self (serials : Serials) (this : Nat) (serial : SoftwareSerial) :
    (serials.setObject this serial).object this = serial := Function.update_self ..

theorem setObject_of_ne {other : Nat} (ne : other ≠ this) (serials : Serials)
    (serial : SoftwareSerial) : (serials.setObject this serial).object other = serials.object other := Function.update_of_ne ne ..

/-- An index is moved on as it is in the ring. -/
theorem next_eq {index : Int} (nonneg : 0 ≤ index) (below : index < ssMaxRxBuff) :
    (index + 1) % ssMaxRxBuff = RingQueue.wrap ssMaxRxBuff (index + 1) := by
  simp only [RingQueue.wrap, ssMaxRxBuff] at *
  split_ifs <;> omega

theorem tail_next (within : serials.Within) : (serials.receiveBufferTail + 1) % ssMaxRxBuff =
    RingQueue.wrap ssMaxRxBuff (serials.receiveBufferTail + 1) :=
  next_eq within.head_nonneg within.head_lt

theorem head_next (within : serials.Within) : (serials.receiveBufferHead + 1) % ssMaxRxBuff =
    RingQueue.wrap ssMaxRxBuff (serials.receiveBufferHead + 1) :=
  next_eq within.tail_nonneg within.tail_lt

theorem length_contents (within : serials.Within) :
    (serials.contents.length : Int) = serials.ring.count ssMaxRxBuff :=
  RingQueue.length_contents within

theorem empty_iff (within : serials.Within) :
    serials.receiveBufferHead = serials.receiveBufferTail ↔ serials.contents = [] :=
  RingQueue.empty_iff within

theorem length_le (within : serials.Within) : serials.contents.length ≤ ssCapacity := by
  have length := length_contents within
  have below := (RingQueue.count_bounds within).2
  simp only [ssMaxRxBuff, ssCapacity] at *
  omega

/-- The buffer is full exactly when the tail is right before the head. -/
theorem full_iff (within : serials.Within) :
    (serials.receiveBufferTail + 1) % ssMaxRxBuff = serials.receiveBufferHead ↔
      serials.contents.length = ssCapacity := by
  have length := length_contents within
  rw [tail_next within]
  refine (RingQueue.full_iff within).trans ?_
  simp only [ssMaxRxBuff, ssCapacity] at *
  omega

/-- The indices start the same, for an empty buffer. -/
theorem cleared_contents (buffer : Int → UInt8) :
    RingQueue.Within ssMaxRxBuff (⟨buffer, 0, 0⟩ : RingQueue UInt8) ∧
      RingQueue.contents ssMaxRxBuff (⟨buffer, 0, 0⟩ : RingQueue UInt8) = [] := by
  have inside : (0 : Int) < ssMaxRxBuff := by decide
  have within : RingQueue.Within ssMaxRxBuff (⟨buffer, 0, 0⟩ : RingQueue UInt8) :=
    ⟨Int.le_refl 0, inside, Int.le_refl 0, inside⟩
  exact ⟨within, (RingQueue.empty_iff within).mp rfl⟩

/-- **A byte is stored** if there is room, and otherwise dropped, with the overflow noted. -/
theorem received_contents (within : serials.Within) (d : UInt8) :
    (serials.received this d).Within ∧
      (serials.received this d).contents = store ssCapacity serials.contents d := by
  have bound := length_le within
  have full := full_iff within
  unfold received
  dsimp only
  by_cases room : (serials.receiveBufferTail + 1) % ssMaxRxBuff = serials.receiveBufferHead
  · have many : ¬ serials.contents.length < ssCapacity := by
      rw [full.mp room]
      exact Nat.lt_irrefl _
    rw [if_neg (not_not_intro room), store, if_neg many]
    exact ⟨within, rfl⟩
  · have few : serials.contents.length < ssCapacity := Nat.lt_of_le_of_ne bound (mt full.mpr room)
    have count : serials.ring.count ssMaxRxBuff + 1 < ssMaxRxBuff := by
      rw [← length_contents within]
      simp only [ssMaxRxBuff, ssCapacity] at *
      omega
    have pushed : serials.ring.push ssMaxRxBuff d =
        ⟨Function.update serials.receiveBuffer serials.receiveBufferTail d,
          (serials.receiveBufferTail + 1) % ssMaxRxBuff, serials.receiveBufferHead⟩ := by
      rw [tail_next within]
      rfl
    rw [if_pos room, store, if_pos few]
    unfold Within contents ring
    rw [← pushed]
    exact ⟨RingQueue.push_within within d, RingQueue.contents_push within count d⟩

/-- The overflow is noted exactly when the buffer is full. -/
theorem received_overflow (within : serials.Within) (d : UInt8) :
    ((serials.received this d).object this).bufferOverflow = true ↔
      (serials.object this).bufferOverflow = true ∨ serials.contents.length = ssCapacity := by
  unfold received
  dsimp only
  rw [← full_iff within]
  by_cases room : (serials.receiveBufferTail + 1) % ssMaxRxBuff = serials.receiveBufferHead
  · rw [if_neg (not_not_intro room)]
    rw [setObject_self]
    exact iff_of_true rfl (.inr room)
  · rw [if_pos room]
    exact (or_iff_left room).symm

/-- `available` counts the unread bytes. -/
theorem available_eq (within : serials.Within) (active : serials.isListening this = true) :
    serials.available this = serials.contents.length := by
  obtain ⟨_, _, _, _⟩ := id within
  rw [length_contents within, available, active]
  simp only [RingQueue.count, ring, ssMaxRxBuff] at *
  split_ifs <;> first | contradiction | omega

/-- `peek` returns the oldest byte. -/
theorem peek_eq (within : serials.Within) (active : serials.isListening this = true) :
    serials.peek this = oldest serials.contents := by
  rw [peek, active]
  by_cases none : serials.receiveBufferHead = serials.receiveBufferTail
  · rw [(empty_iff within).mp none]
    simp [none, oldest]
  · have first : serials.contents = _ := RingQueue.contents_pop within none
    rw [first]
    simp only [none, if_false]
    rfl

/-- **`read` takes the oldest byte.** -/
theorem read_contents (within : serials.Within) (active : serials.isListening this = true) :
    (serials.read this).1 = oldest serials.contents ∧ (serials.read this).2.Within ∧
      (serials.read this).2.contents = serials.contents.tail := by
  rw [read, active]
  by_cases none : serials.receiveBufferHead = serials.receiveBufferTail
  · rw [(empty_iff within).mp none]
    simp only [none, if_true]
    exact ⟨rfl, within, (empty_iff within).mp none⟩
  · have first : serials.contents = _ := RingQueue.contents_pop within none
    have popped : serials.ring.pop ssMaxRxBuff = ⟨serials.receiveBuffer, serials.receiveBufferTail,
        (serials.receiveBufferHead + 1) % ssMaxRxBuff⟩ := by
      rw [head_next within]
      rfl
    rw [first, popped]
    simp only [none, if_false]
    refine ⟨rfl, ?_, rfl⟩
    show RingQueue.Within ssMaxRxBuff (⟨serials.receiveBuffer, serials.receiveBufferTail,
      (serials.receiveBufferHead + 1) % ssMaxRxBuff⟩ : RingQueue UInt8)
    rw [← popped]
    exact RingQueue.pop_within within

end Serials

end PrimoCore.Bus
