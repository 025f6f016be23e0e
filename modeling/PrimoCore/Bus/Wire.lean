/-
**Reading from a slave, `TwoWire::requestFrom`.**

The bus writes what it receives into a buffer of 64 bytes, and the function then stores as many bytes as
were asked for in the ring of 63. What the bus does is data: the bytes it receives, whether it fails, and
what each check of its event registers reads.

* `Transaction`, `requestFrom` — the bus, and the code.
* `ReadRight` — what a read is to do.
* `fill_spec`, `fill_none` — the loop that stores: its index has eight bits.
* `requestFrom_right_iff` — **it returns and is right exactly when** nothing is asked for, or all bytes
  are received without an error and find room in the ring.
-/

import PrimoCore.Lib.Buffer
import PrimoCore.Core.RingBuffer

namespace PrimoCore.Bus

open PrimoCore.Lib PrimoCore.Core

/-- The registers of the TWIM the function sets. -/
structure TwimRegisters where
  rxdMaxcnt : UInt8
  address : UInt8
  /-- The short from the last byte to the stop task. -/
  lastRxStop : Bool

/-- `TwoWire`, with the static `rx_buffer` of the function. -/
structure TwoWire where
  rxBuffer : ValidBuffer
  rxMemory : Memory UInt8
  registers : TwimRegisters
  suspended : Bool

/-- What the bus does in one read: the bytes it receives, whether there is a NACK or an error, and what
the checks of the event registers read, in order. -/
structure Transaction (quantity : Nat) where
  received : List UInt8
  few : received.length ≤ quantity
  failed : Bool
  stopped : Nat → Bool
  lastRx : Nat → Bool
  suspended : Nat → Bool
  error : Nat → Bool

namespace Transaction

variable {quantity : Nat} (bus : Transaction quantity)

/-- What the bus writes into `rx_buffer`. -/
def dma (rxMemory : Memory UInt8) : Buffer UInt8 :=
  Buffer.memcpy ⟨rxMemory, []⟩ 0 (fun index => bus.received.getD index 0) bus.received.length

/-- The bytes a read is to deliver. -/
def delivered : List UInt8 := if bus.failed then [] else bus.received

/-- The loop that waits for `STOPPED`. The check of `ERROR` only triggers the stop task. -/
def waitStopped : Nat → Nat → Option Nat
  | 0, _ => none
  | fuel + 1, time => if bus.stopped time then some (time + 1) else waitStopped fuel (time + 2)

/-- The loop that waits for `LASTRX`, which an error ends. -/
def waitLastRx : Nat → Nat → Option Nat
  | 0, _ => none
  | fuel + 1, time =>
      if bus.lastRx time then some (time + 1)
      else if bus.error (time + 1) then some (time + 2)
      else waitLastRx fuel (time + 2)

/-- The loop that waits for `SUSPENDED`. -/
def waitSuspended : Nat → Nat → Option Nat
  | 0, _ => none
  | fuel + 1, time => if bus.suspended time then some (time + 1) else waitSuspended fuel (time + 1)

/-- The loops of a read, with or without a stop bit. -/
def wait (stopBit : Bool) (fuel : Nat) : Option Nat :=
  if stopBit then bus.waitStopped fuel 0 else (bus.waitLastRx fuel 0).bind (bus.waitSuspended fuel)

/-- The bus reports the events that end a read, and the registers keep them. -/
structure Reports (stopBit : Bool) : Prop where
  stopped : stopBit = true → ∃ start, ∀ time, start ≤ time → bus.stopped time = true
  ended : stopBit = false → (∃ start, ∀ time, start ≤ time → bus.lastRx time = true) ∨
    ∃ start, ∀ time, start ≤ time → bus.error time = true
  suspended : stopBit = false → ∃ start, ∀ time, start ≤ time → bus.suspended time = true

end Transaction

/-- The loop that fills the ring, with the indices it has read. Its index is a `uint8_t`. -/
def fill (rxMemory : Memory UInt8) (quantity : Nat) :
    Nat → UInt8 → ValidBuffer → List Nat → Option (ValidBuffer × List Nat)
  | 0, _, _, _ => none
  | fuel + 1, i, buffer, reads =>
      if i.toNat < quantity then
        fill rxMemory quantity fuel (i + 1) (buffer.storeChar (rxMemory i.toNat)) (reads ++ [i.toNat])
      else some (buffer, reads)

/-- What a read leaves: what it returns, how many bytes the bus may write, and the indices of
`rx_buffer` the bus has written and the function has read. -/
structure Reading where
  value : UInt8
  wire : TwoWire
  dmaLimit : Nat
  dmaWrites : List Nat
  reads : List Nat

/-- `requestFrom`; no result means that the fuel does not suffice. -/
def requestFrom (wire : TwoWire) (fuel : Nat) (address : UInt8) (quantity : Nat) (stopBit : Bool)
    (bus : Transaction quantity) : Option Reading :=
  if quantity = 0 then some ⟨0, wire, 0, [], []⟩
  else do
    let registers : TwimRegisters :=
      { rxdMaxcnt := UInt8.ofNat quantity, address := address,
        lastRxStop := stopBit || wire.registers.lastRxStop }
    let dma := bus.dma wire.rxMemory
    let _ ← bus.wait stopBit fuel
    let (rxBuffer, reads) ← fill dma.bytes quantity fuel 0 wire.rxBuffer []
    some { value := UInt8.ofNat quantity, wire := ⟨rxBuffer, dma.bytes, registers, !stopBit⟩,
           dmaLimit := registers.rxdMaxcnt.toNat, dmaWrites := dma.written, reads := reads }

/-- **What a read is to do.** -/
structure ReadRight (wire : TwoWire) {quantity : Nat} (bus : Transaction quantity)
    (reading : Reading) : Prop where
  dmaLimit : reading.dmaLimit ≤ 64
  dmaWrites : ∀ index ∈ reading.dmaWrites, index < 64
  reads : ∀ index ∈ reading.reads, index < 64
  grows : reading.wire.rxBuffer.available = wire.rxBuffer.available + reading.value.toNat
  value : reading.value.toNat = bus.delivered.length
  bytes : reading.wire.rxBuffer.contents = wire.rxBuffer.contents ++ bus.delivered
  error : bus.failed = true → reading.value = 0 ∧ reading.wire.rxBuffer = wire.rxBuffer

/-- The read returns, and does what it is to do. -/
def RequestRight (wire : TwoWire) (address : UInt8) (quantity : Nat) (stopBit : Bool)
    (bus : Transaction quantity) : Prop :=
  ∃ fuel reading, requestFrom wire fuel address quantity stopBit bus = some reading ∧
    ReadRight wire bus reading

/-! ### The loops -/

namespace Transaction

variable {quantity : Nat} {bus : Transaction quantity}

theorem waitStopped_isSome {start : Nat} (reports : ∀ time, start ≤ time → bus.stopped time = true)
    {distance time fuel : Nat} (near : start ≤ time + distance) (enough : distance < fuel) :
    (bus.waitStopped fuel time).isSome := by
  induction distance generalizing time fuel with
  | zero =>
    obtain ⟨fuel, rfl⟩ := Nat.exists_eq_succ_of_ne_zero (Nat.ne_zero_of_lt enough)
    rw [waitStopped, if_pos (reports time near)]
    rfl
  | succ distance ih =>
    obtain ⟨fuel, rfl⟩ := Nat.exists_eq_succ_of_ne_zero (Nat.ne_zero_of_lt enough)
    rw [waitStopped]
    split_ifs
    · rfl
    · exact ih (by omega) (by omega)

theorem waitLastRx_isSome {start : Nat} (reports : (∀ time, start ≤ time → bus.lastRx time = true) ∨
      ∀ time, start ≤ time → bus.error time = true) {distance time fuel : Nat}
    (near : start ≤ time + distance) (enough : distance < fuel) :
    (bus.waitLastRx fuel time).isSome := by
  induction distance generalizing time fuel with
  | zero =>
    obtain ⟨fuel, rfl⟩ := Nat.exists_eq_succ_of_ne_zero (Nat.ne_zero_of_lt enough)
    rw [waitLastRx]
    rcases reports with lastRx | error
    · rw [if_pos (lastRx time near)]
      rfl
    · rw [if_pos (error (time + 1) (by omega))]
      split_ifs <;> rfl
  | succ distance ih =>
    obtain ⟨fuel, rfl⟩ := Nat.exists_eq_succ_of_ne_zero (Nat.ne_zero_of_lt enough)
    rw [waitLastRx]
    split_ifs
    · rfl
    · rfl
    · exact ih (by omega) (by omega)

theorem waitSuspended_isSome {start : Nat}
    (reports : ∀ time, start ≤ time → bus.suspended time = true) {distance time fuel : Nat}
    (near : start ≤ time + distance) (enough : distance < fuel) :
    (bus.waitSuspended fuel time).isSome := by
  induction distance generalizing time fuel with
  | zero =>
    obtain ⟨fuel, rfl⟩ := Nat.exists_eq_succ_of_ne_zero (Nat.ne_zero_of_lt enough)
    rw [waitSuspended, if_pos (reports time near)]
    rfl
  | succ distance ih =>
    obtain ⟨fuel, rfl⟩ := Nat.exists_eq_succ_of_ne_zero (Nat.ne_zero_of_lt enough)
    rw [waitSuspended]
    split_ifs
    · rfl
    · exact ih (by omega) (by omega)

/-- **The bus is waited for**: with enough fuel, the loops end. -/
theorem exists_wait {stopBit : Bool} (reports : bus.Reports stopBit) :
    ∃ least, ∀ fuel, least ≤ fuel → (bus.wait stopBit fuel).isSome := by
  cases stopBit with
  | true =>
    obtain ⟨start, stopped⟩ := reports.stopped rfl
    exact ⟨start + 1, fun fuel enough =>
      waitStopped_isSome stopped (Nat.le_add_left start 0) (by omega)⟩
  | false =>
    obtain ⟨started, ended⟩ : ∃ start, (∀ time, start ≤ time → bus.lastRx time = true) ∨
        ∀ time, start ≤ time → bus.error time = true := by
      rcases reports.ended rfl with ⟨start, lastRx⟩ | ⟨start, error⟩
      · exact ⟨start, .inl lastRx⟩
      · exact ⟨start, .inr error⟩
    obtain ⟨start, suspended⟩ := reports.suspended rfl
    refine ⟨started + start + 1, fun fuel enough => ?_⟩
    obtain ⟨time, last⟩ := Option.isSome_iff_exists.mp
      (waitLastRx_isSome ended (Nat.le_add_left started 0) (show started < fuel by omega))
    show ((bus.waitLastRx fuel 0).bind (bus.waitSuspended fuel)).isSome
    rw [last]
    exact waitSuspended_isSome suspended (Nat.le_add_left start time) (by omega)

end Transaction

theorem index_succ {i : UInt8} {quantity : Nat} (small : quantity ≤ 255) (more : i.toNat < quantity) :
    (i + 1).toNat = i.toNat + 1 := by
  rw [UInt8.toNat_add, UInt8.toNat_one]
  omega

/-- **The loop that fills**, up to 255 bytes: it stores the bytes in order. -/
theorem fill_spec (rxMemory : Memory UInt8) {quantity : Nat} (small : quantity ≤ 255) {left fuel : Nat}
    {i : UInt8} (counts : i.toNat + left = quantity) (enough : left < fuel) (buffer : ValidBuffer)
    (reads : List Nat) : ∃ filled, fill rxMemory quantity fuel i buffer reads =
      some (filled, reads ++ List.range' i.toNat left) ∧
      filled.contents = storeAll 63 buffer.contents (slice rxMemory i.toNat left) := by
  induction left generalizing fuel i buffer reads with
  | zero =>
    obtain ⟨fuel, rfl⟩ := Nat.exists_eq_succ_of_ne_zero (Nat.ne_zero_of_lt enough)
    refine ⟨buffer, ?_, rfl⟩
    rw [fill, if_neg (by omega)]
    simp
  | succ left ih =>
    obtain ⟨fuel, rfl⟩ := Nat.exists_eq_succ_of_ne_zero (Nat.ne_zero_of_lt enough)
    have more : i.toNat < quantity := by omega
    have next := index_succ small more
    have countsOn : (i + 1).toNat + left = quantity := by omega
    have enoughLeft : left < fuel := by omega
    obtain ⟨filled, stored, contents⟩ := ih countsOn enoughLeft
      (buffer.storeChar (rxMemory i.toNat)) (reads ++ [i.toNat])
    refine ⟨filled, ?_, ?_⟩
    · rw [fill, if_pos more, stored, next, List.append_assoc, List.singleton_append, List.range'_succ]
    · rw [contents, next, ValidBuffer.storeChar_contents, slice_succ]
      rfl

/-- From 256 bytes on, the index wraps, and the loop does not end. -/
theorem fill_none {rxMemory : Memory UInt8} {quantity : Nat} (large : 256 ≤ quantity) (fuel : Nat)
    (i : UInt8) (buffer : ValidBuffer) (reads : List Nat) :
    fill rxMemory quantity fuel i buffer reads = none := by
  induction fuel generalizing i buffer reads with
  | zero => rfl
  | succ fuel ih =>
    have bound := i.toNat_lt
    rw [fill, if_pos (by omega)]
    exact ih ..

/-! ### The exact condition -/

section Request

variable {wire : TwoWire} {address : UInt8} {quantity : Nat} {stopBit : Bool}
  {bus : Transaction quantity}

/-- A read that returns has asked for nothing, or for less than 256 bytes, and stores as many. -/
theorem requestFrom_cases {fuel : Nat} {reading : Reading}
    (returns : requestFrom wire fuel address quantity stopBit bus = some reading) :
    (quantity = 0 ∧ reading = ⟨0, wire, 0, [], []⟩) ∨
      0 < quantity ∧ quantity ≤ 255 ∧ reading.value = UInt8.ofNat quantity := by
  rw [requestFrom] at returns
  split_ifs at returns with none
  · exact .inl ⟨none, (Option.some.inj returns).symm⟩
  · refine .inr ⟨Nat.pos_of_ne_zero none, ?_⟩
    obtain ⟨time, _, returns⟩ := Option.bind_eq_some_iff.mp returns
    obtain ⟨⟨filled, reads⟩, stored, returns⟩ := Option.bind_eq_some_iff.mp returns
    refine ⟨?_, ?_⟩
    · by_contra large
      rw [fill_none (by omega)] at stored
      cases stored
    · rw [← Option.some.inj returns]

/-- A read of some bytes, up to 255, returns where the bus reports its events. -/
theorem requestFrom_returns (wire : TwoWire) (address : UInt8) (reports : bus.Reports stopBit)
    (positive : 0 < quantity) (small : quantity ≤ 255) :
    ∃ fuel filled registers,
    requestFrom wire fuel address quantity stopBit bus = some
      { value := UInt8.ofNat quantity
        wire := ⟨filled, (bus.dma wire.rxMemory).bytes, registers, !stopBit⟩
        dmaLimit := (UInt8.ofNat quantity).toNat
        dmaWrites := (bus.dma wire.rxMemory).written
        reads := List.range' 0 quantity } ∧
    filled.contents = storeAll 63 wire.rxBuffer.contents
      (slice (bus.dma wire.rxMemory).bytes 0 quantity) := by
  obtain ⟨least, waits⟩ := Transaction.exists_wait reports
  obtain ⟨time, waited⟩ := Option.isSome_iff_exists.mp (waits (least + quantity + 1) (by omega))
  have counts : (0 : UInt8).toNat + quantity = quantity := Nat.zero_add quantity
  have enough : quantity < least + quantity + 1 := by omega
  obtain ⟨filled, stored, contents⟩ :=
    fill_spec (bus.dma wire.rxMemory).bytes small counts enough wire.rxBuffer []
  refine ⟨least + quantity + 1, filled,
    ⟨UInt8.ofNat quantity, address, stopBit || wire.registers.lastRxStop⟩, ?_, contents⟩
  rw [requestFrom, if_neg (by omega), waited]
  show (fill _ _ _ _ _ _).bind _ = _
  rw [stored]
  rfl

/-- The bytes the bus has received are the first ones of `rx_buffer`. -/
theorem slice_dma (bus : Transaction quantity) (rxMemory : Memory UInt8) :
    slice (bus.dma rxMemory).bytes 0 bus.received.length = bus.received :=
  Buffer.slice_memcpy ..

theorem dma_written (rxMemory : Memory UInt8) {index : Nat}
    (member : index ∈ (bus.dma rxMemory).written) : index < bus.received.length := by
  rw [Transaction.dma, Buffer.memcpy, List.append_nil, List.mem_map] at member
  obtain ⟨offset, inside, rfl⟩ := member
  rw [Nat.zero_add]
  exact List.mem_range.mp inside

/-- A read of nothing is right. -/
theorem requestFrom_nothing (wire : TwoWire) (address : UInt8) (stopBit : Bool) (bus : Transaction 0) :
    RequestRight wire address 0 stopBit bus := by
  refine ⟨0, ⟨0, wire, 0, [], []⟩, rfl, ?_⟩
  have nothing : bus.delivered = [] := by
    rw [Transaction.delivered]
    split_ifs
    · rfl
    · exact List.eq_nil_of_length_eq_zero (Nat.le_zero.mp bus.few)
  exact ⟨Nat.zero_le _, fun _ none => absurd none List.not_mem_nil,
    fun _ none => absurd none List.not_mem_nil, (Int.add_zero _).symm, by rw [nothing]; rfl,
    by rw [nothing, List.append_nil], fun _ => ⟨rfl, rfl⟩⟩

/-- **Exactly when a read is right**: nothing is asked for, or all bytes are received without an error
and find room behind those that are queued. -/
theorem requestFrom_right_iff (wire : TwoWire) (address : UInt8) (quantity : Nat) (stopBit : Bool)
    (bus : Transaction quantity) (reports : bus.Reports stopBit) :
    RequestRight wire address quantity stopBit bus ↔
      quantity = 0 ∨ bus.failed = false ∧ bus.received.length = quantity ∧
        wire.rxBuffer.available + quantity ≤ 63 := by
  have available := wire.rxBuffer.available_eq
  constructor
  · rintro ⟨fuel, reading, returns, right⟩
    rcases requestFrom_cases returns with ⟨none, _⟩ | ⟨positive, small, value⟩
    · exact .inl none
    · have returned : reading.value.toNat = quantity := by
        rw [value, UInt8.toNat_ofNat']
        omega
      have succeeded : bus.failed = false := by
        apply Bool.eq_false_iff.mpr
        intro failed
        rw [(right.error failed).1, UInt8.toNat_zero] at returned
        omega
      have length := right.value
      have grows := right.grows
      have after := reading.wire.rxBuffer.available_eq
      have bound := reading.wire.rxBuffer.length_le
      rw [Transaction.delivered, succeeded, returned] at length
      refine .inr ⟨succeeded, length.symm, ?_⟩
      rw [returned] at grows
      omega
  · rintro (none | ⟨succeeded, length, room⟩)
    · subst none
      exact requestFrom_nothing wire address stopBit bus
    · rcases Nat.eq_zero_or_pos quantity with none | positive
      · subst none
        exact requestFrom_nothing wire address stopBit bus
      · obtain ⟨fuel, filled, registers, returns, contents⟩ :=
          requestFrom_returns wire address reports positive (by omega)
        have returned : (UInt8.ofNat quantity).toNat = quantity := by
          rw [UInt8.toNat_ofNat']
          omega
        have delivered : bus.delivered = bus.received := by rw [Transaction.delivered, succeeded]; rfl
        have received := slice_dma bus wire.rxMemory
        rw [length] at received
        rw [received, storeAll_of_room (by omega)] at contents
        refine ⟨fuel, _, returns, ?_, ?_, ?_, ?_, ?_, ?_, ?_⟩
        · show (UInt8.ofNat quantity).toNat ≤ 64
          omega
        · intro index member
          have := dma_written wire.rxMemory member
          omega
        · intro index member
          have := List.mem_range'_1.mp member
          omega
        · show filled.available = wire.rxBuffer.available + (UInt8.ofNat quantity).toNat
          rw [filled.available_eq, contents, available, List.length_append, length, returned]
          exact Int.natCast_add ..
        · rw [delivered, length]
          exact returned
        · rw [delivered]
          exact contents
        · intro failed
          rw [succeeded] at failed
          cases failed

end Request

/-- `Wire` as its constructor leaves it. -/
def TwoWire.new : TwoWire where
  rxBuffer := ⟨RingBuffer.new, RingBuffer.new_within⟩
  rxMemory := fun _ => 0
  registers := ⟨0, 0, false⟩
  suspended := false

/-- `Wire` with two bytes that have not been read yet. -/
def TwoWire.queued : TwoWire :=
  { TwoWire.new with rxBuffer := (TwoWire.new.rxBuffer.storeChar 5).storeChar 6 }

/-- The bus receives three bytes, and stops after some checks. -/
def threeBytes : Transaction 3 where
  received := [7, 8, 9]
  few := Nat.le_refl 3
  failed := false
  stopped := fun time => decide (5 ≤ time)
  lastRx := fun time => decide (4 ≤ time)
  suspended := fun _ => false
  error := fun _ => false

/-- No slave acknowledges the address. The bus stops after the stop task. -/
def notAcknowledged : Transaction 1 where
  received := []
  few := Nat.zero_le 1
  failed := true
  stopped := fun time => decide (2 ≤ time)
  lastRx := fun _ => false
  suspended := fun _ => true
  error := fun _ => true

/-- Three bytes are read, and queued behind the two. -/
theorem requestFrom_right_iff_threeBytes : RequestRight .queued 0x50 3 true threeBytes := by
  have reports : threeBytes.Reports true :=
    ⟨fun _ => ⟨5, fun _ later => decide_eq_true later⟩, fun without => absurd without (by decide),
      fun without => absurd without (by decide)⟩
  exact (requestFrom_right_iff .queued 0x50 3 true threeBytes reports).mpr (.inr (by decide))

/-- **An error is not seen**: where no slave acknowledges the address, the read returns 1 and stores
what `rx_buffer` held before. -/
theorem requestFrom_unacknowledged :
    ¬ ∀ (wire : TwoWire) (address : UInt8) (quantity : Nat) (stopBit : Bool)
      (bus : Transaction quantity), bus.Reports stopBit →
      RequestRight wire address quantity stopBit bus := by
  intro always
  have reports : notAcknowledged.Reports true :=
    ⟨fun _ => ⟨2, fun _ later => decide_eq_true later⟩, fun without => absurd without (by decide),
      fun without => absurd without (by decide)⟩
  obtain ⟨fuel, reading, returns, right⟩ := always .new 0x50 1 true notAcknowledged reports
  rcases requestFrom_cases returns with ⟨none, _⟩ | ⟨_, _, value⟩
  · cases none
  · have zero := (right.error rfl).1
    rw [value] at zero
    exact absurd zero (by decide)

end PrimoCore.Bus
