/-
**The rings of `TwoWire`.**

A device as slave stores each message of a master in the receive ring and hands it to a callback; a device as
master collects what is written in the transmit ring and hands it to the bus. Both go through static buffers
of 64 bytes, from which and to which the bus copies. The end of a message sets an event that nothing clears: from
the second message on it is not waited for.

* `WireSlave.onService`, `WireMaster.endTransmission` and so on — the code. When a message arrives, and what the bus
  answers, are inputs.
* `ServiceRight` — the callback is told the length of the message, and reads its bytes.
* `Transmission.Right` — what has been put on the bus is what `write` has taken since the last
  `beginTransmission`.
* `WireSlave.Keeps`, `Transmission.Keeps` — a message leaves a byte of the buffer free, and is there when it is
  read; a transmission is acknowledged up to its last byte.
* `transfers_right_iff` — **all transfers are right exactly when** all messages and transmissions are so.
-/

import Mathlib.Data.List.TakeDrop
import PrimoCore.Core.RingBuffer
import PrimoCore.Lib.Buffer
import PrimoCore.Lib.Run

namespace PrimoCore.Bus

open PrimoCore.Lib PrimoCore.Core

/-! ### The device as slave -/

/-- `TwoWire` as slave, with the static `rx_buffer` of `onService` and two registers of the TWIS. Between two messages
the ring is empty. -/
structure WireSlave where
  rxBuffer : ValidBuffer
  rxMemory : Memory UInt8
  /-- `EVENTS_STOPPED`. -/
  stopped : Bool
  /-- `RXD.AMOUNT`, which is the length of the last message when a message has ended. -/
  amount : UInt8
  few : amount ≤ 64
  drained : rxBuffer.contents = []

/-- A call of the callback. -/
inductive StreamCall where
  | available
  | read
  | peek

/-- A message of a master, up to its stop condition. Where it is not waited for, it may have ended when
`RXD.AMOUNT` is read, and some of its bytes may have arrived when they are. -/
structure Message where
  bytes : List UInt8
  few : bytes.length ≤ 64
  ended : Bool
  arrived : Nat → Bool
  complete : ended = true → ∀ index < bytes.length, arrived index = true

/-- What the calls of the callback return. -/
def callback (rxBuffer : ValidBuffer) : List StreamCall → List Int
  | [] => []
  | .available :: rest => rxBuffer.available :: callback rxBuffer rest
  | .read :: rest => rxBuffer.readChar.1 :: callback rxBuffer.readChar.2 rest
  | .peek :: rest => rxBuffer.peek :: callback rxBuffer rest

/-- What a message leads to: what the callback is passed and what its calls return, the indices of `rx_buffer`
that the bus has written, and the device when the message has ended. -/
structure Service where
  told : Int
  results : List StreamCall → List Int
  written : List Nat
  wire : WireSlave

namespace WireSlave

/-- The loop that stores what has been received. -/
def storeReceived (rxBuffer : ValidBuffer) (rxMemory : Memory UInt8) (received : UInt8) : ValidBuffer :=
  (List.range received.toNat).foldl (fun buffer i => buffer.storeChar (rxMemory i)) rxBuffer

/-- What the bus writes into `rx_buffer`. -/
def dma (wire : WireSlave) (message : Message) : Buffer UInt8 :=
  Buffer.memcpy ⟨wire.rxMemory, []⟩ 0 (fun index => message.bytes.getD index 0) message.bytes.length

/-- `RXD.AMOUNT`, as it is read: without waiting, it may still be that of the last message. -/
def received (wire : WireSlave) (message : Message) : UInt8 :=
  if wire.stopped && !message.ended then wire.amount else UInt8.ofNat message.bytes.length

/-- `rx_buffer`, as it is read: without waiting, a byte may still be that of an earlier message. -/
def rxBytes (wire : WireSlave) (message : Message) : Memory UInt8 := fun index =>
  if wire.stopped && !message.arrived index then wire.rxMemory index
  else (wire.dma message).bytes index

/-- `onService`, where a master writes. It waits for `EVENTS_STOPPED`, which stays set from the first message on. -/
def onService (wire : WireSlave) (message : Message) : Service :=
  let rxBuffer := storeReceived wire.rxBuffer (wire.rxBytes message) (wire.received message)
  { told := rxBuffer.available
    results := callback rxBuffer
    written := (wire.dma message).written
    wire :=
      { rxBuffer := rxBuffer.clear
        rxMemory := (wire.dma message).bytes
        stopped := true
        amount := UInt8.ofNat message.bytes.length
        few := by
          have few := message.few
          rw [UInt8.le_iff_toNat_le, UInt8.toNat_ofNat']
          exact Nat.le_trans (Nat.mod_le ..) few
        drained := rxBuffer.clear_contents } }

def step (wire : WireSlave) (message : Message) : WireSlave := (wire.onService message).wire

end WireSlave

/-- What the calls return for a queue of bytes. -/
def queueAnswers (queue : List UInt8) : List StreamCall → List Int
  | [] => []
  | .available :: rest => queue.length :: queueAnswers queue rest
  | .read :: rest => oldest queue :: queueAnswers queue.tail rest
  | .peek :: rest => oldest queue :: queueAnswers queue rest

/-- **A message is passed on**: the callback is passed its length, and its calls return its bytes, whatever they
are. -/
structure ServiceRight (message : Message) (service : Service) : Prop where
  told : service.told = message.bytes.length
  results : ∀ calls, service.results calls = queueAnswers message.bytes calls
  written : ∀ index ∈ service.written, index < 64

/-- **The message leaves a byte of `rx_buffer` free, and is there when it is read**: its end is waited for or has
come, or the last one was as long and what has not arrived is the same. -/
def WireSlave.Keeps (wire : WireSlave) (message : Message) : Prop :=
  message.bytes.length ≤ 63 ∧ (wire.stopped = true → message.ended = false →
    min 63 wire.amount.toNat = message.bytes.length ∧
      ∀ index < message.bytes.length, message.arrived index = true ∨
        wire.rxMemory index = message.bytes.getD index 0)

instance (wire : WireSlave) (message : Message) : Decidable (wire.Keeps message) :=
  inferInstanceAs (Decidable (_ ∧ _))

/-! ### The device as master -/

/-- `TwoWire` as master, with the static `tx_buffer` of `endTransmission`. Outside of a transmission the ring is
empty. -/
structure WireMaster where
  txBuffer : ValidBuffer
  txAddress : UInt8
  transmissionBegun : Bool
  txMemory : Memory UInt8
  suspended : Bool
  drained : transmissionBegun = false → txBuffer.contents = []

/-- How the bus answers a transmission: all is sent, or the address or the byte behind some others is not
acknowledged. -/
inductive BusAnswer where
  | sent
  | addressNack
  | dataNack (before : Nat)
  deriving DecidableEq

namespace BusAnswer

/-- What `endTransmission` returns. -/
def value : BusAnswer → UInt8
  | .sent => 0
  | .addressNack => 2
  | .dataNack _ => 3

/-- The bytes that are put on the bus: none behind one that is not acknowledged. -/
def puts (answer : BusAnswer) (bytes : List UInt8) : List UInt8 :=
  match answer with
  | .sent => bytes
  | .addressNack => []
  | .dataNack before => bytes.take (before + 1)

/-- **All of them are acknowledged**, but perhaps the last. -/
def Completes (answer : BusAnswer) (bytes : List UInt8) : Prop :=
  match answer with
  | .sent => True
  | .addressNack => bytes = []
  | .dataNack before => bytes.length ≤ before + 1

instance (answer : BusAnswer) (bytes : List UInt8) : Decidable (answer.Completes bytes) :=
  match answer with
  | .sent => inferInstanceAs (Decidable True)
  | .addressNack => inferInstanceAs (Decidable (bytes = []))
  | .dataNack _ => inferInstanceAs (Decidable (_ ≤ _))

theorem puts_eq_iff (answer : BusAnswer) (bytes : List UInt8) :
    answer.puts bytes = bytes ↔ answer.Completes bytes := by
  cases answer with
  | sent => exact iff_of_true rfl trivial
  | addressNack => exact eq_comm
  | dataNack before => exact List.take_eq_self_iff bytes

end BusAnswer

/-- The loop of `endTransmission` that copies the ring into `tx_buffer`. Its index is a `uint8_t`. -/
def drain (txBuffer : ValidBuffer) (size : UInt8) (dma : Buffer UInt8) : ValidBuffer × UInt8 × Buffer UInt8 :=
  if txBuffer.available ≠ 0 then
    drain txBuffer.readChar.2 (size + 1) (dma.set size.toNat (.ofInt txBuffer.readChar.1))
  else (txBuffer, size, dma)
termination_by txBuffer.contents.length
decreasing_by
  rename_i more
  rw [txBuffer.available_eq] at more
  rw [txBuffer.readChar_eq.2, List.length_tail]
  omega

/-- The loop ends with an empty ring. -/
theorem drain_empty (txBuffer : ValidBuffer) (size : UInt8) (dma : Buffer UInt8) :
    (drain txBuffer size dma).1.contents = [] := by
  fun_induction drain txBuffer size dma with
  | case1 txBuffer size dma more ih => exact ih
  | case2 txBuffer size dma empty =>
    rw [txBuffer.available_eq, not_not] at empty
    exact List.eq_nil_of_length_eq_zero (Int.natCast_eq_zero.mp empty)

/-- What a transmission leaves: what it returns, the address and the bytes that are put on the bus, the indices of
`tx_buffer` that are written, and the device. -/
structure Ending where
  value : UInt8
  address : UInt8
  onBus : List UInt8
  written : List Nat
  wire : WireMaster

namespace WireMaster

def beginTransmission (wire : WireMaster) (address : UInt8) : WireMaster :=
  { wire with
    txAddress := address
    txBuffer := wire.txBuffer.clear
    transmissionBegun := true
    drained := fun quiet => absurd quiet (by decide) }

/-- `write` of a byte, with what it returns. -/
def write (wire : WireMaster) (data : UInt8) : Nat × WireMaster :=
  if refused : wire.transmissionBegun = false ∨ wire.txBuffer.isFull = true then (0, wire)
  else (1, { wire with
    txBuffer := wire.txBuffer.storeChar data
    drained := fun quiet => absurd (.inl quiet) refused })

/-- `write` of some bytes, with what it returns: where the ring is full it stops. -/
def writeAll (wire : WireMaster) : List UInt8 → Nat × WireMaster
  | [] => (0, wire)
  | data :: rest =>
      if (wire.write data).1 = 0 then (0, (wire.write data).2)
      else (((wire.write data).2.writeAll rest).1 + 1, ((wire.write data).2.writeAll rest).2)

/-- `endTransmission`. Where the bus answers with an error, it returns before it sets `suspended`. -/
def endTransmission (wire : WireMaster) (stopBit : Bool) (answer : BusAnswer) : Ending :=
  let copied := drain wire.txBuffer 0 ⟨wire.txMemory, []⟩
  { value := answer.value
    address := wire.txAddress
    onBus := answer.puts (slice copied.2.2.bytes 0 copied.2.1.toNat)
    written := copied.2.2.written
    wire :=
      { wire with
        txBuffer := copied.1
        transmissionBegun := false
        txMemory := copied.2.2.bytes
        suspended := if answer = .sent then !stopBit else wire.suspended
        drained := fun _ => drain_empty .. } }

end WireMaster

/-- A call of the program. -/
inductive MasterCall where
  | beginTransmission (address : UInt8)
  | write (data : UInt8)
  | writeAll (data : List UInt8)
  | endTransmission (stopBit : Bool) (answer : BusAnswer)

/-- A device as master, with the bytes that `write` has taken and those that have been put on the bus since the
last `beginTransmission`, and with the indices of `tx_buffer` that the last transmission has written. -/
structure Transmission where
  wire : WireMaster
  taken : List UInt8
  onBus : List UInt8
  written : List Nat

namespace Transmission

/-- What is in the ring counts as taken. -/
def start (wire : WireMaster) : Transmission := ⟨wire, wire.txBuffer.contents, [], []⟩

def step (transmission : Transmission) : MasterCall → Transmission
  | .beginTransmission address => ⟨transmission.wire.beginTransmission address, [], [], transmission.written⟩
  | .write data =>
      { transmission with
        wire := (transmission.wire.write data).2
        taken := transmission.taken ++ [data].take (transmission.wire.write data).1 }
  | .writeAll data =>
      { transmission with
        wire := (transmission.wire.writeAll data).2
        taken := transmission.taken ++ data.take (transmission.wire.writeAll data).1 }
  | .endTransmission stopBit answer =>
      { transmission with
        wire := (transmission.wire.endTransmission stopBit answer).wire
        onBus := transmission.onBus ++ (transmission.wire.endTransmission stopBit answer).onBus
        written := (transmission.wire.endTransmission stopBit answer).written }

/-- **The transmission is right**: nothing is put on the bus before its end, and then exactly what `write` has
taken; all copies are inside `tx_buffer`. -/
structure Right (transmission : Transmission) : Prop where
  onBus : transmission.onBus = if transmission.wire.transmissionBegun then [] else transmission.taken
  written : ∀ index ∈ transmission.written, index < 64

/-- **A transmission is acknowledged** up to its last byte. -/
def Keeps (transmission : Transmission) : MasterCall → Prop
  | .endTransmission _ answer => answer.Completes transmission.wire.txBuffer.contents
  | _ => True

instance (transmission : Transmission) (call : MasterCall) : Decidable (transmission.Keeps call) :=
  match call with
  | .endTransmission _ answer => inferInstanceAs (Decidable (answer.Completes _))
  | .beginTransmission _ | .write _ | .writeAll _ => inferInstanceAs (Decidable True)

end Transmission

/-- **All transfers are right**, those of a device as slave and those of one as master. -/
def TransfersRight (slave : WireSlave) (messages : List Message) (master : WireMaster)
    (calls : List MasterCall) : Prop :=
  EachStep WireSlave.step (fun wire message => ServiceRight message (wire.onService message)) slave messages ∧
    Always Transmission.step Transmission.Right (.start master) calls

/-! ### A message -/

/-- The calls of the callback return what those of the queue do. -/
theorem callback_eq (rxBuffer : ValidBuffer) (calls : List StreamCall) :
    callback rxBuffer calls = queueAnswers rxBuffer.contents calls := by
  induction calls generalizing rxBuffer with
  | nil => rfl
  | cons call rest ih =>
    obtain ⟨value, next⟩ := rxBuffer.readChar_eq
    cases call with
    | available => rw [callback, queueAnswers, ih, rxBuffer.available_eq]
    | read => rw [callback, queueAnswers, ih, value, next]
    | peek => rw [callback, queueAnswers, ih, rxBuffer.peek_eq]

/-- The loop stores what has been received, as far as there is room. -/
theorem storeReceived_contents (rxBuffer : ValidBuffer) (rxMemory : Memory UInt8) (received : UInt8) :
    (WireSlave.storeReceived rxBuffer rxMemory received).contents =
      storeAll 63 rxBuffer.contents (slice rxMemory 0 received.toNat) := by
  have each : ∀ indices : List Nat,
      (indices.foldl (fun buffer i => buffer.storeChar (rxMemory i)) rxBuffer).contents =
        storeAll 63 rxBuffer.contents (indices.map rxMemory) := by
    intro indices
    induction indices generalizing rxBuffer with
    | nil => rfl
    | cons index rest ih =>
      rw [List.foldl_cons, ih, ValidBuffer.storeChar_contents]
      rfl
  rw [WireSlave.storeReceived, each, slice]
  simp only [Nat.zero_add]

/-- Two queues of one length are told apart by reading them. -/
theorem queue_eq_of_answers {first second : List UInt8} (length : first.length = second.length)
    (same : ∀ calls, queueAnswers first calls = queueAnswers second calls) : first = second := by
  induction first generalizing second with
  | nil => exact (List.eq_nil_of_length_eq_zero length.symm).symm
  | cons byte rest ih =>
    cases second with
    | nil => cases length
    | cons other rest' =>
      have heads : (byte.toNat : Int) = other.toNat := List.head_eq_of_cons_eq (same [.read])
      have tails : ∀ calls, queueAnswers rest calls = queueAnswers rest' calls := fun calls =>
        List.tail_eq_of_cons_eq (same (.read :: calls))
      rw [UInt8.toNat_inj.mp (Int.ofNat_inj.mp heads), ih (Nat.succ.inj length) tails]

/-- What `onService` leaves in the ring for the callback. -/
def WireSlave.found (wire : WireSlave) (message : Message) : List UInt8 :=
  slice (wire.rxBytes message) 0 (min 63 (wire.received message).toNat)

theorem storeReceived_found (wire : WireSlave) (message : Message) :
    (WireSlave.storeReceived wire.rxBuffer (wire.rxBytes message) (wire.received message)).contents =
      wire.found message := by
  rw [storeReceived_contents, wire.drained, storeAll_eq_take (Nat.zero_le 63), List.nil_append,
    List.length_nil, Nat.sub_zero, take_slice]
  rfl

/-- What is in the ring is the message exactly when it is there when it is read. -/
theorem found_eq_iff (wire : WireSlave) (message : Message) :
    wire.found message = message.bytes ↔ wire.Keeps message := by
  have few := message.few
  have length : (UInt8.ofNat message.bytes.length).toNat = message.bytes.length := by
    rw [UInt8.toNat_ofNat']
    omega
  have byte : ∀ index < message.bytes.length, (wire.rxBytes message index = message.bytes.getD index 0 ↔
      wire.stopped = true → message.arrived index = true ∨
        wire.rxMemory index = message.bytes.getD index 0) := by
    intro index inside
    have stored : (wire.dma message).bytes index = message.bytes.getD index 0 := by
      rw [WireSlave.dma, Buffer.memcpy_at, if_pos (by omega), Nat.sub_zero]
    rw [WireSlave.rxBytes, stored]
    cases wire.stopped <;> cases message.arrived index <;> simp
  rw [WireSlave.found, slice_eq_iff 0, WireSlave.Keeps, WireSlave.received]
  by_cases late : (wire.stopped && !message.ended) = true
  · rw [if_pos late]
    obtain ⟨stopped, running⟩ := (Bool.and_eq_true_iff.mp late)
    rw [Bool.not_eq_true'] at running
    constructor
    · rintro ⟨amount, same⟩
      exact ⟨by omega, fun _ _ => ⟨amount, fun index inside => (byte index inside).mp (same index inside) stopped⟩⟩
    · rintro ⟨-, there⟩
      obtain ⟨amount, same⟩ := there stopped running
      exact ⟨amount, fun index inside => (byte index inside).mpr fun _ => same index inside⟩
  · rw [if_neg late, length]
    have all : ∀ index < message.bytes.length, wire.rxBytes message index = message.bytes.getD index 0 := by
      refine fun index inside => (byte index inside).mpr fun stopped => .inl ?_
      refine message.complete ?_ index inside
      by_contra running
      exact late (Bool.and_eq_true_iff.mpr ⟨stopped, by simpa using running⟩)
    constructor
    · rintro ⟨short, -⟩
      refine ⟨by omega, fun stopped running => absurd ?_ late⟩
      rw [stopped, running]
      rfl
    · rintro ⟨short, -⟩
      exact ⟨by omega, all⟩

/-- **A message is passed on exactly when** it leaves a byte of `rx_buffer` free and is there when it is read. -/
theorem service_right_iff (wire : WireSlave) (message : Message) :
    ServiceRight message (wire.onService message) ↔ wire.Keeps message := by
  have contents := storeReceived_found wire message
  have told : (wire.onService message).told = (wire.found message).length := by
    rw [← contents]
    exact ValidBuffer.available_eq _
  have results : ∀ calls, (wire.onService message).results calls =
      queueAnswers (wire.found message) calls := by
    intro calls
    rw [← contents]
    exact callback_eq _ calls
  rw [← found_eq_iff]
  constructor
  · intro right
    refine queue_eq_of_answers (Int.ofNat_inj.mp (told.symm.trans right.told)) fun calls => ?_
    rw [← results, right.results]
  · intro same
    rw [same] at told results
    have few := message.few
    have below : (Buffer.mk wire.rxMemory []).WritesBelow 64 := fun _ absent => absurd absent List.not_mem_nil
    exact ⟨told, results, below.memcpy (by omega) fun index => message.bytes.getD index 0⟩

/-! ### A transmission -/

/-- **The loop copies the ring** behind what is in the buffer. -/
theorem drain_spec (txBuffer : ValidBuffer) (size : UInt8) (dma : Buffer UInt8)
    (room : size.toNat + txBuffer.contents.length ≤ 64) (below : dma.WritesBelow 64) :
    (drain txBuffer size dma).2.1.toNat = size.toNat + txBuffer.contents.length ∧
      slice (drain txBuffer size dma).2.2.bytes 0 (size.toNat + txBuffer.contents.length) =
        slice dma.bytes 0 size.toNat ++ txBuffer.contents ∧
      (drain txBuffer size dma).2.2.WritesBelow 64 := by
  fun_induction drain txBuffer size dma with
  | case1 txBuffer size dma more ih =>
    obtain ⟨value, rest⟩ := txBuffer.readChar_eq
    cases contents : txBuffer.contents with
    | nil =>
      rw [txBuffer.available_eq, contents] at more
      exact absurd rfl more
    | cons byte queue =>
      rw [contents, List.length_cons] at room
      rw [contents] at value rest
      have next : (size + 1).toNat = size.toNat + 1 := by
        rw [UInt8.toNat_add, UInt8.toNat_one]
        omega
      have stored : UInt8.ofInt txBuffer.readChar.1 = byte := by
        have small := byte.toNat_lt
        rw [value, ← UInt8.toNat_inj]
        change (UInt8.ofNat ((byte.toNat : Int) % 2 ^ 8).toNat).toNat = byte.toNat
        rw [UInt8.toNat_ofNat']
        omega
      rw [rest, List.tail_cons, next, stored] at ih
      obtain ⟨count, copied, inside⟩ := ih (by omega) (below.set (by omega) byte)
      have position : size.toNat + 1 + queue.length = size.toNat + (byte :: queue).length := by
        rw [List.length_cons]
        omega
      rw [position] at count copied
      rw [Buffer.slice_set, List.append_assoc, List.singleton_append] at copied
      rw [stored]
      exact ⟨count, copied, inside⟩
  | case2 txBuffer size dma empty =>
    rw [txBuffer.available_eq, not_not] at empty
    have none : txBuffer.contents = [] := List.eq_nil_of_length_eq_zero (Int.natCast_eq_zero.mp empty)
    rw [none, List.append_nil]
    exact ⟨rfl, rfl, below⟩

/-- What a transmission knows of its ring, in between. -/
structure Transmission.Inv (transmission : Transmission) : Prop where
  right : transmission.Right
  queued : transmission.wire.transmissionBegun = true → transmission.taken = transmission.wire.txBuffer.contents

/-- `write` of a byte takes it where there is room. -/
theorem write_spec (wire : WireMaster) (data : UInt8) :
    (wire.write data).2.transmissionBegun = wire.transmissionBegun ∧
      (wire.write data).2.txBuffer.contents = wire.txBuffer.contents ++ [data].take (wire.write data).1 ∧
      (wire.transmissionBegun = false → (wire.write data).1 = 0) := by
  have length := wire.txBuffer.length_le
  unfold WireMaster.write
  split_ifs with refused
  · exact ⟨rfl, (List.append_nil _).symm, fun _ => rfl⟩
  · refine ⟨rfl, ?_, fun quiet => absurd (.inl quiet) refused⟩
    have room : wire.txBuffer.contents.length < 63 := by
      have notFull : ¬ wire.txBuffer.isFull = true := fun full => refused (.inr full)
      rw [wire.txBuffer.isFull_eq, decide_eq_true_eq] at notFull
      omega
    change (wire.txBuffer.storeChar data).contents = _
    rw [ValidBuffer.storeChar_contents, store, if_pos room]
    rfl

/-- `write` of some bytes takes the first ones. -/
theorem writeAll_spec (wire : WireMaster) (data : List UInt8) :
    (wire.writeAll data).2.transmissionBegun = wire.transmissionBegun ∧
      (wire.writeAll data).2.txBuffer.contents = wire.txBuffer.contents ++ data.take (wire.writeAll data).1 ∧
      (wire.transmissionBegun = false → (wire.writeAll data).1 = 0) := by
  induction data generalizing wire with
  | nil => exact ⟨rfl, (List.append_nil _).symm, fun _ => rfl⟩
  | cons byte rest ih =>
    obtain ⟨begun, contents, quiet⟩ := write_spec wire byte
    obtain ⟨begunRest, contentsRest, -⟩ := ih (wire.write byte).2
    rw [WireMaster.writeAll]
    by_cases refused : (wire.write byte).1 = 0
    · rw [if_pos refused]
      rw [refused] at contents
      exact ⟨begun, contents, fun _ => rfl⟩
    · rw [if_neg refused]
      obtain ⟨count, is_count⟩ := Nat.exists_eq_succ_of_ne_zero refused
      refine ⟨begunRest.trans begun, ?_, fun none => absurd (quiet none) refused⟩
      rw [contentsRest, contents, is_count]
      simp

/-- What is taken goes to the ring, and into the log. -/
theorem taken_inv {transmission : Transmission} {wire : WireMaster} {taken : List UInt8} {count : Nat}
    (begun : wire.transmissionBegun = transmission.wire.transmissionBegun)
    (contents : wire.txBuffer.contents = transmission.wire.txBuffer.contents ++ taken.take count)
    (quiet : transmission.wire.transmissionBegun = false → count = 0) (inv : transmission.Inv) :
    Transmission.Inv { transmission with wire := wire, taken := transmission.taken ++ taken.take count } := by
  obtain ⟨⟨onBus, inside⟩, queued⟩ := inv
  refine ⟨⟨?_, inside⟩, fun now => ?_⟩
  · change transmission.onBus = if wire.transmissionBegun then [] else transmission.taken ++ taken.take count
    rw [onBus, begun]
    cases idle : transmission.wire.transmissionBegun with
    | true => rfl
    | false => rw [quiet idle, List.take_zero, List.append_nil]
  · change transmission.taken ++ taken.take count = wire.txBuffer.contents
    rw [contents, queued (begun.symm.trans now)]

/-- **A call** leaves the transmission right exactly when it keeps to the condition. -/
theorem transmission_step (transmission : Transmission) (call : MasterCall) (inv : transmission.Inv) :
    ((transmission.step call).Right ↔ transmission.Keeps call) ∧
      ((transmission.step call).Right → (transmission.step call).Inv) := by
  have kept : (transmission.step call).Inv → transmission.Keeps call →
      ((transmission.step call).Right ↔ transmission.Keeps call) ∧
        ((transmission.step call).Right → (transmission.step call).Inv) :=
    fun next keeps => ⟨iff_of_true next.right keeps, fun _ => next⟩
  obtain ⟨⟨onBus, inside⟩, queued⟩ := inv
  cases call with
  | beginTransmission address => exact kept ⟨⟨rfl, inside⟩, fun _ => rfl⟩ trivial
  | write data =>
    obtain ⟨begun, contents, quiet⟩ := write_spec transmission.wire data
    exact kept (taken_inv begun contents quiet ⟨⟨onBus, inside⟩, queued⟩) trivial
  | writeAll data =>
    obtain ⟨begun, contents, quiet⟩ := writeAll_spec transmission.wire data
    exact kept (taken_inv begun contents quiet ⟨⟨onBus, inside⟩, queued⟩) trivial
  | endTransmission stopBit answer =>
    have length := transmission.wire.txBuffer.length_le
    have below : (Buffer.mk transmission.wire.txMemory []).WritesBelow 64 :=
      fun _ absent => absurd absent List.not_mem_nil
    obtain ⟨count, copied, written⟩ := drain_spec transmission.wire.txBuffer 0 ⟨transmission.wire.txMemory, []⟩
      (by rw [UInt8.toNat_zero]; omega) below
    rw [← count, UInt8.toNat_zero, slice_zero, List.nil_append] at copied
    -- What has been taken is what was on the bus already and what is in the ring.
    have taken : transmission.taken = transmission.onBus ++ transmission.wire.txBuffer.contents := by
      rw [onBus]
      cases begun : transmission.wire.transmissionBegun with
      | true => exact queued begun
      | false =>
        rw [transmission.wire.drained begun, List.append_nil]
        rfl
    have sent : (transmission.step (.endTransmission stopBit answer)).onBus =
        transmission.onBus ++ answer.puts transmission.wire.txBuffer.contents := by
      rw [← copied]
      rfl
    refine ⟨?_, fun right => ⟨right, fun begun => absurd (show false = true from begun) Bool.false_ne_true⟩⟩
    have complete := answer.puts_eq_iff transmission.wire.txBuffer.contents
    constructor
    · intro right
      have all : (transmission.step (.endTransmission stopBit answer)).onBus = transmission.taken := right.onBus
      rw [sent, taken] at all
      exact complete.mp (List.append_cancel_left all)
    · intro keeps
      refine ⟨?_, written⟩
      show (transmission.step (.endTransmission stopBit answer)).onBus = transmission.taken
      rw [sent, taken, complete.mpr keeps]

theorem start_inv (master : WireMaster) : (Transmission.start master).Inv := by
  refine ⟨⟨?_, fun _ absent => absurd absent List.not_mem_nil⟩, fun _ => rfl⟩
  change [] = if master.transmissionBegun then [] else master.txBuffer.contents
  split_ifs with begun
  · rfl
  · exact (master.drained (Bool.eq_false_iff.mpr begun)).symm

/-- **All transfers are right exactly when** every message leaves a byte of `rx_buffer` free and is there when it is
read, and every transmission is acknowledged up to its last byte. -/
theorem transfers_right_iff (slave : WireSlave) (messages : List Message) (master : WireMaster)
    (calls : List MasterCall) :
    TransfersRight slave messages master calls ↔
      EachStep WireSlave.step WireSlave.Keeps slave messages ∧
        EachStep Transmission.step Transmission.Keeps (.start master) calls := by
  unfold TransfersRight
  simp only [service_right_iff]
  refine and_congr_right fun _ => ?_
  exact @always_iff_of_invariant _ _ _ Transmission.Inv _ (fun _ _ => True) _
    (fun transmission call inv _ => (transmission_step transmission call inv).2)
    (fun transmission call inv _ => (transmission_step transmission call inv).1) _ _
    (start_inv master).right (start_inv master) (eachStep_of_forall (fun _ _ => trivial) _ _)

/-- `Wire` as slave, as its constructor leaves it. -/
def WireSlave.new : WireSlave :=
  ⟨⟨RingBuffer.new, RingBuffer.new_within⟩, fun _ => 0, false, 0, by decide, rfl⟩

/-- `Wire` as master, as its constructor leaves it. -/
def WireMaster.new : WireMaster :=
  ⟨⟨RingBuffer.new, RingBuffer.new_within⟩, 0, false, fun _ => 0, false, fun _ => rfl⟩

/-- A message that has not begun to arrive when it is read. -/
def Message.coming (bytes : List UInt8) (few : bytes.length ≤ 64) : Message :=
  ⟨bytes, few, false, fun _ => false, fun ended => absurd ended Bool.false_ne_true⟩

/-- **The second message is not waited for**: the callback is told the length of the first. -/
theorem second_message_stale : ¬ ∀ (slave : WireSlave) (messages : List Message) (master : WireMaster)
    (calls : List MasterCall), TransfersRight slave messages master calls := by
  intro always
  have right := (always .new [.coming [1, 2, 3] (by decide), .coming [4] (by decide)] .new []).1.2.1
  exact absurd ((service_right_iff _ _).mp right) (by decide)

/-- A message that fills `rx_buffer` is passed on without its last byte. -/
example : ¬ WireSlave.Keeps .new (.coming (List.replicate 64 7) (by decide)) := by decide

end PrimoCore.Bus
