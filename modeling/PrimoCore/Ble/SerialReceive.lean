/-
**The receive half of `BLESerial`.**

Chunks arrive while the device is polled, which `available`, `peek` and `read` do first. Both indices are
moved before they are used: the unread bytes lie behind the tail, up to the head.

* `SerialRx` — the code: `received`, `available`, `peek` and `read`.
* `Stores` — the unread bytes in the buffer, and the byte under the tail.
* `Reader` — a run, with the bytes that are to be unread: a queue of 255, which drops what does not fit.
* `receive_fifo_iff` — **every answer of a run is that of the queue exactly when** no byte arrives while 255
  are unread, and each `peek` finds nothing unread or the byte of the `read` before it.
-/

import PrimoCore.Core.RingBuffer

namespace PrimoCore.Ble

open PrimoCore.Lib PrimoCore.Core

/-- `sizeof(_rxBuffer)`. -/
def rxBufferSize : Int := 256

/-- `_rxHead`, `_rxTail` and `_rxBuffer`. -/
structure SerialRx where
  rxHead : Int
  rxTail : Int
  rxBuffer : Int → UInt8

namespace SerialRx

/-- The constructor. `uninit` is what the array held before. -/
def new (uninit : Int → UInt8) : SerialRx := ⟨0, 0, uninit⟩

/-- The body of the loop of `_received`. -/
def receive (rx : SerialRx) (byte : UInt8) : SerialRx :=
  let rxHead := nextIndex rxBufferSize rx.rxHead
  { rx with rxHead := rxHead, rxBuffer := Function.update rx.rxBuffer rxHead byte }

/-- `_received`. -/
def received (rx : SerialRx) (data : List UInt8) : SerialRx := data.foldl receive rx

/-- `available`, where `data` arrives in the poll. The indices are unsigned. -/
def available (rx : SerialRx) (data : List UInt8) : Int × SerialRx :=
  let rx := rx.received data
  ((rx.rxHead - rx.rxTail + rxBufferSize) % 4294967296 % rxBufferSize, rx)

/-- `peek`, where `data` arrives in the poll. -/
def peek (rx : SerialRx) (data : List UInt8) : Int × SerialRx :=
  let rx := rx.received data
  if rx.rxTail = rx.rxHead then (-1, rx) else ((rx.rxBuffer rx.rxTail).toNat, rx)

/-- `read`, where `data` arrives in the poll. -/
def read (rx : SerialRx) (data : List UInt8) : Int × SerialRx :=
  let rx := rx.received data
  if rx.rxTail = rx.rxHead then (-1, rx)
  else
    let rxTail := nextIndex rxBufferSize rx.rxTail
    ((rx.rxBuffer rxTail).toNat, { rx with rxTail := rxTail })

/-- The ring of the buffer: the next byte is stored, and the next one taken, behind the index. -/
def ring (rx : SerialRx) : RingQueue UInt8 where
  slots := rx.rxBuffer
  head := RingQueue.wrap rxBufferSize (rx.rxHead + 1)
  tail := RingQueue.wrap rxBufferSize (rx.rxTail + 1)

/-- The unread bytes, the oldest one first. -/
def contents (rx : SerialRx) : List UInt8 := rx.ring.contents rxBufferSize

/-- Both indices are in the buffer. -/
def Within (rx : SerialRx) : Prop :=
  RingQueue.Within rxBufferSize (⟨rx.rxBuffer, rx.rxHead, rx.rxTail⟩ : RingQueue UInt8)

/-- **The buffer stores** the unread bytes, behind the one that was read last. -/
structure Stores (rx : SerialRx) (unread : List UInt8) (previous : UInt8) : Prop where
  within : rx.Within
  contents : rx.contents = unread
  previous : rx.rxBuffer rx.rxTail = previous

end SerialRx

/-! ### Runs -/

/-- A call of the program that polls the device. -/
inductive ReceiveCall where
  | poll
  | available
  | peek
  | read
  deriving DecidableEq, Repr

/-- A call, with the chunk that arrives in its poll. -/
structure ReceiveInput where
  call : ReceiveCall
  data : List UInt8
  deriving DecidableEq, Repr

/-- A call, and what it returns. -/
def SerialRx.call (rx : SerialRx) (input : ReceiveInput) : Option Int × SerialRx :=
  match input.call with
  | .poll => (none, rx.received input.data)
  | .available => (some (rx.available input.data).1, (rx.available input.data).2)
  | .peek => (some (rx.peek input.data).1, (rx.peek input.data).2)
  | .read => (some (rx.read input.data).1, (rx.read input.data).2)

/-- The capacity of the queue. -/
def rxCapacity : Nat := 255

/-- A run: the buffer, the bytes that are to be unread, and the byte the last `read` has returned; before
that, the byte the array held at index 0. -/
structure Reader where
  rx : SerialRx
  unread : List UInt8
  previous : UInt8

namespace Reader

def new (uninit : Int → UInt8) : Reader := ⟨.new uninit, [], uninit 0⟩

/-- The bytes to be unread after the poll of a call. -/
def queue (reader : Reader) (input : ReceiveInput) : List UInt8 :=
  storeAll rxCapacity reader.unread input.data

def step (reader : Reader) (input : ReceiveInput) : Reader where
  rx := (reader.rx.call input).2
  unread := if input.call = .read then (reader.queue input).tail else reader.queue input
  previous := if input.call = .read then (reader.queue input).headD reader.previous else reader.previous

/-- The buffer stores what is to be unread. -/
def Holds (reader : Reader) : Prop := reader.rx.Stores reader.unread reader.previous

/-- What a call is to return. -/
def answer (queue : List UInt8) : ReceiveCall → Option Int
  | .poll => none
  | .available => some queue.length
  | .peek | .read => some (oldest queue)

/-- **A step of the queue.** After each byte of the chunk, the buffer has the bytes that are to be unread;
and the call returns what it is to. -/
structure Answers (reader : Reader) (input : ReceiveInput) : Prop where
  arrives : ∀ data, data <+: input.data →
    (reader.rx.received data).contents = storeAll rxCapacity reader.unread data
  returns : (reader.rx.call input).1 = answer (reader.queue input) input.call

/-- The condition on a step: the chunk fits, and a `peek` finds nothing unread or, as the oldest byte, the
one that was read last. -/
structure Keeps (reader : Reader) (input : ReceiveInput) : Prop where
  fits : reader.unread.length + input.data.length ≤ rxCapacity
  same : input.call = .peek →
    ∀ byte ∈ (reader.unread ++ input.data).head?, byte = reader.previous

end Reader

/-! ### The ring -/

namespace SerialRx

variable {rx : SerialRx} {unread : List UInt8} {previous : UInt8}

theorem next_eq {index : Int} (nonneg : 0 ≤ index) (below : index < rxBufferSize) :
    nextIndex rxBufferSize index = RingQueue.wrap rxBufferSize (index + 1) :=
  nextIndex_eq (by decide) (by decide) nonneg below

theorem ring_within (within : rx.Within) : rx.ring.Within rxBufferSize := by
  obtain ⟨_, _, _, _⟩ := within
  refine ⟨?_, ?_, ?_, ?_⟩ <;> simp only [ring, RingQueue.wrap, rxBufferSize] at * <;> split_ifs <;> omega

/-- Both rings, the one of the indices and the one behind them, have the same length. -/
theorem ring_count (within : rx.Within) : rx.ring.count rxBufferSize =
    RingQueue.count rxBufferSize (⟨rx.rxBuffer, rx.rxHead, rx.rxTail⟩ : RingQueue UInt8) := by
  obtain ⟨_, _, _, _⟩ := within
  simp only [RingQueue.count, ring, RingQueue.wrap, rxBufferSize] at *
  split_ifs <;> omega

theorem length_contents (within : rx.Within) :
    (rx.contents.length : Int) = rx.ring.count rxBufferSize :=
  RingQueue.length_contents (ring_within within)

theorem length_le (within : rx.Within) : rx.contents.length ≤ rxCapacity := by
  have below := (RingQueue.count_bounds (ring_within within)).2
  rw [← length_contents within, rxBufferSize] at below
  rw [rxCapacity]
  omega

theorem empty_iff (within : rx.Within) : rx.rxTail = rx.rxHead ↔ rx.contents = [] := by
  have same := RingQueue.count_eq_zero_iff within
  rw [← ring_count within, ← length_contents within] at same
  rw [← List.length_eq_zero_iff]
  exact same.trans Int.natCast_eq_zero

theorem new_stores (uninit : Int → UInt8) : (new uninit).Stores [] (uninit 0) :=
  have inside : (0 : Int) < rxBufferSize := by decide
  ⟨⟨Int.le_refl 0, inside, Int.le_refl 0, inside⟩, rfl, rfl⟩

/-! ### A byte arrives -/

theorem receive_ring (within : rx.Within) (byte : UInt8) :
    (rx.receive byte).ring = rx.ring.push rxBufferSize byte := by
  have next := next_eq within.head_nonneg within.head_lt
  simp only [receive, ring, RingQueue.push, next]

theorem receive_within (within : rx.Within) (byte : UInt8) : (rx.receive byte).Within := by
  have next := next_eq within.head_nonneg within.head_lt
  have inside := ring_within within
  simp only [Within, receive, next]
  exact ⟨inside.head_nonneg, inside.head_lt, within.tail_nonneg, within.tail_lt⟩

/-- **A byte that fits** is appended, and leaves the one under the tail. -/
theorem Stores.receive (stores : rx.Stores unread previous) (fits : unread.length < rxCapacity)
    (byte : UInt8) : (rx.receive byte).Stores (unread ++ [byte]) previous := by
  obtain ⟨within, rfl, rfl⟩ := stores
  have length := length_contents within
  have room : rx.ring.count rxBufferSize + 1 < rxBufferSize := by
    rw [← length]
    simp only [rxCapacity, rxBufferSize] at fits ⊢
    omega
  refine ⟨receive_within within byte, ?_, ?_⟩
  · show (rx.receive byte).ring.contents rxBufferSize = _
    rw [receive_ring within, RingQueue.contents_push (ring_within within) room]
    rfl
  · refine Function.update_of_ne ?_ _ _
    intro same
    rw [next_eq within.head_nonneg within.head_lt] at same
    have full := (RingQueue.full_iff within).mp same.symm
    rw [← ring_count within] at full
    omega

/-- **A byte that does not fit** takes the place of the one under the tail, and the buffer is empty. -/
theorem receive_full (within : rx.Within) (full : rx.contents.length = rxCapacity) (byte : UInt8) :
    (rx.receive byte).contents = [] := by
  have length := length_contents within
  have last : rx.ring.count rxBufferSize + 1 = rxBufferSize := by
    rw [← length, full]
    rfl
  rw [← empty_iff (receive_within within byte)]
  show rx.rxTail = nextIndex rxBufferSize rx.rxHead
  rw [next_eq within.head_nonneg within.head_lt]
  rw [ring_count within] at last
  exact ((RingQueue.full_iff within).mpr last).symm

/-- A chunk that fits. -/
theorem Stores.received (stores : rx.Stores unread previous) {data : List UInt8}
    (fits : unread.length + data.length ≤ rxCapacity) :
    (rx.received data).Stores (unread ++ data) previous := by
  induction data generalizing rx unread with
  | nil => rwa [List.append_nil]
  | cons byte rest ih =>
    rw [List.length_cons] at fits
    have next := stores.receive (by omega) byte
    have more : (unread ++ [byte]).length + rest.length ≤ rxCapacity := by
      rw [List.length_append, List.length_singleton]
      omega
    have later := ih next more
    rwa [List.append_assoc, List.singleton_append] at later

/-- A chunk that does not fit empties the buffer on its way. -/
theorem Stores.overrun (stores : rx.Stores unread previous) {data : List UInt8}
    (long : rxCapacity < unread.length + data.length) :
    ∃ first, first <+: data ∧ (rx.received first).contents = [] ∧
      (storeAll rxCapacity unread first).length = rxCapacity := by
  have bound : unread.length ≤ rxCapacity := stores.contents ▸ length_le stores.within
  obtain ⟨room, is_room⟩ : ∃ room, room = rxCapacity - unread.length := ⟨_, rfl⟩
  have inside : room < data.length := by omega
  have fitting : (data.take room).length = room := List.length_take_of_le (Nat.le_of_lt inside)
  have fits : unread.length + (data.take room).length ≤ rxCapacity := by omega
  have filled := stores.received fits
  have full : (unread ++ data.take room).length = rxCapacity := by
    rw [List.length_append]
    omega
  have first : data.take (room + 1) = data.take room ++ [data[room]] :=
    List.take_succ_eq_append_getElem inside
  refine ⟨data.take (room + 1), List.take_prefix _ _, ?_, ?_⟩
  · rw [first, SerialRx.received, List.foldl_append]
    exact receive_full filled.within (filled.contents ▸ full) _
  · rw [first, storeAll_append, storeAll_of_room fits]
    show (store rxCapacity (unread ++ data.take room) _).length = _
    rw [store, if_neg (by omega)]
    exact full

/-! ### The calls -/

/-- `available` returns how many bytes are unread. -/
theorem Stores.available {data : List UInt8} (stores : (rx.received data).Stores unread previous) :
    (rx.available data).1 = unread.length := by
  obtain ⟨within, rfl, -⟩ := stores
  rw [length_contents within, ring_count within]
  show ((rx.received data).rxHead - (rx.received data).rxTail + rxBufferSize) % 4294967296 %
    rxBufferSize = _
  obtain ⟨_, _, _, _⟩ := within
  simp only [RingQueue.count, rxBufferSize] at *
  split_ifs <;> omega

/-- `peek` returns the byte under the tail, if anything is unread. -/
theorem Stores.peek {data : List UInt8} (stores : (rx.received data).Stores unread previous) :
    (rx.peek data).1 = if unread = [] then -1 else (previous.toNat : Int) := by
  obtain ⟨within, rfl, rfl⟩ := stores
  simp only [SerialRx.peek, empty_iff within]
  split_ifs <;> rfl

/-- `read` returns and removes the oldest byte. -/
theorem Stores.read {data : List UInt8} (stores : (rx.received data).Stores unread previous) :
    (rx.read data).1 = oldest unread ∧
      (rx.read data).2.Stores unread.tail (unread.headD previous) := by
  obtain ⟨within, contents, slot⟩ := stores
  by_cases empty : (rx.received data).rxTail = (rx.received data).rxHead
  · have none : unread = [] := contents ▸ (empty_iff within).mp empty
    subst none
    simp only [SerialRx.read, if_pos empty]
    exact ⟨rfl, within, contents, slot⟩
  · have inside := ring_within within
    have next := next_eq within.tail_nonneg within.tail_lt
    have behind := next_eq inside.tail_nonneg inside.tail_lt
    have nonempty : (rx.received data).ring.tail ≠ (rx.received data).ring.head := by
      rw [Ne, RingQueue.empty_iff inside]
      exact mt (empty_iff within).mpr empty
    have popped : unread = (rx.received data).rxBuffer (rx.received data).ring.tail ::
        ((rx.received data).ring.pop rxBufferSize).contents rxBufferSize :=
      contents.symm.trans (RingQueue.contents_pop inside nonempty)
    rw [popped]
    simp only [SerialRx.read, if_neg empty, next]
    exact ⟨rfl, ⟨within.head_nonneg, within.head_lt, inside.tail_nonneg, inside.tail_lt⟩, rfl, rfl⟩

end SerialRx

namespace Reader

open SerialRx

/-- A chunk that fits is all appended. -/
theorem queue_eq {reader : Reader} {input : ReceiveInput}
    (fits : reader.unread.length + input.data.length ≤ rxCapacity) :
    reader.queue input = reader.unread ++ input.data :=
  storeAll_of_room fits

/-- Where the chunk fits, a call returns what it is to, a `peek` apart. -/
theorem returns_iff {reader : Reader} {input : ReceiveInput}
    (stored : (reader.rx.received input.data).Stores (reader.queue input) reader.previous) :
    (reader.rx.call input).1 = answer (reader.queue input) input.call ↔
      (input.call = .peek → ∀ byte ∈ (reader.queue input).head?, byte = reader.previous) := by
  obtain ⟨call, data⟩ := input
  cases call with
  | poll => exact iff_of_true rfl (by simp)
  | available => exact iff_of_true (congrArg some stored.available) (by simp)
  | read => exact iff_of_true (congrArg some stored.read.1) (by simp)
  | peek =>
    simp only [SerialRx.call, stored.peek, answer, Option.some.injEq, forall_const]
    cases reader.queue ⟨.peek, data⟩ with
    | nil => simp [oldest]
    | cons byte rest =>
      simp only [oldest, List.head?_cons, Option.mem_def, Option.some.injEq, forall_eq', reduceCtorEq,
        if_false]
      rw [Int.natCast_inj, UInt8.toNat_inj]
      exact eq_comm

/-- **One step** keeps the queue and answers as it does exactly when it meets `Keeps`. -/
theorem step_iff (reader : Reader) (input : ReceiveInput) (holds : reader.Holds) :
    (reader.step input).Holds ∧ reader.Answers input ↔ reader.Keeps input := by
  have sameQueue : reader.unread.length + input.data.length ≤ rxCapacity →
      reader.queue input = reader.unread ++ input.data := queue_eq
  constructor
  · rintro ⟨-, arrives, returns⟩
    have fits : reader.unread.length + input.data.length ≤ rxCapacity := by
      by_contra long
      obtain ⟨first, isPrefix, emptied, full⟩ := Stores.overrun holds (Nat.lt_of_not_le long)
      rw [arrives first isPrefix] at emptied
      rw [emptied] at full
      exact absurd full (by decide)
    have stored := Stores.received holds fits
    rw [← sameQueue fits] at stored
    refine ⟨fits, ?_⟩
    rw [← sameQueue fits]
    exact (returns_iff stored).mp returns
  · rintro ⟨fits, same⟩
    have stored := Stores.received holds fits
    rw [← sameQueue fits] at stored same
    refine ⟨?_, ?_, (returns_iff stored).mpr same⟩
    · obtain ⟨call, data⟩ := input
      cases call with
      | poll => exact stored
      | available => exact stored
      | peek =>
        have unchanged : (reader.rx.peek data).2 = reader.rx.received data := by
          simp only [SerialRx.peek]
          split_ifs <;> rfl
        show (reader.rx.peek data).2.Stores _ _
        rw [unchanged]
        exact stored
      | read => exact stored.read.2
    · intro data isPrefix
      have shorter := isPrefix.length_le
      have room : reader.unread.length + data.length ≤ rxCapacity := by omega
      rw [(Stores.received holds room).contents, storeAll_of_room room]

end Reader

/-- **When the receive half is a queue of 255 bytes.** Over every run of calls with any chunks arriving,
from a fresh object: the buffer always stores the bytes that are to be unread, and every call returns what
it is to, exactly when every step meets `Keeps`. -/
theorem receive_fifo_iff (uninit : Int → UInt8) (inputs : List ReceiveInput) :
    Always Reader.step Reader.Holds (.new uninit) inputs ∧
        EachStep Reader.step Reader.Answers (.new uninit) inputs ↔
      EachStep Reader.step Reader.Keeps (.new uninit) inputs :=
  have legal : EachStep Reader.step (fun _ _ => True) (.new uninit) inputs :=
    eachStep_of_forall (fun _ _ => trivial) _ _
  always_and_eachStep_iff (fun reader input holds _ => reader.step_iff input holds)
    (SerialRx.new_stores uninit) legal

/-- `peek` does not return the byte that `read` would: it returns the one under the tail. And where 256
bytes arrive, none is left. -/
theorem peek_stale : ¬ EachStep Reader.step Reader.Answers (.new fun _ => 0) [⟨.peek, [7]⟩] ∧
    ((SerialRx.new fun _ => 0).peek [7]).1 = 0 ∧ ((SerialRx.new fun _ => 0).read [7]).1 = 7 ∧
    ((SerialRx.new fun _ => 0).available (List.replicate 256 1)).1 = 0 := by
  refine ⟨fun ⟨answers, _⟩ => absurd answers.returns (by decide), by decide, by decide, ?_⟩
  decide +kernel

end PrimoCore.Ble
