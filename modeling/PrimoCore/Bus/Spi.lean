/-
**Block transfers, `SPIClass::transfer`.**

The slave is any machine that answers a byte with a byte. A block transfer is a loop that reads the
answer to the previous byte, sends the next one and stores the answer behind it, with a pointer that
lags by one; it is to be what as many transfers of one byte are.

* `SpiState.transfer`, `SpiState.transferEach` — a byte, and the elements of a buffer one by one.
* `SpiState.transferBlock` — the loop of the code.
* `transferEach_spec`, `transferBlock_spec` — what either sends and stores. The loop sends the first
  byte, and then every byte but the last.
* `transferBlock_right_iff` — **it is the transfer of the elements exactly when** they are all equal.
-/

import PrimoCore.Lib.Buffer

namespace PrimoCore.Bus

open PrimoCore.Lib

/-- The peripheral and its slave: `RXD`, and the bytes sent so far. -/
structure Spi (S : Type*) where
  slave : S
  rxd : UInt8
  sent : List UInt8

/-- The peripheral, the memory and the indices read or written so far. -/
structure SpiState (S : Type*) where
  spi : Spi S
  memory : Memory UInt8
  touched : List Nat

variable {S : Type*} (answer : S → UInt8 → S × UInt8)

/-- The bytes a slave answers. -/
def replies (slave : S) : List UInt8 → List UInt8
  | [] => []
  | data :: rest => (answer slave data).2 :: replies (answer slave data).1 rest

/-- `EVENTS_READY = 0`, `TXD = data`, and the wait for the event. -/
def Spi.exchange (spi : Spi S) (data : UInt8) : Spi S where
  slave := (answer spi.slave data).1
  rxd := (answer spi.slave data).2
  sent := spi.sent ++ [data]

namespace SpiState

/-- A read of `*p`. -/
def load (state : SpiState S) (p : Nat) : SpiState S := { state with touched := p :: state.touched }

/-- `*p = value`. -/
def store (state : SpiState S) (p : Nat) (value : UInt8) : SpiState S :=
  { state with memory := Function.update state.memory p value, touched := p :: state.touched }

def exchange (state : SpiState S) (data : UInt8) : SpiState S :=
  { state with spi := state.spi.exchange answer data }

/-- `transfer(uint8_t)`. -/
def transfer (state : SpiState S) (data : UInt8) : SpiState S × UInt8 :=
  let state := state.exchange answer data
  (state, state.spi.rxd)

/-- Successive calls of `transfer(uint8_t)` on the elements of a buffer. -/
def transferEach : Nat → Nat → SpiState S → SpiState S
  | 0, _, state => state
  | count + 1, p, state =>
      let (after, received) := (state.load p).transfer answer (state.memory p)
      transferEach count (p + 1) (after.store p received)

/-- The turns left of the loop of `transfer(void *, size_t)`, and the store after it. -/
def transferLoop : Nat → Nat → SpiState S → SpiState S
  | 0, p, state => state.store p state.spi.rxd
  | turns + 1, p, state =>
      -- `out` is read from `p + 1`, and what is sent is `*p`
      let after := ((state.load (p + 1)).load p).exchange answer (state.memory p)
      transferLoop turns (p + 1) (after.store p state.spi.rxd)

/-- `transfer(void *, size_t)`. -/
def transferBlock (state : SpiState S) (data count : Nat) : SpiState S :=
  if count = 0 then state
  else transferLoop answer (count - 1) data ((state.load data).exchange answer (state.memory data))

/-- **What a block transfer is to do**: it sends the elements in order and leaves the answers, as the
transfers of the elements do, and touches nothing else. -/
structure BlockRight (state : SpiState S) (data count : Nat) (after : SpiState S) : Prop where
  sends : after.spi.sent = state.spi.sent ++ slice state.memory data count
  receives : slice after.memory data count =
    replies answer state.spi.slave (slice state.memory data count)
  spi : after.spi = (transferEach answer count data state).spi
  memory : after.memory = (transferEach answer count data state).memory
  touched : ∀ index ∈ after.touched, index ∈ state.touched ∨ data ≤ index ∧ index < data + count

end SpiState

/-! ### Ranges that are overwritten -/

/-- Stores values from an index on. -/
def overwrite (memory : Memory UInt8) : Nat → List UInt8 → Memory UInt8
  | _, [] => memory
  | p, value :: rest => overwrite (Function.update memory p value) (p + 1) rest

theorem slice_update (memory : Memory UInt8) {p start : Nat} (before : p < start) (value : UInt8)
    (count : Nat) : slice (Function.update memory p value) start count = slice memory start count :=
  slice_congr fun _ _ =>
    Function.update_of_ne (Nat.ne_of_gt (Nat.lt_of_lt_of_le before (Nat.le_add_right ..))) value memory

theorem overwrite_before {p position : Nat} (before : position < p) (memory : Memory UInt8)
    (values : List UInt8) : overwrite memory p values position = memory position := by
  induction values generalizing memory p with
  | nil => rfl
  | cons value rest ih =>
    rw [overwrite, ih (Nat.lt_succ_of_lt before)]
    exact Function.update_of_ne (Nat.ne_of_lt before) value memory

/-- What is stored is read back. -/
theorem slice_overwrite (memory : Memory UInt8) (p : Nat) (values : List UInt8) :
    slice (overwrite memory p values) p values.length = values := by
  induction values generalizing memory p with
  | nil => rfl
  | cons value rest ih =>
    rw [List.length_cons, slice_succ, overwrite, ih, overwrite_before (Nat.lt_succ_self p)]
    rw [Function.update_self]

@[simp] theorem length_replies (slave : S) (bytes : List UInt8) :
    (replies answer slave bytes).length = bytes.length := by
  induction bytes generalizing slave with
  | nil => rfl
  | cons data rest ih => rw [replies, List.length_cons, ih, List.length_cons]

theorem foldl_exchange_sent (spi : Spi S) (bytes : List UInt8) :
    (bytes.foldl (Spi.exchange answer) spi).sent = spi.sent ++ bytes := by
  induction bytes generalizing spi with
  | nil => exact (List.append_nil _).symm
  | cons data rest ih =>
    rw [List.foldl_cons, ih]
    exact List.append_assoc ..

namespace SpiState

variable (state : SpiState S) (data count : Nat)

/-- **The transfers of the elements** send them in order, and leave the answers. -/
theorem transferEach_spec : (transferEach answer count data state).spi =
      (slice state.memory data count).foldl (Spi.exchange answer) state.spi ∧
    (transferEach answer count data state).memory = overwrite state.memory data
      (replies answer state.spi.slave (slice state.memory data count)) := by
  induction count generalizing data state with
  | zero => exact ⟨rfl, rfl⟩
  | succ count ih =>
    obtain ⟨spi, memory⟩ := ih
      (((state.load data).exchange answer (state.memory data)).store data
        (answer state.spi.slave (state.memory data)).2) (data + 1)
    have rest := slice_update state.memory (Nat.lt_succ_self data)
      (answer state.spi.slave (state.memory data)).2 count
    rw [slice_succ]
    refine ⟨spi.trans ?_, memory.trans ?_⟩
    · exact congrArg (List.foldl (Spi.exchange answer) _) rest
    · exact congrArg (fun bytes => overwrite _ (data + 1) (replies answer _ bytes)) rest

/-- **The loop** sends every byte from `p` on as it was, and stores the answer it has found in `RXD`
before them. -/
theorem transferLoop_spec (turns p : Nat) : (transferLoop answer turns p state).spi =
      (slice state.memory p turns).foldl (Spi.exchange answer) state.spi ∧
    (transferLoop answer turns p state).memory = overwrite state.memory p
      (state.spi.rxd :: replies answer state.spi.slave (slice state.memory p turns)) := by
  induction turns generalizing p state with
  | zero => exact ⟨rfl, rfl⟩
  | succ turns ih =>
    obtain ⟨spi, memory⟩ := ih
      ((((state.load (p + 1)).load p).exchange answer (state.memory p)).store p state.spi.rxd) (p + 1)
    have rest := slice_update state.memory (Nat.lt_succ_self p) state.spi.rxd turns
    rw [slice_succ]
    refine ⟨spi.trans ?_, memory.trans ?_⟩
    · exact congrArg (List.foldl (Spi.exchange answer) _) rest
    · exact congrArg (fun bytes => overwrite _ (p + 1) (_ :: replies answer _ bytes)) rest

theorem transferLoop_touched (turns p : Nat) {index : Nat}
    (member : index ∈ (transferLoop answer turns p state).touched) :
    index ∈ state.touched ∨ p ≤ index ∧ index ≤ p + turns := by
  induction turns generalizing p state with
  | zero =>
    rcases List.mem_cons.mp member with rfl | before
    · exact .inr ⟨Nat.le_refl _, Nat.le_refl _⟩
    · exact .inl before
  | succ turns ih =>
    rcases ih _ _ member with before | after
    · rcases List.mem_cons.mp before with rfl | before
      · exact .inr (by omega)
      · rcases List.mem_cons.mp before with rfl | before
        · exact .inr (by omega)
        · rcases List.mem_cons.mp before with rfl | before
          · exact .inr (by omega)
          · exact .inl before
    · exact .inr (by omega)

/-- The bytes the loop sends for a buffer: the first one, and then every one but the last. -/
def sentBytes (memory : Memory UInt8) (data : Nat) : Nat → List UInt8
  | 0 => []
  | count + 1 => memory data :: slice memory data count

/-- **A block transfer** sends these bytes, and leaves the answers to them. -/
theorem transferBlock_spec : (state.transferBlock answer data count).spi =
      (sentBytes state.memory data count).foldl (Spi.exchange answer) state.spi ∧
    (state.transferBlock answer data count).memory = overwrite state.memory data
      (replies answer state.spi.slave (sentBytes state.memory data count)) := by
  cases count with
  | zero => exact ⟨rfl, rfl⟩
  | succ count =>
    exact transferLoop_spec answer ((state.load data).exchange answer (state.memory data)) count data

theorem transferBlock_touched {index : Nat}
    (member : index ∈ (state.transferBlock answer data count).touched) :
    index ∈ state.touched ∨ data ≤ index ∧ index < data + count := by
  cases count with
  | zero => exact .inl member
  | succ count =>
    rcases transferLoop_touched answer _ count data member with before | inside
    · rcases List.mem_cons.mp before with rfl | before
      · exact .inr (by omega)
      · exact .inl before
    · exact .inr (by omega)

end SpiState

/-- The bytes the loop sends are those of the buffer exactly when these are all equal. -/
theorem sentBytes_eq_slice_iff (memory : Memory UInt8) (data count : Nat) :
    SpiState.sentBytes memory data count = slice memory data count ↔
      ∀ index, index + 1 < count → memory (data + (index + 1)) = memory (data + index) := by
  cases count with
  | zero => exact iff_of_true rfl fun _ below => absurd below (Nat.not_lt_zero _)
  | succ count =>
    rw [SpiState.sentBytes, slice_succ, List.cons_inj_right]
    constructor
    · intro same index below
      have inside : index < count := Nat.lt_of_succ_lt_succ below
      have elements : (slice memory data count)[index]? = (slice memory (data + 1) count)[index]? := by
        rw [same]
      simp only [slice, List.getElem?_map, List.getElem?_range inside, Option.map_some,
        Option.some.injEq] at elements
      rw [elements]
      congr 1
      omega
    · intro equal
      apply slice_congr
      intro offset inside
      rw [← equal offset (Nat.succ_lt_succ inside)]
      congr 1
      omega

/-- **Exactly when a block transfer is the transfer of the elements**: they are all equal. -/
theorem transferBlock_right_iff (state : SpiState S) (data count : Nat) :
    state.BlockRight answer data count (state.transferBlock answer data count) ↔
      ∀ index, index + 1 < count → state.memory (data + (index + 1)) = state.memory (data + index) := by
  obtain ⟨spi, memory⟩ := state.transferBlock_spec answer data count
  obtain ⟨spiEach, memoryEach⟩ := state.transferEach_spec answer data count
  rw [← sentBytes_eq_slice_iff]
  constructor
  · intro right
    have sends := right.sends
    rw [spi, foldl_exchange_sent] at sends
    exact List.append_cancel_left sends
  · intro same
    rw [same] at spi memory
    refine ⟨?_, ?_, spi.trans spiEach.symm, memory.trans memoryEach.symm, fun _ =>
      state.transferBlock_touched answer data count⟩
    · rw [spi, foldl_exchange_sent]
    · rw [memory]
      have length : (replies answer state.spi.slave (slice state.memory data count)).length = count := by
        rw [length_replies, slice_length]
      have stored := slice_overwrite state.memory data
        (replies answer state.spi.slave (slice state.memory data count))
      rw [length] at stored
      exact stored

/-- **The second byte is not sent**: of the bytes 1 and 2, the first one is sent twice. -/
theorem transferBlock_repeats :
    ¬ ∀ (S : Type) (answer : S → UInt8 → S × UInt8) (state : SpiState S) (data count : Nat),
      state.BlockRight answer data count (state.transferBlock answer data count) := by
  intro always
  have sends := (always Unit (fun _ data => ((), data))
    ⟨⟨(), 0, []⟩, fun index => if index = 0 then 1 else 2, []⟩ 0 2).sends
  exact absurd sends (by decide)

end PrimoCore.Bus
