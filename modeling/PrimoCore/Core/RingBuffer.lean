/-
**The receive buffers, `RingBuffer` and `RingBufferT`.**

`RingBuffer` is filled by an interrupt and read by the main program; the interrupt may come before any
memory access the main program makes in a call. `RingBufferT` is the same ring for any element type and
size, without interrupts.

* `RingBuffer`, `RingBufferT` — the code; `Main` counts the memory accesses of the main program, and
  `irq` says which bytes arrive before each of them.
* `Answers`, `TAnswers` — what a bounded queue answers.
* `step_answers`, `tstep_answers` — every call answers as the queue does.
* `ringBuffers_refine_fifo` — **both rings are bounded queues, and agree.**
-/

import PrimoCore.Lib.Ring
import PrimoCore.Lib.Run

namespace PrimoCore.Core

open PrimoCore.Lib

/-- `SERIAL_BUFFER_SIZE`. -/
def serialBufferSize : Int := 64

/-- `nextIndex`: the sum is taken as a `uint32_t`. -/
def nextIndex (size index : Int) : Int := (index + 1) % 4294967296 % size

/-- `RingBuffer`. -/
structure RingBuffer where
  aucBuffer : Int → UInt8
  iHead : Int
  iTail : Int

namespace RingBuffer

/-- The constructor. -/
def new : RingBuffer := ⟨fun _ => 0, 0, 0⟩

/-- `store_char`. -/
def storeChar (buffer : RingBuffer) (c : UInt8) : RingBuffer :=
  let i := nextIndex serialBufferSize buffer.iHead
  if i ≠ buffer.iTail then
    { buffer with aucBuffer := Function.update buffer.aucBuffer buffer.iHead c, iHead := i }
  else buffer

/-- `clear`. -/
def clear (buffer : RingBuffer) : RingBuffer := { buffer with iHead := 0, iTail := 0 }

/-- The ring of the buffer. -/
def ring (buffer : RingBuffer) : RingQueue UInt8 := ⟨buffer.aucBuffer, buffer.iHead, buffer.iTail⟩

/-- The bytes in the buffer, the oldest one first. -/
def contents (buffer : RingBuffer) : List UInt8 := buffer.ring.contents serialBufferSize

/-- Both indices are in the buffer. -/
def Within (buffer : RingBuffer) : Prop := buffer.ring.Within serialBufferSize

end RingBuffer

/-! ### The main program -/

/-- The main program: the buffer, and how many memory accesses it has made in its calls. -/
structure Main where
  buffer : RingBuffer
  accesses : Nat

namespace Main

/-- The interrupts before the next memory access. -/
def interrupts (irq : Nat → List UInt8) (main : Main) : Main where
  buffer := (irq main.accesses).foldl RingBuffer.storeChar main.buffer
  accesses := main.accesses + 1

/-- `read_char`, access by access. -/
def readChar (irq : Nat → List UInt8) (main : Main) : Int × Main :=
  let main := main.interrupts irq
  let tail := main.buffer.iTail
  let main := main.interrupts irq
  let head := main.buffer.iHead
  if tail = head then (-1, main)
  else
    let main := main.interrupts irq
    let tail := main.buffer.iTail
    let main := main.interrupts irq
    let value := main.buffer.aucBuffer tail
    let main := main.interrupts irq
    let tail := main.buffer.iTail
    let main := main.interrupts irq
    (value.toNat,
      { main with buffer := { main.buffer with iTail := nextIndex serialBufferSize tail } })

/-- `peek`. -/
def peek (irq : Nat → List UInt8) (main : Main) : Int × Main :=
  let main := main.interrupts irq
  let tail := main.buffer.iTail
  let main := main.interrupts irq
  let head := main.buffer.iHead
  if tail = head then (-1, main)
  else
    let main := main.interrupts irq
    let tail := main.buffer.iTail
    let main := main.interrupts irq
    ((main.buffer.aucBuffer tail).toNat, main)

/-- `available`. -/
def available (irq : Nat → List UInt8) (main : Main) : Int × Main :=
  let main := main.interrupts irq
  let head := main.buffer.iHead
  let main := main.interrupts irq
  let delta := head - main.buffer.iTail
  (if delta < 0 then serialBufferSize + delta else delta, main)

/-- `isFull`. -/
def isFull (irq : Nat → List UInt8) (main : Main) : Bool × Main :=
  let main := main.interrupts irq
  let head := main.buffer.iHead
  let main := main.interrupts irq
  (nextIndex serialBufferSize head = main.buffer.iTail, main)

end Main

/-- A call of the main program. -/
inductive RingCall where
  | storeChar (c : UInt8)
  | readChar
  | peek
  | available
  | isFull
  | clear
  deriving DecidableEq, Repr

/-- What a call returns. -/
inductive RingResult where
  | none
  | int (value : Int)
  | bool (value : Bool)
  deriving DecidableEq, Repr

namespace Main

/-- A call, and what it returns. -/
def call (irq : Nat → List UInt8) (main : Main) : RingCall → RingResult × Main
  | .storeChar c => (.none, { main with buffer := main.buffer.storeChar c })
  | .readChar => ((.int (main.readChar irq).1), (main.readChar irq).2)
  | .peek => ((.int (main.peek irq).1), (main.peek irq).2)
  | .available => ((.int (main.available irq).1), (main.available irq).2)
  | .isFull => ((.bool (main.isFull irq).1), (main.isFull irq).2)
  | .clear => (.none, { main with buffer := main.buffer.clear })

def step (irq : Nat → List UInt8) (main : Main) (call : RingCall) : Main := (main.call irq call).2

/-- The bytes that arrive during a call. -/
def arrived (irq : Nat → List UInt8) (main : Main) (call : RingCall) : List UInt8 :=
  (List.range' main.accesses ((main.step irq call).accesses - main.accesses)).flatMap irq

end Main

/-! ### What the queue answers -/

/-- The oldest byte of a queue as an `int`, or -1. -/
def oldest : List UInt8 → Int
  | [] => -1
  | value :: _ => value.toNat

/-- **The answers of a bounded queue**, with the bytes that arrive during the call. What is read or
peeked is the oldest byte when the call ends; a length, and whether the queue is full, are those of a
moment during the call. -/
def Answers (capacity : Nat) (queue arrived : List UInt8) :
    RingCall → RingResult → List UInt8 → Prop
  | .storeChar c, result, after => result = .none ∧ after = store capacity queue c
  | .readChar, result, after => result = .int (oldest (storeAll capacity queue arrived)) ∧
      after = (storeAll capacity queue arrived).tail
  | .peek, result, after => result = .int (oldest after) ∧ after = storeAll capacity queue arrived
  | .available, result, after => after = storeAll capacity queue arrived ∧
      ∃ before, before <+: arrived ∧ result = .int (storeAll capacity queue before).length
  | .isFull, result, after => after = storeAll capacity queue arrived ∧
      ∃ before, before <+: arrived ∧
        result = .bool ((storeAll capacity queue before).length = capacity)
  | .clear, result, after => result = .none ∧ after = []

/-! ### The buffer holds a queue -/

theorem nextIndex_eq {size index : Int} (positive : 0 < size) (fits : size ≤ 2147483647)
    (nonneg : 0 ≤ index) (below : index < size) :
    nextIndex size index = RingQueue.wrap size (index + 1) := by
  have inner : (index + 1) % 4294967296 = index + 1 := Int.emod_eq_of_lt (by omega) (by omega)
  rw [nextIndex, inner, RingQueue.wrap]
  split_ifs with small
  · exact Int.emod_eq_of_lt (by omega) small
  · rw [show index + 1 = size by omega, Int.emod_self, Int.sub_self]

namespace RingBuffer

variable {buffer : RingBuffer}

theorem Within.next_head (within : buffer.Within) :
    nextIndex serialBufferSize buffer.iHead = RingQueue.wrap serialBufferSize (buffer.iHead + 1) :=
  nextIndex_eq (by decide) (by decide) within.head_nonneg within.head_lt

theorem Within.next_tail (within : buffer.Within) :
    nextIndex serialBufferSize buffer.iTail = RingQueue.wrap serialBufferSize (buffer.iTail + 1) :=
  nextIndex_eq (by decide) (by decide) within.tail_nonneg within.tail_lt

theorem length_contents (within : buffer.Within) :
    (buffer.contents.length : Int) = buffer.ring.count serialBufferSize :=
  RingQueue.length_contents within

theorem new_within : new.Within := by
  constructor <;> decide

theorem clear_within (buffer : RingBuffer) : buffer.clear.Within := by
  have below : (0 : Int) < serialBufferSize := by decide
  exact ⟨Int.le_refl 0, below, Int.le_refl 0, below⟩

theorem clear_contents (buffer : RingBuffer) : buffer.clear.contents = [] := rfl

/-- **`store_char` stores in the queue**, and leaves the tail. -/
theorem storeChar_spec (within : buffer.Within) (c : UInt8) : (buffer.storeChar c).Within ∧
    (buffer.storeChar c).contents = store 63 buffer.contents c ∧
    (buffer.storeChar c).iTail = buffer.iTail := by
  have length := length_contents within
  have bounds := RingQueue.count_bounds within
  have full := RingQueue.full_iff within
  simp only [storeChar, within.next_head]
  by_cases isFull : RingQueue.wrap serialBufferSize (buffer.iHead + 1) = buffer.iTail
  · rw [if_neg (not_not.mpr isFull), store, if_neg]
    · exact ⟨within, rfl, rfl⟩
    · have count := full.mp isFull
      rw [← length, serialBufferSize] at count
      omega
  · have room := mt full.mpr isFull
    rw [if_pos isFull, store, if_pos]
    · refine ⟨RingQueue.push_within within c, ?_, rfl⟩
      exact RingQueue.contents_push within (by omega) c
    · rw [← length, serialBufferSize] at room bounds
      omega

/-- The byte at the tail is the oldest one. -/
theorem contents_cons (within : buffer.Within) (nonempty : buffer.iTail ≠ buffer.iHead) :
    buffer.contents = buffer.aucBuffer buffer.iTail ::
      contents { buffer with iTail := nextIndex serialBufferSize buffer.iTail } := by
  rw [within.next_tail]
  exact RingQueue.contents_pop within nonempty

theorem taken_within (within : buffer.Within) :
    Within { buffer with iTail := nextIndex serialBufferSize buffer.iTail } := by
  rw [within.next_tail]
  exact RingQueue.pop_within within

/-- What interrupts store. -/
theorem stored_spec (within : buffer.Within) (bytes : List UInt8) :
    (bytes.foldl storeChar buffer).Within ∧
      (bytes.foldl storeChar buffer).contents = storeAll 63 buffer.contents bytes ∧
      (bytes.foldl storeChar buffer).iTail = buffer.iTail := by
  induction bytes generalizing buffer with
  | nil => exact ⟨within, rfl, rfl⟩
  | cons byte rest ih =>
    obtain ⟨still, stored, tail⟩ := storeChar_spec within byte
    obtain ⟨after, storedAfter, tailAfter⟩ := ih still
    refine ⟨after, ?_, tailAfter.trans tail⟩
    rw [List.foldl_cons, storedAfter, stored]
    rfl

end RingBuffer

/-! ### Every call answers as the queue -/

namespace Main

variable (irq : Nat → List UInt8) {main : Main}

/-- The bytes that arrive before the next accesses. -/
def arrivals (main : Main) (count : Nat) : List UInt8 := (List.range' main.accesses count).flatMap irq

/-- Some accesses later, the buffer is as it was, but for the bytes that have arrived. -/
structure Later (main : Main) (count : Nat) (later : Main) : Prop where
  accesses : later.accesses = main.accesses + count
  within : later.buffer.Within
  contents : later.buffer.contents = storeAll 63 main.buffer.contents (main.arrivals irq count)
  tail : later.buffer.iTail = main.buffer.iTail

theorem later_zero (within : main.buffer.Within) : Later irq main 0 main :=
  ⟨rfl, within, rfl, rfl⟩

variable {irq}

/-- The interrupts before one more access. -/
theorem Later.next {count : Nat} {later : Main} (known : Later irq main count later) :
    Later irq main (count + 1) (later.interrupts irq) := by
  obtain ⟨within, stored, tail⟩ := RingBuffer.stored_spec known.within (irq later.accesses)
  refine ⟨?_, within, ?_, tail.trans known.tail⟩
  · show later.accesses + 1 = _
    rw [known.accesses, Nat.add_assoc]
  · rw [interrupts, stored, known.contents, ← storeAll_append, known.accesses, arrivals, arrivals,
      List.range'_concat, List.flatMap_append, Nat.one_mul]
    simp

/-- The indices the main program compares tell whether the queue is empty. -/
theorem Later.empty_iff {count : Nat} {later : Main} (known : Later irq main count later) :
    main.buffer.iTail = later.buffer.iHead ↔
      storeAll 63 main.buffer.contents (main.arrivals irq count) = [] := by
  rw [← known.contents, ← known.tail]
  exact RingQueue.empty_iff known.within

/-- What is in the queue stays at its front. -/
theorem exists_arrivals_eq (irq : Nat → List UInt8) (main : Main) (queue : List UInt8)
    {count lastCount : Nat} (after : count ≤ lastCount) : ∃ stored,
    storeAll 63 queue (main.arrivals irq lastCount) =
      storeAll 63 queue (main.arrivals irq count) ++ stored := by
  obtain ⟨more, rfl⟩ := Nat.exists_eq_add_of_le after
  obtain ⟨stored, kept⟩ := exists_storeAll_eq 63 (storeAll 63 queue (main.arrivals irq count))
    ((List.range' (main.accesses + count) more).flatMap irq)
  refine ⟨stored, ?_⟩
  rw [← kept, ← storeAll_append, arrivals, arrivals, ← List.flatMap_append, List.range'_append_1]

/-- From the comparison on, the byte at the tail is the oldest one. -/
theorem Later.oldest {count lastCount : Nat} {later last : Main}
    (known : Later irq main count later) (lastKnown : Later irq main lastCount last)
    (after : count ≤ lastCount) (seen : main.buffer.iTail ≠ later.buffer.iHead) :
    storeAll 63 main.buffer.contents (main.arrivals irq lastCount) =
      last.buffer.aucBuffer main.buffer.iTail :: RingBuffer.contents
        { last.buffer with iTail := nextIndex serialBufferSize main.buffer.iTail } := by
  have nonempty : last.buffer.iTail ≠ last.buffer.iHead := by
    intro equal
    obtain ⟨stored, kept⟩ := exists_arrivals_eq irq main main.buffer.contents after
    rw [lastKnown.tail, lastKnown.empty_iff, kept, List.append_eq_nil_iff] at equal
    exact seen (known.empty_iff.mpr equal.1)
  rw [← lastKnown.contents, ← lastKnown.tail]
  exact RingBuffer.contents_cons lastKnown.within nonempty

variable (irq)

/-- **`read_char` takes the oldest byte**, at the end of the call. -/
theorem readChar_spec (within : main.buffer.Within) : ∃ count,
    (main.readChar irq).2.accesses = main.accesses + count ∧ (main.readChar irq).2.buffer.Within ∧
    (main.readChar irq).1 = Core.oldest (storeAll 63 main.buffer.contents (main.arrivals irq count)) ∧
    (main.readChar irq).2.buffer.contents =
      (storeAll 63 main.buffer.contents (main.arrivals irq count)).tail := by
  have first := (later_zero irq within).next
  have compared := first.next
  by_cases empty : main.buffer.iTail = ((main.interrupts irq).interrupts irq).buffer.iHead
  · have none := compared.empty_iff.mp empty
    refine ⟨2, ?_⟩
    rw [readChar, first.tail, if_pos empty, none]
    exact ⟨compared.accesses, compared.within, rfl, compared.contents.trans none⟩
  · have loaded := compared.next
    have read := loaded.next
    have again := read.next
    have written := again.next
    have byte := compared.oldest read (by omega) empty
    have last := compared.oldest written (by omega) empty
    obtain ⟨stored, kept⟩ := exists_arrivals_eq irq main main.buffer.contents
      (show 4 ≤ 6 by omega)
    rw [byte, last] at kept
    refine ⟨6, ?_⟩
    unfold readChar
    simp only [first.tail, loaded.tail, again.tail, if_neg empty]
    rw [last]
    have taken := RingBuffer.taken_within written.within
    rw [written.tail] at taken
    refine ⟨written.accesses, taken, ?_, rfl⟩
    rw [(List.cons.inj kept).1]
    rfl

/-- **`peek` returns the oldest byte**, at the end of the call. -/
theorem peek_spec (within : main.buffer.Within) : ∃ count,
    Later irq main count (main.peek irq).2 ∧
    (main.peek irq).1 = Core.oldest (storeAll 63 main.buffer.contents (main.arrivals irq count)) := by
  have first := (later_zero irq within).next
  have compared := first.next
  by_cases empty : main.buffer.iTail = ((main.interrupts irq).interrupts irq).buffer.iHead
  · refine ⟨2, ?_⟩
    rw [peek, first.tail, if_pos empty, compared.empty_iff.mp empty]
    exact ⟨compared, rfl⟩
  · have loaded := compared.next
    have read := loaded.next
    refine ⟨4, ?_⟩
    unfold peek
    simp only [first.tail, loaded.tail, if_neg empty]
    rw [compared.oldest read (by omega) empty]
    exact ⟨read, rfl⟩

/-- `available` returns the length at its first access. -/
theorem available_spec (within : main.buffer.Within) : Later irq main 2 (main.available irq).2 ∧
    (main.available irq).1 = (storeAll 63 main.buffer.contents (main.arrivals irq 1)).length := by
  have loaded : Later irq main 1 _ := (later_zero irq within).next
  have last : Later irq main 2 _ := loaded.next
  refine ⟨last, ?_⟩
  have length := RingBuffer.length_contents loaded.within
  rw [loaded.contents] at length
  rw [length, RingQueue.count]
  show (if (main.interrupts irq).buffer.iHead - ((main.interrupts irq).interrupts irq).buffer.iTail < 0
    then _ else _) = if (main.interrupts irq).buffer.iTail ≤ (main.interrupts irq).buffer.iHead
    then _ else _
  rw [last.tail, ← loaded.tail]
  simp only [RingBuffer.ring]
  split_ifs <;> omega

/-- `isFull` tells whether the queue is full at its first access. -/
theorem isFull_spec (within : main.buffer.Within) : Later irq main 2 (main.isFull irq).2 ∧
    (main.isFull irq).1 =
      decide ((storeAll 63 main.buffer.contents (main.arrivals irq 1)).length = 63) := by
  have loaded : Later irq main 1 _ := (later_zero irq within).next
  have last : Later irq main 2 _ := loaded.next
  refine ⟨last, ?_⟩
  have length := RingBuffer.length_contents loaded.within
  have full := RingQueue.full_iff loaded.within
  rw [← length, loaded.contents] at full
  show decide (nextIndex serialBufferSize (main.interrupts irq).buffer.iHead =
    ((main.interrupts irq).interrupts irq).buffer.iTail) = _
  rw [last.tail, ← loaded.tail, loaded.within.next_head, decide_eq_decide]
  refine full.trans ?_
  rw [serialBufferSize]
  omega

theorem arrived_eq (main : Main) (call : RingCall) {count : Nat}
    (accesses : (main.step irq call).accesses = main.accesses + count) :
    main.arrived irq call = main.arrivals irq count := by
  rw [arrived, arrivals, accesses, Nat.add_sub_cancel_left]

/-- The bytes before the first access are the first ones that arrive. -/
theorem arrivals_prefix (main : Main) {count lastCount : Nat} (after : count ≤ lastCount) :
    main.arrivals irq count <+: main.arrivals irq lastCount := by
  obtain ⟨more, rfl⟩ := Nat.exists_eq_add_of_le after
  refine ⟨(List.range' (main.accesses + count) more).flatMap irq, ?_⟩
  rw [arrivals, arrivals, ← List.flatMap_append, List.range'_append_1]

/-- **Every call answers as the queue does.** -/
theorem step_answers (within : main.buffer.Within) (call : RingCall) :
    (main.step irq call).buffer.Within ∧ Answers 63 main.buffer.contents (main.arrived irq call) call
      (main.call irq call).1 (main.step irq call).buffer.contents := by
  cases call with
  | storeChar c =>
    obtain ⟨still, stored, _⟩ := RingBuffer.storeChar_spec within c
    exact ⟨still, rfl, stored⟩
  | readChar =>
    obtain ⟨count, accesses, still, result, rest⟩ := readChar_spec irq within
    rw [arrived_eq irq main .readChar accesses]
    exact ⟨still, congrArg RingResult.int result, rest⟩
  | peek =>
    obtain ⟨count, later, result⟩ := peek_spec irq within
    rw [arrived_eq irq main .peek later.accesses]
    refine ⟨later.within, congrArg RingResult.int (result.trans ?_), later.contents⟩
    exact congrArg Core.oldest later.contents.symm
  | available =>
    obtain ⟨later, result⟩ := available_spec irq within
    rw [arrived_eq irq main .available later.accesses]
    exact ⟨later.within, later.contents, _, arrivals_prefix irq main (by omega),
      congrArg RingResult.int result⟩
  | isFull =>
    obtain ⟨later, result⟩ := isFull_spec irq within
    rw [arrived_eq irq main .isFull later.accesses]
    exact ⟨later.within, later.contents, _, arrivals_prefix irq main (by omega),
      congrArg RingResult.bool result⟩
  | clear => exact ⟨RingBuffer.clear_within _, rfl, RingBuffer.clear_contents _⟩

end Main

/-! ### Buffers that are in order -/

/-- A `RingBuffer` with both indices in the array, as every call leaves it. -/
structure ValidBuffer where
  buffer : RingBuffer
  within : buffer.Within

namespace ValidBuffer

def contents (valid : ValidBuffer) : List UInt8 := valid.buffer.contents

def storeChar (valid : ValidBuffer) (c : UInt8) : ValidBuffer :=
  ⟨valid.buffer.storeChar c, (RingBuffer.storeChar_spec valid.within c).1⟩

/-- `available`, where no interrupt comes. -/
def available (valid : ValidBuffer) : Int := (Main.available (fun _ => []) ⟨valid.buffer, 0⟩).1

theorem available_eq (valid : ValidBuffer) : valid.available = valid.contents.length := by
  have within : (Main.mk valid.buffer 0).buffer.Within := valid.within
  exact (Main.available_spec (fun _ => []) within).2

theorem length_le (valid : ValidBuffer) : valid.contents.length ≤ 63 := by
  have bounds := (RingQueue.count_bounds valid.within).2
  rw [← RingBuffer.length_contents valid.within, serialBufferSize] at bounds
  exact Nat.lt_succ_iff.mp (Int.ofNat_lt.mp bounds)

theorem storeChar_contents (valid : ValidBuffer) (c : UInt8) :
    (valid.storeChar c).contents = store 63 valid.contents c :=
  (RingBuffer.storeChar_spec valid.within c).2.1

/-- `read_char`, where no interrupt comes. -/
def readChar (valid : ValidBuffer) : Int × ValidBuffer :=
  ((Main.readChar (fun _ => []) ⟨valid.buffer, 0⟩).1,
    ⟨(Main.readChar (fun _ => []) ⟨valid.buffer, 0⟩).2.buffer,
      (Main.step_answers (fun _ => []) (show (Main.mk valid.buffer 0).buffer.Within from valid.within)
        .readChar).1⟩)

/-- `peek`, where no interrupt comes. -/
def peek (valid : ValidBuffer) : Int := (Main.peek (fun _ => []) ⟨valid.buffer, 0⟩).1

/-- `isFull`, where no interrupt comes. -/
def isFull (valid : ValidBuffer) : Bool := (Main.isFull (fun _ => []) ⟨valid.buffer, 0⟩).1

def clear (valid : ValidBuffer) : ValidBuffer := ⟨valid.buffer.clear, RingBuffer.clear_within _⟩

/-- Where no interrupt comes, nothing arrives. -/
theorem quiet_arrivals (main : Main) (count : Nat) : main.arrivals (fun _ => []) count = [] :=
  List.flatMap_eq_nil_iff.mpr fun _ _ => rfl

theorem readChar_eq (valid : ValidBuffer) :
    valid.readChar.1 = oldest valid.contents ∧ valid.readChar.2.contents = valid.contents.tail := by
  have within : (Main.mk valid.buffer 0).buffer.Within := valid.within
  obtain ⟨count, -, -, value, rest⟩ := Main.readChar_spec (fun _ => []) within
  rw [quiet_arrivals, storeAll_nil] at value rest
  exact ⟨value, rest⟩

theorem peek_eq (valid : ValidBuffer) : valid.peek = oldest valid.contents := by
  have within : (Main.mk valid.buffer 0).buffer.Within := valid.within
  obtain ⟨count, -, value⟩ := Main.peek_spec (fun _ => []) within
  rw [quiet_arrivals, storeAll_nil] at value
  exact value

theorem isFull_eq (valid : ValidBuffer) : valid.isFull = decide (valid.contents.length = 63) := by
  have within : (Main.mk valid.buffer 0).buffer.Within := valid.within
  have full := (Main.isFull_spec (fun _ => []) within).2
  rw [quiet_arrivals, storeAll_nil] at full
  exact full

theorem clear_contents (valid : ValidBuffer) : valid.clear.contents = [] := rfl

end ValidBuffer

/-! ### `RingBufferT` -/

/-- A template argument `size`. -/
structure RingSize where
  size : Int
  positive : 1 ≤ size
  fits : size ≤ 2147483647

/-- `RingBufferT`. -/
structure RingBufferT (α : Type*) where
  head : Int
  tail : Int
  buffer : Int → α
  bufferSize : Int

/-- A call of a `RingBufferT`. -/
inductive TCall (α : Type*) where
  | put (value : α)
  | get
  | peek
  | clear
  | available
  | isFull
  | isEmpty

/-- What a call of a `RingBufferT` returns; `value` is what `get` and `peek` leave behind their pointer,
where they return true. -/
inductive TResult (α : Type*) where
  | none
  | int (value : Int)
  | bool (value : Bool)
  | value (value : Option α)

variable {α : Type*}

namespace RingBufferT

/-- The constructor. `uninit` is what the array held before. -/
def new (size : RingSize) (uninit : Int → α) : RingBufferT α := ⟨0, 0, uninit, size.size⟩

def isFull (ring : RingBufferT α) : Bool := nextIndex ring.bufferSize ring.head = ring.tail

def isEmpty (ring : RingBufferT α) : Bool := ring.head = ring.tail

def put (ring : RingBufferT α) (value : α) : Bool × RingBufferT α :=
  if ring.isFull then (false, ring)
  else (true, { ring with
    buffer := Function.update ring.buffer ring.head value
    head := nextIndex ring.bufferSize ring.head })

def get (ring : RingBufferT α) : Option α × RingBufferT α :=
  if ring.isEmpty then (none, ring)
  else (some (ring.buffer ring.tail), { ring with tail := nextIndex ring.bufferSize ring.tail })

def peek (ring : RingBufferT α) : Option α :=
  if ring.isEmpty then none else some (ring.buffer ring.tail)

def clear (ring : RingBufferT α) : RingBufferT α := { ring with head := 0, tail := 0 }

def available (ring : RingBufferT α) : Int :=
  if ring.tail > ring.head then ring.bufferSize + ring.head - ring.tail else ring.head - ring.tail

/-- A call, and what it returns. -/
def call (ring : RingBufferT α) : TCall α → TResult α × RingBufferT α
  | .put value => (.bool (ring.put value).1, (ring.put value).2)
  | .get => (.value ring.get.1, ring.get.2)
  | .peek => (.value ring.peek, ring)
  | .clear => (.none, ring.clear)
  | .available => (.int ring.available, ring)
  | .isFull => (.bool ring.isFull, ring)
  | .isEmpty => (.bool ring.isEmpty, ring)

def step (ring : RingBufferT α) (call : TCall α) : RingBufferT α := (ring.call call).2

/-- The values in the ring, the oldest one first. -/
def contents (ring : RingBufferT α) : List α :=
  RingQueue.contents ring.bufferSize ⟨ring.buffer, ring.head, ring.tail⟩

/-- The ring has its size, and both indices are in it. -/
structure Valid (size : RingSize) (ring : RingBufferT α) : Prop where
  bufferSize : ring.bufferSize = size.size
  within : RingQueue.Within size.size (⟨ring.buffer, ring.head, ring.tail⟩ : RingQueue α)

end RingBufferT

/-- The answers of a bounded queue to the calls of a `RingBufferT`. -/
def TAnswers (capacity : Nat) (queue : List α) : TCall α → TResult α → List α → Prop
  | .put value, result, after => result = .bool (queue.length < capacity) ∧
      after = store capacity queue value
  | .get, result, after => result = .value queue.head? ∧ after = queue.tail
  | .peek, result, after => result = .value queue.head? ∧ after = queue
  | .clear, result, after => result = .none ∧ after = []
  | .available, result, after => result = .int queue.length ∧ after = queue
  | .isFull, result, after => result = .bool (queue.length = capacity) ∧ after = queue
  | .isEmpty, result, after => result = .bool queue.isEmpty ∧ after = queue

namespace RingBufferT

variable {size : RingSize} {ring : RingBufferT α}

theorem new_valid (size : RingSize) (uninit : Int → α) : Valid size (new size uninit) := by
  have positive := size.positive
  refine ⟨rfl, Int.le_refl 0, ?_, Int.le_refl 0, ?_⟩ <;> exact Int.lt_of_lt_of_le Int.one_pos positive

/-- What the indices of a ring tell of its contents. -/
theorem Valid.lengths (valid : Valid size ring) :
    (ring.contents.length : Int) = RingQueue.count size.size ⟨ring.buffer, ring.head, ring.tail⟩ ∧
      (ring.contents.length : Int) < size.size := by
  have length := RingQueue.length_contents valid.within
  have bounds := (RingQueue.count_bounds valid.within).2
  rw [contents, valid.bufferSize, length]
  exact ⟨rfl, bounds⟩

theorem Valid.next_head (valid : Valid size ring) :
    nextIndex ring.bufferSize ring.head = RingQueue.wrap size.size (ring.head + 1) := by
  rw [valid.bufferSize]
  exact nextIndex_eq (Int.lt_of_lt_of_le Int.one_pos size.positive) size.fits
    valid.within.head_nonneg valid.within.head_lt

theorem Valid.next_tail (valid : Valid size ring) :
    nextIndex ring.bufferSize ring.tail = RingQueue.wrap size.size (ring.tail + 1) := by
  rw [valid.bufferSize]
  exact nextIndex_eq (Int.lt_of_lt_of_le Int.one_pos size.positive) size.fits
    valid.within.tail_nonneg valid.within.tail_lt

theorem isFull_eq (valid : Valid size ring) :
    ring.isFull = decide (ring.contents.length = (size.size - 1).toNat) := by
  have full := RingQueue.full_iff valid.within
  rw [← valid.lengths.1] at full
  rw [isFull, valid.next_head, decide_eq_decide]
  refine full.trans ?_
  have positive := size.positive
  omega

theorem isEmpty_eq (valid : Valid size ring) : ring.isEmpty = ring.contents.isEmpty := by
  have empty := RingQueue.empty_iff valid.within
  rw [isEmpty, contents, valid.bufferSize, Bool.eq_iff_iff, decide_eq_true_eq, List.isEmpty_iff, ← empty]
  exact eq_comm

theorem available_eq (valid : Valid size ring) : ring.available = ring.contents.length := by
  rw [valid.lengths.1, available, valid.bufferSize, RingQueue.count]
  show _ = if ring.tail ≤ ring.head then ring.head - ring.tail else size.size + ring.head - ring.tail
  split_ifs <;> omega

theorem put_spec (valid : Valid size ring) (value : α) : Valid size (ring.put value).2 ∧
    (ring.put value).1 = decide (ring.contents.length < (size.size - 1).toNat) ∧
    (ring.put value).2.contents = store (size.size - 1).toNat ring.contents value := by
  have full := isFull_eq valid
  have lengths := valid.lengths
  rw [put, store]
  by_cases isFull : ring.contents.length = (size.size - 1).toNat
  · rw [if_pos (full.trans (decide_eq_true isFull)), if_neg (by omega), isFull]
    exact ⟨valid, (decide_eq_false (Nat.lt_irrefl _)).symm, rfl⟩
  · have room : ring.contents.length < (size.size - 1).toNat := by omega
    rw [if_neg (by rw [full, decide_eq_false isFull]; exact Bool.false_ne_true), if_pos room,
      valid.next_head]
    refine ⟨⟨valid.bufferSize, RingQueue.push_within valid.within value⟩, (decide_eq_true room).symm, ?_⟩
    show RingQueue.contents ring.bufferSize _ = RingQueue.contents ring.bufferSize _ ++ _
    rw [valid.bufferSize]
    exact RingQueue.contents_push valid.within (by omega) value

theorem get_spec (valid : Valid size ring) : Valid size ring.get.2 ∧
    ring.get.1 = ring.contents.head? ∧ ring.get.2.contents = ring.contents.tail := by
  have isEmpty := isEmpty_eq valid
  rw [get, isEmpty]
  by_cases empty : ring.tail = ring.head
  · have none : ring.contents = [] := by
      rw [contents, valid.bufferSize]
      exact (RingQueue.empty_iff valid.within).mp empty
    rw [none, List.isEmpty_nil, if_pos rfl]
    exact ⟨valid, rfl, none⟩
  · have popped := RingQueue.contents_pop valid.within empty
    have queue : ring.contents = ring.buffer ring.tail :: RingQueue.contents size.size
        (RingQueue.pop size.size ⟨ring.buffer, ring.head, ring.tail⟩) := by
      rw [contents, valid.bufferSize]
      exact popped
    rw [queue, List.isEmpty_cons, if_neg Bool.false_ne_true, valid.next_tail]
    refine ⟨⟨valid.bufferSize, RingQueue.pop_within valid.within⟩, rfl, ?_⟩
    show RingQueue.contents ring.bufferSize _ = _
    rw [valid.bufferSize]
    rfl

theorem peek_eq (valid : Valid size ring) : ring.peek = ring.contents.head? := by
  rw [← (get_spec valid).2.1, peek, get]
  split_ifs <;> rfl

/-- **Every call answers as the queue does.** -/
theorem tstep_answers (valid : Valid size ring) (call : TCall α) : Valid size (ring.step call) ∧
    TAnswers (size.size - 1).toNat ring.contents call (ring.call call).1 (ring.step call).contents := by
  cases call with
  | put value =>
    obtain ⟨still, result, stored⟩ := put_spec valid value
    exact ⟨still, congrArg TResult.bool result, stored⟩
  | get =>
    obtain ⟨still, result, rest⟩ := get_spec valid
    exact ⟨still, congrArg TResult.value result, rest⟩
  | peek => exact ⟨valid, congrArg TResult.value (peek_eq valid), rfl⟩
  | clear =>
    have cleared := new_valid size ring.buffer
    rw [new, ← valid.bufferSize] at cleared
    exact ⟨⟨valid.bufferSize, cleared.within⟩, rfl, rfl⟩
  | available => exact ⟨valid, congrArg TResult.int (available_eq valid), rfl⟩
  | isFull => exact ⟨valid, congrArg TResult.bool (isFull_eq valid), rfl⟩
  | isEmpty => exact ⟨valid, congrArg TResult.bool (isEmpty_eq valid), rfl⟩

end RingBufferT

/-! ### Agreement -/

/-- The call of a `RingBufferT` for a call of a `RingBuffer`. -/
def RingCall.generic : RingCall → TCall UInt8
  | .storeChar c => .put c
  | .readChar => .get
  | .peek => .peek
  | .available => .available
  | .isFull => .isFull
  | .clear => .clear

/-- What a `RingBuffer` returns for what a `RingBufferT` returns: a byte becomes an `int`, and whether a
byte has been stored is not returned. -/
def RingCall.result : RingCall → TResult UInt8 → RingResult
  | .readChar, .value (some value) | .peek, .value (some value) => .int value.toNat
  | .readChar, .value none | .peek, .value none => .int (-1)
  | .available, .int value => .int value
  | .isFull, .bool value => .bool value
  | _, _ => .none

/-- What the calls of the main program return, where no interrupt comes. -/
def results (main : Main) : List RingCall → List RingResult
  | [] => []
  | call :: rest => (main.call (fun _ => []) call).1 :: results (main.step (fun _ => []) call) rest

/-- What the same calls of a `RingBufferT` return. -/
def genericResults (ring : RingBufferT UInt8) : List RingCall → List RingResult
  | [] => []
  | call :: rest => call.result (ring.call call.generic).1 :: genericResults (ring.step call.generic) rest

/-- `RingBufferT<uint8_t, 64>`. -/
def size64 : RingSize := ⟨64, by decide, by decide⟩

/-- A queue answers a call and its counterpart alike. -/
theorem answers_agree {queue after after' : List UInt8} {call : RingCall} {result : RingResult}
    {generic : TResult UInt8} (answers : Answers 63 queue [] call result after)
    (tanswers : TAnswers 63 queue call.generic generic after') :
    result = call.result generic ∧ after = after' := by
  cases call with
  | storeChar c =>
    obtain ⟨rfl, rfl⟩ := answers
    obtain ⟨rfl, rfl⟩ := tanswers
    exact ⟨rfl, rfl⟩
  | readChar =>
    obtain ⟨rfl, rfl⟩ := answers
    obtain ⟨rfl, rfl⟩ := tanswers
    cases queue <;> exact ⟨rfl, rfl⟩
  | peek =>
    obtain ⟨rfl, rfl⟩ := answers
    obtain ⟨rfl, rfl⟩ := tanswers
    cases after' <;> exact ⟨rfl, rfl⟩
  | available =>
    obtain ⟨rfl, before, none, rfl⟩ := answers
    obtain ⟨rfl, rfl⟩ := tanswers
    obtain rfl := List.prefix_nil.mp none
    exact ⟨rfl, rfl⟩
  | isFull =>
    obtain ⟨rfl, before, none, rfl⟩ := answers
    obtain ⟨rfl, rfl⟩ := tanswers
    obtain rfl := List.prefix_nil.mp none
    exact ⟨rfl, rfl⟩
  | clear =>
    obtain ⟨rfl, rfl⟩ := answers
    obtain ⟨rfl, rfl⟩ := tanswers
    exact ⟨rfl, rfl⟩

/-- Rings with the same contents return the same. -/
theorem results_eq {main : Main} {ring : RingBufferT UInt8} (within : main.buffer.Within)
    (valid : RingBufferT.Valid size64 ring) (same : main.buffer.contents = ring.contents)
    (calls : List RingCall) : results main calls = genericResults ring calls := by
  induction calls generalizing main ring with
  | nil => rfl
  | cons call rest ih =>
    obtain ⟨still, answers⟩ := Main.step_answers (fun _ => []) within call
    obtain ⟨stillValid, tanswers⟩ := RingBufferT.tstep_answers valid call.generic
    have quiet : main.arrived (fun _ => []) call = [] := by
      rw [Main.arrived, List.flatMap_eq_nil_iff]
      exact fun _ _ => rfl
    rw [quiet, same] at answers
    obtain ⟨result, after⟩ := answers_agree answers tanswers
    rw [results, genericResults, result, ih still stillValid after]

/-- **Both rings are bounded queues, and agree.** `RingBuffer` answers as a queue of 63 bytes whatever
arrives before each memory access, with both indices in the array; `RingBufferT` answers as a queue of
`size - 1` values; and the two return the same for every list of calls. -/
theorem ringBuffers_refine_fifo :
    RingBuffer.new.contents = [] ∧
    (∀ (irq : Nat → List UInt8) (calls : List RingCall),
      Always (Main.step irq) (fun main => main.buffer.Within) ⟨.new, 0⟩ calls ∧
      EachStep (Main.step irq) (fun main call => Answers 63 main.buffer.contents
        (main.arrived irq call) call (main.call irq call).1 (main.step irq call).buffer.contents)
        ⟨.new, 0⟩ calls) ∧
    (∀ {α : Type} (size : RingSize) (uninit : Int → α) (calls : List (TCall α)),
      (RingBufferT.new size uninit).contents = [] ∧
      Always RingBufferT.step (RingBufferT.Valid size) (.new size uninit) calls ∧
      EachStep RingBufferT.step (fun ring call => TAnswers (size.size - 1).toNat ring.contents call
        (ring.call call).1 (ring.step call).contents) (.new size uninit) calls) ∧
    ∀ (uninit : Int → UInt8) (calls : List RingCall),
      results ⟨.new, 0⟩ calls = genericResults (.new size64 uninit) calls := by
  refine ⟨rfl, fun irq calls => ?_, fun size uninit calls => ?_, fun uninit calls => ?_⟩
  · have legal : EachStep (Main.step irq) (fun _ _ => True) ⟨.new, 0⟩ calls :=
      eachStep_of_forall (fun _ _ => trivial) _ _
    exact ⟨always_of_eachStep (fun main call within _ => (main.step_answers irq within call).1)
        RingBuffer.new_within legal,
      eachStep_of_invariant (fun main call within _ => (main.step_answers irq within call).1)
        (fun main call within _ => (main.step_answers irq within call).2) RingBuffer.new_within legal⟩
  · have base := RingBufferT.new_valid size uninit
    have legal : EachStep RingBufferT.step (fun _ _ => True) (.new size uninit) calls :=
      eachStep_of_forall (fun _ _ => trivial) _ _
    exact ⟨rfl,
      always_of_eachStep (fun _ call valid _ => (RingBufferT.tstep_answers valid call).1) base legal,
      eachStep_of_invariant (fun _ call valid _ => (RingBufferT.tstep_answers valid call).1)
        (fun _ call valid _ => (RingBufferT.tstep_answers valid call).2) base legal⟩
  · exact results_eq RingBuffer.new_within (RingBufferT.new_valid size64 uninit) rfl calls

end PrimoCore.Core
