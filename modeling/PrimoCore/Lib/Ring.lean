/-
**Rings and bounded queues.**

A ring keeps a queue in an array whose two indices wrap: values are stored at the head and taken at the
tail. One slot stays free, so that equal indices mean an empty queue.

* `store`, `storeAll` — the bounded queue: a value that does not fit is dropped.
* `RingQueue.contents` — the queue a ring holds, the oldest value first.
* `contents_push`, `contents_pop` — **storing appends, taking removes the front.**
* `full_iff`, `empty_iff` — what the indices tell.
* `counted`, `counted_push`, `counted_pop` — the same for an array with the index of the oldest value and
  the number of the values, where no slot stays free.
-/

import Mathlib.Data.List.Basic
import Mathlib.Data.Nat.ModEq
import Mathlib.Logic.Function.Basic
import Mathlib.Tactic.SplitIfs

namespace PrimoCore.Lib

variable {α : Type*}

/-! ### The bounded queue -/

/-- A value is appended where there is room, and dropped otherwise. -/
def store (capacity : Nat) (queue : List α) (value : α) : List α :=
  if queue.length < capacity then queue ++ [value] else queue

/-- Values are stored one after the other. -/
def storeAll (capacity : Nat) (queue : List α) (values : List α) : List α :=
  values.foldl (store capacity) queue

@[simp] theorem storeAll_nil (capacity : Nat) (queue : List α) : storeAll capacity queue [] = queue :=
  rfl

theorem storeAll_append (capacity : Nat) (queue first second : List α) :
    storeAll capacity queue (first ++ second) =
      storeAll capacity (storeAll capacity queue first) second :=
  List.foldl_append ..

/-- Storing keeps what is in the queue, and its order. -/
theorem exists_storeAll_eq (capacity : Nat) (queue values : List α) :
    ∃ stored, storeAll capacity queue values = queue ++ stored := by
  induction values generalizing queue with
  | nil => exact ⟨[], (List.append_nil queue).symm⟩
  | cons value rest ih =>
    obtain ⟨stored, later⟩ := ih (store capacity queue value)
    rw [storeAll, List.foldl_cons, ← storeAll, later, store]
    split_ifs
    · exact ⟨value :: stored, by rw [List.append_assoc, List.singleton_append]⟩
    · exact ⟨stored, rfl⟩

/-- The first values are appended, as far as they fit. -/
theorem storeAll_eq_take {capacity : Nat} {queue : List α} (inside : queue.length ≤ capacity)
    (values : List α) :
    storeAll capacity queue values = queue ++ values.take (capacity - queue.length) := by
  induction values generalizing queue with
  | nil => rw [List.take_nil, List.append_nil, storeAll_nil]
  | cons value rest ih =>
    rw [storeAll, List.foldl_cons, ← storeAll, store]
    by_cases room : queue.length < capacity
    · have next : (queue ++ [value]).length ≤ capacity := by
        rw [List.length_append, List.length_singleton]
        omega
      have left : capacity - queue.length = capacity - (queue ++ [value]).length + 1 := by
        rw [List.length_append, List.length_singleton]
        omega
      rw [if_pos room, ih next, left, List.take_succ_cons, List.append_assoc, List.singleton_append]
    · have none : capacity - queue.length = 0 := by omega
      rw [if_neg room, ih inside, none, List.take_zero, List.take_zero]

/-- Where all values fit, all are appended. -/
theorem storeAll_of_room {capacity : Nat} {queue values : List α}
    (room : queue.length + values.length ≤ capacity) :
    storeAll capacity queue values = queue ++ values := by
  rw [storeAll_eq_take (by omega), List.take_of_length_le (by omega)]

/-! ### Rings -/

/-- An array with the index of the next value to be stored and of the next one to be taken. -/
structure RingQueue (α : Type*) where
  slots : Int → α
  head : Int
  tail : Int

namespace RingQueue

/-- Both indices lie in the array. -/
structure Within (size : Int) (ring : RingQueue α) : Prop where
  head_nonneg : 0 ≤ ring.head
  head_lt : ring.head < size
  tail_nonneg : 0 ≤ ring.tail
  tail_lt : ring.tail < size

/-- An index less than twice the size, taken round the array. -/
def wrap (size index : Int) : Int := if index < size then index else index - size

/-- How many values the ring holds. -/
def count (size : Int) (ring : RingQueue α) : Int :=
  if ring.tail ≤ ring.head then ring.head - ring.tail else size + ring.head - ring.tail

/-- The queue the ring holds, the oldest value first. -/
def contents (size : Int) (ring : RingQueue α) : List α :=
  (List.range (ring.count size).toNat).map fun (offset : Nat) =>
    ring.slots (wrap size (ring.tail + offset))

/-- A value is stored at the head. -/
def push (size : Int) (ring : RingQueue α) (value : α) : RingQueue α where
  slots := Function.update ring.slots ring.head value
  head := wrap size (ring.head + 1)
  tail := ring.tail

/-- The value at the tail is taken. -/
def pop (size : Int) (ring : RingQueue α) : RingQueue α := { ring with tail := wrap size (ring.tail + 1) }

variable {size : Int} {ring : RingQueue α}

theorem count_bounds (within : ring.Within size) : 0 ≤ ring.count size ∧ ring.count size < size := by
  obtain ⟨_, _, _, _⟩ := within
  rw [count]
  split_ifs <;> omega

theorem length_contents (within : ring.Within size) :
    ((ring.contents size).length : Int) = ring.count size := by
  rw [contents, List.length_map, List.length_range, Int.toNat_of_nonneg (count_bounds within).1]

theorem push_within (within : ring.Within size) (value : α) : (ring.push size value).Within size := by
  obtain ⟨_, _, _, _⟩ := within
  refine ⟨?_, ?_, ‹_›, ‹_›⟩ <;> simp only [push, wrap] <;> split_ifs <;> omega

theorem pop_within (within : ring.Within size) : (ring.pop size).Within size := by
  obtain ⟨_, _, _, _⟩ := within
  refine ⟨‹_›, ‹_›, ?_, ?_⟩ <;> simp only [pop, wrap] <;> split_ifs <;> omega

/-- The ring is full exactly when the head is right before the tail. -/
theorem full_iff (within : ring.Within size) :
    wrap size (ring.head + 1) = ring.tail ↔ ring.count size + 1 = size := by
  obtain ⟨_, _, _, _⟩ := within
  rw [wrap, count]
  split_ifs <;> omega

theorem count_eq_zero_iff (within : ring.Within size) :
    ring.tail = ring.head ↔ ring.count size = 0 := by
  obtain ⟨_, _, _, _⟩ := within
  rw [count]
  split_ifs <;> omega

/-- The ring is empty exactly when the indices are equal. -/
theorem empty_iff (within : ring.Within size) : ring.tail = ring.head ↔ ring.contents size = [] := by
  rw [count_eq_zero_iff within, ← length_contents within, ← List.length_eq_zero_iff]
  omega

/-- **Storing appends**, while a slot stays free. -/
theorem contents_push (within : ring.Within size) (room : ring.count size + 1 < size) (value : α) :
    (ring.push size value).contents size = ring.contents size ++ [value] := by
  have bounds := count_bounds within
  have grown : (ring.push size value).count size = ring.count size + 1 := by
    obtain ⟨_, _, _, _⟩ := within
    simp only [count, push, wrap] at room ⊢
    split_ifs at room ⊢ <;> omega
  have length : ((ring.push size value).count size).toNat = (ring.count size).toNat + 1 := by
    rw [grown, Int.toNat_add bounds.1 Int.one_nonneg]
    rfl
  obtain ⟨_, _, _, _⟩ := within
  rw [contents, length, List.range_succ, List.map_append, List.map_singleton]
  congr 1
  · apply List.map_congr_left
    intro offset member
    have inside := List.mem_range.mp member
    refine Function.update_of_ne ?_ _ _
    show wrap size (ring.tail + offset) ≠ ring.head
    simp only [count, wrap] at bounds room inside ⊢
    split_ifs at bounds room inside ⊢ <;> omega
  · have last : wrap size (ring.tail + ((ring.count size).toNat : Int)) = ring.head := by
      rw [Int.toNat_of_nonneg bounds.1]
      simp only [count, wrap]
      split_ifs <;> omega
    show [Function.update ring.slots ring.head value (wrap size (ring.tail + _))] = _
    rw [last, Function.update_self]

/-- **Taking removes the front.** -/
theorem contents_pop (within : ring.Within size) (nonempty : ring.tail ≠ ring.head) :
    ring.contents size = ring.slots ring.tail :: (ring.pop size).contents size := by
  have bounds := count_bounds within
  have positive : ring.count size ≠ 0 := mt (count_eq_zero_iff within).mpr nonempty
  have shrunk : ring.count size = (ring.pop size).count size + 1 := by
    obtain ⟨_, _, _, _⟩ := within
    simp only [count, pop, wrap] at positive ⊢
    split_ifs at positive ⊢ <;> omega
  have length : (ring.count size).toNat = ((ring.pop size).count size).toNat + 1 := by
    rw [shrunk, Int.toNat_add (by omega) Int.one_nonneg]
    rfl
  obtain ⟨_, _, _, _⟩ := within
  rw [contents, length, List.range_succ_eq_map, List.map_cons, List.map_map]
  congr 1
  · rw [wrap, if_pos (by omega)]
    exact congrArg ring.slots (Int.add_zero _)
  · apply List.map_congr_left
    intro offset member
    have inside := List.mem_range.mp member
    refine congrArg ring.slots ?_
    show wrap size (ring.tail + ((offset + 1 : Nat) : Int)) =
      wrap size (wrap size (ring.tail + 1) + offset)
    simp only [count, pop, wrap] at bounds inside ⊢
    split_ifs at bounds inside ⊢ <;> omega

end RingQueue

/-! ### Counted rings -/

section Counted

variable {size : Nat} {slots : Nat → α} {first count : Nat}

/-- The queue of an array with the index of the oldest value and the number of the values. -/
def counted (size : Nat) (slots : Nat → α) (first count : Nat) : List α :=
  (List.range count).map fun offset => slots ((first + offset) % size)

@[simp] theorem counted_length (size : Nat) (slots : Nat → α) (first count : Nat) :
    (counted size slots first count).length = count := by
  unfold counted
  rw [List.length_map, List.length_range]

/-- Offsets less than the size lead to different slots. -/
theorem offset_unique {first second start : Nat} (small : first < size) (small' : second < size)
    (same : (start + first) % size = (start + second) % size) : first = second := by
  have congruent : first % size = second % size := Nat.ModEq.add_left_cancel' start same
  rwa [Nat.mod_eq_of_lt small, Nat.mod_eq_of_lt small'] at congruent

/-- **Storing appends**, while there is room. -/
theorem counted_push (room : count < size) (value : α) :
    counted size (Function.update slots ((first + count) % size) value) first (count + 1) =
      counted size slots first count ++ [value] := by
  unfold counted
  rw [List.range_succ, List.map_append, List.map_singleton, Function.update_self]
  refine congrArg (· ++ [value]) (List.map_congr_left fun offset member => ?_)
  have below := List.mem_range.mp member
  refine Function.update_of_ne (fun same => ?_) _ _
  exact Nat.ne_of_lt below (offset_unique (Nat.lt_trans below room) room same)

/-- **Taking removes the front**, whatever is left in its slot. -/
theorem counted_pop (inside : first < size) (few : count < size) (left : α) :
    counted size slots first (count + 1) =
      slots first :: counted size (Function.update slots first left) ((first + 1) % size) count := by
  unfold counted
  rw [List.range_succ_eq_map, List.map_cons, List.map_map, Nat.add_zero, Nat.mod_eq_of_lt inside]
  refine congrArg (_ :: ·) (List.map_congr_left fun offset member => ?_)
  have below := List.mem_range.mp member
  have next : (first + 1) % size + offset ≡ first + offset.succ [MOD size] := by
    have shifted := (Nat.mod_modEq (first + 1) size).add_right offset
    rwa [Nat.add_assoc, Nat.add_comm 1 offset] at shifted
  have other : ((first + 1) % size + offset) % size ≠ first := by
    intro same
    have back : (first + offset.succ) % size = (first + 0) % size := by
      rw [← next, same, Nat.add_zero, Nat.mod_eq_of_lt inside]
    have none := offset_unique (Nat.lt_of_le_of_lt below few) (Nat.zero_lt_of_lt few) back
    exact Nat.succ_ne_zero offset none
  rw [Function.update_of_ne other]
  exact congrArg slots next.symm

end Counted

end PrimoCore.Lib
