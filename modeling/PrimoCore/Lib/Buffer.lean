/-
**Byte buffers.**

A memory is a function from indices; a buffer is a memory with the list of the indices written so far,
so that a bound on the writes is a statement about the log.

* `slice` — the elements of a range, as a list; `slice_add`, `slice_congr`, `slice_split`, `slice_eq_iff` read it.
* `Buffer.set`, `Buffer.memcpy` — a store, and a copy from another memory; `slice_memcpy` reads the copy of a
  list.
* `Buffer.moveUp` — the loop that moves a range up by copying element by element from its end, the
  order in which no element is overwritten before it is read; `moveUp_at` says what it leaves.
-/

import Mathlib.Data.List.Basic
import Mathlib.Tactic.SplitIfs

namespace PrimoCore.Lib

/-- A memory. -/
abbrev Memory (α : Type*) := Nat → α

variable {α : Type*}

/-- The elements of a range. -/
def slice (memory : Memory α) (start count : Nat) : List α :=
  (List.range count).map fun offset => memory (start + offset)

@[simp] theorem slice_length (memory : Memory α) (start count : Nat) :
    (slice memory start count).length = count := by
  simp [slice]

@[simp] theorem slice_zero (memory : Memory α) (start : Nat) : slice memory start 0 = [] := rfl

@[simp] theorem getElem_slice (memory : Memory α) {start count offset : Nat}
    (inside : offset < (slice memory start count).length) :
    (slice memory start count)[offset] = memory (start + offset) := by
  simp [slice]

/-- Two ranges with the same elements. -/
theorem slice_congr {first second : Memory α} {start start' count : Nat}
    (same : ∀ offset < count, first (start + offset) = second (start' + offset)) :
    slice first start count = slice second start' count := by
  apply List.map_congr_left
  intro offset member
  exact same offset (List.mem_range.mp member)

/-- What a range reads is read where the elements are the same. -/
theorem slice_frame {first second : Memory α} {start start' count : Nat} {elements : List α}
    (read : slice second start' count = elements)
    (same : ∀ offset < count, first (start + offset) = second (start' + offset)) :
    slice first start count = elements :=
  (slice_congr same).trans read

theorem slice_succ (memory : Memory α) (start count : Nat) :
    slice memory start (count + 1) = memory start :: slice memory (start + 1) count := by
  simp only [slice, List.range_succ_eq_map, List.map_cons, List.map_map, Nat.add_zero]
  congr 1
  apply List.map_congr_left
  intro offset _
  simp only [Function.comp_apply]
  congr 1
  omega

/-- A range in two parts. -/
theorem slice_add (memory : Memory α) (start first second : Nat) :
    slice memory start (first + second) =
      slice memory start first ++ slice memory (start + first) second := by
  simp only [slice, List.range_add, List.map_append, List.map_map]
  congr 1
  apply List.map_congr_left
  intro offset _
  simp only [Function.comp_apply, Nat.add_assoc]

/-- A range that reads as two lists is two ranges. -/
theorem slice_split {memory : Memory α} {start count : Nat} {first second : List α}
    (whole : slice memory start count = first ++ second) :
    slice memory start first.length = first ∧
      slice memory (start + first.length) second.length = second := by
  have lengths := congrArg List.length whole
  rw [slice_length, List.length_append] at lengths
  rw [lengths, slice_add] at whole
  exact List.append_inj whole (slice_length _ _ _)

/-- The element at the front of a range. -/
theorem slice_head {memory : Memory α} {start count : Nat} {first : α} {rest : List α}
    (whole : slice memory start count = first :: rest) : memory start = first := by
  cases count with
  | zero => cases whole
  | succ count =>
    rw [slice_succ] at whole
    exact (List.cons.inj whole).1

/-- The front of a range. -/
theorem take_slice (memory : Memory α) (start count least : Nat) :
    (slice memory start count).take least = slice memory start (min least count) := by
  rw [slice, slice, ← List.map_take, List.take_range]

/-- What a range reads, element by element. -/
theorem slice_eq_iff {memory : Memory α} {count : Nat} {elements : List α} (fill : α) :
    slice memory 0 count = elements ↔
      count = elements.length ∧ ∀ index < elements.length, memory index = elements.getD index fill := by
  constructor
  · rintro rfl
    refine ⟨(slice_length ..).symm, fun index inside => ?_⟩
    rw [List.getD_eq_getElem?_getD, List.getElem?_eq_getElem inside, Option.getD_some, getElem_slice,
      Nat.zero_add]
  · rintro ⟨rfl, same⟩
    refine List.ext_getElem (slice_length ..) fun index _ inside => ?_
    rw [getElem_slice, Nat.zero_add, same index inside]
    simp [List.getD, inside]

/-- A memory and the indices written so far, the last one first. -/
structure Buffer (α : Type*) where
  bytes : Memory α
  written : List Nat

namespace Buffer

/-- A store. -/
def set (buffer : Buffer α) (index : Nat) (value : α) : Buffer α where
  bytes := fun position => if position = index then value else buffer.bytes position
  written := index :: buffer.written

/-- A copy of a range of another memory. -/
def memcpy (buffer : Buffer α) (start : Nat) (source : Memory α) (count : Nat) : Buffer α where
  bytes := fun position =>
    if start ≤ position ∧ position < start + count then source (position - start)
    else buffer.bytes position
  written := (List.range count).map (start + ·) ++ buffer.written

/-- Moves the `count` elements from `start` on up by `distance`, from the last one down. -/
def moveUp (buffer : Buffer α) (start distance : Nat) : Nat → Buffer α
  | 0 => buffer
  | count + 1 =>
      (buffer.set (start + distance + count)
        (buffer.bytes (start + distance + count - distance))).moveUp start distance count

/-- Every index written is below a bound. -/
def WritesBelow (buffer : Buffer α) (bound : Nat) : Prop := ∀ index ∈ buffer.written, index < bound

@[simp] theorem set_at (buffer : Buffer α) (index : Nat) (value : α) (position : Nat) :
    (buffer.set index value).bytes position =
      if position = index then value else buffer.bytes position := rfl

@[simp] theorem memcpy_at (buffer : Buffer α) (start : Nat) (source : Memory α) (count position : Nat) :
    (buffer.memcpy start source count).bytes position =
      if start ≤ position ∧ position < start + count then source (position - start)
      else buffer.bytes position := rfl

/-- **What the loop leaves**: the range, moved; everything else as it was. -/
theorem moveUp_at (buffer : Buffer α) (start distance count position : Nat) :
    (buffer.moveUp start distance count).bytes position =
      if start + distance ≤ position ∧ position < start + distance + count then
        buffer.bytes (position - distance)
      else buffer.bytes position := by
  induction count generalizing buffer with
  | zero =>
    rw [if_neg (by omega)]
    rfl
  | succ count ih =>
    rw [moveUp, ih, set_at, set_at]
    by_cases last : position = start + distance + count
    · rw [if_neg (by omega), if_pos last, if_pos (by omega), last]
    · by_cases inside : start + distance ≤ position ∧ position < start + distance + count
      · rw [if_pos inside, if_neg (by omega), if_pos (by omega)]
      · rw [if_neg inside, if_neg last, if_neg (by omega)]

/-- A list that is copied to the front is read there. -/
theorem slice_memcpy (buffer : Buffer α) (elements : List α) (fill : α) :
    slice (buffer.memcpy 0 (fun index => elements.getD index fill) elements.length).bytes 0
      elements.length = elements := by
  apply List.ext_getElem (slice_length ..)
  intro index _ inside
  rw [getElem_slice, memcpy_at, if_pos (by omega), Nat.sub_zero, Nat.zero_add]
  simp [List.getD, inside]

/-- A store behind a range. -/
theorem slice_set (buffer : Buffer α) (count : Nat) (value : α) :
    slice (buffer.set count value).bytes 0 (count + 1) = slice buffer.bytes 0 count ++ [value] := by
  have before : slice (buffer.set count value).bytes 0 count = slice buffer.bytes 0 count := by
    refine slice_congr fun offset inside => ?_
    rw [set_at, if_neg (by omega)]
  rw [slice_add, before]
  simp [slice]

theorem WritesBelow.set {buffer : Buffer α} {bound index : Nat} (below : buffer.WritesBelow bound)
    (inside : index < bound) (value : α) : (buffer.set index value).WritesBelow bound := by
  intro position member
  rcases List.mem_cons.mp member with rfl | member
  · exact inside
  · exact below position member

theorem WritesBelow.memcpy {buffer : Buffer α} {bound start count : Nat}
    (below : buffer.WritesBelow bound) (inside : start + count ≤ bound) (source : Memory α) :
    (buffer.memcpy start source count).WritesBelow bound := by
  intro position member
  rcases List.mem_append.mp member with copied | member
  · obtain ⟨offset, small, rfl⟩ := List.mem_map.mp copied
    have := List.mem_range.mp small
    show start + offset < bound
    omega
  · exact below position member

theorem WritesBelow.moveUp {buffer : Buffer α} {bound start distance count : Nat}
    (below : buffer.WritesBelow bound) (inside : start + distance + count ≤ bound) :
    (buffer.moveUp start distance count).WritesBelow bound := by
  induction count generalizing buffer with
  | zero => exact below
  | succ count ih => exact ih (below.set (by omega) _) (by omega)

end Buffer

end PrimoCore.Lib
