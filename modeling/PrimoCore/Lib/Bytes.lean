/-
**Values in bytes.**

A cell of memory holds a byte, or nothing defined. A type has its values in some cells, the one with the
lowest address first.

* `known` — the bytes of some cells, if all are defined; `known_isSome_iff`.
* `ByteType` — a type with its size and what its bytes mean.
* `ByteType.unsigned` — numbers on a little-endian processor; `unsigned_reverse` — **the bytes of a
  big-endian number in reverse** are the number.
* `toBigEndian` — the big-endian bytes of a number; `bigEndian_toBigEndian` and `toBigEndian_bigEndian` —
  **bytes and numbers are the same thing**, for a count of bytes.
-/

import Mathlib.Data.List.Induction
import Mathlib.Data.Nat.Digits.Defs

namespace PrimoCore.Lib

/-! ### Cells -/

section Cells

variable {α : Type*}

/-- The values of some cells, if all are defined. -/
def known : List (Option α) → Option (List α)
  | [] => some []
  | none :: _ => none
  | some value :: rest => (known rest).map (value :: ·)

@[simp] theorem known_map_some (values : List α) : known (values.map some) = some values := by
  induction values with
  | nil => rfl
  | cons value rest ih => rw [List.map_cons, known, ih, Option.map_some]

/-- All cells are defined. -/
theorem known_isSome_iff {cells : List (Option α)} : (known cells).isSome ↔ none ∉ cells := by
  induction cells with
  | nil => simp [known]
  | cons cell rest ih =>
    cases cell with
    | none => simp [known]
    | some value => simp [known, ih]

end Cells

/-! ### Types -/

/-- A type whose values lie in some bytes of memory. -/
structure ByteType (T : Type*) where
  size : Nat
  positive : 0 < size
  ofBytes : List UInt8 → T

/-- Unsigned numbers of some bytes, on a little-endian processor. -/
def ByteType.unsigned (size : Nat) (positive : 0 < size) : ByteType Nat where
  size := size
  positive := positive
  ofBytes := fun bytes => Nat.ofDigits 256 (bytes.map UInt8.toNat)

/-- The big-endian number of some bytes. -/
def bigEndian (bytes : List UInt8) : Nat := bytes.foldl (fun number byte => number * 256 + byte.toNat) 0

/-- **The bytes of a big-endian number in reverse** are the number. -/
theorem ByteType.unsigned_reverse (size : Nat) (positive : 0 < size) (bytes : List UInt8) :
    (ByteType.unsigned size positive).ofBytes bytes.reverse = bigEndian bytes := by
  show Nat.ofDigits 256 (bytes.reverse.map UInt8.toNat) = bigEndian bytes
  induction bytes using List.reverseRecOn with
  | nil => rfl
  | append_singleton front last ih =>
    rw [List.reverse_append, List.reverse_singleton, List.singleton_append, List.map_cons,
      Nat.ofDigits_cons, ih]
    simp only [bigEndian, List.foldl_append, List.foldl_cons, List.foldl_nil]
    omega

/-! ### Big-endian numbers -/

/-- The big-endian bytes of a number, as many as a count. -/
def toBigEndian : Nat → Nat → List UInt8
  | 0, _ => []
  | count + 1, number => toBigEndian count (number / 256) ++ [UInt8.ofNat number]

@[simp] theorem toBigEndian_length (count number : Nat) : (toBigEndian count number).length = count := by
  induction count generalizing number with
  | zero => rfl
  | succ count ih => rw [toBigEndian, List.length_append, ih, List.length_singleton]

theorem bigEndian_append_singleton (front : List UInt8) (last : UInt8) :
    bigEndian (front ++ [last]) = bigEndian front * 256 + last.toNat := by
  simp only [bigEndian, List.foldl_append, List.foldl_cons, List.foldl_nil]

/-- **The bytes of a number read back**, when they are enough for it. -/
theorem bigEndian_toBigEndian {count number : Nat} (fits : number < 256 ^ count) :
    bigEndian (toBigEndian count number) = number := by
  induction count generalizing number with
  | zero =>
    have zero : number = 0 := by simpa using fits
    rw [zero]
    rfl
  | succ count ih =>
    have quotient : number / 256 < 256 ^ count := by
      rw [Nat.pow_succ] at fits
      exact Nat.div_lt_of_lt_mul (by omega)
    rw [toBigEndian, bigEndian_append_singleton, ih quotient, UInt8.toNat_ofNat']
    omega

/-- **The number some bytes read has these bytes.** -/
theorem toBigEndian_bigEndian (bytes : List UInt8) :
    toBigEndian bytes.length (bigEndian bytes) = bytes := by
  induction bytes using List.reverseRecOn with
  | nil => rfl
  | append_singleton front last ih =>
    have small := last.toNat_lt
    have quotient : (bigEndian front * 256 + last.toNat) / 256 = bigEndian front := by omega
    rw [List.length_append, List.length_singleton, bigEndian_append_singleton, toBigEndian, quotient,
      ih]
    congr 2
    apply UInt8.toNat_inj.mp
    rw [UInt8.toNat_ofNat']
    omega

theorem bigEndian_lt (bytes : List UInt8) : bigEndian bytes < 256 ^ bytes.length := by
  induction bytes using List.reverseRecOn with
  | nil => exact Nat.one_pos
  | append_singleton front last ih =>
    have small := last.toNat_lt
    rw [List.length_append, List.length_singleton, bigEndian_append_singleton, Nat.pow_succ]
    omega

end PrimoCore.Lib
