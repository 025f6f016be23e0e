/-
**Numerals in a radix.**

The digits of a number are listed with the highest first.

* `evaluate` — the value of a list of digits.
* `Canonical` — the digits are below the radix, the first is no zero unless it is the only one, and they have the
  value.
* `numeral`, `numeral_canonical` — **every number has a canonical numeral**, for every radix from two on.
* `numeral_split`, `numeral_length` — its last digit, and a bound on its length.
-/

import Mathlib.Data.Nat.Digits.Lemmas
import Mathlib.Tactic.SplitIfs

namespace PrimoCore.Lib

/-- The value of digits, the highest first. -/
def evaluate (radix : Nat) (digits : List Nat) : Nat :=
  digits.foldl (fun value digit => value * radix + digit) 0

/-- **A canonical numeral** of a value. -/
structure Canonical (radix value : Nat) (digits : List Nat) : Prop where
  below : ∀ digit ∈ digits, digit < radix
  nonempty : digits ≠ []
  leading : digits.head? = some 0 → digits = [0]
  value_eq : evaluate radix digits = value

/-- The numeral of a number. -/
def numeral (radix value : Nat) : List Nat := if value = 0 then [0] else (Nat.digits radix value).reverse

theorem evaluate_reverse (radix : Nat) (digits : List Nat) :
    evaluate radix digits.reverse = Nat.ofDigits radix digits := by
  rw [evaluate, List.foldl_reverse, Nat.ofDigits_eq_foldr]
  simp only [Nat.cast_id, Nat.mul_comm, Nat.add_comm]

variable {radix value : Nat}

/-- **The numeral of a number is canonical.** -/
theorem numeral_canonical (low : 1 < radix) (value : Nat) :
    Canonical radix value (numeral radix value) := by
  unfold numeral
  split_ifs with zero
  · refine ⟨fun digit member => ?_, List.cons_ne_nil _ _, fun _ => rfl, ?_⟩
    · rw [List.mem_singleton.1 member]
      omega
    · rw [zero]
      simp [evaluate]
  · have nonempty : Nat.digits radix value ≠ [] := Nat.digits_ne_nil_iff_ne_zero.2 zero
    refine ⟨fun digit member => Nat.digits_lt_base low (List.mem_reverse.1 member), ?_,
      fun first => ?_, ?_⟩
    · rwa [Ne, List.reverse_eq_nil_iff]
    · rw [List.head?_reverse, List.getLast?_eq_some_getLast nonempty] at first
      exact absurd (Option.some_inj.1 first) (Nat.getLast_digit_ne_zero radix zero)
    · rw [evaluate_reverse, Nat.ofDigits_digits]

/-- The last digit of a number, and the digits in front of it. -/
theorem digits_reverse_split (low : 1 < radix) (positive : 0 < value) :
    (Nat.digits radix value).reverse = (Nat.digits radix (value / radix)).reverse ++ [value % radix] := by
  rw [Nat.digits_def' low positive, List.reverse_cons]

/-- A number below the radix is its own digit. -/
theorem numeral_small (small : value < radix) : numeral radix value = [value] := by
  unfold numeral
  split_ifs with zero
  · rw [zero]
  · rw [Nat.digits_of_lt radix value zero small, List.reverse_singleton]

/-- The last digit of a longer numeral. -/
theorem numeral_split (low : 1 < radix) (large : radix ≤ value) :
    numeral radix value = numeral radix (value / radix) ++ [value % radix] := by
  have quotient : value / radix ≠ 0 := Nat.ne_of_gt (Nat.div_pos large (by omega))
  rw [numeral, if_neg (by omega), digits_reverse_split low (by omega), numeral, if_neg quotient]

/-- A number below a power has at most as many digits as the exponent. -/
theorem numeral_length (low : 1 < radix) {count : Nat} (some_digit : 0 < count)
    (small : value < radix ^ count) : (numeral radix value).length ≤ count := by
  unfold numeral
  split_ifs
  · rw [List.length_singleton]
    omega
  · rwa [List.length_reverse, Nat.digits_length_le_iff low]

end PrimoCore.Lib
