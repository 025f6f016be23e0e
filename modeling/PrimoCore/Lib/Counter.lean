/-
**Counters that wrap.**

A counter of `w` bits that advances by one, and a target it is compared with.

* `FirstReached` — after that many steps the counter is at the target for the first time.
* `firstReached_iff` — there is one such number, `stepsTo`, and it is positive: a counter that stands at
  its target reaches it a whole turn later.
* `FirstReached.next`, `FirstReached.now_iff` — one step of the counter.
* `firstReached_ofNat_iff` — **a distance, taken as a target, is the distance to it exactly when** the
  counter is at zero and the distance is positive and at most a turn.
-/

import Mathlib.Algebra.Group.Nat.Defs

namespace PrimoCore.Lib

variable {w : Nat} {counter target : BitVec w} {steps : Nat}

/-- The counter is at the target after that many steps, and at no earlier one. -/
structure FirstReached (counter target : BitVec w) (steps : Nat) : Prop where
  positive : 0 < steps
  reached : counter + BitVec.ofNat w steps = target
  first : ∀ earlier, 0 < earlier → earlier < steps → counter + BitVec.ofNat w earlier ≠ target

/-- The steps to the target. -/
def stepsTo (counter target : BitVec w) : Nat := (target - counter - 1#w).toNat + 1

/-- Two numbers of steps of at most a turn that lead to the same place are equal. -/
theorem ofNat_injective_of_turn {first second : Nat} (positive : 0 < first) (below : first < second)
    (turn : second ≤ 2 ^ w) : BitVec.ofNat w first ≠ BitVec.ofNat w second := by
  intro same
  have values := congrArg BitVec.toNat same
  rw [BitVec.toNat_ofNat, BitVec.toNat_ofNat, Nat.mod_eq_of_lt (Nat.lt_of_lt_of_le below turn)] at values
  rcases Nat.lt_or_eq_of_le turn with less | whole
  · rw [Nat.mod_eq_of_lt less] at values
    omega
  · rw [whole, Nat.mod_self] at values
    omega

theorem ofNat_stepsTo (counter target : BitVec w) :
    counter + BitVec.ofNat w (stepsTo counter target) = target := by
  rw [stepsTo, BitVec.ofNat_add, BitVec.ofNat_toNat, BitVec.setWidth_eq, BitVec.sub_add_cancel,
    BitVec.add_comm, BitVec.sub_add_cancel]

theorem firstReached_stepsTo (counter target : BitVec w) :
    FirstReached counter target (stepsTo counter target) where
  positive := Nat.succ_pos _
  reached := ofNat_stepsTo counter target
  first := by
    intro earlier positive below same
    have turn : stepsTo counter target ≤ 2 ^ w := (target - counter - 1#w).isLt
    rw [← ofNat_stepsTo counter target] at same
    exact ofNat_injective_of_turn positive below turn (BitVec.add_right_inj counter |>.mp same)

theorem FirstReached.unique {first second : Nat} (one : FirstReached counter target first)
    (other : FirstReached counter target second) : first = second := by
  rcases Nat.lt_trichotomy first second with below | same | above
  · exact absurd one.reached (other.first first one.positive below)
  · exact same
  · exact absurd other.reached (one.first second other.positive above)

/-- **The steps to the target** are `stepsTo`. -/
theorem firstReached_iff : FirstReached counter target steps ↔ steps = stepsTo counter target := by
  constructor
  · intro first
    exact first.unique (firstReached_stepsTo counter target)
  · rintro rfl
    exact firstReached_stepsTo counter target

instance : Decidable (FirstReached counter target steps) := decidable_of_iff _ firstReached_iff.symm

/-- The counter reaches its target with the next step exactly when one step is left. -/
theorem FirstReached.now_iff (first : FirstReached counter target steps) :
    counter + 1#w = target ↔ steps = 1 := by
  constructor
  · intro now
    rcases Nat.eq_or_lt_of_le first.positive with one | more
    · exact one.symm
    · exact absurd now (first.first 1 Nat.one_pos more)
  · rintro rfl
    exact first.reached

/-- A step that does not reach the target leaves one less. -/
theorem FirstReached.next (first : FirstReached counter target steps) (later : counter + 1#w ≠ target) :
    FirstReached (counter + 1#w) target (steps - 1) := by
  have positive := first.positive
  have more : steps ≠ 1 := fun one => later (first.now_iff.mpr one)
  have shift : ∀ further,
      counter + 1#w + BitVec.ofNat w further = counter + BitVec.ofNat w (further + 1) := by
    intro further
    rw [BitVec.add_assoc, BitVec.ofNat_add, BitVec.add_comm (1#w)]
  refine ⟨by omega, ?_, ?_⟩
  · rw [shift, Nat.sub_add_cancel positive]
    exact first.reached
  · intro earlier _ below
    rw [shift]
    exact first.first (earlier + 1) (Nat.succ_pos earlier) (by omega)

/-- **A distance taken as the target** is the distance to it exactly when the counter is at zero and
the distance is positive and at most a turn. -/
theorem firstReached_ofNat_iff : FirstReached counter (BitVec.ofNat w steps) steps ↔
    counter = 0#w ∧ 0 < steps ∧ steps ≤ 2 ^ w := by
  constructor
  · intro first
    have zero : counter = 0#w := BitVec.add_left_eq_self.mp first.reached
    refine ⟨zero, first.positive, ?_⟩
    rw [firstReached_iff.mp first]
    exact (BitVec.ofNat w steps - counter - 1#w).isLt
  · rintro ⟨rfl, positive, turn⟩
    refine ⟨positive, BitVec.zero_add _, ?_⟩
    intro earlier after below
    rw [BitVec.zero_add]
    exact ofNat_injective_of_turn after below turn

end PrimoCore.Lib
