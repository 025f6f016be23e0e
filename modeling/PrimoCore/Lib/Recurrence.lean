/-
**Events that recur.**

Events happen at some of the natural numbers. A sequence of times goes through all of them, or leaves some
out, or comes at a time when nothing happens.

* `Enumerates` — the sequence is at the event with the number `index`, for each index.
* `enumerates_iff` — **a sequence goes through the events exactly when** it starts at the first one and goes
  from each to the next.
* `isLeast_residue_iff` — the next event, where events happen at one residue of a period.
-/

import Mathlib.Data.Nat.Count
import Mathlib.Order.Bounds.Basic

namespace PrimoCore.Lib

variable {happens : Nat → Prop} [DecidablePred happens] {times : Nat → Nat}

/-- **The sequence goes through the events**: as many events lie before its time as its index says. -/
def Enumerates (happens : Nat → Prop) [DecidablePred happens] (times : Nat → Nat) : Prop :=
  ∀ index, happens (times index) ∧ Nat.count happens (times index) = index

/-- An event between two times counts. -/
theorem count_lt_of_happens {early late : Nat} (event : happens early) (before : early < late) :
    Nat.count happens early < Nat.count happens late := Nat.count_strict_mono event before

/-- The numbers of events up to the next one. -/
theorem count_next {now next : Nat} (event : happens now)
    (least : IsLeast {time | now < time ∧ happens time} next) :
    Nat.count happens next = Nat.count happens now + 1 := by
  obtain ⟨⟨later, -⟩, first⟩ := least
  obtain ⟨gap, rfl⟩ : ∃ gap, next = now + 1 + gap := ⟨next - (now + 1), by omega⟩
  have quiet : Nat.count (fun offset => happens (now + 1 + offset)) gap = 0 := by
    rw [Nat.count_iff_forall_not]
    intro offset inside happened
    have after := first ⟨by omega, happened⟩
    omega
  rw [Nat.count_add, Nat.count_succ, if_pos event, quiet]

/-- **A sequence goes through the events exactly when** it starts at the first one and goes from each to the
next. -/
theorem enumerates_iff : Enumerates happens times ↔ IsLeast {time | happens time} (times 0) ∧
    ∀ index, IsLeast {time | times index < time ∧ happens time} (times (index + 1)) := by
  constructor
  · intro through
    refine ⟨⟨(through 0).1, fun time (happened : happens time) => ?_⟩, fun index => ⟨⟨?_, (through _).1⟩, ?_⟩⟩
    · by_contra early
      have more := count_lt_of_happens happened (Nat.lt_of_not_le early)
      have none := (through 0).2
      omega
    · by_contra early
      have fewer := Nat.count_monotone happens (Nat.le_of_not_lt early)
      have here := (through index).2
      have next := (through (index + 1)).2
      omega
    · intro time ⟨later, (happened : happens time)⟩
      by_contra early
      have first := count_lt_of_happens (through index).1 later
      have second := count_lt_of_happens happened (Nat.lt_of_not_le early)
      have here := (through index).2
      have next := (through (index + 1)).2
      omega
  · rintro ⟨first, next⟩ index
    induction index with
    | zero =>
      refine ⟨first.1, Nat.count_iff_forall_not.mpr fun time early happened => ?_⟩
      exact Nat.not_le.mpr early (first.2 happened)
    | succ index ih => exact ⟨(next index).1.2, by rw [count_next ih.1 (next index), ih.2]⟩

/-- The next event, counted from the current one. -/
theorem isLeast_add_iff {happens : Nat → Prop} {now delay : Nat} :
    IsLeast {time | now < time ∧ happens time} (now + delay) ↔
      IsLeast {delay | 0 < delay ∧ happens (now + delay)} delay := by
  constructor
  · rintro ⟨⟨later, here⟩, first⟩
    refine ⟨⟨by omega, here⟩, fun other ⟨positive, there⟩ => ?_⟩
    exact Nat.le_of_add_le_add_left (first ⟨Nat.lt_add_of_pos_right positive, there⟩)
  · rintro ⟨⟨positive, here⟩, first⟩
    refine ⟨⟨Nat.lt_add_of_pos_right positive, here⟩, fun time ⟨later, there⟩ => ?_⟩
    obtain ⟨other, rfl⟩ := Nat.exists_eq_add_of_lt later
    exact Nat.add_le_add_left (first ⟨Nat.succ_pos _, there⟩) now

/-- **The next event at a residue** comes within a period. -/
theorem isLeast_residue_iff {start period target now next : Nat} (inside : target < period) :
    IsLeast {time | now < time ∧ (start + time) % period = target} next ↔
      now < next ∧ next ≤ now + period ∧ (start + next) % period = target := by
  constructor
  · rintro ⟨⟨later, here⟩, first⟩
    refine ⟨later, ?_, here⟩
    by_contra far
    -- A period earlier there is one, too.
    have earlier : next - period ∈ {time | now < time ∧ (start + time) % period = target} := by
      refine ⟨by omega, ?_⟩
      rw [← here, show start + next = start + (next - period) + period by omega, Nat.add_mod_right]
    have after := first earlier
    omega
  · rintro ⟨later, near, here⟩
    refine ⟨⟨later, here⟩, fun time ⟨after, there⟩ => ?_⟩
    by_contra early
    have difference : (start + next - (start + time)) % period = 0 :=
      Nat.sub_mod_eq_zero_of_mod_eq (here.trans there.symm)
    rw [Nat.mod_eq_of_lt (by omega)] at difference
    omega

end PrimoCore.Lib
