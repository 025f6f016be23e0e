/-
**Termination of a step relation.**

A step relation may have several successors for a state. A ranked invariant gives each state it holds of a
number that every step lowers.

* `Terminates` — no infinite chain of steps starts in a state.
* `Lowers` — every step keeps a ranked invariant and lowers the rank.
* `Lowers.terminates`, `Lowers.reaches` — **the rules**: such an invariant gives termination, and holds of
  every state that is reached.
* `Terminates.exists_final` — a state without successors is reached.
* `exists_iterate` — a function that lowers a rank until a goal reaches the goal.
-/

import Mathlib.Logic.Function.Iterate
import Mathlib.Logic.Relation
import Mathlib.Order.WellFounded

namespace PrimoCore.Lib

variable {State : Type*} {step : State → State → Prop}

/-- No infinite chain of steps starts in a state. -/
def Terminates (step : State → State → Prop) (start : State) : Prop :=
  Acc (fun after before => step before after) start

/-- Every step keeps a ranked invariant and lowers the rank. -/
def Lowers (step : State → State → Prop) (rank : State → Nat → Prop) : Prop :=
  ∀ ⦃before after bound⦄, rank before bound → step before after →
    ∃ lower < bound, rank after lower

/-- **The termination rule.** -/
theorem Lowers.terminates {rank : State → Nat → Prop} (lowers : Lowers step rank) {start : State}
    {bound : Nat} (ranked : rank start bound) : Terminates step start := by
  induction bound using Nat.strongRecOn generalizing start with
  | ind bound ih =>
    refine ⟨start, fun next taken => ?_⟩
    obtain ⟨lower, below, nextRanked⟩ := lowers ranked taken
    exact ih lower below nextRanked

/-- **The invariant rule**: every state that is reached has a rank. -/
theorem Lowers.reaches {rank : State → Nat → Prop} (lowers : Lowers step rank) {start final : State}
    {bound : Nat} (ranked : rank start bound) (reached : Relation.ReflTransGen step start final) :
    ∃ lower, rank final lower := by
  induction reached with
  | refl => exact ⟨bound, ranked⟩
  | tail _ taken ih =>
    obtain ⟨before, beforeRanked⟩ := ih
    obtain ⟨lower, _, afterRanked⟩ := lowers beforeRanked taken
    exact ⟨lower, afterRanked⟩

/-- A state without successors is reached. -/
theorem Terminates.exists_final {start : State} (terminates : Terminates step start) :
    ∃ final, Relation.ReflTransGen step start final ∧ ∀ next, ¬ step final next := by
  induction terminates with
  | intro start _ ih =>
    by_cases more : ∃ next, step start next
    · obtain ⟨next, taken⟩ := more
      obtain ⟨final, reached, stuck⟩ := ih next taken
      exact ⟨final, .head taken reached, stuck⟩
    · exact ⟨start, .refl, fun next taken => more ⟨next, taken⟩⟩

/-- **A goal is reached** by a function that lowers a rank, in any well-founded order, as long as the goal is
not reached. -/
theorem exists_iterate {Rank : Type*} [LT Rank] [WellFoundedLT Rank] {next : State → State}
    {inv goal : State → Prop} {rank : State → Rank}
    (lowers : ∀ state, inv state → ¬ goal state → inv (next state) ∧ rank (next state) < rank state)
    {start : State} (base : inv start) : ∃ count, inv (next^[count] start) ∧ goal (next^[count] start) := by
  induction bound : rank start using WellFoundedLT.induction generalizing start with
  | ind bound ih =>
    by_cases reached : goal start
    · exact ⟨0, base, reached⟩
    · obtain ⟨kept, lower⟩ := lowers start base reached
      obtain ⟨count, final⟩ := ih _ (bound ▸ lower) kept rfl
      exact ⟨count + 1, final⟩

end PrimoCore.Lib
