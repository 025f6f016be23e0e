/-
**Looking for a pattern with a single index.**

A matcher keeps the number of characters matched and forgets them at a character that does not go on. It may try that
character once more, as the first one of the pattern, or leave it out.

* `advance` — the index after a character.
* `Piece`, `Moves` — the input is cut from a position into the longest beginning of the pattern that stands there, and
  the next position tried; `Tried` are the positions tried so.
* `Met` — **an occurrence that is tried**; there is at most one, `Met.unique`.
* `Fresh.tried` — the first occurrence is tried, of a pattern whose first character occurs nowhere else in it.
* `Stands` — what the index says; `Stands.advance` is the step lemma, `Stands.not_met` that nothing was met before.
-/

import Mathlib.Data.Nat.Find
import Mathlib.Logic.Relation
import PrimoCore.Lib.Pattern

namespace PrimoCore.Lib

variable {α : Type*} [DecidableEq α]

/-- The index after a character; `retest` says whether a character that does not go on is tried as the first one. -/
def advance (retest : Bool) (find : List α) (index : Nat) (char : α) : Nat :=
  if find[index]? = some char then index + 1
  else if retest ∧ find[0]? = some char then 1
  else 0

omit [DecidableEq α]

/-- The longest beginning of the pattern that stands at a position, if it is not the whole one. -/
structure Piece (find text : List α) (position count : Nat) : Prop where
  short : count < find.length
  stands : find.take count <+: text.drop position
  longest : ¬ find.take (count + 1) <+: text.drop position

/-- The next position tried: behind the piece, and one further for a character that is left out. -/
def Moves (retest : Bool) (find text : List α) (position next : Nat) : Prop :=
  ∃ count, Piece find text position count ∧ position + count < text.length ∧
    next = position + count + if retest ∧ 0 < count then 0 else 1

/-- The positions that are tried. -/
def Tried (retest : Bool) (find text : List α) : Nat → Prop :=
  Relation.ReflTransGen (Moves retest find text) 0

/-- **An occurrence that is tried.** -/
def Met (retest : Bool) (find text : List α) (position : Nat) : Prop :=
  Tried retest find text position ∧ position ∈ occurrences find text

variable {retest : Bool} {find text : List α} {position next : Nat}

/-! ### Pieces -/

/-- One more character of the pattern. -/
theorem take_succ_prefix_iff {count : Nat} (short : count < find.length) {rest : List α} :
    find.take (count + 1) <+: rest ↔ find.take count <+: rest ∧ rest[count]? = find[count]? := by
  rw [List.take_succ_eq_append_getElem short, List.getElem?_eq_getElem short]
  constructor
  · rintro ⟨behind, rfl⟩
    refine ⟨(List.prefix_append _ _).trans (List.prefix_append _ _), ?_⟩
    rw [List.append_assoc, List.getElem?_append_right (by rw [List.length_take]; omega), List.length_take,
      Nat.min_eq_left (Nat.le_of_lt short), Nat.sub_self]
    rfl
  · rintro ⟨⟨behind, rfl⟩, char⟩
    rw [List.getElem?_append_right (by rw [List.length_take]; omega), List.length_take,
      Nat.min_eq_left (Nat.le_of_lt short), Nat.sub_self] at char
    rcases behind with - | ⟨first, behind⟩
    · cases char
    · obtain rfl := Option.some.inj char
      exact ⟨behind, by rw [List.append_assoc]; rfl⟩

/-- A shorter beginning stands where a longer one does. -/
theorem take_prefix_of_le {count more : Nat} (le : count ≤ more) {rest : List α}
    (stands : find.take more <+: rest) :
    find.take count <+: rest := (List.take_prefix_take_left le).trans stands

theorem Piece.unique {count other : Nat} (piece : Piece find text position count)
    (also : Piece find text position other) : count = other := by
  by_contra different
  obtain less | less := Nat.lt_or_gt_of_ne different
  · exact piece.longest (take_prefix_of_le less also.stands)
  · exact also.longest (take_prefix_of_le less piece.stands)

theorem moves_unique : Relator.RightUnique (Moves retest find text) := by
  rintro position next other ⟨count, piece, _, rfl⟩ ⟨count', also, _, rfl⟩
  rw [piece.unique also]

theorem le_of_reaches (reaches : Relation.ReflTransGen (Moves retest find text) position next) :
    position ≤ next := by
  induction reaches with
  | refl => exact Nat.le_refl _
  | tail _ moves ih =>
    obtain ⟨count, _, _, rfl⟩ := moves
    omega

/-- From an occurrence no further position is tried. -/
theorem eq_of_reaches_occurrence (here : position ∈ occurrences find text)
    (reaches : Relation.ReflTransGen (Moves retest find text) position next) : position = next := by
  obtain rfl | ⟨_, ⟨count, piece, _⟩, _⟩ := reaches.cases_head
  · rfl
  · exact absurd ((List.take_prefix _ _).trans here) piece.longest

/-- **At most one occurrence is met.** -/
theorem Met.unique (met : Met retest find text position) (also : Met retest find text next) :
    position = next := by
  obtain later | earlier := met.1.total_of_right_unique moves_unique also.1
  · exact eq_of_reaches_occurrence met.2 later
  · exact (eq_of_reaches_occurrence also.2 earlier).symm

/-- Where the pattern does not occur, a piece of it stands. -/
theorem exists_piece (other : position ∉ occurrences find text) : ∃ count, Piece find text position count := by
  classical
  have ends : ∃ count, ¬ find.take (count + 1) <+: text.drop position := by
    refine ⟨find.length, fun stands => other ?_⟩
    rwa [List.take_of_length_le (Nat.le_succ _)] at stands
  have shorter : ∀ count ≤ Nat.find ends, find.take count <+: text.drop position := by
    intro count le
    cases count with
    | zero => exact List.nil_prefix
    | succ count => exact not_not.1 (Nat.find_min ends le)
  refine ⟨Nat.find ends, ?_, shorter _ (Nat.le_refl _), Nat.find_spec ends⟩
  by_contra whole
  have stands := shorter find.length (Nat.not_lt.1 whole)
  rw [List.take_length] at stands
  exact other stands

/-- **The first character of the pattern occurs nowhere else in it.** -/
def Fresh (find : List α) : Prop := ∀ inside, 0 < inside → inside < find.length → find[inside]? ≠ find[0]?

/-- No occurrence starts in a piece of such a pattern. -/
theorem Fresh.behind_piece (fresh : Fresh find) {count : Nat} (piece : Piece find text position count)
    (nonempty : find ≠ []) (here : next ∈ occurrences find text) (later : position < next) :
    position + count ≤ next := by
  by_contra inside
  have positive : 0 < find.length := List.length_pos_iff.2 nonempty
  have short := piece.short
  have first : text[next]? = find[0]? := by
    obtain ⟨rest, split⟩ := here
    have char := congrArg (fun chars => chars[0]?) split
    simp only [List.getElem?_append_left positive, List.getElem?_drop, Nat.add_zero] at char
    exact char.symm
  have again : text[next]? = find[next - position]? := by
    obtain ⟨rest, split⟩ := piece.stands
    have char := congrArg (fun chars => chars[next - position]?) split
    have room : next - position < (find.take count).length := by rw [List.length_take]; omega
    simp only [List.getElem?_append_left room, List.getElem?_drop] at char
    rw [List.getElem?_take_of_lt (by omega), Nat.add_sub_cancel' (Nat.le_of_lt later)] at char
    exact char.symm
  exact fresh (next - position) (by omega) (by omega) (again.symm.trans first)

/-- **The first occurrence of such a pattern is tried**, if a character is tried again or there is only one. -/
theorem Fresh.tried (fresh : Fresh find) (nonempty : find ≠ []) (again : retest = true ∨ find.length = 1)
    (least : IsLeast (occurrences find text) next) : Tried retest find text next := by
  have fits : next + find.length ≤ text.length := by
    have room := least.1.length_le
    have positive : 0 < find.length := List.length_pos_iff.2 nonempty
    rw [List.length_drop] at room
    omega
  -- From a position that is tried in front of the occurrence, one behind it is tried that is not behind the occurrence.
  have reaches : ∀ left position, next - position ≤ left → position ≤ next → Tried retest find text position →
      Tried retest find text next := by
    intro left
    induction left with
    | zero =>
      intro position near before tried
      rwa [show next = position by omega]
    | succ left ih =>
      intro position near before tried
      obtain here | later := Nat.eq_or_lt_of_le before
      · rwa [← here]
      · obtain ⟨count, piece⟩ := exists_piece fun there => Nat.not_le.2 later (least.2 there)
        have passed := fresh.behind_piece piece nonempty least.1 later
        have short := piece.short
        refine ih _ ?_ ?_ (tried.tail ⟨count, piece, by omega, rfl⟩)
        · split_ifs <;> omega
        · obtain rfl | one := again
          · simp only [true_and]
            split_ifs <;> omega
          · split_ifs <;> omega
  exact reaches next 0 (by omega) (Nat.zero_le _) .refl

/-! ### The index -/

/-- **What the index says** when some characters have been read: so many of the pattern stand in front of here, from
a position that is tried. -/
def Stands (retest : Bool) (find text : List α) (read index : Nat) : Prop :=
  ∃ position, Tried retest find text position ∧ position + index = read ∧ index < find.length ∧
    find.take index <+: text.drop position

theorem stands_start (nonempty : find ≠ []) : Stands retest find text 0 0 :=
  ⟨0, .refl, rfl, List.length_pos_iff.2 nonempty, List.nil_prefix⟩

/-- **Nothing has been met** as long as the matcher goes on. -/
theorem Stands.not_met {read index : Nat} (stands : Stands retest find text read index)
    (met : Met retest find text position) : read < position + find.length := by
  obtain ⟨current, tried, rfl, short, _⟩ := stands
  by_contra before
  obtain later | earlier := met.1.total_of_right_unique moves_unique tried
  · have same := eq_of_reaches_occurrence met.2 later
    omega
  · have less := le_of_reaches earlier
    omega

variable [DecidableEq α]

/-- **The step lemma**: the pattern is met with the character, or the index says the same behind it. -/
theorem Stands.advance {read index : Nat} {char : α} (stands : Stands retest find text read index)
    (here : text[read]? = some char) :
    (advance retest find index char = find.length ∧
        ∃ position, Met retest find text position ∧ position + find.length = read + 1) ∨
      (Lib.advance retest find index char < find.length ∧
        Stands retest find text (read + 1) (Lib.advance retest find index char)) := by
  obtain ⟨position, tried, rfl, short, begun⟩ := stands
  have inside : position + index < text.length := (List.getElem?_eq_some_iff.1 here).1
  have dropped : (text.drop position)[index]? = some char := by rwa [List.getElem?_drop]
  have longer := @take_succ_prefix_iff _ find _ short (text.drop position)
  rw [dropped] at longer
  unfold Lib.advance
  by_cases goes : find[index]? = some char
  · rw [if_pos goes]
    have stands := longer.2 ⟨begun, goes.symm⟩
    by_cases whole : index + 1 = find.length
    · rw [whole, List.take_length] at stands
      exact .inl ⟨whole, position, ⟨tried, stands⟩, by omega⟩
    · exact .inr ⟨by omega, position, tried, by omega, by omega, stands⟩
  · have piece : Piece find text position index :=
      ⟨short, begun, fun stands => goes (longer.1 stands).2.symm⟩
    have moved := tried.tail ⟨index, piece, inside, rfl⟩
    rw [if_neg goes]
    by_cases again : retest ∧ 0 < index
    · -- The character is tried as the first one, at the place where it was read.
      rw [if_pos again, Nat.add_zero] at moved
      have dropped' : (text.drop (position + index))[0]? = some char := by
        rwa [List.getElem?_drop, Nat.add_zero]
      have positive : 0 < find.length := Nat.zero_lt_of_lt short
      have single := @take_succ_prefix_iff _ find _ positive (text.drop (position + index))
      rw [dropped'] at single
      by_cases first : find[0]? = some char
      · rw [if_pos ⟨again.1, first⟩]
        exact .inr ⟨by omega, position + index, moved, rfl, by omega,
          single.2 ⟨List.nil_prefix, first.symm⟩⟩
      · have nothing : Piece find text (position + index) 0 :=
          ⟨positive, List.nil_prefix, fun stands => first (single.1 stands).2.symm⟩
        have past := moved.tail ⟨0, nothing, inside, rfl⟩
        rw [if_neg fun both => Nat.lt_irrefl 0 both.2] at past
        rw [if_neg fun both => first both.2]
        exact .inr ⟨positive, position + index + 1, past, rfl, positive, List.nil_prefix⟩
    · rw [if_neg again] at moved
      have zero : ¬ (retest ∧ find[0]? = some char) := by
        rintro ⟨tries, first⟩
        obtain rfl : index = 0 := Nat.eq_zero_of_not_pos fun positive => again ⟨tries, positive⟩
        exact goes first
      rw [if_neg zero]
      exact .inr ⟨Nat.zero_lt_of_lt short, position + index + 1, moved, rfl,
        Nat.zero_lt_of_lt short, List.nil_prefix⟩

end PrimoCore.Lib
