/-
**A text looked for in a stream, `Stream::findUntil`.**

Target and terminator are looked for at the same time, each with a single index. A character that breaks off the target
is tried as its first one; one that breaks off the terminator is not.

* `findLoop`, `findUntil` — the code, on the bytes still to come.
* `First` — the target is completed, and no later than the terminator; `Right` — **what is to be found**.
* `Caught` — **the condition**: the first target is tried when it comes in time, and otherwise the terminator is tried
  before any target that is.
* `findLoop_spec` — the loop finds what is tried.
* `findUntil_right_iff` — **the call is right exactly when** the condition holds.
* `right_of_fresh` — it is for every target whose first character occurs nowhere else in it, and a terminator of one
  character or none.
-/

import Mathlib.Order.Bounds.Basic
import Mathlib.Order.Lattice.Nat
import PrimoCore.Lib.Matcher
import PrimoCore.Text.WString

namespace PrimoCore.Text

open PrimoCore.Lib

namespace Stream

/-- The index of the target is reset where the character does not match. -/
def resetIndex (target : List UInt8) (index : Nat) (c : UInt8) : Nat :=
  if c ≠ target.getD index 0 then 0 else index

/-- The loop of `findUntil`, with both indices: the answer, and the stream behind what was read. -/
def findLoop (target terminator : List UInt8) (index termIndex : Nat) : List UInt8 → Bool × List UInt8
  | [] => (false, [])
  | c :: unread =>
      if c = 0 then (false, unread)
      else
        let index := resetIndex target index c
        if c = target.getD index 0 ∧ target.length ≤ index + 1 then (true, unread)
        else
          let index := if c = target.getD index 0 then index + 1 else index
          if 0 < terminator.length ∧ c = terminator.getD termIndex 0 then
            if terminator.length ≤ termIndex + 1 then (false, unread)
            else findLoop target terminator index (termIndex + 1) unread
          else findLoop target terminator index 0 unread

/-- `findUntil`. -/
def findUntil (target terminator : CStr) (unread : List UInt8) : Bool × List UInt8 :=
  if target.chars.getD 0 0 = 0 then (true, unread)
  else findLoop target.chars terminator.chars 0 0 unread

/-- **The target is completed here for the first time**, and no later than the terminator. -/
def First (target terminator input : List UInt8) (position : Nat) : Prop :=
  IsLeast (occurrences target input) position ∧
    (terminator ≠ [] → ∀ stop ∈ occurrences terminator input,
      position + target.length ≤ stop + terminator.length)

/-- **What is to be found**: the answer says whether there is such a place, and the stream is then read up to its
end. -/
def Right (target terminator : CStr) (input : List UInt8) : Prop :=
  ((findUntil target terminator input).1 = true ↔
    ∃ position, First target.chars terminator.chars input position) ∧
    ∀ position, First target.chars terminator.chars input position →
      (findUntil target terminator input).2 = input.drop (position + target.chars.length)

/-- **What is tried is enough**: the first target is tried if it comes in time, and if the terminator comes first, one
that is tried ends before every target that is. -/
def Caught (target terminator input : List UInt8) : Prop :=
  ∀ position, IsLeast (occurrences target input) position →
    (First target terminator input position → Tried true target input position) ∧
    (¬ First target terminator input position → ∀ later, Met true target input later →
      terminator ≠ [] ∧ ∃ stop, Met false terminator input stop ∧
        stop + terminator.length < later + target.length)

/-- The target is met, and no later than the terminator. -/
def Hit (target terminator input : List UInt8) (position : Nat) : Prop :=
  Met true target input position ∧
    (terminator ≠ [] → ∀ stop, Met false terminator input stop →
      position + target.length ≤ stop + terminator.length)

/-! ### The loop -/

/-- A comparison with a character of a string. -/
theorem getD_eq_iff {chars : List UInt8} {index : Nat} {c : UInt8} (inside : index < chars.length) :
    c = chars.getD index 0 ↔ chars[index]? = some c := by
  rw [List.getD_eq_getElem?_getD, List.getElem?_eq_getElem inside, Option.getD_some, Option.some_inj,
    eq_comm]

theorem resetIndex_matched {target : List UInt8} {index : Nat} (inside : index < target.length)
    {c : UInt8} (matched : c = target.getD (resetIndex target index c) 0) :
    advance true target index c = resetIndex target index c + 1 := by
  have positive : 0 < target.length := Nat.zero_lt_of_lt inside
  unfold resetIndex at matched ⊢
  split_ifs at matched ⊢ with differs
  · have first := (getD_eq_iff positive).1 matched
    have other : target[index]? ≠ some c := fun same => differs ((getD_eq_iff inside).2 same)
    rw [advance, if_neg other, if_pos ⟨rfl, first⟩]
  · rw [advance, if_pos ((getD_eq_iff inside).1 matched)]

theorem resetIndex_missed {target : List UInt8} {index : Nat} (inside : index < target.length) {c : UInt8}
    (missed : c ≠ target.getD (resetIndex target index c) 0) :
    resetIndex target index c = 0 ∧ advance true target index c = 0 := by
  have positive : 0 < target.length := Nat.zero_lt_of_lt inside
  unfold resetIndex at missed ⊢
  split_ifs at missed ⊢ with differs
  · have other : target[index]? ≠ some c := fun same => differs ((getD_eq_iff inside).2 same)
    have first : ¬ target[0]? = some c := fun same => missed ((getD_eq_iff positive).2 same)
    exact ⟨rfl, by rw [advance, if_neg other, if_neg fun both => first both.2]⟩
  · exact absurd (not_not.1 differs) missed

/-- **The loop advances both matchers.** -/
theorem findLoop_cons {target terminator : List UInt8} {index termIndex : Nat} {c : UInt8}
    (proper : c ≠ 0)
    (inside : index < target.length) (termInside : terminator ≠ [] → termIndex < terminator.length)
    (unread : List UInt8) :
    findLoop target terminator index termIndex (c :: unread) =
      if advance true target index c = target.length then (true, unread)
      else if terminator ≠ [] ∧ advance false terminator termIndex c = terminator.length then
        (false, unread)
      else findLoop target terminator (advance true target index c)
        (if terminator = [] then 0 else advance false terminator termIndex c) unread := by
  have positive : 0 < target.length := Nat.zero_lt_of_lt inside
  have bound : resetIndex target index c < target.length := by
    unfold resetIndex
    split_ifs
    · exact positive
    · exact inside
  have next : (if c = target.getD (resetIndex target index c) 0 then resetIndex target index c + 1
      else resetIndex target index c) = advance true target index c := by
    split_ifs with matched
    · exact (resetIndex_matched inside matched).symm
    · rw [(resetIndex_missed inside matched).1, (resetIndex_missed inside matched).2]
  have found : (c = target.getD (resetIndex target index c) 0 ∧
    target.length ≤ resetIndex target index c + 1) ↔
      advance true target index c = target.length := by
    constructor
    · rintro ⟨matched, long⟩
      rw [resetIndex_matched inside matched]
      omega
    · intro whole
      by_cases matched : c = target.getD (resetIndex target index c) 0
      · rw [resetIndex_matched inside matched] at whole
        exact ⟨matched, Nat.le_of_eq whole.symm⟩
      · rw [(resetIndex_missed inside matched).2] at whole
        omega
  rw [findLoop, if_neg proper]
  simp only [found, next]
  by_cases whole : advance true target index c = target.length
  · rw [if_pos whole, if_pos whole]
  · rw [if_neg whole, if_neg whole]
    by_cases none_given : terminator = []
    · rw [if_neg (by rw [none_given]; exact fun both => Nat.lt_irrefl 0 both.1),
        if_neg fun both => both.1 none_given, if_pos none_given]
    · have termPositive : 0 < terminator.length := List.length_pos_iff.2 none_given
      have within := termInside none_given
      by_cases goes : c = terminator.getD termIndex 0
      · have step : advance false terminator termIndex c = termIndex + 1 :=
          if_pos ((getD_eq_iff within).1 goes)
        rw [if_pos ⟨termPositive, goes⟩, step, if_neg none_given]
        by_cases stops : termIndex + 1 = terminator.length
        · rw [if_pos (Nat.le_of_eq stops.symm), if_pos ⟨none_given, stops⟩]
        · rw [if_neg (by omega), if_neg fun both => stops both.2]
      · have step : advance false terminator termIndex c = 0 := by
          rw [advance, if_neg fun same => goes ((getD_eq_iff within).2 same),
            if_neg fun both => Bool.false_ne_true both.1]
        rw [if_neg fun both => goes both.2, step, if_neg none_given, if_neg (by omega)]

/-- Two places of a target that end at the same place of the input. -/
theorem place_eq {target input : List UInt8} {first second : Nat}
    (here : first ∈ occurrences target input)
    (also : second ∈ occurrences target input) (nonempty : target ≠ [])
    (same : input.drop (first + target.length) = input.drop (second + target.length)) :
    first = second := by
  have positive := List.length_pos_iff.2 nonempty
  have room := List.IsPrefix.length_le here
  have room' := List.IsPrefix.length_le also
  have lengths := congrArg List.length same
  rw [List.length_drop] at room room'
  rw [List.length_drop, List.length_drop] at lengths
  omega

/-- Where there is an occurrence, there is a first one. -/
theorem exists_first {find text : List UInt8} {position : Nat} (there : position ∈ occurrences find text) :
    ∃ first, IsLeast (occurrences find text) first :=
  ⟨sInf (occurrences find text), Nat.sInf_mem ⟨position, there⟩, fun _ member => Nat.sInf_le member⟩

/-- **What the loop finds** from a place of the input on, where both indices are right. -/
theorem findLoop_spec {target terminator input : List UInt8} (proper : 0 ∉ input) (nonempty : target ≠ [])
    {unread : List UInt8} {index termIndex read : Nat} (behind : input.drop read = unread)
    (stands : Stands true target input read index)
    (termStands : terminator ≠ [] → Stands false terminator input read termIndex) :
    (∀ position, Hit target terminator input position →
      findLoop target terminator index termIndex unread = (true, input.drop (position + target.length))) ∧
    ((findLoop target terminator index termIndex unread).1 = true →
      ∃ position, Hit target terminator input position) := by
  have positive := List.length_pos_iff.2 nonempty
  induction unread generalizing index termIndex read with
  | nil =>
    refine ⟨fun position hit => ?_, fun found => absurd found Bool.false_ne_true⟩
    have later := stands.not_met hit.1
    have room := List.IsPrefix.length_le hit.1.2
    have finished := List.drop_eq_nil_iff.1 behind
    rw [List.length_drop] at room
    omega
  | cons c unread ih =>
    have here : input[read]? = some c := by
      have first := congrArg List.head? behind
      rwa [List.head?_drop, List.head?_cons] at first
    have next : input.drop (read + 1) = unread := by
      rw [← List.tail_drop, behind, List.tail_cons]
    have nonzero : c ≠ 0 := by
      rintro rfl
      exact proper (List.mem_of_getElem? here)
    have inside : index < target.length := by
      obtain ⟨_, _, _, short, _⟩ := stands
      exact short
    have termInside : terminator ≠ [] → termIndex < terminator.length := by
      intro given
      obtain ⟨_, _, _, short, _⟩ := termStands given
      exact short
    rw [findLoop_cons nonzero inside termInside]
    obtain ⟨whole, place, met, ends⟩ | ⟨short, later⟩ := stands.advance here
    · -- The target is completed; the terminator was not before.
      have hit : Hit target terminator input place := by
        refine ⟨met, fun given stop termMet => ?_⟩
        have after := (termStands given).not_met termMet
        omega
      rw [if_pos whole]
      refine ⟨fun position other => ?_, fun _ => ⟨place, hit⟩⟩
      rw [other.1.unique met, ends, next]
    · rw [if_neg (Nat.ne_of_lt short)]
      by_cases given : terminator = []
      · rw [if_neg fun both => both.1 given, if_pos given]
        exact ih next later fun other => absurd given other
      · rw [if_neg given]
        obtain ⟨stops, stop, termMet, ends⟩ | ⟨goes, termLater⟩ := (termStands given).advance here
        · -- The terminator is completed, and no target ends here.
          rw [if_pos ⟨given, stops⟩]
          refine ⟨fun position hit => ?_, fun found => absurd found Bool.false_ne_true⟩
          have after := later.not_met hit.1
          have before := hit.2 given stop termMet
          omega
        · rw [if_neg fun both => Nat.ne_of_lt goes both.2]
          exact ih next later fun _ => termLater

/-- **What `findUntil` finds**: a target that is met, and no other. -/
theorem findUntil_spec (target terminator : CStr) {input : List UInt8} (nonempty : target.chars ≠ [])
    (proper : 0 ∉ input) :
    (∀ position, Hit target.chars terminator.chars input position →
      findUntil target terminator input = (true, input.drop (position + target.chars.length))) ∧
    ((findUntil target terminator input).1 = true →
      ∃ position, Hit target.chars terminator.chars input position) := by
  have first_char : target.chars.getD 0 0 ≠ 0 := by
    have positive := List.length_pos_iff.2 nonempty
    rw [List.getD_eq_getElem?_getD, List.getElem?_eq_getElem positive, Option.getD_some]
    intro zero
    exact target.terminated (zero ▸ List.getElem_mem positive)
  have call : findUntil target terminator input = findLoop target.chars terminator.chars 0 0 input :=
    if_neg first_char
  have whole : input.drop 0 = input := List.drop_zero
  rw [call]
  exact findLoop_spec proper nonempty whole (stands_start nonempty)
    fun given : terminator.chars ≠ [] => stands_start given

/-- Where a call is right, what is tried is enough. -/
theorem caught_of_right {target terminator : CStr} {input : List UInt8} (nonempty : target.chars ≠ [])
    (proper : 0 ∉ input) (right : Right target terminator input) :
    Caught target.chars terminator.chars input := by
  obtain ⟨finds, found⟩ := findUntil_spec target terminator nonempty proper
  obtain ⟨answer, rest⟩ := right
  intro position least
  refine ⟨fun first => ?_, fun late later met => ?_⟩
  · obtain ⟨place, hit⟩ := found (answer.2 ⟨position, first⟩)
    have same := rest position first
    rw [finds place hit] at same
    rw [← place_eq hit.1.2 least.1 nonempty same]
    exact hit.1.1
  · by_contra nothing
    have hit : Hit target.chars terminator.chars input later := by
      refine ⟨met, fun given stop termMet => ?_⟩
      by_contra before
      exact nothing ⟨given, stop, termMet, Nat.not_le.1 before⟩
    obtain ⟨place, first⟩ := answer.1 (by rw [finds later hit])
    exact late (least.unique first.1 ▸ first)

/-- Where what is tried is enough, a call is right. -/
theorem right_of_caught {target terminator : CStr} {input : List UInt8} (nonempty : target.chars ≠ [])
    (proper : 0 ∉ input) (caught : Caught target.chars terminator.chars input) :
    Right target terminator input := by
  obtain ⟨finds, found⟩ := findUntil_spec target terminator nonempty proper
  have hit_of_first : ∀ position, First target.chars terminator.chars input position →
      Hit target.chars terminator.chars input position := fun position first =>
    ⟨⟨(caught position first.1).1 first, first.1.1⟩, fun given stop met => first.2 given stop met.2⟩
  refine ⟨⟨fun answer => ?_, ?_⟩,
    fun position first => by rw [finds position (hit_of_first position first)]⟩
  · obtain ⟨place, hit⟩ := found answer
    obtain ⟨position, least⟩ := exists_first hit.1.2
    by_cases first : First target.chars terminator.chars input position
    · exact ⟨position, first⟩
    · obtain ⟨given, stop, met, before⟩ := (caught position least).2 first place hit.1
      exact absurd (hit.2 given stop met) (Nat.not_le.2 before)
  · rintro ⟨position, first⟩
    rw [finds position (hit_of_first position first)]

/-- A target whose first character occurs nowhere else in it is tried, and so is a terminator of one character. -/
theorem caught_of_fresh {target terminator input : List UInt8} (nonempty : target ≠ []) (fresh : Fresh target)
    (short : terminator.length ≤ 1) : Caught target terminator input := by
  intro position least
  have tried : Tried true target input position := fresh.tried nonempty (.inl rfl) least
  refine ⟨fun _ => tried, fun late later met => ?_⟩
  obtain rfl := met.unique ⟨tried, least.1⟩
  have stops : terminator ≠ [] ∧ ∃ stop ∈ occurrences terminator input,
      stop + terminator.length < later + target.length := by
    by_contra none_before
    refine late ⟨least, fun given stop there => ?_⟩
    by_contra before
    exact none_before ⟨given, stop, there, Nat.not_le.1 before⟩
  obtain ⟨given, stop, there, before⟩ := stops
  have single : terminator.length = 1 := Nat.le_antisymm short (List.length_pos_iff.2 given)
  have alone : Fresh terminator := fun inside _ _ => by omega
  obtain ⟨first, least_stop⟩ := exists_first there
  have earliest := least_stop.2 there
  exact ⟨given, first, ⟨alone.tried given (.inr single) least_stop, least_stop.1⟩, by omega⟩

/-- **`findUntil` finds what is to be found exactly when** what is tried is enough. -/
theorem findUntil_right_iff (target terminator : CStr) {input : List UInt8} (nonempty : target.chars ≠ [])
    (proper : 0 ∉ input) :
    Right target terminator input ↔ Caught target.chars terminator.chars input :=
  ⟨caught_of_right nonempty proper, right_of_caught nonempty proper⟩

/-- "ab" is found in "cab", before the "." that ends the search. -/
theorem findUntil_right_iff_cab : Right ⟨[97, 98], by decide⟩ ⟨[46], by decide⟩ [99, 97, 98, 46] :=
  (findUntil_right_iff ⟨[97, 98], by decide⟩ ⟨[46], by decide⟩ (by decide) (by decide)).mpr
    (caught_of_fresh (by decide) (fun inside positive short => by
      obtain rfl : inside = 1 := Nat.le_antisymm (Nat.le_of_lt_succ short) positive
      decide) (by decide))

/-- "aab" is not found in "aaab". -/
theorem aab_not_found :
    findUntil ⟨[97, 97, 98], by decide⟩ CStr.empty [97, 97, 97, 98] = (false, []) ∧
      ¬ Right ⟨[97, 97, 98], by decide⟩ CStr.empty [97, 97, 97, 98] := by
  have answer : findUntil ⟨[97, 97, 98], by decide⟩ CStr.empty [97, 97, 97, 98] = (false, []) := by decide
  refine ⟨answer, fun right => ?_⟩
  have first : First [97, 97, 98] [] [97, 97, 97, 98] 1 := by
    refine ⟨⟨⟨[], by decide⟩, fun position there => ?_⟩, fun given => absurd rfl given⟩
    by_contra before
    obtain rfl : position = 0 := by omega
    exact absurd there (by decide : ¬ [97, 97, 98] <+: [97, 97, 97, (98 : UInt8)])
  have found := right.1.2 ⟨1, first⟩
  rw [answer] at found
  exact Bool.false_ne_true found

/-- **A target whose first character occurs nowhere else in it is found**, with a terminator of one character or
none. -/
theorem right_of_fresh {target terminator : CStr} {input : List UInt8} (nonempty : target.chars ≠ [])
    (proper : 0 ∉ input) (fresh : Fresh target.chars) (short : terminator.chars.length ≤ 1) :
    Right target terminator input :=
  right_of_caught nonempty proper (caught_of_fresh nonempty fresh short)

end Stream

end PrimoCore.Text
