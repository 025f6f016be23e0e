/-
**Index arithmetic of `remove` and `startsWith`.**

Both compute with 32-bit words: `remove` adds its count to its index before it compares the sum with the
length, and `startsWith` subtracts the length of its argument from that of the string.

* `startsWithAt`, `startsWith`, `strncmp` — the code; `removeCount` is in `WString`.
* `fence` — the string in a block that ends with its zero, in which nothing behind it can be accessed.
* `removesRange_iff` — a range is taken out **exactly when** the end of the range does not wrap.
* `startsRight_iff` — the comparison is right **exactly when** it is not made behind the text, and no empty
  string is looked for where a buffer is missing.
-/

import PrimoCore.Text.WString

namespace PrimoCore.Text

open PrimoCore.Lib

/-- `strncmp`: the difference of the first two characters that differ, if they do. -/
def strncmp (first : Block) (start : Nat) (second : Block) (other : Nat) : Nat → Option Int
  | 0 => some 0
  | count + 1 =>
      if start < first.size ∧ other < second.size then
        if first.bytes start ≠ second.bytes other then
          some ((first.bytes start).toNat - (second.bytes other).toNat)
        else if first.bytes start = 0 then some 0
        else strncmp first (start + 1) second (other + 1) count
      else none

namespace WString

/-- `startsWith`, at an offset. -/
def startsWithAt (text s2 : WString) (offset : UInt32) : Option Bool :=
  if text.len - s2.len < offset ∨ text.buffer.isNone ∨ s2.buffer.isNone then some false
  else
    text.buffer.bind fun block => s2.buffer.bind fun other =>
      (strncmp block offset.toNat other 0 s2.len.toNat).map fun difference => difference = 0

/-- `startsWith`. -/
def startsWith (text s2 : WString) : Option Bool :=
  if text.len < s2.len then some false else text.startsWithAt s2 0

/-! ### What is to hold -/

/-- The string in a block that ends behind an index. -/
def fence (text : WString) (last : Nat) : WString :=
  { text with buffer := text.buffer.map fun block => { block with size := last + 1 } }

/-- **`remove` takes a range out of the text**, with no access behind the zero of the text. -/
def RemovesRange (text : WString) (value : Option (List UInt8)) (index count : UInt32) : Prop :=
  ∃ after last, text.removeCount index count = some after ∧ after.Represents last ∧
    textOf last =
      (textOf value).take index.toNat ++ (textOf value).drop (index.toNat + count.toNat) ∧
    (text.fence text.len.toNat).removeCount index count = some (after.fence text.len.toNat)

/-- **`startsWith` compares the text from the offset on**, with no access behind the zeros of the two
texts. -/
def StartsRight (text s2 : WString) (value other : Option (List UInt8)) (offset : UInt32) : Prop :=
  ∃ answer, text.startsWithAt s2 offset = some answer ∧
    (answer = true ↔ offset.toNat + s2.len.toNat ≤ text.len.toNat ∧
      textOf other <+: (textOf value).drop offset.toNat) ∧
    (text.fence text.len.toNat).startsWithAt (s2.fence s2.len.toNat) offset = some answer

/-- The end of a range that starts in the text does not wrap. -/
def EndsInside (text : WString) (index count : UInt32) : Prop :=
  index < text.len → index.toNat + count.toNat < UInt32.size

/-- **The comparison is made in the text**: the offset is in it, or the argument is not longer than it, or
the test of the offset, whose difference has wrapped, refuses all the same. Where a buffer is missing,
nothing is found, not even nothing. -/
def ComparesInside (text s2 : WString) (offset : UInt32) : Prop :=
  if text.buffer.isSome ∧ s2.buffer.isSome then
    offset ≤ text.len ∨ s2.len ≤ text.len ∨ text.len - s2.len < offset
  else ¬ (s2.len = 0 ∧ offset ≤ text.len)

instance (text : WString) (index count : UInt32) : Decidable (text.EndsInside index count) :=
  inferInstanceAs (Decidable (_ → _))

instance (text s2 : WString) (offset : UInt32) : Decidable (text.ComparesInside s2 offset) := by
  unfold ComparesInside
  infer_instance

variable {text s2 : WString} {value other : Option (List UInt8)}

/-! ### `remove` -/

/-- Behind the text, and of no characters, there is nothing to remove. -/
theorem removesRange_nothing (represents : text.Represents value) {index count : UInt32}
    (nothing : text.len.toNat ≤ index.toNat ∨ count = 0) : text.RemovesRange value index count := by
  have stays : ∀ other : WString, other.len = text.len → other.removeCount index count = some other := by
    intro other same
    unfold removeCount
    rw [same]
    rcases nothing with behind | rfl
    · exact if_pos (UInt32.le_iff_toNat_le.mpr behind)
    · rw [if_pos rfl, ite_self]
  refine ⟨text, value, stays text rfl, represents, ?_, stays _ rfl⟩
  rcases nothing with behind | rfl
  · rw [represents.len] at behind
    rw [List.take_of_length_le behind, List.drop_of_length_le (by omega), List.append_nil]
  · rw [UInt32.toNat_zero, Nat.add_zero, List.take_append_drop]

/-- **`remove` is right exactly when the end of the range does not wrap.** -/
theorem removesRange_iff (represents : text.Represents value) (index count : UInt32) :
    text.RemovesRange value index count ↔ text.EndsInside index count := by
  by_cases nothing : text.len.toNat ≤ index.toNat ∨ count = 0
  · refine iff_of_true (removesRange_nothing represents nothing) fun inside => ?_
    rw [UInt32.lt_iff_toNat_lt] at inside
    rcases nothing with behind | rfl
    · omega
    · exact index.toNat_lt
  · obtain ⟨inText, counts⟩ := not_or.mp nothing
    rw [Nat.not_le] at inText
    have ends : text.EndsInside index count ↔ index.toNat + count.toNat < UInt32.size :=
      forall_prop_of_true (UInt32.lt_iff_toNat_lt.mpr inText)
    rw [ends]
    cases value with
    | none =>
      rw [show text = invalid from represents] at inText
      exact absurd inText (Nat.not_lt_zero _)
    | some chars =>
      obtain ⟨block, holds⟩ := represents
      have len := holds.len
      have same : text = ⟨some block, text.capacity, text.len⟩ := by rw [← holds.buffer]
      constructor
      · rintro ⟨after, last, removed, left, taken, -⟩
        by_contra wraps
        have word : UInt32.size = 4294967296 := rfl
        -- The length has wrapped the other way.
        obtain ⟨result, -, -⟩ := removeCount_wraps holds inText counts (Nat.le_of_not_lt wraps)
        rw [result, Option.map_eq_some_iff] at removed
        obtain ⟨_, -, rfl⟩ := removed
        have newLen : (text.len - count).toNat = (textOf last).length := left.len
        have kept : (textOf last).length = index.toNat := by
          have front : (chars.take index.toNat).length = index.toNat :=
            List.length_take_of_le (by omega)
          have nothingBehind : chars.drop (index.toNat + count.toNat) = [] :=
            List.drop_of_length_le (by have := text.len.toNat_lt; omega)
          change textOf last = chars.take index.toNat ++ chars.drop (index.toNat + count.toNat) at taken
          rw [taken, nothingBehind, List.append_nil, front]
        have small := count.toNat_lt
        have lenSmall := text.len.toNat_lt
        rw [UInt32.toNat_sub] at newLen
        omega
      · intro whole
        obtain ⟨bytes, last, takes, -, -⟩ :=
          removeCount_takes len holds.spells inText counts whole
        obtain ⟨after, removed, left⟩ := removeCount_down holds inText counts whole
        have is_after : after = ⟨some ⟨bytes, block.size⟩, text.capacity, last⟩ := by
          have fits := holds.fits
          have size := holds.size
          rw [same] at removed
          exact Option.some.inj (removed.symm.trans (takes text.capacity block.size (by omega)))
        have fenced : text.fence text.len.toNat =
            ⟨some ⟨block.bytes, text.len.toNat + 1⟩, text.capacity, text.len⟩ := by
          rw [fence, holds.buffer]
          rfl
        refine ⟨after, _, removed, left, rfl, ?_⟩
        rw [fenced, is_after]
        exact takes text.capacity (text.len.toNat + 1) (by omega)

/-! ### `startsWith` -/

/-- **The comparison of a string with the characters at a place** asks whether it is a prefix of them. -/
theorem strncmp_spec {first second : Block} {start from' : Nat} {chars pattern : List UInt8}
    (spells : Spells first.bytes start chars) (inside : start + chars.length < first.size)
    (also : Spells second.bytes from' pattern) (room : from' + pattern.length < second.size) :
    ∃ difference, strncmp first start second from' pattern.length = some difference ∧
      (difference = 0 ↔ pattern <+: chars) := by
  induction pattern generalizing chars start from' with
  | nil => exact ⟨0, rfl, iff_of_true rfl (List.nil_prefix)⟩
  | cons char rest ih =>
    obtain ⟨here, nonzero, later⟩ := spells_cons_iff.mp also
    rw [List.length_cons] at room
    rw [List.length_cons, strncmp, if_pos (by omega), here]
    cases chars with
    | nil =>
      have zero := spells_nil_iff.mp spells
      rw [zero, if_pos (Ne.symm nonzero)]
      refine ⟨_, rfl, iff_of_false (fun same => nonzero ?_) (by simp)⟩
      rw [← UInt8.toNat_inj]
      simp only [UInt8.toNat_zero] at same ⊢
      omega
    | cons other more =>
      obtain ⟨there, otherNonzero, further⟩ := spells_cons_iff.mp spells
      rw [List.length_cons] at inside
      rw [there]
      by_cases same : other = char
      · rw [if_neg (not_not.mpr same), if_neg otherNonzero, same]
        simp only [List.cons_prefix_cons, true_and]
        exact ih further (by omega) later (by omega)
      · rw [if_pos same]
        refine ⟨_, rfl, iff_of_false (fun zero => same ?_) fun starts => ?_⟩
        · rw [← UInt8.toNat_inj]
          omega
        · exact same (List.cons_prefix_cons.mp starts).1.symm

/-- The answer that is made of the comparison. -/
theorem strncmp_isPrefix {first second : Block} {start from' : Nat} {chars pattern : List UInt8}
    (spells : Spells first.bytes start chars) (inside : start + chars.length < first.size)
    (also : Spells second.bytes from' pattern) (room : from' + pattern.length < second.size) :
    (strncmp first start second from' pattern.length).map (fun difference => decide (difference = 0)) =
      some (decide (pattern <+: chars)) := by
  obtain ⟨difference, compared, equal⟩ := strncmp_spec spells inside also room
  rw [compared, Option.map_some]
  simp only [equal]

/-- Where both strings have a buffer, the call compares from the offset on, or refuses. -/
theorem startsWithAt_eq {block otherBlock : Block} (buffer : text.buffer = some block)
    (otherBuffer : s2.buffer = some otherBlock) (offset : UInt32) : text.startsWithAt s2 offset =
      if text.len - s2.len < offset then some false
      else (strncmp block offset.toNat otherBlock 0 s2.len.toNat).map fun difference => difference = 0 := by
  simp only [startsWithAt, buffer, otherBuffer, Option.isNone_some, Bool.false_eq_true, or_false,
    Option.bind_some]

/-- A missing buffer starts with nothing, and nothing starts with it. -/
theorem startsWithAt_missing (missing : ¬ (text.buffer.isSome ∧ s2.buffer.isSome)) (offset : UInt32) :
    text.startsWithAt s2 offset = some false := by
  unfold startsWithAt
  rw [if_pos]
  rw [not_and_or, Bool.not_eq_true, Bool.not_eq_true, Option.isSome_eq_false_iff,
    Option.isSome_eq_false_iff] at missing
  exact .inr missing

/-- A string without a buffer has the length zero. -/
theorem Represents.missing (represents : text.Represents value) (missing : ¬ text.buffer.isSome) :
    text.len.toNat = 0 ∧ textOf value = [] := by
  cases value with
  | none =>
    rw [show text = invalid from represents]
    exact ⟨rfl, rfl⟩
  | some chars =>
    obtain ⟨block, holds⟩ := represents
    rw [holds.buffer] at missing
    exact absurd rfl missing

/-- Where a buffer is missing, the answer is right unless nothing is looked for in the text. -/
theorem startsRight_missing_iff (represents : text.Represents value)
    (s2Represents : s2.Represents other) (missing : ¬ (text.buffer.isSome ∧ s2.buffer.isSome))
    (offset : UInt32) :
    text.StartsRight s2 value other offset ↔ ¬ (s2.len = 0 ∧ offset ≤ text.len) := by
  have refused := startsWithAt_missing missing offset
  have fenced : (text.fence text.len.toNat).startsWithAt (s2.fence s2.len.toNat) offset = some false :=
    startsWithAt_missing (by simpa [fence] using missing) offset
  have starts : (offset.toNat + s2.len.toNat ≤ text.len.toNat ∧
      textOf other <+: (textOf value).drop offset.toNat) ↔ s2.len = 0 ∧ offset ≤ text.len := by
    have otherLen := s2Represents.len
    rw [← UInt32.toNat_inj, UInt32.toNat_zero, UInt32.le_iff_toNat_le]
    constructor
    · rintro ⟨inside, -⟩
      rcases not_and_or.mp missing with first | second
      · have none := (represents.missing first).1
        omega
      · have none := (s2Represents.missing second).1
        omega
    · rintro ⟨empty, inside⟩
      have nothing : textOf other = [] := List.eq_nil_of_length_eq_zero (otherLen.symm.trans empty)
      exact ⟨by omega, nothing ▸ List.nil_prefix⟩
  rw [← starts]
  constructor
  · rintro ⟨answer, found, right, -⟩ inside
    rw [refused] at found
    obtain rfl := Option.some.inj found
    exact Bool.false_ne_true (right.mpr inside)
  · intro outside
    exact ⟨false, refused, iff_of_false Bool.false_ne_true outside, fenced⟩

/-- Where both buffers are there, the comparison is to be made in the text. -/
theorem startsRight_both_iff {block otherBlock : Block} {chars pattern : List UInt8}
    (holds : text.Holds block chars) (otherHolds : s2.Holds otherBlock pattern) (offset : UInt32) :
    text.StartsRight s2 (some chars) (some pattern) offset ↔
      offset ≤ text.len ∨ s2.len ≤ text.len ∨ text.len - s2.len < offset := by
  have len := holds.len
  have fits := holds.fits
  have size := holds.size
  have otherLen := otherHolds.len
  have otherFits := otherHolds.fits
  have otherSize := otherHolds.size
  have call := startsWithAt_eq holds.buffer otherHolds.buffer offset
  have fencedCall : (text.fence text.len.toNat).startsWithAt (s2.fence s2.len.toNat) offset =
      if text.len - s2.len < offset then some false
      else (strncmp { block with size := text.len.toNat + 1 } offset.toNat
        { otherBlock with size := s2.len.toNat + 1 } 0 s2.len.toNat).map
          fun difference => difference = 0 :=
    startsWithAt_eq (congrArg (Option.map _) holds.buffer) (congrArg (Option.map _) otherHolds.buffer)
      offset
  have short : pattern <+: chars.drop offset.toNat →
      pattern = [] ∨ offset.toNat + s2.len.toNat ≤ text.len.toNat := by
    intro starts
    have room := starts.length_le
    rw [List.length_drop] at room
    rcases Nat.eq_zero_or_pos pattern.length with none | positive
    · exact .inl (List.eq_nil_of_length_eq_zero none)
    · exact .inr (by omega)
  by_cases refused : text.len - s2.len < offset
  · refine iff_of_true ?_ (.inr (.inr refused))
    rw [if_pos refused] at call fencedCall
    refine ⟨false, call, iff_of_false Bool.false_ne_true ?_, fencedCall⟩
    rintro ⟨inside, -⟩
    rw [UInt32.lt_iff_toNat_lt, UInt32.toNat_sub_of_le _ _ (UInt32.le_iff_toNat_le.mpr (by omega))] at refused
    omega
  · rw [if_neg refused] at call fencedCall
    by_cases inText : offset.toNat ≤ text.len.toNat
    · refine iff_of_true ?_ (.inl (UInt32.le_iff_toNat_le.mpr inText))
      have suffix := holds.spells.drop (show offset.toNat ≤ chars.length by omega)
      rw [Nat.zero_add] at suffix
      have suffixLength : (chars.drop offset.toNat).length = chars.length - offset.toNat :=
        List.length_drop
      rw [otherLen, strncmp_isPrefix suffix (by omega) otherHolds.spells (by omega)] at call
      rw [otherLen, @strncmp_isPrefix { block with size := text.len.toNat + 1 }
        { otherBlock with size := pattern.length + 1 } _ _ _ _ suffix (by dsimp only; omega)
        otherHolds.spells (by dsimp only; omega)] at fencedCall
      refine ⟨_, call, ?_, otherLen ▸ fencedCall⟩
      rw [decide_eq_true_iff, textOf, textOf, Option.getD_some, Option.getD_some]
      refine ⟨fun starts => ⟨?_, starts⟩, And.right⟩
      rcases short starts with rfl | inside
      · rw [List.length_nil] at otherLen
        omega
      · exact inside
    · have behind : ¬ offset ≤ text.len := fun inside => inText (UInt32.le_iff_toNat_le.mp inside)
      have longer : ¬ s2.len ≤ text.len := by
        intro less
        have exactly := UInt32.toNat_sub_of_le _ _ less
        rw [UInt32.lt_iff_toNat_lt, exactly] at refused
        omega
      refine iff_of_false ?_ (by simp only [behind, longer, refused, or_false, not_false_eq_true])
      rintro ⟨answer, -, -, fenced⟩
      rw [UInt32.le_iff_toNat_le] at longer
      obtain ⟨more, is_more⟩ := Nat.exists_eq_succ_of_ne_zero (show s2.len.toNat ≠ 0 by omega)
      rw [fencedCall, is_more, strncmp, if_neg (by dsimp only; omega)] at fenced
      cases fenced

/-- **The form without an offset** compares the lengths first, so its comparison is in the text. -/
theorem startsWith_isPrefix {block otherBlock : Block} {chars pattern : List UInt8}
    (holds : text.Holds block chars) (otherHolds : s2.Holds otherBlock pattern) :
    ∃ answer, text.startsWith s2 = some answer ∧ (answer = true ↔ pattern <+: chars) := by
  have len := holds.len
  have otherLen := otherHolds.len
  unfold startsWith
  split_ifs with longer
  · rw [UInt32.lt_iff_toNat_lt] at longer
    refine ⟨false, rfl, iff_of_false Bool.false_ne_true fun starts => ?_⟩
    have room := starts.length_le
    omega
  · rw [UInt32.lt_iff_toNat_lt, Nat.not_lt] at longer
    obtain ⟨answer, found, right, -⟩ := (startsRight_both_iff holds otherHolds 0).mpr
      (.inr (.inl (UInt32.le_iff_toNat_le.mpr longer)))
    rw [UInt32.toNat_zero, Nat.zero_add] at right
    exact ⟨answer, found, right.trans (and_iff_right longer)⟩

/-- **`startsWith` is right exactly when the comparison is made in the text.** -/
theorem startsRight_iff (represents : text.Represents value) (s2Represents : s2.Represents other)
    (offset : UInt32) :
    text.StartsRight s2 value other offset ↔ text.ComparesInside s2 offset := by
  unfold ComparesInside
  split_ifs with buffers
  · obtain ⟨some_text, some_other⟩ := buffers
    cases value with
    | none =>
      rw [show text = invalid from represents] at some_text
      exact absurd some_text Bool.false_ne_true
    | some chars =>
      cases other with
      | none =>
        rw [show s2 = invalid from s2Represents] at some_other
        exact absurd some_other Bool.false_ne_true
      | some pattern =>
        obtain ⟨block, holds⟩ := represents
        obtain ⟨otherBlock, otherHolds⟩ := s2Represents
        exact startsRight_both_iff holds otherHolds offset
  · exact startsRight_missing_iff represents s2Represents buffers offset

/-- **A range is taken out exactly when its end does not wrap, and a string is compared rightly exactly when
the comparison is made in the text**, neither with an access behind the zero of a text. -/
theorem ranges_right_iff (represents : text.Represents value) (s2Represents : s2.Represents other)
    (index count offset : UInt32) :
    (text.RemovesRange value index count ↔ text.EndsInside index count) ∧
      (text.StartsRight s2 value other offset ↔ text.ComparesInside s2 offset) :=
  ⟨removesRange_iff represents index count, startsRight_iff represents s2Represents offset⟩

/-- The two middle letters of a word of four, and its last two. -/
theorem ranges_right_iff_word :
    (literal [119, 111, 114, 100]).RemovesRange (some [119, 111, 114, 100]) 1 2 ∧
      (literal [119, 111, 114, 100]).StartsRight (literal [114, 100]) (some [119, 111, 114, 100])
        (some [114, 100]) 2 := by
  obtain ⟨removes, starts⟩ := ranges_right_iff
    (literal_represents (show 0 ∉ [119, 111, 114, 100] by decide) (by decide))
    (literal_represents (show 0 ∉ [114, 100] by decide) (by decide)) 1 2 2
  exact ⟨removes.mpr (by decide), starts.mpr (by decide)⟩

/-- **A count of 2³² − 1 makes the string longer**, and a needle longer than the string is compared behind
it. -/
theorem ranges_wrap :
    ¬ (∀ (text : WString) (value : Option (List UInt8)) (index count : UInt32),
        text.len.toNat < 2 ^ 31 → text.Represents value → text.RemovesRange value index count) ∧
      ¬ ∀ (text s2 : WString) (value other : Option (List UInt8)) (offset : UInt32),
        text.len.toNat < 2 ^ 31 → text.Represents value → s2.Represents other →
        text.StartsRight s2 value other offset := by
  have word := literal_represents (show 0 ∉ [119, 111] by decide) (by decide)
  have longer := literal_represents (show 0 ∉ [119, 111, 119] by decide) (by decide)
  constructor
  · intro always
    have removes := always (literal [119, 111]) _ 1 0xFFFFFFFF (by decide) word
    exact absurd ((removesRange_iff word 1 0xFFFFFFFF).mp removes) (by decide)
  · intro always
    have starts := always (literal [119, 111]) (literal [119, 111, 119]) _ _ 3 (by decide) word longer
    exact absurd ((startsRight_iff word longer 3).mp starts) (by decide)

end WString

end PrimoCore.Text
