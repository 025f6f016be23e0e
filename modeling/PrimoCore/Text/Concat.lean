/-
**`concat` of a part of the string itself.**

The argument of `concat` may be the string itself, or a pointer into its buffer. `reserve` may move the
buffer before the argument is read; where it does not, the copy stores over the zero that ends its source.

* `Pointer`, `concatFrom`, `Argument`, `concatArgument` — the code, with the pointers it is given.
* `concatFrom_elsewhere` — of a string that lies elsewhere, it is `concat`.
* `concatFrom_own` — of a string that starts in the text, it has no result once memory is granted.
* `concat_right_iff` — **a call appends its argument exactly when** this does not start at a character of
  the text, or no memory is granted.
-/

import PrimoCore.Text.WString

namespace PrimoCore.Text

open PrimoCore.Lib

/-- What `realloc` answers, and whether the block it answers is at another place. -/
structure Realloc where
  answer : Answer
  moved : Bool

/-- A `const char *`: NULL, a string that lies elsewhere, or a place in the buffer of the string. -/
inductive Pointer where
  | null
  | elsewhere (chars : Option (List UInt8))
  | own (offset : Nat)

namespace WString

/-- Whether `reserve` leaves the buffer at another place. -/
def moves (text : WString) (size : UInt32) (answer : Realloc) : Bool :=
  !(text.buffer.isSome ∧ size ≤ text.capacity) && answer.moved

/-- `strcpy` into the buffer. A place in a buffer that has been moved is one in memory that is free. -/
def copyFrom (block : Block) (target : Nat) (moved : Bool) : Pointer → Option Block
  | .null => none
  | .elsewhere chars => chars.bind fun chars => block.strcpy target chars
  | .own offset => if moved then none else block.strcpyWithin target offset

/-- `concat` of a C string of a length that is given. -/
def concatFrom (text : WString) (cstr : Pointer) (length : UInt32) (answer : Realloc) :
    Option (WString × Bool) :=
  let newlen := text.len + length
  match cstr with
  | .null => some (text, false)
  | cstr =>
      if length = 0 then some (text, true)
      else match text.reserve newlen answer.answer with
        | none => none
        | some (after, false) => some (after, false)
        | some (after, true) =>
            (after.onBuffer fun block =>
              copyFrom block after.len.toNat (text.moves newlen answer) cstr).map
                fun after => ({ after with len := newlen }, true)

end WString

/-- An argument of `concat`: another string, the string itself, a C string that lies elsewhere or is NULL,
or a pointer into the buffer of the string. -/
inductive Argument where
  | string (s : WString)
  | itself
  | cstr (cstr : Option CStr)
  | inside (offset : Nat)

namespace WString

/-- The buffer of another string, as a pointer. -/
def pointer (s : WString) : Pointer :=
  match s.charPtr with
  | none => .null
  | some chars => .elsewhere chars

/-- `concat` of a `String` and of a C string. `operator +=` calls it. -/
def concatArgument (text : WString) (argument : Argument) (answer : Realloc) :
    Option (WString × Bool) :=
  match argument with
  | .string s => text.concatFrom s.pointer s.len answer
  | .itself => text.concatFrom (if text.buffer.isSome then .own 0 else .null) text.len answer
  | .cstr none => some (text, false)
  | .cstr (some cstr) => text.concatFrom (.elsewhere (some cstr.chars)) cstr.strlen answer
  | .inside offset =>
      (text.buffer.bind fun block => block.text offset).bind fun chars =>
        text.concatFrom (.own offset) (.ofNat chars.length) answer

end WString

/-- **What the argument is**, as a text. A string that lies elsewhere is in memory together with this
one. -/
def Argument.Reads (text : WString) : Argument → List UInt8 → Prop
  | .string s, chars => (∃ other, s.Represents other ∧ WString.textOf other = chars) ∧
      text.len.toNat + chars.length + 1 < UInt32.size
  | .itself, chars => ∃ value, text.Represents value ∧ WString.textOf value = chars
  | .cstr given, chars => (given.elim [] CStr.chars) = chars ∧
      text.len.toNat + chars.length + 1 < UInt32.size
  | .inside offset, chars => ∃ block ∈ text.buffer, block.text offset = some chars

namespace WString

/-- **The call is right**: it accesses nothing that is free or outside a block, and when it succeeds it
leaves the old text with the argument behind it. -/
def Appends (value : Option (List UInt8)) (chars : List UInt8) (result : Option (WString × Bool)) :
    Prop :=
  ∃ after success, result = some (after, success) ∧
    (success = true → ∃ last, after.Represents last ∧ textOf last = textOf value ++ chars)

/-- The string has room for a text of a size, or is given it. The largest size, with its zero, is a request
for nothing. -/
def Obtains (text : WString) (size : UInt32) (answer : Answer) : Prop :=
  (text.buffer.isSome ∧ size ≤ text.capacity) ∨ (size + 1 ≠ 0 ∧ answer.isSome)

/-- **The argument starts at a character of the text**, and there is memory to append it. -/
def Overlaps (text : WString) (answer : Realloc) : Argument → Prop
  | .itself => 0 < text.len.toNat ∧ text.Obtains (text.len + text.len) answer.answer
  | .inside offset => offset < text.len.toNat ∧
      text.Obtains (text.len + (text.len - .ofNat offset)) answer.answer
  | .string _ | .cstr _ => False

instance (text : WString) (size : UInt32) (answer : Answer) : Decidable (text.Obtains size answer) :=
  inferInstanceAs (Decidable (_ ∨ _))

instance (text : WString) (answer : Realloc) (argument : Argument) :
    Decidable (text.Overlaps answer argument) :=
  match argument with
  | .itself | .inside _ => inferInstanceAs (Decidable (_ ∧ _))
  | .string _ | .cstr _ => inferInstanceAs (Decidable False)

variable {text : WString} {value : Option (List UInt8)}

/-! ### Strings elsewhere -/

/-- Where the argument lies elsewhere, it does not matter whether the buffer is moved. -/
theorem concatFrom_elsewhere (text : WString) (chars : Option (List UInt8)) (length : UInt32)
    (answer : Realloc) :
    text.concatFrom (.elsewhere chars) length answer = text.concat (some chars) length answer.answer := by
  unfold concatFrom concat
  rfl

/-- A string that lies elsewhere is appended. -/
theorem elsewhere_appends (represents : text.Represents value) {chars : List UInt8}
    (proper : 0 ∉ chars) {length : UInt32} (len : length.toNat = chars.length)
    (bounded : text.len.toNat + chars.length + 1 < UInt32.size) (answer : Realloc) :
    Appends value chars (text.concatFrom (.elsewhere (some chars)) length answer) := by
  rw [concatFrom_elsewhere]
  rcases concat_appends represents proper len (by rwa [len]) answer.answer with
    ⟨after, last, appended, holds, whole⟩ | failed
  · exact ⟨after, true, appended, fun _ => ⟨last, holds, whole⟩⟩
  · exact ⟨text, false, failed, fun success => absurd success Bool.false_ne_true⟩

/-! ### Strings in the buffer -/

section Own

variable {block : Block} {chars : List UInt8} (holds : text.Holds block chars) {offset : Nat}
  {length : UInt32} (nonempty : length ≠ 0)

include holds nonempty

/-- **A string that starts in the text** is not read to its end: the buffer has been moved, or its zero is
stored over. -/
theorem concatFrom_own (inText : offset < chars.length) (answer : Realloc) :
    (text.Obtains (text.len + length) answer.answer →
      text.concatFrom (.own offset) length answer = none) ∧
    (¬ text.Obtains (text.len + length) answer.answer →
      ∃ after, text.concatFrom (.own offset) length answer = some (after, false)) := by
  have represents : text.Represents (some chars) := ⟨block, holds⟩
  unfold concatFrom
  simp only [if_neg nonempty]
  by_cases largest : (text.len + length).toNat + 1 < UInt32.size
  · have proper : text.len + length + 1 ≠ 0 := fun zero => by
      have whole := toNat_succ largest
      rw [zero] at whole
      exact absurd whole (Nat.succ_ne_zero _).symm
    have granted : text.Obtains (text.len + length) answer.answer ↔
        text.Grants (text.len + length) answer.answer :=
      or_congr_right (and_iff_right proper)
    rw [granted]
    rcases reserve_represents represents largest answer.answer with
      ⟨grants, grown, last, reserved, grownHolds, -⟩ | ⟨refused, failed⟩
    · refine ⟨fun _ => ?_, fun refused => absurd grants refused⟩
      have none : copyFrom last grown.len.toNat (text.moves (text.len + length) answer)
          (.own offset) = none := by
        have len : grown.len.toNat = chars.length := grownHolds.len
        unfold copyFrom
        split_ifs
        · rfl
        · refine Block.strcpyWithin_up (len ▸ inText) fun position _ less => ?_
          rw [← Nat.zero_add position]
          exact grownHolds.spells.ne_zero (len ▸ less)
      rw [reserved]
      simp only [onBuffer, grownHolds.buffer, Option.bind_some, none, Option.map_none]
    · refine ⟨fun grants => absurd grants refused, fun _ => ⟨text, ?_⟩⟩
      rw [failed]
  · have nothing : ¬ text.Obtains (text.len + length) answer.answer := by
      have bounded := holds.bounded
      rintro (⟨-, room⟩ | ⟨proper, -⟩)
      · have enough := UInt32.le_iff_toNat_le.mp room
        omega
      · exact proper (succ_eq_zero largest)
    refine ⟨fun granted => absurd granted nothing, fun _ => ⟨{ text with buffer := some block.free }, ?_⟩⟩
    rw [reserve_frees holds largest]

/-- A string behind the text fits in the buffer, and is copied down. -/
theorem concatFrom_behind {rest : List UInt8} (behind : chars.length < offset)
    (spells : Spells block.bytes offset rest) (inside : offset + rest.length < block.size)
    (len : length.toNat = rest.length) (answer : Realloc) :
    Appends (some chars) rest (text.concatFrom (.own offset) length answer) := by
  have size := holds.size
  have textLen := holds.len
  have capacity := text.capacity.toNat_lt
  have total : (text.len + length).toNat = chars.length + rest.length := by
    rw [UInt32.toNat_add]
    omega
  have room : text.len + length ≤ text.capacity := by
    rw [UInt32.le_iff_toNat_le]
    omega
  have reserved : text.reserve (text.len + length) answer.answer = some (text, true) :=
    if_pos ⟨by rw [holds.buffer]; rfl, room⟩
  have stays : text.moves (text.len + length) answer = false := by
    simp [moves, holds.buffer, room]
  unfold concatFrom
  simp only [if_neg nonempty, reserved, onBuffer, holds.buffer, Option.bind_some, stays, copyFrom,
    Bool.false_eq_true, if_false]
  rw [Block.strcpyWithin_down spells (by omega) inside]
  exact ⟨_, true, rfl, fun _ =>
    ⟨some (chars ++ rest), ⟨_, appended_holds holds spells.proper total room⟩, rfl⟩⟩

end Own

/-- What starts in the text is appended only if it is refused. -/
theorem own_appends_iff {block : Block} {chars rest : List UInt8} (holds : text.Holds block chars)
    {offset : Nat} (inText : offset < chars.length) {length : UInt32} (nonempty : length ≠ 0)
    (answer : Realloc) :
    Appends (some chars) rest (text.concatFrom (.own offset) length answer) ↔
      ¬ text.Obtains (text.len + length) answer.answer := by
  obtain ⟨faults, fails⟩ := concatFrom_own holds nonempty inText answer
  constructor
  · rintro ⟨after, success, result, -⟩ granted
    rw [faults granted] at result
    cases result
  · intro refused
    obtain ⟨after, failed⟩ := fails refused
    exact ⟨after, false, failed, fun success => absurd success Bool.false_ne_true⟩

/-! ### Every argument -/

/-- An empty part of the text. -/
theorem concatFrom_empty (text : WString) (offset : Nat) {length : UInt32} (empty : length = 0)
    (answer : Realloc) : text.concatFrom (.own offset) length answer = some (text, true) :=
  if_pos empty

/-- Nothing is appended where there is nothing to append. -/
theorem appends_nothing (represents : text.Represents value) {success : Bool} :
    Appends value [] (some (text, success)) :=
  ⟨text, success, rfl, fun _ => ⟨value, represents, (List.append_nil _).symm⟩⟩

/-- The string itself is a pointer to the start of its text. -/
theorem itself_appends_iff (represents : text.Represents value) (answer : Realloc) :
    Appends value (textOf value) (text.concatArgument .itself answer) ↔
      ¬ text.Overlaps answer .itself := by
  cases value with
  | none =>
    have nothing : invalid.Represents none := rfl
    rw [show text = invalid from represents]
    exact iff_of_true (appends_nothing nothing) fun overlaps => absurd overlaps.1 (Nat.lt_irrefl 0)
  | some chars =>
    have ⟨block, holds⟩ := represents
    have len := holds.len
    have pointer : (if text.buffer.isSome then Pointer.own 0 else .null) = .own 0 := by
      rw [holds.buffer]
      rfl
    show Appends _ chars (text.concatFrom (if text.buffer.isSome then .own 0 else .null) _ _) ↔ _
    rw [pointer, Overlaps, len]
    by_cases empty : text.len = 0
    · have nothing : chars = [] := by
        rw [empty] at len
        exact List.eq_nil_of_length_eq_zero len.symm
      subst nothing
      refine iff_of_true ?_ fun overlaps => absurd overlaps.1 (Nat.lt_irrefl 0)
      rw [concatFrom_empty text 0 empty]
      exact appends_nothing represents
    · have some_chars : 0 < chars.length := by
        rw [← len]
        exact Nat.pos_of_ne_zero fun zero => empty (UInt32.toNat_inj.mp zero)
      rw [own_appends_iff holds some_chars empty, and_iff_right some_chars]

/-- A pointer into the buffer points to the rest of the text, or to a string behind it. -/
theorem inside_appends_iff (represents : text.Represents value) {offset : Nat} {rest : List UInt8}
    (reads : Argument.Reads text (.inside offset) rest) (answer : Realloc) :
    Appends value rest (text.concatArgument (.inside offset) answer) ↔
      ¬ text.Overlaps answer (.inside offset) := by
  obtain ⟨block, is_buffer, read⟩ := reads
  have buffer : text.buffer = some block := is_buffer
  cases value with
  | none =>
    rw [show text = invalid from represents] at buffer
    cases buffer
  | some chars =>
    have ⟨other, holds⟩ := represents
    obtain rfl := Option.some.inj (buffer.symm.trans holds.buffer)
    obtain ⟨spells, short⟩ := readText_eq_some_iff.mp read
    have len := holds.len
    have size := holds.size
    have bounded := holds.bounded
    have length : (UInt32.ofNat rest.length).toNat = rest.length :=
      UInt32.toNat_ofNat_of_lt' (by omega)
    show Appends _ rest ((text.buffer.bind fun block => block.text offset).bind fun chars =>
      text.concatFrom (.own offset) (.ofNat chars.length) answer) ↔ _
    rw [buffer, Option.bind_some, read, Option.bind_some, Overlaps]
    rcases Nat.lt_or_ge offset chars.length with inText | behind
    · have suffix := holds.spells.drop (Nat.le_of_lt inText)
      rw [Nat.zero_add] at suffix
      have restLength : rest.length = chars.length - offset := by
        rw [spells.unique suffix, List.length_drop]
      have nonempty : UInt32.ofNat rest.length ≠ 0 := fun zero => by
        rw [zero] at length
        change 0 = rest.length at length
        omega
      have same : text.len - UInt32.ofNat offset = UInt32.ofNat rest.length := by
        have small : (UInt32.ofNat offset).toNat = offset := UInt32.toNat_ofNat_of_lt' (by omega)
        rw [← UInt32.toNat_inj, length, UInt32.toNat_sub_of_le _ _ (UInt32.le_iff_toNat_le.mpr (by omega)),
          small]
        omega
      rw [own_appends_iff holds inText nonempty, same, and_iff_right (len ▸ inText)]
    · refine iff_of_true ?_ fun overlaps => absurd overlaps.1 (by omega)
      by_cases empty : UInt32.ofNat rest.length = 0
      · have nothing : rest = [] := by
          rw [empty] at length
          exact List.eq_nil_of_length_eq_zero length.symm
        rw [concatFrom_empty text offset empty, nothing]
        exact appends_nothing represents
      · have later : chars.length < offset := by
          refine Nat.lt_of_le_of_ne behind fun atEnd => empty ?_
          have zero := holds.spells.terminated
          rw [Nat.zero_add, atEnd] at zero
          rw [spells.unique (spells_nil_iff.mpr zero)]
          rfl
        exact concatFrom_behind holds empty later spells (by omega) length answer

/-- **A call of `concat` or `+=` leaves the text with the argument behind it, and accesses nothing that is
free or outside a block, exactly when** the argument does not start at a character of the text, or there is
no memory for the result. -/
theorem concat_right_iff (represents : text.Represents value) (argument : Argument)
    {chars : List UInt8} (reads : argument.Reads text chars) (answer : Realloc) :
    Appends value chars (text.concatArgument argument answer) ↔ ¬ text.Overlaps answer argument := by
  cases argument with
  | string s =>
    obtain ⟨⟨other, sRepresents, rfl⟩, inMemory⟩ := reads
    refine iff_of_true ?_ id
    show Appends _ _ (text.concatFrom s.pointer s.len answer)
    unfold pointer
    rw [sRepresents.charPtr]
    cases other with
    | none => exact appends_nothing represents
    | some chars => exact elsewhere_appends represents sRepresents.proper sRepresents.len inMemory answer
  | itself =>
    obtain ⟨other, also, rfl⟩ := reads
    rw [Represents.unique also represents]
    exact itself_appends_iff represents answer
  | cstr given =>
    obtain ⟨rfl, inMemory⟩ := reads
    refine iff_of_true ?_ id
    cases given with
    | none => exact appends_nothing represents
    | some given =>
      have strlen : given.strlen.toNat = given.chars.length := by
        change text.len.toNat + given.chars.length + 1 < UInt32.size at inMemory
        exact UInt32.toNat_ofNat_of_lt' (by omega)
      exact elsewhere_appends represents given.terminated strlen inMemory answer
  | inside offset => exact inside_appends_iff represents reads answer

/-- Another string is appended, in a buffer that is moved. -/
theorem concat_right_iff_other : Appends (some [97, 98]) [99]
    ((literal [97, 98]).concatArgument (.string (literal [99])) ⟨some fun _ => 85, true⟩) :=
  (concat_right_iff (literal_represents (show 0 ∉ [97, 98] by decide) (by decide))
    (.string (literal [99]))
    ⟨⟨some [99], literal_represents (show 0 ∉ [99] by decide) (by decide), rfl⟩, by decide⟩
    ⟨some fun _ => 85, true⟩).mpr id

/-- **A string that is appended to itself** is read where its buffer was, or without an end. -/
theorem concat_itself_faults :
    ¬ ∀ (text : WString) (value : Option (List UInt8)) (argument : Argument) (chars : List UInt8)
      (answer : Realloc), text.Represents value → argument.Reads text chars →
      Appends value chars (text.concatArgument argument answer) := by
  intro always
  have represents := literal_represents (show 0 ∉ [97, 98] by decide) (by decide)
  obtain ⟨after, success, result, -⟩ := always (literal [97, 98]) (some [97, 98]) .itself [97, 98]
    ⟨some fun _ => 85, true⟩ represents ⟨_, represents, rfl⟩
  have faults : (literal [97, 98]).concatArgument .itself ⟨some fun _ => 85, true⟩ = none := by decide
  rw [faults] at result
  cases result

/-- Without a move the copy runs out of the block as well. -/
example : (literal [97, 98]).concatArgument .itself ⟨some fun _ => 85, false⟩ = none := by decide

end WString

end PrimoCore.Text
