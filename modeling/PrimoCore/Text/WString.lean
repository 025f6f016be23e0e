/-
**The `String` class.**

A `String` has a buffer on the heap, its capacity and the length of its text. An operation that
dereferences a NULL buffer, or reads or writes outside a block, has no result here. What `realloc` answers
is a parameter of each call: nothing, or what the new bytes of the block hold.

* `WString` — the three members; `reserve`, `copy`, `move`, `concat` and the rest — the code.
* `ltoa`, `ultoa` — the digits of a number, in a base.
* `Represents` — **what a `String` stands for**: nothing, or the text its buffer spells.
* `reserve_represents`, `copy_represents` and so on — what each operation makes of it.
-/

import Mathlib.Data.Nat.Digits.Defs
import Mathlib.Tactic.SplitIfs
import PrimoCore.Lib.CStr

namespace PrimoCore.Text

open PrimoCore.Lib

/-- A C string: the characters in front of its zero. -/
structure CStr where
  chars : List UInt8
  terminated : 0 ∉ chars

/-- `strlen`. -/
def CStr.strlen (text : CStr) : UInt32 := UInt32.ofNat text.chars.length

/-- A C string without characters. -/
def CStr.empty : CStr := ⟨[], List.not_mem_nil⟩

/-- A `const char *`: NULL, or the string it points to, if one ends inside its block. -/
abbrev CharPtr := Option (Option (List UInt8))

/-- What `realloc` answers: nothing, or a block with these bytes where there were none. -/
abbrev Answer := Option (Memory UInt8)

/-- `String`. -/
structure WString where
  buffer : Option Block
  capacity : UInt32
  len : UInt32

/-! ### Characters and digits -/

def isspace (char : UInt8) : Bool := char = 32 || 9 ≤ char && char ≤ 13

def tolower (char : UInt8) : UInt8 := if 65 ≤ char ∧ char ≤ 90 then char + 32 else char

def toupper (char : UInt8) : UInt8 := if 97 ≤ char ∧ char ≤ 122 then char - 32 else char

/-- The character of a digit below 36. -/
def digitChar (digit : Nat) : UInt8 := UInt8.ofNat (if digit < 10 then digit + 48 else digit + 87)

/-- The digits of a number, the highest first. -/
def digitChars (value radix : Nat) : List UInt8 :=
  if value = 0 then [48] else (Nat.digits radix value).reverse.map digitChar

theorem digitChars_proper {value radix : Nat} (low : 1 < radix) (high : radix ≤ 36) :
    0 ∉ digitChars value radix := by
  have nonzero : ∀ digit < 36, digitChar digit ≠ 0 := by decide
  unfold digitChars
  split_ifs
  · decide
  · intro zero
    obtain ⟨digit, member, same⟩ := List.mem_map.mp zero
    have small := Nat.digits_lt_base low (List.mem_reverse.mp member)
    exact nonzero digit (by omega) same

/-- `ultoa`: a base it does not know leaves the buffer as it was. -/
def ultoa (value : UInt32) (radix : UInt8) (uninit : CStr) : CStr :=
  if known : 1 < radix.toNat ∧ radix.toNat ≤ 36 then
    ⟨digitChars value.toNat radix.toNat, digitChars_proper known.1 known.2⟩
  else uninit

/-- `ltoa`: a negative number has a sign in base ten, and is read as unsigned in the others. -/
def ltoa (value : Int32) (radix : UInt8) (uninit : CStr) : CStr :=
  if radix = 10 ∧ value < 0 then
    ⟨45 :: digitChars (-value).toUInt32.toNat 10, by
      rw [List.mem_cons, not_or]
      exact ⟨by decide, digitChars_proper (by decide) (by decide)⟩⟩
  else ultoa value.toUInt32 radix uninit

namespace WString

/-! ### Memory -/

/-- `init`. -/
def invalid : WString := ⟨none, 0, 0⟩

/-- The buffer as an argument. -/
def charPtr (text : WString) : CharPtr := text.buffer.map fun block => block.text 0

/-- A change of the buffer; there is none at NULL. -/
def onBuffer (text : WString) (change : Block → Option Block) : Option WString :=
  (text.buffer.bind change).map fun block => { text with buffer := some block }

/-- `realloc`: the pointer it returns, and what the old pointer points to from then on. A request for no
bytes frees the block, and is answered NULL. -/
def realloc (buffer : Option Block) (size : UInt32) (answer : Answer) : Option Block × Option Block :=
  match buffer, answer with
  | none, some fresh => (some ⟨fresh, size.toNat⟩, none)
  | none, none => (none, none)
  | some block, answer =>
      if size = 0 then (none, some block.free)
      else match answer with
        | some fresh =>
            (some ⟨fun index => if index < block.size ∧ index < size.toNat then block.bytes index
              else fresh index, size.toNat⟩, some block.free)
        | none => (none, some block)

/-- `changeBuffer`. The size that is asked for is a 32-bit sum. -/
def changeBuffer (text : WString) (maxStrLen : UInt32) (answer : Answer) : WString × Bool :=
  match realloc text.buffer (maxStrLen + 1) answer with
  | (some newbuffer, _) => ({ text with buffer := some newbuffer, capacity := maxStrLen }, true)
  | (none, old) => ({ text with buffer := old }, false)

/-- `reserve`. -/
def reserve (text : WString) (size : UInt32) (answer : Answer) : Option (WString × Bool) :=
  if text.buffer.isSome ∧ size ≤ text.capacity then some (text, true)
  else
    let (text, changed) := text.changeBuffer size answer
    if changed then
      if text.len = 0 then (text.onBuffer fun block => block.write 0 [0]).map (·, true)
      else some (text, true)
    else some (text, false)

/-! ### Copy and move -/

/-- `copy`. -/
def copy (text : WString) (cstr : Option (List UInt8)) (length : UInt32) (answer : Answer) :
    Option WString :=
  match text.reserve length answer with
  | none => none
  | some (_, false) => some invalid
  | some (text, true) =>
      { text with len := length }.onBuffer fun block => cstr.bind fun chars => block.strcpy 0 chars

/-- `move`: the string, and the one it is moved from. -/
def move (text rhs : WString) : Option (WString × WString) :=
  if text.buffer.isSome ∧ rhs.len ≤ text.capacity then
    (rhs.buffer.bind fun block =>
      text.onBuffer fun target => (block.text 0).bind fun chars => target.strcpy 0 chars).map
        fun text => ({ text with len := rhs.len }, { rhs with len := 0 })
  else some (rhs, invalid)

/-- `operator =` of another `String`. -/
def assign (text rhs : WString) (answer : Answer) : Option WString :=
  match rhs.buffer with
  | some block => text.copy (block.text 0) rhs.len answer
  | none => some invalid

/-- `operator =` of a C string. -/
def assignCString (text : WString) (cstr : CharPtr) (answer : Answer) : Option WString :=
  match cstr with
  | some (some chars) => text.copy (some chars) (UInt32.ofNat chars.length) answer
  | some none => none
  | none => some invalid

/-! ### Constructors -/

def fromCString (cstr : Option CStr) (answer : Answer) : Option WString :=
  match cstr with
  | some cstr => invalid.copy (some cstr.chars) cstr.strlen answer
  | none => some invalid

def fromString (value : WString) (answer : Answer) : Option WString := invalid.assign value answer

def fromMoved (rval : WString) : Option (WString × WString) := invalid.move rval

/-- The string in the local array of the constructor and the `concat` of a character. -/
def charText (c : UInt8) : List UInt8 := if c = 0 then [] else [c]

def fromChar (c : UInt8) (answer : Answer) : Option WString :=
  invalid.assignCString (some (some (charText c))) answer

/-- The constructors from `unsigned char`, `unsigned int` and `unsigned long`. -/
def fromUnsigned (value : UInt32) (base : UInt8) (uninit : CStr) (answer : Answer) : Option WString :=
  invalid.assignCString (some (some (ultoa value base uninit).chars)) answer

/-- The constructors from `int` and `long`. -/
def fromSigned (value : Int32) (base : UInt8) (uninit : CStr) (answer : Answer) : Option WString :=
  invalid.assignCString (some (some (ltoa value base uninit).chars)) answer

/-! ### Concatenation -/

/-- `concat` of a C string of a length that is given. -/
def concat (text : WString) (cstr : CharPtr) (length : UInt32) (answer : Answer) :
    Option (WString × Bool) :=
  let newlen := text.len + length
  match cstr with
  | none => some (text, false)
  | some chars =>
      if length = 0 then some (text, true)
      else match text.reserve newlen answer with
        | none => none
        | some (text, false) => some (text, false)
        | some (text, true) =>
            (text.onBuffer fun block => chars.bind fun chars =>
              block.strcpy text.len.toNat chars).map fun text => ({ text with len := newlen }, true)

def concatString (text s : WString) (answer : Answer) : Option (WString × Bool) :=
  text.concat s.charPtr s.len answer

def concatCString (text : WString) (cstr : Option CStr) (answer : Answer) :
    Option (WString × Bool) :=
  match cstr with
  | some cstr => text.concat (some (some cstr.chars)) cstr.strlen answer
  | none => some (text, false)

def concatChar (text : WString) (c : UInt8) (answer : Answer) : Option (WString × Bool) :=
  text.concat (some (some (charText c))) 1 answer

/-- `concat` of `unsigned int` and `unsigned long`. -/
def concatUnsigned (text : WString) (num : UInt32) (answer : Answer) : Option (WString × Bool) :=
  text.concatCString (some (ultoa num 10 CStr.empty)) answer

/-- `concat` of `unsigned char`, `int` and `long`. -/
def concatSigned (text : WString) (num : Int32) (answer : Answer) : Option (WString × Bool) :=
  text.concatCString (some (ltoa num 10 CStr.empty)) answer

/-! ### Modification -/

/-- `remove`, with a count. The offset of the source is a 32-bit sum. -/
def removeCount (text : WString) (index count : UInt32) : Option WString :=
  if text.len ≤ index then some text
  else if count = 0 then some text
  else
    let count := if text.len < index + count then text.len - index else count
    let len := text.len - count
    { text with len := len }.onBuffer fun block =>
      (block.strncpy index.toNat (index + count).toNat (len - index).toNat).bind fun block =>
        block.write len.toNat [0]

/-- `remove`. -/
def remove (text : WString) (index : UInt32) : Option WString :=
  if text.len ≤ index then some text else text.removeCount index (text.len - index)

/-- The loops of `toLowerCase` and `toUpperCase`. -/
def mapChars (text : WString) (change : UInt8 → UInt8) : Option WString :=
  if text.buffer.isSome then
    text.onBuffer fun block => (block.text 0).bind fun chars => block.write 0 (chars.map change)
  else some text

def toLowerCase (text : WString) : Option WString := text.mapChars tolower

def toUpperCase (text : WString) : Option WString := text.mapChars toupper

/-- The loop of `trim` from the front: the first index without white space, inside the block. -/
def skipSpaces (bytes : Memory UInt8) (start : Nat) : Nat → Option Nat
  | 0 => none
  | limit + 1 => if isspace (bytes start) then skipSpaces bytes (start + 1) limit else some start

/-- The loop of `trim` from the back: the index behind the last one without white space. -/
def skipBack (bytes : Memory UInt8) (start : Nat) : Nat → Nat
  | 0 => 0
  | last + 1 => if isspace (bytes last) ∧ start ≤ last then skipBack bytes start last else last + 1

/-- `trim`. -/
def trim (text : WString) : Option WString :=
  if text.buffer.isSome ∧ text.len ≠ 0 then
    text.buffer.bind fun block => (skipSpaces block.bytes 0 block.size).bind fun start =>
      if text.len.toNat ≤ block.size then
        let len := UInt32.ofNat (skipBack block.bytes start text.len.toNat) - UInt32.ofNat start
        { text with len := len }.onBuffer fun block =>
          (if start = 0 then some block else block.memcpy 0 start len.toNat).bind fun block =>
            block.write len.toNat [0]
      else none
  else some text

/-- `substring`: the string, as it is restored, and the result. -/
def substring (text : WString) (left right : UInt32) (first second : Answer) :
    Option (WString × WString) :=
  let (left, right) := if right < left then (right, left) else (left, right)
  (fromCString (some CStr.empty) first).bind fun out =>
    if text.len < left then some (text, out)
    else
      let right := if text.len < right then text.len else right
      text.buffer.bind fun block =>
        let temp := block.bytes right.toNat
        (block.write right.toNat [0]).bind fun block =>
          (out.assignCString (some (block.text left.toNat)) second).bind fun out =>
            (block.write right.toNat [temp]).map fun block =>
              ({ text with buffer := some block }, out)

/-! ### What a string stands for -/

/-- **The string stands for a text**: its block is one byte longer than its capacity and spells the text,
and the length is that of the text. -/
structure Holds (text : WString) (block : Block) (chars : List UInt8) : Prop where
  buffer : text.buffer = some block
  size : block.size = text.capacity.toNat + 1
  bounded : text.capacity.toNat + 1 < UInt32.size
  len : text.len.toNat = chars.length
  fits : chars.length ≤ text.capacity.toNat
  spells : Spells block.bytes 0 chars

/-- **What the string stands for**: nothing when it is invalid, otherwise a text. -/
def Represents (text : WString) : Option (List UInt8) → Prop
  | none => text = invalid
  | some chars => ∃ block, text.Holds block chars

/-- The text, or none. -/
def textOf (value : Option (List UInt8)) : List UInt8 := value.getD []

variable {text : WString} {value : Option (List UInt8)}

theorem Represents.len (represents : text.Represents value) :
    text.len.toNat = (textOf value).length := by
  cases value with
  | none =>
    rw [show text = invalid from represents]
    rfl
  | some chars =>
    obtain ⟨block, holds⟩ := represents
    exact holds.len

theorem Represents.proper (represents : text.Represents value) : 0 ∉ textOf value := by
  cases value with
  | none => exact List.not_mem_nil
  | some chars =>
    obtain ⟨block, holds⟩ := represents
    exact holds.spells.proper

/-- A text is read from the buffer of its string. -/
theorem Holds.text_eq {block : Block} {chars : List UInt8} (holds : text.Holds block chars) :
    block.text 0 = some chars := by
  have size := holds.size
  have fits := holds.fits
  exact block.text_eq_some holds.spells (by omega)

/-- The argument a string is. -/
theorem Represents.charPtr (represents : text.Represents value) :
    text.charPtr = value.map some := by
  cases value with
  | none =>
    rw [show text = invalid from represents]
    rfl
  | some chars =>
    obtain ⟨block, holds⟩ := represents
    rw [WString.charPtr, holds.buffer, Option.map_some, holds.text_eq]
    rfl

/-- A string stands for one thing. -/
theorem Represents.unique {other : Option (List UInt8)} (represents : text.Represents value)
    (also : text.Represents other) : value = other :=
  Option.map_injective (Option.some_injective _) (represents.charPtr.symm.trans also.charPtr)

/-- A string whose buffer has room for its text and no more. -/
def literal (chars : List UInt8) : WString :=
  ⟨some ⟨fun index => chars.getD index 0, chars.length + 1⟩, UInt32.ofNat chars.length,
    UInt32.ofNat chars.length⟩

theorem literal_represents {chars : List UInt8} (proper : 0 ∉ chars)
    (small : chars.length + 1 < UInt32.size) : (literal chars).Represents (some chars) := by
  have length : (UInt32.ofNat chars.length).toNat = chars.length :=
    UInt32.toNat_ofNat_of_lt' (by omega)
  refine ⟨_, rfl, ?_, ?_, length, Nat.le_of_eq length.symm, ?_, ?_, proper⟩
  · exact congrArg (· + 1) length.symm
  · exact length ▸ small
  · refine List.ext_getElem (slice_length ..) fun index _ inside => ?_
    rw [getElem_slice, Nat.zero_add]
    dsimp only
    rw [List.getD_eq_getElem?_getD, List.getElem?_eq_getElem inside]
    rfl
  · simp

/-- **The invariant of a string.** Without a buffer it is empty; with one the text is not longer than the
capacity, and the first zero is behind it. -/
def Right (text : WString) : Prop :=
  match text.buffer with
  | none => text.len = 0 ∧ text.capacity = 0
  | some block => text.len ≤ text.capacity ∧ text.len.toNat < block.size ∧
      block.bytes text.len.toNat = 0 ∧ ∀ index < text.len.toNat, block.bytes index ≠ 0

/-- A string that stands for something is right. -/
theorem Represents.right (represents : text.Represents value) : text.Right := by
  cases value with
  | none =>
    rw [show text = invalid from represents]
    exact ⟨rfl, rfl⟩
  | some chars =>
    obtain ⟨block, holds⟩ := represents
    have len := holds.len
    have fits := holds.fits
    have size := holds.size
    unfold Right
    rw [holds.buffer]
    dsimp only
    refine ⟨UInt32.le_iff_toNat_le.mpr (by omega), by omega, ?_, ?_⟩
    · have terminated := holds.spells.terminated
      rwa [Nat.zero_add, ← len] at terminated
    · intro index less
      rw [← Nat.zero_add index]
      exact holds.spells.ne_zero (len ▸ less)

/-! ### Memory -/

/-- A buffer that is changed, without a change of its size. -/
theorem onBuffer_eq {block after : Block} {change : Block → Option Block}
    (buffer : text.buffer = some block) (changed : change block = some after) :
    text.onBuffer change = some { text with buffer := some after } := by
  rw [onBuffer, buffer, Option.bind_some, changed]
  rfl

/-- The size a buffer is asked for, as a number. -/
theorem toNat_succ {size : UInt32} (proper : size.toNat + 1 < UInt32.size) :
    (size + 1).toNat = size.toNat + 1 := by
  rw [UInt32.toNat_add]
  exact Nat.mod_eq_of_lt proper

/-- The largest size, with its zero, is none. -/
theorem succ_eq_zero {size : UInt32} (largest : ¬ size.toNat + 1 < UInt32.size) : size + 1 = 0 := by
  have word : UInt32.size = 4294967296 := rfl
  have small := size.toNat_lt
  rw [← UInt32.toNat_inj, UInt32.toNat_add]
  show (size.toNat + 1) % 2 ^ 32 = 0
  omega

/-- **A buffer that is changed** for one with room for the text holds it. -/
theorem changeBuffer_holds {block : Block} {chars : List UInt8} (holds : text.Holds block chars)
    {size : UInt32} (proper : size.toNat + 1 < UInt32.size) (room : chars.length ≤ size.toNat)
    (answer : Answer) :
    (answer = none ∧ text.changeBuffer size answer = (text, false)) ∨
      (answer.isSome ∧ ∃ after block, text.changeBuffer size answer = (after, true) ∧
        after.capacity = size ∧ after.Holds block chars) := by
  have whole := toNat_succ proper
  have nonzero : size + 1 ≠ 0 := fun zero => by
    rw [zero] at whole
    exact absurd whole (Nat.succ_ne_zero _).symm
  have blockSize := holds.size
  have fits := holds.fits
  cases answer with
  | none =>
    refine .inl ⟨rfl, ?_⟩
    simp only [changeBuffer, realloc, holds.buffer, if_neg nonzero]
    rw [← holds.buffer]
  | some fresh =>
    obtain ⟨grown, is_grown⟩ : ∃ grown : Block, grown =
        ⟨fun index => if index < block.size ∧ index < (size + 1).toNat then block.bytes index
          else fresh index, (size + 1).toNat⟩ := ⟨_, rfl⟩
    refine .inr ⟨rfl, { text with buffer := some grown, capacity := size }, grown, ?_, rfl, ?_⟩
    · simp only [changeBuffer, realloc, holds.buffer, if_neg nonzero, is_grown]
    · have kept : ∀ offset ≤ chars.length, grown.bytes (0 + offset) = block.bytes (0 + offset) := by
        intro offset inside
        rw [is_grown]
        exact if_pos (by omega)
      exact ⟨rfl, by rw [is_grown]; exact whole, proper, holds.len, room, holds.spells.congr kept⟩

/-- **A buffer that is allocated** has bytes nobody knows. -/
theorem changeBuffer_invalid {size : UInt32} (proper : size.toNat + 1 < UInt32.size)
    (answer : Answer) :
    (answer = none ∧ invalid.changeBuffer size answer = (invalid, false)) ∨
      ∃ fresh, answer = some fresh ∧ invalid.changeBuffer size answer =
        (⟨some ⟨fresh, size.toNat + 1⟩, size, 0⟩, true) := by
  cases answer with
  | none => exact .inl ⟨rfl, rfl⟩
  | some fresh =>
    refine .inr ⟨fresh, rfl, ?_⟩
    simp only [changeBuffer, realloc, invalid, toNat_succ proper]

/-- The string has room for a text of a size, or is given it. -/
def Grants (text : WString) (size : UInt32) (answer : Answer) : Prop :=
  (text.buffer.isSome ∧ size ≤ text.capacity) ∨ answer.isSome

instance (text : WString) (size : UInt32) (answer : Answer) : Decidable (text.Grants size answer) :=
  inferInstanceAs (Decidable (_ ∨ _))

/-- A text without characters gets its zero again. -/
theorem zeroed_holds {block : Block} {chars : List UInt8} (holds : text.Holds block chars) :
    ∃ after last, (if text.len = 0 then
        (text.onBuffer fun block => block.write 0 [0]).map (·, true) else some (text, true)) =
          some (after, true) ∧ after.Holds last chars ∧ after.capacity = text.capacity := by
  by_cases empty : text.len = 0
  · have nothing : chars = [] := by
      have length := holds.len
      rw [empty] at length
      exact List.eq_nil_of_length_eq_zero length.symm
    subst nothing
    have inside : 0 + [(0 : UInt8)].length ≤ block.size := by
      have size := holds.size
      rw [List.length_singleton]
      omega
    refine ⟨{ text with buffer := some { block with bytes := overlay block.bytes 0 [0] } },
      { block with bytes := overlay block.bytes 0 [0] }, ?_, ?_, rfl⟩
    · rw [if_pos empty, onBuffer_eq holds.buffer (block.write_eq_some inside)]
      rfl
    · exact ⟨rfl, holds.size, holds.bounded, holds.len, holds.fits,
        spells_overlay block.bytes 0 List.not_mem_nil⟩
  · exact ⟨text, block, if_neg empty, holds, rfl⟩

/-- **`reserve`** keeps the text and makes room, or fails and changes nothing. -/
theorem reserve_represents (represents : text.Represents value) {size : UInt32}
    (proper : size.toNat + 1 < UInt32.size) (answer : Answer) :
    (text.Grants size answer ∧ ∃ after block, text.reserve size answer = some (after, true) ∧
        after.Holds block (textOf value) ∧ size ≤ after.capacity) ∨
      (¬ text.Grants size answer ∧ text.reserve size answer = some (text, false)) := by
  by_cases room : text.buffer.isSome ∧ size ≤ text.capacity
  · cases value with
    | none =>
      rw [show text = invalid from represents] at room
      exact absurd room.1 Bool.false_ne_true
    | some chars =>
      obtain ⟨block, holds⟩ := represents
      exact .inl ⟨.inl room, text, block, if_pos room, holds, room.2⟩
  · have grants : text.Grants size answer ↔ answer.isSome := or_iff_right room
    rw [grants, reserve, if_neg room]
    cases value with
    | none =>
      rw [show text = invalid from represents] at room ⊢
      rcases changeBuffer_invalid proper answer with ⟨rfl, failed⟩ | ⟨fresh, rfl, grown⟩
      · rw [failed]
        exact .inr ⟨Bool.false_ne_true, rfl⟩
      · have inside : 0 + [(0 : UInt8)].length ≤ (Block.mk fresh (size.toNat + 1)).size := by
          simp
        rw [grown]
        refine .inl ⟨rfl, ⟨some ⟨overlay fresh 0 [0], size.toNat + 1⟩, size, 0⟩,
          ⟨overlay fresh 0 [0], size.toNat + 1⟩, ?_, ?_, UInt32.le_refl size⟩
        · simp only [onBuffer, Option.bind_some, Block.write_eq_some inside, Option.map_some, if_true]
        · exact ⟨rfl, rfl, proper, rfl, Nat.zero_le _, spells_overlay fresh 0 List.not_mem_nil⟩
    | some chars =>
      obtain ⟨block, holds⟩ := represents
      have fits : chars.length ≤ size.toNat := by
        have capacity := holds.fits
        have more : ¬ size ≤ text.capacity := fun small => room ⟨by rw [holds.buffer]; rfl, small⟩
        rw [UInt32.le_iff_toNat_le] at more
        omega
      rcases changeBuffer_holds holds proper fits answer with
        ⟨rfl, failed⟩ | ⟨granted, grown, last, changed, capacity, grownHolds⟩
      · rw [failed]
        exact .inr ⟨Bool.false_ne_true, rfl⟩
      · obtain ⟨after, block, reserved, afterHolds, same⟩ := zeroed_holds grownHolds
        rw [changed]
        refine .inl ⟨granted, after, block, reserved, afterHolds, ?_⟩
        rw [same, capacity]
        exact UInt32.le_refl size

/-- A request for the largest size is one for no bytes: it frees the buffer, and keeps the pointer. -/
theorem reserve_frees {block : Block} {chars : List UInt8} (holds : text.Holds block chars)
    {size : UInt32} (largest : ¬ size.toNat + 1 < UInt32.size) (answer : Answer) :
    text.reserve size answer = some ({ text with buffer := some block.free }, false) := by
  have bounded := holds.bounded
  unfold reserve
  rw [if_neg fun room => ?_]
  · simp only [changeBuffer, realloc, holds.buffer, if_pos (succ_eq_zero largest)]
    rfl
  · have enough := UInt32.le_iff_toNat_le.mp room.2
    omega

/-- **A request for the largest size** frees the buffer and keeps the pointer, or has no room for the
zero. -/
theorem reserve_largest (represents : text.Represents value) {size : UInt32}
    (largest : ¬ size.toNat + 1 < UInt32.size) (answer : Answer)
    (asks : ¬ (text.buffer = none ∧ answer = none)) :
    text.reserve size answer = none ∨
      ∃ after, text.reserve size answer = some (after, false) ∧ ¬ after.Right := by
  cases value with
  | none =>
    rw [show text = invalid from represents] at asks ⊢
    cases answer with
    | none => exact absurd ⟨rfl, rfl⟩ asks
    | some fresh =>
      refine .inl ?_
      rw [reserve, if_neg fun room => Bool.false_ne_true room.1]
      simp only [changeBuffer, realloc, invalid, succ_eq_zero largest]
      rfl
  | some chars =>
    obtain ⟨block, holds⟩ := represents
    refine .inr ⟨_, reserve_frees holds largest answer, fun right => ?_⟩
    exact Nat.not_lt_zero _ right.2.1

/-! ### Copy and move -/

/-- A string copied to the start of the buffer. -/
theorem strcpy_holds {block : Block} {old chars : List UInt8} (holds : text.Holds block old)
    (proper : 0 ∉ chars) {length : UInt32} (len : length.toNat = chars.length)
    (room : length ≤ text.capacity) :
    ∃ last, block.strcpy 0 chars = some last ∧
      (WString.mk (some last) text.capacity length).Holds last chars := by
  have fits : chars.length ≤ text.capacity.toNat := len ▸ UInt32.le_iff_toNat_le.mp room
  have inside : 0 + (chars ++ [0]).length ≤ block.size := by
    rw [holds.size, List.length_append, List.length_singleton]
    omega
  exact ⟨_, Block.write_eq_some inside, rfl, holds.size, holds.bounded, len, fits,
    spells_overlay block.bytes 0 proper⟩

/-- **`copy`** leaves the string that is copied, or nothing. -/
theorem copy_represents (represents : text.Represents value) {chars : List UInt8}
    (proper : 0 ∉ chars) {length : UInt32} (len : length.toNat = chars.length)
    (bounded : length.toNat + 1 < UInt32.size) (answer : Answer) :
    ∃ after, text.copy (some chars) length answer = some after ∧
      after.Represents (if text.Grants length answer then some chars else none) := by
  unfold copy
  rcases reserve_represents represents bounded answer with
    ⟨granted, grown, block, reserved, holds, room⟩ | ⟨refused, failed⟩
  · obtain ⟨last, stored, afterHolds⟩ := strcpy_holds holds proper len room
    rw [reserved, if_pos granted]
    simp only [onBuffer, holds.buffer, Option.bind_some, stored, Option.map_some]
    exact ⟨_, rfl, last, afterHolds⟩
  · rw [failed, if_neg refused]
    exact ⟨invalid, rfl, rfl⟩

/-- The assignment of a C string. -/
theorem assignCString_represents (represents : text.Represents value) {chars : List UInt8}
    (proper : 0 ∉ chars) (bounded : chars.length + 1 < UInt32.size) (answer : Answer) :
    ∃ after value, text.assignCString (some (some chars)) answer = some after ∧
      after.Represents value := by
  have len : (UInt32.ofNat chars.length).toNat = chars.length :=
    UInt32.toNat_ofNat_of_lt' (by omega)
  obtain ⟨after, copied, afterRepresents⟩ :=
    copy_represents represents proper len (by rwa [len]) answer
  exact ⟨after, _, copied, afterRepresents⟩

/-- The assignment of a string. -/
theorem assign_represents (represents : text.Represents value) {rhs : WString}
    {other : Option (List UInt8)} (rhsRepresents : rhs.Represents other) (answer : Answer) :
    ∃ after value, text.assign rhs answer = some after ∧ after.Represents value := by
  unfold assign
  cases other with
  | none =>
    rw [show rhs = invalid from rhsRepresents]
    exact ⟨invalid, none, rfl, rfl⟩
  | some chars =>
    obtain ⟨block, holds⟩ := rhsRepresents
    have capacity := holds.bounded
    have fits := holds.fits
    have len := holds.len
    obtain ⟨after, copied, afterRepresents⟩ :=
      copy_represents represents holds.spells.proper len (by omega) answer
    rw [holds.buffer]
    dsimp only
    rw [holds.text_eq]
    exact ⟨after, _, copied, afterRepresents⟩

/-- The move takes the buffer, or finds nothing to copy. -/
def MovesWell (text rhs : WString) : Prop :=
  text.buffer.isSome ∧ rhs.len ≤ text.capacity → rhs.buffer.isSome ∧ rhs.len = 0

instance (text rhs : WString) : Decidable (text.MovesWell rhs) := inferInstanceAs (Decidable (_ → _))

/-- **`move`** that takes the buffer leaves nothing behind, and one that finds nothing to copy copies
nothing. -/
theorem move_represents (represents : text.Represents value) {rhs : WString}
    {other : Option (List UInt8)} (rhsRepresents : rhs.Represents other)
    (movesWell : text.MovesWell rhs) :
    ∃ after rest value other, text.move rhs = some (after, rest) ∧ after.Represents value ∧
      rest.Represents other := by
  unfold move
  by_cases copies : text.buffer.isSome ∧ rhs.len ≤ text.capacity
  · obtain ⟨valid, empty⟩ := movesWell copies
    cases value with
    | none =>
      rw [show text = invalid from represents] at copies
      exact absurd copies.1 Bool.false_ne_true
    | some chars =>
      cases other with
      | none =>
        rw [show rhs = invalid from rhsRepresents] at valid
        exact absurd valid Bool.false_ne_true
      | some otherChars =>
        obtain ⟨block, holds⟩ := represents
        obtain ⟨source, sourceHolds⟩ := rhsRepresents
        have nothing : otherChars = [] := by
          have length := sourceHolds.len
          rw [empty] at length
          exact List.eq_nil_of_length_eq_zero length.symm
        subst nothing
        obtain ⟨last, stored, afterHolds⟩ :=
          strcpy_holds holds List.not_mem_nil sourceHolds.len copies.2
        rw [if_pos copies, sourceHolds.buffer]
        simp only [onBuffer, holds.buffer, Option.bind_some, sourceHolds.text_eq, stored,
          Option.map_some]
        refine ⟨_, _, some [], some [], rfl, ⟨last, afterHolds⟩, ⟨source, ?_⟩⟩
        rw [← empty, ← sourceHolds.buffer]
        exact sourceHolds
  · rw [if_neg copies]
    exact ⟨rhs, invalid, other, none, rfl, rhsRepresents, rfl⟩

/-- **A move that copies** leaves the text in a string of length zero, or reads from NULL. -/
theorem move_breaks (represents : text.Represents value) {rhs : WString}
    {other : Option (List UInt8)} (rhsRepresents : rhs.Represents other)
    (copies : ¬ text.MovesWell rhs) :
    text.move rhs = none ∨ ∃ after rest, text.move rhs = some (after, rest) ∧ ¬ rest.Right := by
  obtain ⟨room, badly⟩ := Classical.not_imp.mp copies
  unfold move
  rw [if_pos room]
  cases value with
  | none =>
    rw [show text = invalid from represents] at room
    exact absurd room.1 Bool.false_ne_true
  | some chars =>
    cases other with
    | none =>
      rw [show rhs = invalid from rhsRepresents]
      exact .inl rfl
    | some otherChars =>
      obtain ⟨block, holds⟩ := represents
      obtain ⟨source, sourceHolds⟩ := rhsRepresents
      have nonempty : 0 < otherChars.length := by
        rw [← sourceHolds.len]
        refine Nat.pos_of_ne_zero fun zero => badly ⟨by rw [sourceHolds.buffer]; rfl, ?_⟩
        exact UInt32.toNat_inj.mp zero
      obtain ⟨last, stored, -⟩ := strcpy_holds holds sourceHolds.spells.proper sourceHolds.len room.2
      refine .inr ⟨⟨some last, text.capacity, rhs.len⟩, ⟨some source, rhs.capacity, 0⟩, ?_, ?_⟩
      · rw [sourceHolds.buffer]
        simp only [onBuffer, holds.buffer, Option.bind_some, sourceHolds.text_eq, stored,
          Option.map_some]
      · rintro ⟨-, -, zero, -⟩
        exact sourceHolds.spells.ne_zero nonempty zero

/-! ### Concatenation -/

/-- A string stored behind a text that leaves room for it. -/
theorem appended_holds {block : Block} {old chars : List UInt8} (holds : text.Holds block old)
    (proper : 0 ∉ chars) {newlen : UInt32} (len : newlen.toNat = old.length + chars.length)
    (room : newlen ≤ text.capacity) :
    (WString.mk (some ⟨overlay block.bytes text.len.toNat (chars ++ [0]), block.size⟩) text.capacity
      newlen).Holds ⟨overlay block.bytes text.len.toNat (chars ++ [0]), block.size⟩ (old ++ chars) := by
  have enough := UInt32.le_iff_toNat_le.mp room
  refine ⟨rfl, holds.size, holds.bounded, ?_, ?_, ?_⟩
  · rw [List.length_append]
    exact len
  · rw [List.length_append, ← len]
    exact enough
  · dsimp only
    rw [holds.len, ← Nat.zero_add old.length]
    exact spells_overlay_append holds.spells.here holds.spells.proper proper

/-- **`concat`** appends the string, or fails and changes nothing. -/
theorem concat_appends (represents : text.Represents value) {chars : List UInt8}
    (proper : 0 ∉ chars) {length : UInt32} (len : length.toNat = chars.length)
    (bounded : text.len.toNat + length.toNat + 1 < UInt32.size) (answer : Answer) :
    (∃ after last, text.concat (some (some chars)) length answer = some (after, true) ∧
        after.Represents last ∧ textOf last = textOf value ++ chars) ∨
      text.concat (some (some chars)) length answer = some (text, false) := by
  unfold concat
  by_cases empty : length = 0
  · have nothing : chars = [] := by
      rw [empty] at len
      exact List.eq_nil_of_length_eq_zero len.symm
    exact .inl ⟨text, value, if_pos empty, represents, by rw [nothing, List.append_nil]⟩
  · have newlen : (text.len + length).toNat = text.len.toNat + length.toNat := by
      have word : UInt32.size = 4294967296 := rfl
      rw [UInt32.toNat_add]
      exact Nat.mod_eq_of_lt (by omega)
    simp only [if_neg empty]
    rcases reserve_represents represents (by rwa [newlen]) answer with
      ⟨_, grown, block, reserved, holds, room⟩ | ⟨_, failed⟩
    · have total : (text.len + length).toNat = (textOf value).length + chars.length := by
        rw [newlen, represents.len, len]
      have appended := appended_holds holds proper total room
      have inside : grown.len.toNat + (chars ++ [0]).length ≤ block.size := by
        have enough := UInt32.le_iff_toNat_le.mp room
        rw [holds.size, holds.len, List.length_append, List.length_singleton]
        omega
      rw [reserved]
      simp only [onBuffer, holds.buffer, Option.bind_some, Block.strcpy, Block.write_eq_some inside,
        Option.map_some]
      exact .inl ⟨_, some (textOf value ++ chars), rfl, ⟨_, appended⟩, rfl⟩
    · rw [failed]
      exact .inr rfl

/-- **A zero that is appended** counts as a character. -/
theorem concatChar_zero (represents : text.Represents value)
    (bounded : text.len.toNat + 2 < UInt32.size) {answer : Answer}
    (granted : text.Grants (text.len + 1) answer) :
    ∃ after, text.concatChar 0 answer = some (after, true) ∧ ¬ after.Right := by
  have whole := toNat_succ (Nat.lt_of_succ_lt bounded)
  rcases reserve_represents represents (by rwa [whole]) answer with
    ⟨-, grown, block, reserved, holds, room⟩ | ⟨refused, -⟩
  · have textLen := represents.len
    have grownLen : grown.len.toNat = (textOf value).length := holds.len
    have enough := UInt32.le_iff_toNat_le.mp room
    have size := holds.size
    have inside : grown.len.toNat + ([] ++ [(0 : UInt8)]).length ≤ block.size := by
      rw [List.nil_append, List.length_singleton]
      omega
    refine ⟨⟨some ⟨overlay block.bytes grown.len.toNat [0], block.size⟩, grown.capacity, text.len + 1⟩,
      ?_, ?_⟩
    · show text.concat (some (some [])) 1 answer = _
      unfold concat
      have one : ¬ (1 : UInt32) = 0 := by decide
      simp only [if_neg one, reserved, onBuffer, holds.buffer, Option.bind_some, Block.strcpy,
        Block.write_eq_some inside, Option.map_some]
      rfl
    · rintro ⟨-, -, -, nonzero⟩
      refine nonzero text.len.toNat ?_ ?_
      · dsimp only
        omega
      · dsimp only
        rw [overlay_singleton, textLen, ← grownLen, Function.update_self]
  · exact absurd granted refused

/-! ### Modification -/

/-- The range that is removed does not wrap, or what is stored instead of it has room. -/
def RemovesWell (text : WString) (index count : UInt32) : Prop :=
  index < text.len → index.toNat + count.toNat < UInt32.size ∨
    text.len.toNat + (UInt32.size - count.toNat) ≤ text.capacity.toNat

instance (text : WString) (index count : UInt32) : Decidable (text.RemovesWell index count) :=
  inferInstanceAs (Decidable (_ → _ ∨ _))

/-- **A range whose end does not wrap** is cut to the text, and the rest is copied down, whatever follows
the zero of the text. -/
theorem removeCount_takes {memory : Memory UInt8} {chars : List UInt8} {len index count : UInt32}
    (length : len.toNat = chars.length) (spells : Spells memory 0 chars)
    (inText : index.toNat < len.toNat) (counts : count ≠ 0)
    (whole : index.toNat + count.toNat < UInt32.size) :
    ∃ bytes last,
      (∀ capacity size, chars.length < size →
        (WString.mk (some ⟨memory, size⟩) capacity len).removeCount index count =
          some ⟨some ⟨bytes, size⟩, capacity, last⟩) ∧
      last.toNat = (chars.take index.toNat ++ chars.drop (index.toNat + count.toNat)).length ∧
      Spells bytes 0 (chars.take index.toNat ++ chars.drop (index.toNat + count.toNat)) := by
  have word : UInt32.size = 4294967296 := rfl
  have inside : ¬ len ≤ index := fun behind => absurd (UInt32.le_iff_toNat_le.mp behind) (by omega)
  have sum : (index + count).toNat = index.toNat + count.toNat := by
    rw [UInt32.toNat_add]
    exact Nat.mod_eq_of_lt whole
  obtain ⟨taken, is_taken, cut⟩ : ∃ taken : UInt32,
      taken = (if len < index + count then len - index else count) ∧
        taken.toNat = min count.toNat (len.toNat - index.toNat) := by
    refine ⟨_, rfl, ?_⟩
    split_ifs with long
    · rw [UInt32.lt_iff_toNat_lt, sum] at long
      rw [UInt32.toNat_sub_of_le _ _ (UInt32.le_iff_toNat_le.mpr (by omega))]
      omega
    · rw [UInt32.lt_iff_toNat_lt, sum] at long
      omega
  have source : (index + taken).toNat = index.toNat + taken.toNat := by
    rw [UInt32.toNat_add]
    exact Nat.mod_eq_of_lt (by omega)
  have newLen : (len - taken).toNat = len.toNat - taken.toNat :=
    UInt32.toNat_sub_of_le _ _ (UInt32.le_iff_toNat_le.mpr (by omega))
  have moved : (len - taken - index).toNat = len.toNat - taken.toNat - index.toNat := by
    rw [UInt32.toNat_sub_of_le _ _ (UInt32.le_iff_toNat_le.mpr (by omega)), newLen]
  obtain ⟨rest, is_rest, restLength⟩ : ∃ rest : List UInt8,
      rest = chars.drop (index.toNat + taken.toNat) ∧
        rest.length = len.toNat - taken.toNat - index.toNat :=
    ⟨_, rfl, by rw [List.length_drop]; omega⟩
  have all : chars.drop (index.toNat + count.toNat) = rest := by
    rw [is_rest]
    rcases Nat.le_total count.toNat (len.toNat - index.toNat) with few | many
    · rw [cut, Nat.min_eq_left few]
    · rw [List.drop_eq_nil_of_le (by omega), List.drop_eq_nil_of_le (by omega)]
  have some_count : 0 < count.toNat := Nat.pos_of_ne_zero fun zero =>
    counts (UInt32.toNat_inj.mp zero)
  have restSpells := spells.drop (show index.toNat + taken.toNat ≤ chars.length by omega)
  rw [← is_rest, Nat.zero_add] at restSpells
  have frontLength : (chars.take index.toNat).length = index.toNat := by
    rw [List.length_take]
    omega
  have front : slice memory 0 (chars.take index.toNat).length = chars.take index.toNat := by
    rw [frontLength]
    exact spells.slice_take (by omega)
  rw [all]
  refine ⟨overlay memory index.toNat (rest ++ [0]), len - taken, fun capacity size room => ?_, ?_, ?_⟩
  · have copied : Block.strncpy ⟨memory, size⟩ index.toNat (index.toNat + taken.toNat) rest.length =
        some ⟨overlay memory index.toNat rest, size⟩ := by
      rw [Block.strncpy_down (by omega) (by dsimp only; omega) fun offset inside =>
        restSpells.ne_zero inside]
      dsimp only
      rw [restSpells.here]
    have zeroInside : (len - taken).toNat + [(0 : UInt8)].length ≤ size := by
      rw [List.length_singleton]
      omega
    unfold removeCount
    rw [if_neg inside, if_neg counts, ← is_taken]
    simp only [onBuffer, Option.bind_some, source, moved, ← restLength, copied]
    rw [@Block.write_eq_some ⟨overlay memory index.toNat rest, size⟩ _ _ zeroInside, Option.map_some]
    dsimp only
    rw [show (len - taken).toNat = index.toNat + rest.length by omega, overlay_append]
  · rw [List.length_append, frontLength]
    omega
  · have properFront : 0 ∉ chars.take index.toNat := fun zero =>
      spells.proper (List.mem_of_mem_take zero)
    simpa [frontLength] using spells_overlay_append front properFront restSpells.proper

section RemoveCount

variable {block : Block} {chars : List UInt8} (holds : text.Holds block chars) {index count : UInt32}
  (inText : index.toNat < text.len.toNat) (counts : count ≠ 0)

include holds inText counts

/-- What is left of the text when a range is taken out. -/
theorem removeCount_down (whole : index.toNat + count.toNat < UInt32.size) :
    ∃ after, text.removeCount index count = some after ∧
      after.Represents (some (chars.take index.toNat ++ chars.drop (index.toNat + count.toNat))) := by
  have fits := holds.fits
  have size := holds.size
  obtain ⟨bytes, last, removed, length, spells⟩ :=
    removeCount_takes holds.len holds.spells inText counts whole
  have same : text = ⟨some ⟨block.bytes, block.size⟩, text.capacity, text.len⟩ := by
    rw [← holds.buffer]
  have less : (chars.take index.toNat ++ chars.drop (index.toNat + count.toNat)).length ≤
      chars.length := by
    rw [List.length_append, List.length_take, List.length_drop]
    omega
  refine ⟨⟨some ⟨bytes, block.size⟩, text.capacity, last⟩, ?_, ⟨bytes, block.size⟩, rfl, size,
    holds.bounded, length, Nat.le_trans less fits, spells⟩
  rw [same]
  exact removed text.capacity block.size (by omega)

/-- A range whose end wraps is not cut: its source lies in front of its target, in the text. -/
theorem removeCount_wraps (wraps : UInt32.size ≤ index.toNat + count.toNat) :
    text.removeCount index count =
        ((block.strncpy index.toNat (index + count).toNat (text.len - count - index).toNat).bind
          fun block => block.write (text.len - count).toNat [0]).map
            (fun block => ⟨some block, text.capacity, text.len - count⟩) ∧
      (index + count).toNat < index.toNat ∧
      ∀ position, (index + count).toNat ≤ position → position < index.toNat →
        block.bytes position ≠ 0 := by
  have word : UInt32.size = 4294967296 := rfl
  have len := holds.len
  have small := count.toNat_lt
  have indexSmall := index.toNat_lt
  have sum : (index + count).toNat = index.toNat + count.toNat - UInt32.size := by
    rw [UInt32.toNat_add]
    omega
  have inside : ¬ text.len ≤ index := fun behind =>
    absurd (UInt32.le_iff_toNat_le.mp behind) (by omega)
  have short : ¬ text.len < index + count := by
    rw [UInt32.lt_iff_toNat_lt, sum]
    omega
  refine ⟨?_, by omega, ?_⟩
  · unfold removeCount
    rw [if_neg inside, if_neg counts, if_neg short]
    simp only [onBuffer, holds.buffer, Option.bind_some]
  · intro position _ less
    rw [← Nat.zero_add position]
    exact holds.spells.ne_zero (by omega)

/-- With room for what is copied, a range whose end wraps leaves another text. -/
theorem removeCount_up (wraps : UInt32.size ≤ index.toNat + count.toNat)
    (room : text.len.toNat + (UInt32.size - count.toNat) ≤ text.capacity.toNat) :
    ∃ after value, text.removeCount index count = some after ∧ after.Represents value := by
  obtain ⟨removed, up, nonzero⟩ := removeCount_wraps holds inText counts wraps
  have word : UInt32.size = 4294967296 := rfl
  have len := holds.len
  have size := holds.size
  have bounded := holds.bounded
  have small := count.toNat_lt
  have newLen : (text.len - count).toNat = text.len.toNat + (UInt32.size - count.toNat) := by
    rw [UInt32.toNat_sub]
    omega
  have moved : (text.len - count - index).toNat = (text.len - count).toNat - index.toNat :=
    UInt32.toNat_sub_of_le _ _ (UInt32.le_iff_toNat_le.mpr (by omega))
  obtain ⟨bytes, copied, before, after⟩ := Block.strncpy_up up
    (show index.toNat + (text.len - count - index).toNat ≤ block.size by omega) nonzero
  have inside : (text.len - count).toNat + [(0 : UInt8)].length ≤ block.size := by
    rw [List.length_singleton]
    omega
  rw [removed, copied, Option.bind_some, @Block.write_eq_some ⟨bytes, block.size⟩ _ _ inside,
    Option.map_some]
  refine ⟨_, some (slice bytes 0 (text.len - count).toNat), rfl, _, rfl, size, bounded, ?_, ?_, ?_⟩
  · rw [slice_length]
  · rw [slice_length]
    dsimp only
    omega
  · have proper : 0 ∉ slice bytes 0 (text.len - count).toNat := by
      intro zero
      obtain ⟨offset, member, same⟩ := List.mem_map.mp zero
      rw [Nat.zero_add] at same
      have less := List.mem_range.mp member
      by_cases front : offset < index.toNat
      · rw [before offset front, ← Nat.zero_add offset] at same
        exact holds.spells.ne_zero (by omega) same
      · exact after offset (by omega) (by omega) same
    refine ⟨?_, ?_, proper⟩
    · rw [slice_length]
      exact slice_overlay_before (by omega)
    · rw [slice_length, Nat.zero_add]
      dsimp only
      rw [overlay_singleton, Function.update_self]

end RemoveCount

/-- **`remove`** takes the range out of the text, or stores another text in it. -/
theorem removeCount_represents (represents : text.Represents value) {index count : UInt32}
    (removesWell : text.RemovesWell index count) :
    ∃ after value, text.removeCount index count = some after ∧ after.Represents value := by
  by_cases behind : text.len ≤ index
  · exact ⟨text, value, if_pos behind, represents⟩
  by_cases nothing : count = 0
  · exact ⟨text, value, (if_neg behind).trans (if_pos nothing), represents⟩
  have inText : index.toNat < text.len.toNat :=
    Nat.lt_of_not_le fun after => behind (UInt32.le_iff_toNat_le.mpr after)
  cases value with
  | none =>
    rw [show text = invalid from represents] at inText
    exact absurd inText (Nat.not_lt_zero _)
  | some chars =>
    obtain ⟨block, holds⟩ := represents
    by_cases whole : index.toNat + count.toNat < UInt32.size
    · obtain ⟨after, removed, left⟩ := removeCount_down holds inText nothing whole
      exact ⟨after, _, removed, left⟩
    · have room := (removesWell (UInt32.lt_iff_toNat_lt.mpr inText)).resolve_left whole
      exact removeCount_up holds inText nothing (Nat.le_of_not_lt whole) room

/-- **A range whose end wraps**, without room for what is stored instead, is stored behind the block. -/
theorem removeCount_faults (represents : text.Represents value) {index count : UInt32}
    (badly : ¬ text.RemovesWell index count) : text.removeCount index count = none := by
  obtain ⟨inText, neither⟩ := Classical.not_imp.mp badly
  obtain ⟨wraps, out⟩ := not_or.mp neither
  have word : UInt32.size = 4294967296 := rfl
  rw [UInt32.lt_iff_toNat_lt] at inText
  cases value with
  | none =>
    rw [show text = invalid from represents] at inText
    exact absurd inText (Nat.not_lt_zero _)
  | some chars =>
    obtain ⟨block, holds⟩ := represents
    have counts : count ≠ 0 := by
      rintro rfl
      exact wraps index.toNat_lt
    obtain ⟨removed, up, nonzero⟩ :=
      removeCount_wraps holds inText counts (Nat.le_of_not_lt wraps)
    have len := holds.len
    have fits := holds.fits
    have size := holds.size
    have small := count.toNat_lt
    have lenSmall := text.len.toNat_lt
    have moved : index.toNat + (text.len - count - index).toNat =
        text.len.toNat + (UInt32.size - count.toNat) := by
      rw [UInt32.toNat_sub, UInt32.toNat_sub]
      omega
    rw [removed]
    by_cases last : index.toNat + (text.len - count - index).toNat = block.size
    · -- Only the zero is behind the block.
      obtain ⟨bytes, copied, -⟩ := Block.strncpy_up up (Nat.le_of_eq last) nonzero
      have newLen : (text.len - count).toNat = text.len.toNat + (UInt32.size - count.toNat) := by
        have bounded := holds.bounded
        rw [UInt32.toNat_sub]
        omega
      rw [copied, Option.bind_some, Block.write, if_neg]
      · rfl
      · rw [newLen, List.length_singleton]
        dsimp only
        omega
    · rw [Block.strncpy_out up (by omega) (by omega) nonzero]
      rfl

theorem remove_represents (represents : text.Represents value) (index : UInt32) :
    ∃ after value, text.remove index = some after ∧ after.Represents value := by
  unfold remove
  by_cases behind : text.len ≤ index
  · exact ⟨text, value, if_pos behind, represents⟩
  · rw [if_neg behind]
    rw [UInt32.le_iff_toNat_le] at behind
    refine removeCount_represents represents fun _ => .inl ?_
    have rest : (text.len - index).toNat = text.len.toNat - index.toNat :=
      UInt32.toNat_sub_of_le _ _ (UInt32.le_iff_toNat_le.mpr (by omega))
    have word : UInt32.size = 4294967296 := rfl
    have small := text.len.toNat_lt
    rw [rest]
    omega

/-- **The loops over the characters** change each of them. -/
theorem mapChars_represents (represents : text.Represents value) {change : UInt8 → UInt8}
    (nonzero : ∀ char ≠ 0, change char ≠ 0) :
    ∃ after value, text.mapChars change = some after ∧ after.Represents value := by
  unfold mapChars
  cases value with
  | none =>
    rw [show text = invalid from represents]
    exact ⟨invalid, none, rfl, rfl⟩
  | some chars =>
    obtain ⟨block, holds⟩ := represents
    have fits := holds.fits
    have size := holds.size
    have inside : 0 + (chars.map change).length ≤ block.size := by
      rw [List.length_map]
      omega
    rw [if_pos (by rw [holds.buffer]; rfl)]
    simp only [onBuffer, holds.buffer, Option.bind_some, holds.text_eq, Block.write_eq_some inside,
      Option.map_some]
    refine ⟨_, some (chars.map change), rfl, _, rfl, size, holds.bounded, ?_, ?_, ?_, ?_, ?_⟩
    · rw [List.length_map]
      exact holds.len
    · rw [List.length_map]
      exact fits
    · exact slice_overlay ..
    · dsimp only
      rw [overlay_outside (.inr (Nat.le_refl _)), List.length_map]
      exact holds.spells.terminated
    · intro zero
      obtain ⟨char, member, same⟩ := List.mem_map.mp zero
      exact nonzero char (fun isZero => holds.spells.proper (isZero ▸ member)) same

theorem tolower_ne_zero (char : UInt8) (nonzero : char ≠ 0) : tolower char ≠ 0 := by
  unfold tolower
  split_ifs with upper
  · intro zero
    have low := UInt8.le_iff_toNat_le.mp upper.1
    have high := UInt8.le_iff_toNat_le.mp upper.2
    have sum := congrArg UInt8.toNat zero
    rw [UInt8.toNat_add] at sum
    simp at low high sum
    omega
  · exact nonzero

theorem toupper_ne_zero (char : UInt8) (nonzero : char ≠ 0) : toupper char ≠ 0 := by
  unfold toupper
  split_ifs with lower
  · intro zero
    have low := UInt8.le_iff_toNat_le.mp lower.1
    have sum := congrArg UInt8.toNat zero
    rw [UInt8.toNat_sub_of_le _ _ (UInt8.le_iff_toNat_le.mpr (by simp at low ⊢; omega))] at sum
    simp at low sum
    omega
  · exact nonzero

/-- The loop from the front stops inside the text, at its zero at the latest. -/
theorem skipSpaces_eq {bytes : Memory UInt8} {start limit : Nat} {chars : List UInt8}
    (spells : Spells bytes start chars) (short : chars.length < limit) :
    ∃ count ≤ chars.length, skipSpaces bytes start limit = some (start + count) := by
  induction chars generalizing start limit with
  | nil =>
    obtain ⟨limit, rfl⟩ := Nat.exists_eq_succ_of_ne_zero (Nat.ne_zero_of_lt short)
    have zero : isspace (bytes start) = false := by
      rw [spells_nil_iff.mp spells]
      rfl
    exact ⟨0, Nat.le_refl 0, by simp [skipSpaces, zero]⟩
  | cons char rest ih =>
    obtain ⟨limit, rfl⟩ := Nat.exists_eq_succ_of_ne_zero (Nat.ne_zero_of_lt short)
    obtain ⟨_, _, later⟩ := spells_cons_iff.mp spells
    rw [skipSpaces]
    split_ifs with space
    · obtain ⟨count, few, found⟩ := ih later (Nat.lt_of_succ_lt_succ short)
      exact ⟨count + 1, Nat.succ_le_succ few, by rw [found]; congr 1; omega⟩
    · exact ⟨0, Nat.zero_le _, rfl⟩

/-- The loop from the back stops at the start at the latest. -/
theorem skipBack_bounds (bytes : Memory UInt8) {start stop : Nat} (order : start ≤ stop) :
    start ≤ skipBack bytes start stop ∧ skipBack bytes start stop ≤ stop := by
  induction stop with
  | zero => exact ⟨order, Nat.le_refl 0⟩
  | succ last ih =>
    rw [skipBack]
    split_ifs with space
    · obtain ⟨least, most⟩ := ih space.2
      exact ⟨least, Nat.le_succ_of_le most⟩
    · exact ⟨order, Nat.le_refl _⟩

/-- **`trim`** leaves a part of the text. -/
theorem trim_represents (represents : text.Represents value) :
    ∃ after value, text.trim = some after ∧ after.Represents value := by
  unfold trim
  by_cases trims : text.buffer.isSome ∧ text.len ≠ 0
  · rw [if_pos trims]
    cases value with
    | none =>
      rw [show text = invalid from represents] at trims
      exact absurd trims.1 Bool.false_ne_true
    | some chars =>
      obtain ⟨block, holds⟩ := represents
      have len := holds.len
      have fits := holds.fits
      have size := holds.size
      have bounded := holds.bounded
      obtain ⟨start, few, skipped⟩ := skipSpaces_eq holds.spells (show chars.length < block.size by omega)
      rw [Nat.zero_add] at skipped
      obtain ⟨least, most⟩ := skipBack_bounds block.bytes (show start ≤ text.len.toNat by omega)
      obtain ⟨stop, is_stop⟩ : ∃ stop, stop = skipBack block.bytes start text.len.toNat := ⟨_, rfl⟩
      have startNat : (UInt32.ofNat start).toNat = start := UInt32.toNat_ofNat_of_lt' (by omega)
      have stopNat : (UInt32.ofNat stop).toNat = stop := UInt32.toNat_ofNat_of_lt' (by omega)
      obtain ⟨newLen, is_newLen, newLenNat⟩ : ∃ newLen, newLen = UInt32.ofNat stop - UInt32.ofNat start ∧
          newLen.toNat = stop - start := by
        refine ⟨_, rfl, ?_⟩
        rw [UInt32.toNat_sub_of_le _ _ (UInt32.le_iff_toNat_le.mpr (by omega)), stopNat, startNat]
      -- What is left are characters of the text, so none is zero.
      have part : slice block.bytes start newLen.toNat = (chars.drop start).take newLen.toNat := by
        have rest := holds.spells.drop few
        rw [Nat.zero_add] at rest
        exact rest.slice_take (by rw [List.length_drop]; omega)
      have proper : 0 ∉ slice block.bytes start newLen.toNat := by
        rw [part]
        exact fun zero => holds.spells.proper (List.mem_of_mem_drop (List.mem_of_mem_take zero))
      have moved : (if start = 0 then some block else block.memcpy 0 start newLen.toNat) =
            some ⟨overlay block.bytes 0 (slice block.bytes start newLen.toNat), block.size⟩ := by
        split_ifs with first
        · rw [first, overlay_slice]
        · exact Block.memcpy_down (Nat.zero_le _) (by omega)
      have inside : newLen.toNat + [(0 : UInt8)].length ≤ block.size := by
        rw [List.length_singleton]
        omega
      rw [holds.buffer]
      simp only [Option.bind_some, skipped, if_pos (show text.len.toNat ≤ block.size by omega),
        ← is_stop, ← is_newLen, onBuffer, moved]
      rw [@Block.write_eq_some ⟨overlay block.bytes 0 (slice block.bytes start newLen.toNat),
        block.size⟩ _ _ inside, Option.map_some]
      refine ⟨_, some (slice block.bytes start newLen.toNat), rfl, _, rfl, size, bounded, ?_, ?_, ?_⟩
      · exact (slice_length ..).symm
      · rw [slice_length]
        dsimp only
        omega
      · have spelled := spells_overlay block.bytes 0 proper
        rw [← overlay_append, Nat.zero_add, slice_length] at spelled
        exact spelled
  · exact ⟨text, value, if_neg trims, represents⟩

/-- The string has a buffer, or the bounds of the part that is taken are behind its text. -/
def TakesWell (text : WString) (left right : UInt32) : Prop :=
  text.buffer.isSome ∨ left ≠ 0 ∧ right ≠ 0

instance (text : WString) (left right : UInt32) : Decidable (text.TakesWell left right) :=
  inferInstanceAs (Decidable (_ ∨ _))

theorem fromCString_represents (cstr : CStr) (bounded : cstr.chars.length + 1 < UInt32.size)
    (answer : Answer) :
    ∃ after value, fromCString (some cstr) answer = some after ∧ after.Represents value := by
  have len : cstr.strlen.toNat = cstr.chars.length := UInt32.toNat_ofNat_of_lt' (by omega)
  have nothing : invalid.Represents none := rfl
  obtain ⟨after, copied, represents⟩ :=
    copy_represents nothing cstr.terminated len (by rwa [len]) answer
  exact ⟨after, _, copied, represents⟩

/-- A part of a text is read behind a zero that is stored at its end, and the text is restored. -/
theorem Holds.part {block : Block} {chars : List UInt8} (holds : text.Holds block chars)
    {left right : Nat} (order : left ≤ right) (inside : right ≤ chars.length) :
    ∃ cut, block.write right [0] = some cut ∧
      cut.text left = some ((chars.take right).drop left) ∧
      cut.write right [block.bytes right] = some block := by
  have size := holds.size
  have fits := holds.fits
  have room : ∀ byte : UInt8, right + [byte].length ≤ block.size := by
    intro byte
    rw [List.length_singleton]
    omega
  have length : (chars.take right).length = right := by
    rw [List.length_take]
    omega
  have taken := holds.spells.take inside
  rw [Nat.zero_add] at taken
  have dropped := taken.drop (length.symm ▸ order)
  rw [Nat.zero_add] at dropped
  refine ⟨⟨Function.update block.bytes right 0, block.size⟩, ?_, ?_, ?_⟩
  · rw [Block.write_eq_some (room 0), overlay_singleton]
  · refine @Block.text_eq_some ⟨Function.update block.bytes right 0, block.size⟩ _ _ dropped ?_
    rw [List.length_drop, length]
    dsimp only
    omega
  · rw [@Block.write_eq_some ⟨Function.update block.bytes right 0, block.size⟩ _ _ (room _)]
    dsimp only
    rw [overlay_singleton, Function.update_idem, Function.update_eq_self]

/-- **`substring`** leaves the string as it was, and its result stands for something. -/
theorem substring_represents (represents : text.Represents value) {left right : UInt32}
    (takesWell : text.TakesWell left right) (first second : Answer) :
    ∃ out other, text.substring left right first second = some (text, out) ∧
      out.Represents other := by
  obtain ⟨low, high, ordered, order, zero⟩ : ∃ low high : UInt32,
      (if right < left then (right, left) else (left, right)) = (low, high) ∧
        low.toNat ≤ high.toNat ∧ (low = 0 → left = 0 ∨ right = 0) := by
    split_ifs with swap
    · exact ⟨right, left, rfl, Nat.le_of_lt (UInt32.lt_iff_toNat_lt.mp swap), .inr⟩
    · exact ⟨left, right, rfl, Nat.le_of_not_lt fun less => swap (UInt32.lt_iff_toNat_lt.mpr less), .inl⟩
  obtain ⟨out, other, made, outRepresents⟩ := fromCString_represents CStr.empty (by decide) first
  unfold substring
  simp only [ordered, made, Option.bind_some]
  by_cases behind : text.len < low
  · exact ⟨out, other, if_pos behind, outRepresents⟩
  rw [if_neg behind]
  rw [UInt32.lt_iff_toNat_lt] at behind
  cases value with
  | none =>
    -- A part of nothing starts behind it.
    rw [show text = invalid from represents] at behind takesWell
    have start : low = 0 := UInt32.toNat_inj.mp (Nat.le_zero.mp (Nat.le_of_not_lt behind))
    exact absurd (zero start) (not_or.mpr (takesWell.resolve_left Bool.false_ne_true))
  | some chars =>
    obtain ⟨block, holds⟩ := represents
    have len := holds.len
    have fits := holds.fits
    have bounded := holds.bounded
    obtain ⟨stop, is_stop, least, most⟩ : ∃ stop : UInt32,
        stop = (if text.len < high then text.len else high) ∧
          low.toNat ≤ stop.toNat ∧ stop.toNat ≤ chars.length := by
      refine ⟨_, rfl, ?_⟩
      split_ifs with long
      · omega
      · rw [UInt32.lt_iff_toNat_lt] at long
        omega
    obtain ⟨cut, stored, read, restored⟩ := holds.part least most
    have short : ((chars.take stop.toNat).drop low.toNat).length + 1 < UInt32.size := by
      rw [List.length_drop, List.length_take]
      omega
    have proper : 0 ∉ (chars.take stop.toNat).drop low.toNat := fun zero =>
      holds.spells.proper (List.mem_of_mem_take (List.mem_of_mem_drop zero))
    obtain ⟨after, value, assigned, afterRepresents⟩ :=
      assignCString_represents outRepresents proper short second
    refine ⟨after, value, ?_, afterRepresents⟩
    simp only [← is_stop, holds.buffer, Option.bind_some, stored, read, assigned, restored,
      Option.map_some]
    rw [← holds.buffer]

/-- **A part of nothing** that starts in front is read from NULL. -/
theorem substring_faults (represents : text.Represents value) {left right : UInt32}
    (badly : ¬ text.TakesWell left right) (first second : Answer) :
    text.substring left right first second = none := by
  obtain ⟨empty, low⟩ := not_or.mp badly
  cases value with
  | none =>
    rw [show text = invalid from represents]
    obtain ⟨high, ordered⟩ : ∃ high : UInt32,
        (if right < left then (right, left) else (left, right)) = (0, high) := by
      by_cases leftZero : left = 0
      · refine ⟨right, ?_⟩
        rw [leftZero, if_neg (by rw [UInt32.lt_iff_toNat_lt]; exact Nat.not_lt_zero _)]
      · have rightZero : right = 0 := by
          by_contra nonzero
          exact low ⟨leftZero, nonzero⟩
        have leftPos : (0 : UInt32) < left := by
          rw [UInt32.lt_iff_toNat_lt]
          exact Nat.pos_of_ne_zero fun zero => leftZero (UInt32.toNat_inj.mp zero)
        exact ⟨left, by rw [rightZero, if_pos leftPos]⟩
    obtain ⟨out, other, made, -⟩ := fromCString_represents CStr.empty (by decide) first
    unfold substring
    simp only [ordered, made, Option.bind_some, invalid]
    rfl
  | some chars =>
    obtain ⟨block, holds⟩ := represents
    rw [holds.buffer] at empty
    exact absurd rfl empty

end WString

end PrimoCore.Text
