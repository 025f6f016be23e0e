/-
**Searching in a text.**

`indexOf` looks from an index on, `lastIndexOf` from an index backwards, each for a character or for a
string. The last occurrence of a string is found by a search from the left, that goes on behind the start of
each occurrence; the last one of a character, in front of a zero that is stored behind the index.

* `indexOf`, `indexOfChar`, `lastIndexOf`, `lastIndexOfChar`, and the forms without an index — the code.
* `ReturnsLeast`, `ReturnsGreatest` — what is returned is the least, or the greatest, of some positions.
* `lastIndexLoop_greatest` — the loop of `lastIndexOf` returns the last occurrence.
* `searches_right` — **each search returns the position it is to return**, and the text stays as it was.
-/

import PrimoCore.Lib.Pattern
import PrimoCore.Text.WString

namespace PrimoCore.Text

open PrimoCore.Lib

/-- A word as an `int`. -/
def asInt (word : UInt32) : Int := if word.toNat < 2 ^ 31 then word.toNat else word.toNat - 2 ^ 32

/-- `strstr` from an index of a buffer: the index of the first occurrence. -/
def strstr (block : Block) (start : Nat) (find : CharPtr) : Option (Option Nat) :=
  match find with
  | some (some find) => (block.text start).map fun chars => (firstAt find chars).map (start + ·)
  | _ => none

/-- `strchr` from an index of a buffer: the index of the first such character, the zero included. -/
def strchr (block : Block) (start : Nat) (ch : UInt8) : Option (Option Nat) :=
  (block.text start).map fun chars => ((chars ++ [0]).idxOf? ch).map (start + ·)

/-- `strrchr` from an index of a buffer: the index of the last such character, the zero included. -/
def strrchr (block : Block) (start : Nat) (ch : UInt8) : Option (Option Nat) :=
  (block.text start).map fun chars =>
    ((chars ++ [0]).reverse.idxOf? ch).map fun behind => start + (chars.length - behind)

/-- What a search returns for the pointer it has found: its distance from the buffer, or `-1`. -/
def position : Option Nat → Int
  | none => -1
  | some index => asInt (UInt32.ofNat index)

namespace WString

/-- `indexOf`, of a character from an index on. -/
def indexOfChar (text : WString) (ch : UInt8) (fromIndex : UInt32) : Option Int :=
  if text.len ≤ fromIndex then some (-1)
  else text.buffer.bind fun block => (strchr block fromIndex.toNat ch).map position

/-- `indexOf`, of a string from an index on. -/
def indexOf (text s2 : WString) (fromIndex : UInt32) : Option Int :=
  if text.len ≤ fromIndex then some (-1)
  else text.buffer.bind fun block => (strstr block fromIndex.toNat s2.charPtr).map position

/-- `lastIndexOf`, of a character from an index backwards: the string, as it is restored, and the result. -/
def lastIndexOfChar (text : WString) (ch : UInt8) (fromIndex : UInt32) : Option (WString × Int) :=
  if text.len ≤ fromIndex then some (text, -1)
  else text.buffer.bind fun block =>
    let tempchar := block.bytes (fromIndex + 1).toNat
    (block.write (fromIndex + 1).toNat [0]).bind fun block =>
      (strrchr block 0 ch).bind fun temp =>
        (block.write (fromIndex + 1).toNat [tempchar]).map fun block =>
          ({ text with buffer := some block }, position temp)

/-- The loop of `lastIndexOf`. -/
def lastIndexLoop (block : Block) (s2 : CharPtr) (fromIndex p : Nat) (found : Int) :
    Nat → Option Int
  | 0 => none
  | fuel + 1 =>
      if p ≤ fromIndex then
        match strstr block p s2 with
        | none => none
        | some none => some found
        | some (some p) =>
            let found := if p ≤ fromIndex then asInt (UInt32.ofNat p) else found
            lastIndexLoop block s2 fromIndex (p + 1) found fuel
      else some found

/-- `lastIndexOf`, of a string from an index backwards. Each round moves on. -/
def lastIndexOf (text s2 : WString) (fromIndex : UInt32) : Option Int :=
  if s2.len = 0 ∨ text.len = 0 ∨ text.len < s2.len then some (-1)
  else
    let fromIndex := if text.len ≤ fromIndex then text.len - 1 else fromIndex
    text.buffer.bind fun block =>
      lastIndexLoop block s2.charPtr fromIndex.toNat 0 (-1) (fromIndex.toNat + 2)

/-! Without an index. -/

def indexOfCharWhole (text : WString) (ch : UInt8) : Option Int := text.indexOfChar ch 0

def indexOfWhole (text s2 : WString) : Option Int := text.indexOf s2 0

def lastIndexOfCharWhole (text : WString) (ch : UInt8) : Option (WString × Int) :=
  text.lastIndexOfChar ch (text.len - 1)

def lastIndexOfWhole (text s2 : WString) : Option Int := text.lastIndexOf s2 (text.len - s2.len)

end WString

/-! ### What is to be returned -/

/-- **The least of some positions** is returned, as an `int`, or `-1` when there are none. -/
def ReturnsLeast (positions : Set Nat) (found : Int) : Prop :=
  positions = ∅ ∧ found = -1 ∨
    ∃ index, IsLeast positions index ∧ found = asInt (UInt32.ofNat index)

/-- **The greatest of some positions** is returned, as an `int`, or `-1` when there are none. -/
def ReturnsGreatest (positions : Set Nat) (found : Int) : Prop :=
  positions = ∅ ∧ found = -1 ∨
    ∃ index, IsGreatest positions index ∧ found = asInt (UInt32.ofNat index)

/-- The positions where a character stands. -/
def places (ch : UInt8) (chars : List UInt8) : Set Nat := {index | chars[index]? = some ch}

/-- A position below 2 ^ 31 is returned as it is. -/
theorem asInt_ofNat {value : Nat} (small : value < 2 ^ 31) : asInt (UInt32.ofNat value) = value := by
  have whole : (UInt32.ofNat value).toNat = value := UInt32.toNat_ofNat_of_lt' (by
    have word : UInt32.size = 4294967296 := rfl
    omega)
  rw [asInt, whole, if_pos small]

variable {pattern chars : List UInt8} {block : Block} {start : Nat}

theorem strstr_eq (spells : Spells block.bytes start chars)
    (inside : start + chars.length < block.size) (pattern : List UInt8) :
    strstr block start (some (some pattern)) = some ((firstAt pattern chars).map (start + ·)) := by
  simp only [strstr, block.text_eq_some spells inside, Option.map_some]

/-! ### From the left -/

/-- A character other than zero stands in the text, not at its end. -/
theorem idxOf_terminated {ch : UInt8} (proper : ch ≠ 0) (chars : List UInt8) :
    (chars ++ [0]).idxOf? ch = chars.idxOf? ch := by
  induction chars with
  | nil => exact List.idxOf?_singleton.trans (if_neg (by simpa using proper.symm))
  | cons char rest ih => rw [List.cons_append, List.idxOf?_cons, List.idxOf?_cons, ih]

theorem returnsLeast_idxOf (ch : UInt8) (chars : List UInt8) (start : Nat) :
    ReturnsLeast (places ch chars ∩ Set.Ici start)
      (position (((chars.drop start).idxOf? ch).map (start + ·))) := by
  have moved : ∀ offset, (chars.drop start)[offset]? = chars[start + offset]? := fun offset =>
    List.getElem?_drop
  cases first : (chars.drop start).idxOf? ch with
  | none =>
    refine .inl ⟨Set.eq_empty_of_forall_notMem fun index ⟨stands, behind⟩ => ?_, rfl⟩
    have absent := List.idxOf?_eq_none_iff.mp first
    refine absent (List.mem_of_getElem? (i := index - start) ?_)
    rw [moved, Nat.add_sub_cancel' behind]
    exact stands
  | some offset =>
    obtain ⟨inside, stands, before⟩ := List.idxOf?_eq_some_iff.mp first
    refine .inr ⟨start + offset, ⟨⟨?_, Nat.le_add_right ..⟩, fun index ⟨there, behind⟩ => ?_⟩, rfl⟩
    · change chars[start + offset]? = some ch
      rw [← moved, List.getElem?_eq_getElem inside, stands]
    · by_contra less
      rw [Set.mem_Ici] at behind
      refine before (index - start) (by omega) ?_
      rw [← Option.some_inj, ← List.getElem?_eq_getElem, moved, Nat.add_sub_cancel' behind]
      exact there

/-! ### From the right -/

theorem returnsGreatest_reverse {ch : UInt8} (proper : ch ≠ 0) (chars : List UInt8) :
    ReturnsGreatest (places ch chars)
      (position (((chars ++ [0]).reverse.idxOf? ch).map fun behind => 0 + (chars.length - behind))) := by
  have skipped : (chars ++ [0]).reverse.idxOf? ch = (chars.reverse.idxOf? ch).map (· + 1) := by
    rw [List.reverse_append, List.reverse_singleton, List.singleton_append, List.idxOf?_cons,
      if_neg (by simpa using proper.symm)]
  rw [skipped]
  cases last : chars.reverse.idxOf? ch with
  | none =>
    refine .inl ⟨Set.eq_empty_of_forall_notMem fun index stands => ?_, rfl⟩
    exact List.idxOf?_eq_none_iff.mp last (List.mem_reverse.mpr (List.mem_of_getElem? stands))
  | some behind =>
    obtain ⟨inside, stands, before⟩ := List.idxOf?_eq_some_iff.mp last
    rw [List.length_reverse] at inside
    rw [List.getElem_reverse] at stands
    refine .inr ⟨chars.length - 1 - behind, ⟨?_, fun index there => ?_⟩, ?_⟩
    · change chars[chars.length - 1 - behind]? = some ch
      rw [List.getElem?_eq_getElem (by omega), stands]
    · by_contra greater
      obtain ⟨within, same⟩ := List.getElem?_eq_some_iff.mp there
      refine before (chars.length - 1 - index) (by omega) ?_
      rw [List.getElem_reverse]
      simpa only [show chars.length - 1 - (chars.length - 1 - index) = index by omega] using same
    · rw [Option.map_some, Option.map_some, position, Nat.zero_add, Nat.add_comm behind 1, Nat.sub_sub]

/-- What stands up to an index. -/
theorem places_take (ch : UInt8) (chars : List UInt8) (count : Nat) :
    places ch (chars.take count) = places ch chars ∩ Set.Iio count := by
  ext index
  simp only [places, Set.mem_inter_iff, Set.mem_ofPred_eq, Set.mem_Iio, List.getElem?_take]
  by_cases inside : index < count <;> simp [inside]

namespace WString

/-- **The loop of `lastIndexOf`** returns the last occurrence that starts at the index or in front of it.
The invariant: what has been found is the last one in front of where the search goes on. -/
theorem lastIndexLoop_greatest (nonempty : pattern ≠ []) (spells : Spells block.bytes 0 chars)
    (inside : chars.length < block.size) {fromIndex p : Nat} (low : p ≤ chars.length) {found : Int}
    (last : ReturnsGreatest (occurrences pattern chars ∩ Set.Iic fromIndex ∩ Set.Iio p) found)
    {fuel : Nat} (enough : fromIndex + 1 - p < fuel) :
    ∃ index, lastIndexLoop block (some (some pattern)) fromIndex p found fuel = some index ∧
      ReturnsGreatest (occurrences pattern chars ∩ Set.Iic fromIndex) index := by
  have positive := List.length_pos_iff.mpr nonempty
  induction fuel generalizing p found with
  | zero => omega
  | succ fuel ih =>
    rw [lastIndexLoop]
    split_ifs with more
    · have behind := spells.drop low
      rw [Nat.zero_add] at behind
      rw [strstr_eq behind (by rw [List.length_drop]; omega)]
      cases first : firstAt pattern (chars.drop p) with
      | none =>
        have front : occurrences pattern chars ∩ Set.Iic fromIndex ⊆ Set.Iio p := by
          intro index occurs
          by_contra above
          have there : index ∈ occurrences pattern chars ∩ Set.Ici p :=
            ⟨occurs.1, Nat.le_of_not_lt above⟩
          rwa [occurrences_behind_eq_empty nonempty first] at there
        rw [Set.inter_eq_left.mpr front] at last
        exact ⟨found, rfl, last⟩
      | some offset =>
        obtain ⟨⟨starts, -⟩, least⟩ := isLeast_occurrences_behind first
        have room := firstAt_inside nonempty first
        rw [List.length_drop] at room
        simp only [Option.map_some]
        refine ih (by omega) ?_ (by omega)
        split_ifs with recorded
        · exact .inr ⟨p + offset, ⟨⟨⟨starts, recorded⟩, Nat.lt_succ_self _⟩,
            fun _ ⟨_, before⟩ => Nat.le_of_lt_succ before⟩, rfl⟩
        · -- The occurrence is behind the index, so there is none between it and where the search was.
          have same : occurrences pattern chars ∩ Set.Iic fromIndex ∩ Set.Iio (p + offset + 1) =
              occurrences pattern chars ∩ Set.Iic fromIndex ∩ Set.Iio p := by
            refine Set.Subset.antisymm (fun index ⟨⟨occurs, front⟩, _⟩ => ⟨⟨occurs, front⟩, ?_⟩)
              (Set.inter_subset_inter_right _ (Set.Iio_subset_Iio (by omega)))
            by_contra above
            have after := least ⟨occurs, Nat.le_of_not_lt above⟩
            rw [Set.mem_Iic] at front
            omega
          rwa [same]
    · have front : occurrences pattern chars ∩ Set.Iic fromIndex ⊆ Set.Iio p :=
        fun index occurs => Nat.lt_of_le_of_lt occurs.2 (Nat.lt_of_not_le more)
      rw [Set.inter_eq_left.mpr front] at last
      exact ⟨found, rfl, last⟩

variable {text s2 : WString} {value other : Option (List UInt8)}

/-- A string that is looked for, with some characters, has a buffer. -/
theorem Represents.needle (represents : s2.Represents other) (nonempty : textOf other ≠ []) :
    s2.charPtr = some (some (textOf other)) := by
  rw [represents.charPtr]
  cases other with
  | none => exact absurd rfl nonempty
  | some chars => rfl

/-! ### The searches -/

/-- A text with an index in it has a buffer. -/
theorem Represents.holds_of_inside (represents : text.Represents value) {index : Nat}
    (inside : index < text.len.toNat) : ∃ block, text.Holds block (textOf value) := by
  cases value with
  | none =>
    rw [show text = invalid from represents] at inside
    exact absurd inside (Nat.not_lt_zero index)
  | some chars => exact represents

theorem indexOf_right (represents : text.Represents value) (looked : s2.Represents other)
    (nonempty : textOf other ≠ []) (fromIndex : UInt32) :
    ∃ found, text.indexOf s2 fromIndex = some found ∧
      ReturnsLeast (occurrences (textOf other) (textOf value) ∩ Set.Ici fromIndex.toNat) found := by
  unfold indexOf
  have len := represents.len
  split_ifs with behind
  · rw [UInt32.le_iff_toNat_le] at behind
    refine ⟨-1, rfl, .inl ⟨Set.eq_empty_of_forall_notMem fun index ⟨starts, above⟩ => ?_, rfl⟩⟩
    rw [Set.mem_Ici] at above
    have nothing : (textOf value).drop index = [] := List.drop_of_length_le (by omega)
    change textOf other <+: (textOf value).drop index at starts
    rw [nothing, List.prefix_nil] at starts
    exact nonempty starts
  · rw [UInt32.le_iff_toNat_le, Nat.not_le] at behind
    obtain ⟨block, holds⟩ := represents.holds_of_inside behind
    have fits := holds.fits
    have size := holds.size
    have later := holds.spells.drop (show fromIndex.toNat ≤ (textOf value).length by omega)
    rw [Nat.zero_add] at later
    rw [holds.buffer, Option.bind_some, looked.needle nonempty,
      strstr_eq later (by rw [List.length_drop]; omega)]
    refine ⟨_, rfl, ?_⟩
    cases first : firstAt (textOf other) ((textOf value).drop fromIndex.toNat) with
    | none => exact .inl ⟨occurrences_behind_eq_empty nonempty first, rfl⟩
    | some offset => exact .inr ⟨_, isLeast_occurrences_behind first, rfl⟩

theorem indexOfChar_right (represents : text.Represents value) {ch : UInt8} (proper : ch ≠ 0)
    (fromIndex : UInt32) :
    ∃ found, text.indexOfChar ch fromIndex = some found ∧
      ReturnsLeast (places ch (textOf value) ∩ Set.Ici fromIndex.toNat) found := by
  unfold indexOfChar
  have len := represents.len
  split_ifs with behind
  · rw [UInt32.le_iff_toNat_le] at behind
    refine ⟨-1, rfl, .inl ⟨Set.eq_empty_of_forall_notMem fun index ⟨stands, above⟩ => ?_, rfl⟩⟩
    obtain ⟨inside, -⟩ := List.getElem?_eq_some_iff.mp stands
    rw [Set.mem_Ici] at above
    omega
  · rw [UInt32.le_iff_toNat_le, Nat.not_le] at behind
    obtain ⟨block, holds⟩ := represents.holds_of_inside behind
    have fits := holds.fits
    have size := holds.size
    have later := holds.spells.drop (show fromIndex.toNat ≤ (textOf value).length by omega)
    rw [Nat.zero_add] at later
    rw [holds.buffer, Option.bind_some, strchr,
      block.text_eq_some later (by rw [List.length_drop]; omega), Option.map_some, Option.map_some,
      idxOf_terminated proper]
    exact ⟨_, rfl, returnsLeast_idxOf ch _ _⟩

/-- **`lastIndexOf`, of a character**, puts the byte behind the index back. -/
theorem lastIndexOfChar_right (represents : text.Represents value) {ch : UInt8} (proper : ch ≠ 0)
    (fromIndex : UInt32) :
    ∃ found, text.lastIndexOfChar ch fromIndex = some (text, found) ∧
      if text.len ≤ fromIndex then found = -1
      else ReturnsGreatest (places ch (textOf value) ∩ Set.Iic fromIndex.toNat) found := by
  unfold lastIndexOfChar
  have len := represents.len
  split_ifs with behind
  · exact ⟨-1, rfl, rfl⟩
  · rw [UInt32.le_iff_toNat_le, Nat.not_le] at behind
    obtain ⟨block, holds⟩ := represents.holds_of_inside behind
    have next : (fromIndex + 1).toNat = fromIndex.toNat + 1 := by
      have small := text.len.toNat_lt
      rw [UInt32.toNat_add, UInt32.toNat_one]
      omega
    obtain ⟨cut, patched, front, restored⟩ :=
      holds.part (Nat.zero_le (fromIndex.toNat + 1)) (by omega)
    rw [List.drop_zero] at front
    have same : ({ text with buffer := some block } : WString) = text := by rw [← holds.buffer]
    have greatest := returnsGreatest_reverse proper ((textOf value).take (fromIndex.toNat + 1))
    rw [places_take] at greatest
    simp only [holds.buffer, Option.bind_some, next, patched, strrchr, front, Option.map_some,
      restored, same]
    refine ⟨_, rfl, ?_⟩
    rwa [show Set.Iic fromIndex.toNat = Set.Iio (fromIndex.toNat + 1) by
      ext index; exact Nat.lt_succ_iff.symm]

/-- **`lastIndexOf`, of a string**, returns its last occurrence up to the index. -/
theorem lastIndexOf_greatest (represents : text.Represents value)
    (spelled : s2.charPtr = some (some pattern)) (needleLen : s2.len.toNat = pattern.length)
    (nonempty : pattern ≠ []) (fromIndex : UInt32) :
    ∃ found, text.lastIndexOf s2 fromIndex = some found ∧
      ReturnsGreatest (occurrences pattern (textOf value) ∩ Set.Iic fromIndex.toNat) found := by
  have positive := List.length_pos_iff.mpr nonempty
  have len := represents.len
  have inText : ∀ index ∈ occurrences pattern (textOf value),
      index + s2.len.toNat ≤ text.len.toNat := by
    intro index starts
    have room := List.IsPrefix.length_le starts
    rw [List.length_drop] at room
    omega
  unfold lastIndexOf
  by_cases nothing : s2.len = 0 ∨ text.len = 0 ∨ text.len < s2.len
  · refine ⟨-1, if_pos nothing, .inl ⟨Set.eq_empty_of_forall_notMem fun index ⟨occurs, _⟩ => ?_, rfl⟩⟩
    have room := inText index occurs
    rcases nothing with zero | zero | less
    · rw [zero] at needleLen
      exact absurd needleLen (Nat.ne_of_lt positive)
    · rw [zero, UInt32.toNat_zero] at room
      omega
    · rw [UInt32.lt_iff_toNat_lt] at less
      omega
  rw [if_neg nothing]
  simp only [not_or] at nothing
  have someLen : text.len.toNat ≠ 0 := fun zero => nothing.2.1 (UInt32.toNat_inj.mp zero)
  obtain ⟨block, holds⟩ := represents.holds_of_inside (Nat.pos_of_ne_zero someLen)
  -- An index behind the text is as good as the last one in it.
  obtain ⟨limit, is_limit, limited⟩ : ∃ limit : UInt32,
      (if text.len ≤ fromIndex then text.len - 1 else fromIndex) = limit ∧
        occurrences pattern (textOf value) ∩ Set.Iic limit.toNat =
          occurrences pattern (textOf value) ∩ Set.Iic fromIndex.toNat := by
    refine ⟨_, rfl, ?_⟩
    split_ifs with behind
    · rw [UInt32.le_iff_toNat_le] at behind
      have last : (text.len - 1).toNat = text.len.toNat - 1 :=
        UInt32.toNat_sub_of_le _ _ (UInt32.le_iff_toNat_le.mpr (by rw [UInt32.toNat_one]; omega))
      ext index
      refine and_congr_right fun occurs => ?_
      have room := inText index occurs
      rw [Set.mem_Iic, Set.mem_Iic, last]
      omega
    · rfl
  have fits := holds.fits
  have size := holds.size
  rw [is_limit, ← limited, holds.buffer, Option.bind_some, spelled]
  refine lastIndexLoop_greatest nonempty holds.spells (by omega) (Nat.zero_le _) ?_ (by omega)
  exact .inl ⟨Set.eq_empty_of_forall_notMem fun index occurs => Nat.not_lt_zero _ occurs.2, rfl⟩

/-- **The searches**, from an index and over the whole text, return what they are to return. -/
structure SearchesRight (text s2 : WString) (ch : UInt8) (chars pattern : List UInt8)
    (fromIndex : UInt32) : Prop where
  indexOf : ∃ found, text.indexOf s2 fromIndex = some found ∧
    ReturnsLeast (occurrences pattern chars ∩ Set.Ici fromIndex.toNat) found ∧
    (text.len ≤ fromIndex → found = -1)
  indexOfChar : ∃ found, text.indexOfChar ch fromIndex = some found ∧
    ReturnsLeast (places ch chars ∩ Set.Ici fromIndex.toNat) found
  lastIndexOf : ∃ found, text.lastIndexOf s2 fromIndex = some found ∧
    ReturnsGreatest (occurrences pattern chars ∩ Set.Iic fromIndex.toNat) found
  lastIndexOfChar : ∃ found, text.lastIndexOfChar ch fromIndex = some (text, found) ∧
    if text.len ≤ fromIndex then found = -1
    else ReturnsGreatest (places ch chars ∩ Set.Iic fromIndex.toNat) found
  indexOfWhole : ∃ found, text.indexOfWhole s2 = some found ∧
    ReturnsLeast (occurrences pattern chars) found
  indexOfCharWhole : ∃ found, text.indexOfCharWhole ch = some found ∧
    ReturnsLeast (places ch chars) found
  lastIndexOfWhole : ∃ found, text.lastIndexOfWhole s2 = some found ∧
    ReturnsGreatest (occurrences pattern chars) found
  lastIndexOfCharWhole : ∃ found, text.lastIndexOfCharWhole ch = some (text, found) ∧
    ReturnsGreatest (places ch chars) found

/-- The last place a string can start at is found by a subtraction, that wraps only where the string is
longer than the text. -/
theorem lastIndexOfWhole_right (represents : text.Represents value) (looked : s2.Represents other)
    (nonempty : textOf other ≠ []) :
    ∃ found, text.lastIndexOfWhole s2 = some found ∧
      ReturnsGreatest (occurrences (textOf other) (textOf value)) found := by
  have len := represents.len
  have needleLen := looked.len
  obtain ⟨found, searched, greatest⟩ :=
    lastIndexOf_greatest represents (looked.needle nonempty) looked.len nonempty (text.len - s2.len)
  refine ⟨found, searched, ?_⟩
  have front : occurrences (textOf other) (textOf value) ⊆ Set.Iic (text.len - s2.len).toNat := by
    intro index starts
    have room := List.IsPrefix.length_le starts
    rw [List.length_drop] at room
    have some_chars := List.length_pos_iff.mpr nonempty
    rw [Set.mem_Iic, UInt32.toNat_sub_of_le _ _ (UInt32.le_iff_toNat_le.mpr (by omega))]
    omega
  rwa [Set.inter_eq_left.mpr front] at greatest

/-- The last place of a text is found by a subtraction, that wraps only where the text is empty. -/
theorem lastIndexOfCharWhole_right (represents : text.Represents value) {ch : UInt8}
    (proper : ch ≠ 0) :
    ∃ found, text.lastIndexOfCharWhole ch = some (text, found) ∧
      ReturnsGreatest (places ch (textOf value)) found := by
  have len := represents.len
  obtain ⟨found, searched, greatest⟩ := lastIndexOfChar_right represents proper (text.len - 1)
  refine ⟨found, searched, ?_⟩
  have inside : ∀ index ∈ places ch (textOf value), index < text.len.toNat := by
    intro index stands
    obtain ⟨within, -⟩ := List.getElem?_eq_some_iff.mp stands
    exact len ▸ within
  by_cases empty : text.len = 0
  · rw [empty, if_pos UInt32.zero_le] at greatest
    refine .inl ⟨Set.eq_empty_of_forall_notMem fun index stands => ?_, greatest⟩
    rw [empty] at inside
    exact Nat.not_lt_zero _ (inside index stands)
  · have someLen : text.len.toNat ≠ 0 := fun zero => empty (UInt32.toNat_inj.mp zero)
    have last : (text.len - 1).toNat = text.len.toNat - 1 :=
      UInt32.toNat_sub_of_le _ _ (UInt32.le_iff_toNat_le.mpr (by rw [UInt32.toNat_one]; omega))
    rw [if_neg (by rw [UInt32.le_iff_toNat_le, last]; omega), Set.inter_eq_left.mpr] at greatest
    · exact greatest
    · intro index stands
      have within := inside index stands
      rw [Set.mem_Iic, last]
      omega

/-- **Each search returns the position it is to return**: the least one from the index on, or the greatest
one up to it, whatever the text, the index and what is looked for. -/
theorem searches_right (represents : text.Represents value) (looked : s2.Represents other)
    (nonempty : textOf other ≠ []) {ch : UInt8} (proper : ch ≠ 0) (fromIndex : UInt32) :
    text.SearchesRight s2 ch (textOf value) (textOf other) fromIndex where
  indexOf := by
    obtain ⟨found, searched, least⟩ := indexOf_right represents looked nonempty fromIndex
    refine ⟨found, searched, least, fun behind => ?_⟩
    rw [WString.indexOf, if_pos behind] at searched
    exact (Option.some.inj searched).symm
  indexOfChar := indexOfChar_right represents proper fromIndex
  lastIndexOf := lastIndexOf_greatest represents (looked.needle nonempty) looked.len nonempty fromIndex
  lastIndexOfChar := lastIndexOfChar_right represents proper fromIndex
  indexOfWhole := by
    obtain ⟨found, searched, least⟩ := indexOf_right represents looked nonempty 0
    have whole : occurrences (textOf other) (textOf value) ⊆ Set.Ici 0 := fun index _ => Nat.zero_le index
    rw [UInt32.toNat_zero, Set.inter_eq_left.mpr whole] at least
    exact ⟨found, searched, least⟩
  indexOfCharWhole := by
    obtain ⟨found, searched, least⟩ := indexOfChar_right represents proper 0
    have whole : places ch (textOf value) ⊆ Set.Ici 0 := fun index _ => Nat.zero_le index
    rw [UInt32.toNat_zero, Set.inter_eq_left.mpr whole] at least
    exact ⟨found, searched, least⟩
  lastIndexOfWhole := lastIndexOfWhole_right represents looked nonempty
  lastIndexOfCharWhole := lastIndexOfCharWhole_right represents proper

/-- Two occurrences of `aa` overlap in `aaa`. -/
theorem searches_right_overlap :
    (literal [97, 97, 97]).SearchesRight (literal [97, 97]) 97 [97, 97, 97] [97, 97] 1 :=
  searches_right (literal_represents (by decide) (by decide)) (literal_represents (by decide) (by decide))
    (by decide) (by decide) 1

end WString

end PrimoCore.Text
