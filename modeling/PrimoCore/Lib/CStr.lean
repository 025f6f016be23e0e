/-
**C strings in memory.**

A C string is a run of characters that are not zero, and a zero behind them. A block is a piece of
memory of some size; what is read or written outside it is an error.

* `overlay` — a memory with some bytes stored in it; `slice_overlay`, `overlay_outside` read it.
* `Spells` — **the memory spells a string** at an index: `Spells.unique`, `Spells.drop`, `Spells.take`.
* `readText` — reading a string up to its zero, within a limit; `readText_eq_some_iff`.
* `spells_overlay`, `spells_overlay_append` — what a copied string spells, at the start or behind another.
* `Block` — a block, with `Block.write`, `Block.text`, `Block.memcpy`, `Block.strncpy` and
  `Block.strcpyWithin`, a copy that may overlap its source.
-/

import Mathlib.Logic.Function.Basic
import PrimoCore.Lib.Buffer

namespace PrimoCore.Lib

/-! ### Bytes in a memory -/

/-- The memory with some bytes stored from an index on. -/
def overlay (memory : Memory UInt8) (start : Nat) (values : List UInt8) : Memory UInt8 :=
  fun position =>
    if start ≤ position ∧ position < start + values.length then values.getD (position - start) 0
    else memory position

section Overlay

variable {memory : Memory UInt8} {start : Nat} {values : List UInt8}

theorem overlay_inside {offset : Nat} (inside : offset < values.length) :
    overlay memory start values (start + offset) = values[offset] := by
  unfold overlay
  rw [if_pos (by omega), Nat.add_sub_cancel_left, List.getD_eq_getElem?_getD,
    List.getElem?_eq_getElem inside]
  rfl

theorem overlay_outside {position : Nat}
    (outside : position < start ∨ start + values.length ≤ position) :
    overlay memory start values position = memory position := if_neg (by omega)

theorem slice_overlay (memory : Memory UInt8) (start : Nat) (values : List UInt8) :
    slice (overlay memory start values) start values.length = values := by
  refine List.ext_getElem (slice_length ..) fun offset _ inside => ?_
  rw [getElem_slice, overlay_inside inside]

/-- A range in front of the bytes is not touched. -/
theorem slice_overlay_before {first count : Nat} (before : first + count ≤ start) :
    slice (overlay memory start values) first count = slice memory first count :=
  slice_congr fun _ inside => overlay_outside (.inl (by omega))

theorem overlay_nil (memory : Memory UInt8) (start : Nat) : overlay memory start [] = memory := by
  funext position
  exact overlay_outside (by rw [List.length_nil]; omega)

/-- A store of the bytes that are there changes nothing. -/
theorem overlay_slice (memory : Memory UInt8) (start count : Nat) :
    overlay memory start (slice memory start count) = memory := by
  funext position
  by_cases inside : start ≤ position ∧ position < start + count
  · have here : position - start < (slice memory start count).length := by
      rw [slice_length]
      omega
    rw [← Nat.add_sub_cancel' inside.1, overlay_inside here, getElem_slice]
  · exact overlay_outside (by rw [slice_length]; omega)

/-- A store of one byte is an update. -/
theorem overlay_singleton (memory : Memory UInt8) (start : Nat) (value : UInt8) :
    overlay memory start [value] = Function.update memory start value := by
  funext position
  by_cases here : position = start
  · subst here
    rw [Function.update_self]
    simp [overlay]
  · rw [Function.update_of_ne here]
    exact overlay_outside (by rw [List.length_singleton]; omega)

/-- Bytes stored behind other bytes. -/
theorem overlay_append (memory : Memory UInt8) (start : Nat) (first second : List UInt8) :
    overlay (overlay memory start first) (start + first.length) second =
      overlay memory start (first ++ second) := by
  funext position
  by_cases inFirst : start ≤ position ∧ position < start + first.length
  · obtain ⟨offset, rfl⟩ := Nat.exists_eq_add_of_le inFirst.1
    have inside : offset < first.length := by omega
    rw [overlay_outside (by omega), overlay_inside inside,
      overlay_inside (by rw [List.length_append]; omega), List.getElem_append_left inside]
  · by_cases inSecond : start + first.length ≤ position ∧
        position < start + first.length + second.length
    · obtain ⟨offset, rfl⟩ := Nat.exists_eq_add_of_le inSecond.1
      have inside : offset < second.length := by omega
      rw [overlay_inside inside, Nat.add_assoc,
        overlay_inside (by rw [List.length_append]; omega),
        List.getElem_append_right (Nat.le_add_right ..)]
      simp only [Nat.add_sub_cancel_left]
    · rw [overlay_outside (by omega), overlay_outside (by omega),
        overlay_outside (by rw [List.length_append]; omega)]

end Overlay

/-! ### Strings -/

/-- **The memory spells the characters** from an index on: they stand there, none is zero, and a zero
follows. -/
structure Spells (memory : Memory UInt8) (start : Nat) (chars : List UInt8) : Prop where
  here : slice memory start chars.length = chars
  terminated : memory (start + chars.length) = 0
  proper : 0 ∉ chars

namespace Spells

variable {memory : Memory UInt8} {start : Nat} {chars : List UInt8}

theorem at_offset (spells : Spells memory start chars) {offset : Nat}
    (inside : offset < chars.length) : memory (start + offset) = chars[offset] := by
  have within : offset < (slice memory start chars.length).length := by rwa [slice_length]
  rw [← getElem_slice memory within]
  simp only [spells.here]

theorem ne_zero (spells : Spells memory start chars) {offset : Nat}
    (inside : offset < chars.length) : memory (start + offset) ≠ 0 := by
  rw [spells.at_offset inside]
  exact fun zero => spells.proper (zero ▸ List.getElem_mem inside)

/-- A memory spells one string from an index on. -/
theorem unique {other : List UInt8} (spells : Spells memory start chars)
    (also : Spells memory start other) : chars = other := by
  have length : chars.length = other.length := by
    rcases Nat.lt_trichotomy chars.length other.length with less | same | more
    · exact absurd spells.terminated (also.ne_zero less)
    · exact same
    · exact absurd also.terminated (spells.ne_zero more)
  rw [← spells.here, ← also.here, length]

theorem drop (spells : Spells memory start chars) {count : Nat} (few : count ≤ chars.length) :
    Spells memory (start + count) (chars.drop count) where
  here := by
    have whole := spells.here
    have length : chars.length = count + (chars.drop count).length := by
      rw [List.length_drop]
      omega
    rw [length, slice_add] at whole
    have second := congrArg (List.drop count) whole
    rwa [List.drop_left' (slice_length ..)] at second
  terminated := by
    rw [List.length_drop, Nat.add_assoc, Nat.add_sub_cancel' few]
    exact spells.terminated
  proper := fun zero => spells.proper (List.mem_of_mem_drop zero)

/-- The first characters stand at the start. -/
theorem slice_take (spells : Spells memory start chars) {count : Nat} (few : count ≤ chars.length) :
    slice memory start count = chars.take count := by
  have whole := spells.here
  rw [← List.take_append_drop count chars] at whole
  have front := (slice_split whole).1
  rwa [List.length_take_of_le few] at front

/-- A zero ends the string where it is stored. -/
theorem take (spells : Spells memory start chars) {count : Nat} (few : count ≤ chars.length) :
    Spells (Function.update memory (start + count) 0) start (chars.take count) where
  here := by
    rw [List.length_take_of_le few, ← spells.slice_take few]
    exact slice_congr fun offset inside => Function.update_of_ne (by omega) ..
  terminated := by
    rw [List.length_take_of_le few, Function.update_self]
  proper := fun zero => spells.proper (List.mem_of_mem_take zero)

/-- Characters in front of a string make a longer one. -/
theorem append {front : List UInt8} (here : slice memory start front.length = front)
    (properFront : 0 ∉ front) (spells : Spells memory (start + front.length) chars) :
    Spells memory start (front ++ chars) where
  here := by rw [List.length_append, slice_add, here, spells.here]
  terminated := by
    rw [List.length_append, ← Nat.add_assoc]
    exact spells.terminated
  proper := by
    rw [List.mem_append, not_or]
    exact ⟨properFront, spells.proper⟩

/-- What is spelled depends on the characters and the zero only. -/
theorem congr (spells : Spells memory start chars) {other : Memory UInt8}
    (same : ∀ offset ≤ chars.length, other (start + offset) = memory (start + offset)) :
    Spells other start chars where
  here := slice_frame spells.here fun offset inside => same offset (Nat.le_of_lt inside)
  terminated := (same _ (Nat.le_refl _)).trans spells.terminated
  proper := spells.proper

end Spells

theorem spells_nil_iff {memory : Memory UInt8} {start : Nat} :
    Spells memory start [] ↔ memory start = 0 :=
  ⟨fun spells => spells.terminated, fun zero => ⟨rfl, zero, List.not_mem_nil⟩⟩

theorem spells_cons_iff {memory : Memory UInt8} {start : Nat} {char : UInt8} {rest : List UInt8} :
    Spells memory start (char :: rest) ↔
      memory start = char ∧ char ≠ 0 ∧ Spells memory (start + 1) rest := by
  constructor
  · intro spells
    refine ⟨slice_head spells.here, fun zero => ?_, spells.drop (by simp)⟩
    exact spells.proper (zero ▸ List.mem_cons_self ..)
  · rintro ⟨rfl, nonzero, spells⟩
    refine ⟨?_, ?_, ?_⟩
    · rw [List.length_cons, slice_succ, spells.here]
    · rw [List.length_cons, Nat.add_comm rest.length, ← Nat.add_assoc]
      exact spells.terminated
    · rw [List.mem_cons, not_or]
      exact ⟨Ne.symm nonzero, spells.proper⟩

/-- The string at an index, read up to its zero, which is to come within a limit. -/
def readText (memory : Memory UInt8) (start : Nat) : Nat → Option (List UInt8)
  | 0 => none
  | limit + 1 =>
      if memory start = 0 then some []
      else (readText memory (start + 1) limit).map (memory start :: ·)

/-- **What is read is what is spelled** within the limit. -/
theorem readText_eq_some_iff {memory : Memory UInt8} {start limit : Nat} {chars : List UInt8} :
    readText memory start limit = some chars ↔ Spells memory start chars ∧ chars.length < limit := by
  induction limit generalizing start chars with
  | zero => simp [readText]
  | succ limit ih =>
    rw [readText]
    split_ifs with zero
    · cases chars with
      | nil => simp [spells_nil_iff, zero]
      | cons char rest =>
        refine iff_of_false (by simp) ?_
        rintro ⟨spells, -⟩
        obtain ⟨first, nonzero, -⟩ := spells_cons_iff.mp spells
        exact nonzero (first ▸ zero)
    · cases chars with
      | nil =>
        refine iff_of_false (by simp) ?_
        rintro ⟨spells, -⟩
        exact zero (spells_nil_iff.mp spells)
      | cons char rest =>
        rw [Option.map_eq_some_iff, spells_cons_iff, List.length_cons]
        constructor
        · rintro ⟨later, read, same⟩
          obtain ⟨rfl, rfl⟩ := List.cons.inj same
          obtain ⟨spells, short⟩ := ih.mp read
          exact ⟨⟨rfl, zero, spells⟩, Nat.succ_lt_succ short⟩
        · rintro ⟨⟨rfl, -, spells⟩, short⟩
          exact ⟨rest, ih.mpr ⟨spells, Nat.lt_of_succ_lt_succ short⟩, rfl⟩

/-- Characters stored over as many others change the string. -/
theorem spells_overlay_same {memory : Memory UInt8} {start : Nat} {front old new back : List UInt8}
    (spells : Spells memory start (front ++ (old ++ back))) (same : old.length = new.length)
    (proper : 0 ∉ new) :
    Spells (overlay memory (start + front.length) new) start (front ++ (new ++ back)) := by
  have behind := spells.drop (show (front ++ old).length ≤ (front ++ (old ++ back)).length by simp)
  rw [← List.append_assoc front, List.drop_left, List.length_append, same, ← Nat.add_assoc] at behind
  have properFront : 0 ∉ front := fun zero => spells.proper (List.mem_append_left _ zero)
  have here := (slice_split spells.here).1
  refine Spells.append ((slice_overlay_before (Nat.le_refl _)).trans here) properFront ?_
  refine Spells.append (slice_overlay ..) proper ?_
  exact behind.congr fun offset _ => overlay_outside (.inr (Nat.le_add_right ..))

/-- A copied string is spelled where it was copied to. -/
theorem spells_overlay (memory : Memory UInt8) (start : Nat) {chars : List UInt8}
    (proper : 0 ∉ chars) : Spells (overlay memory start (chars ++ [0])) start chars where
  here := by
    have whole := slice_overlay memory start (chars ++ [0])
    rw [List.length_append, slice_add] at whole
    exact (List.append_inj whole (slice_length ..)).1
  terminated := by
    rw [overlay_inside (by simp)]
    simp
  proper := proper

/-- A string copied behind some characters is spelled behind them. -/
theorem spells_overlay_append {memory : Memory UInt8} {start : Nat} {front : List UInt8}
    (here : slice memory start front.length = front) (properFront : 0 ∉ front) {chars : List UInt8}
    (proper : 0 ∉ chars) :
    Spells (overlay memory (start + front.length) (chars ++ [0])) start (front ++ chars) :=
  (spells_overlay memory (start + front.length) proper).append
    ((slice_overlay_before (Nat.le_refl _)).trans here) properFront

/-! ### Blocks -/

/-- A block of the heap; a block that has been freed has the size zero. -/
structure Block where
  bytes : Memory UInt8
  size : Nat

namespace Block

/-- `free`. -/
def free (block : Block) : Block := { block with size := 0 }

/-- A store of some bytes, which are to be inside the block. -/
def write (block : Block) (start : Nat) (values : List UInt8) : Option Block :=
  if start + values.length ≤ block.size then
    some { block with bytes := overlay block.bytes start values }
  else none

/-- The string at an index, which is to end inside the block. -/
def text (block : Block) (start : Nat) : Option (List UInt8) :=
  readText block.bytes start (block.size - start)

/-- `strcpy` of a string into the block. -/
def strcpy (block : Block) (start : Nat) (chars : List UInt8) : Option Block :=
  block.write start (chars ++ [0])

/-- `memcpy` within the block, the first byte first. -/
def memcpy (block : Block) (target source : Nat) : Nat → Option Block
  | 0 => some block
  | count + 1 =>
      if source < block.size ∧ target < block.size then
        let block := { block with bytes := Function.update block.bytes target (block.bytes source) }
        block.memcpy (target + 1) (source + 1) count
      else none

/-- `memmove` within the block. -/
def memmove (block : Block) (target source count : Nat) : Option Block :=
  if source + count ≤ block.size then block.write target (slice block.bytes source count) else none

/-- `strncpy` within the block, byte by byte: behind the end of the source, zeros. -/
def strncpy (block : Block) (target source : Nat) : Nat → Option Block
  | 0 => some block
  | count + 1 =>
      if source < block.size ∧ target < block.size then
        if block.bytes source = 0 then block.write target (List.replicate (count + 1) 0)
        else
          let block := { block with bytes := Function.update block.bytes target (block.bytes source) }
          block.strncpy (target + 1) (source + 1) count
      else none

/-- The loop of a `strcpy` within the block: byte by byte, the zero last. -/
def copyText (block : Block) (target source : Nat) : Nat → Option Block
  | 0 => none
  | limit + 1 =>
      if target < block.size then
        let next := { block with bytes := Function.update block.bytes target (block.bytes source) }
        if block.bytes source = 0 then some next else next.copyText (target + 1) (source + 1) limit
      else none

/-- `strcpy` within the block, of a string that is to end inside it. -/
def strcpyWithin (block : Block) (target source : Nat) : Option Block :=
  block.copyText target source (block.size - source)

theorem write_eq_some {block : Block} {start : Nat} {values : List UInt8}
    (inside : start + values.length ≤ block.size) : block.write start values =
      some { block with bytes := overlay block.bytes start values } := if_pos inside

/-- Two stores, one behind the other. -/
theorem write_append (block : Block) (start : Nat) (first second : List UInt8) :
    (block.write start first).bind (fun block => block.write (start + first.length) second) =
      block.write start (first ++ second) := by
  unfold write
  rw [List.length_append]
  by_cases fits : start + first.length ≤ block.size
  · rw [if_pos fits, Option.bind_some]
    dsimp only
    rw [overlay_append, Nat.add_assoc]
  · rw [if_neg fits, if_neg (by omega), Option.bind_none]

/-- **`memcpy` down** stores the bytes as they were. -/
theorem memcpy_down {block : Block} {target source count : Nat} (down : target ≤ source)
    (inside : source + count ≤ block.size) : block.memcpy target source count =
      some { block with bytes := overlay block.bytes target (slice block.bytes source count) } := by
  induction count generalizing block target source with
  | zero => rw [slice_zero, overlay_nil, memcpy]
  | succ count ih =>
    have later : slice (Function.update block.bytes target (block.bytes source)) (source + 1) count =
        slice block.bytes (source + 1) count :=
      slice_congr fun offset _ => Function.update_of_ne (by omega) ..
    rw [memcpy, if_pos (by omega)]
    dsimp only
    rw [ih (by omega) (by dsimp only; omega)]
    dsimp only
    rw [later, slice_succ, ← overlay_singleton,
      show target + 1 = target + [block.bytes source].length from rfl, overlay_append]
    rfl

/-- `strncpy` down of characters that are not zero is `memcpy`. -/
theorem strncpy_eq_memcpy {block : Block} {target source count : Nat} (down : target ≤ source)
    (nonzero : ∀ offset < count, block.bytes (source + offset) ≠ 0) :
    block.strncpy target source count = block.memcpy target source count := by
  induction count generalizing block target source with
  | zero => rfl
  | succ count ih =>
    have first : block.bytes source ≠ 0 := nonzero 0 (Nat.succ_pos _)
    rw [strncpy, memcpy, if_neg first]
    dsimp only
    rw [ih (Nat.succ_le_succ down) fun offset small => ?_]
    dsimp only
    rw [Function.update_of_ne (by omega), show source.succ + offset = source + (offset + 1) by omega]
    exact nonzero (offset + 1) (Nat.succ_lt_succ small)

/-- **`strncpy` down**, of characters that are not zero: they are stored as they were. -/
theorem strncpy_down {block : Block} {target source count : Nat} (down : target ≤ source)
    (inside : source + count ≤ block.size)
    (nonzero : ∀ offset < count, block.bytes (source + offset) ≠ 0) :
    block.strncpy target source count =
      some { block with bytes := overlay block.bytes target (slice block.bytes source count) } :=
  (strncpy_eq_memcpy down nonzero).trans (memcpy_down down inside)

/-- A copy up leaves no zero between its source and its target, where there was none. -/
theorem nonzero_copied {bytes : Memory UInt8} {target source : Nat} (up : source < target)
    (nonzero : ∀ position, source ≤ position → position < target → bytes position ≠ 0) :
    ∀ position, source + 1 ≤ position → position < target + 1 →
      Function.update bytes target (bytes source) position ≠ 0 := by
  intro position least most
  by_cases here : position = target
  · rw [here, Function.update_self]
    exact nonzero source (Nat.le_refl _) up
  · rw [Function.update_of_ne here]
    exact nonzero position (by omega) (by omega)

/-- **`strncpy` up** repeats the characters between the two places, and stores no zero when none of them
is one. -/
theorem strncpy_up {block : Block} {target source count : Nat} (up : source < target)
    (inside : target + count ≤ block.size)
    (nonzero : ∀ position, source ≤ position → position < target → block.bytes position ≠ 0) :
    ∃ bytes, block.strncpy target source count = some { block with bytes := bytes } ∧
      (∀ position < target, bytes position = block.bytes position) ∧
      ∀ position, target ≤ position → position < target + count → bytes position ≠ 0 := by
  induction count generalizing block target source with
  | zero => exact ⟨block.bytes, rfl, fun _ _ => rfl, fun _ _ _ => by omega⟩
  | succ count ih =>
    have first : block.bytes source ≠ 0 := nonzero source (Nat.le_refl _) up
    obtain ⟨bytes, copied, before, after⟩ :=
      @ih ⟨Function.update block.bytes target (block.bytes source), block.size⟩ (target + 1)
        (source + 1) (by omega) (by dsimp only; omega) (nonzero_copied up nonzero)
    refine ⟨bytes, ?_, ?_, ?_⟩
    · rw [strncpy, if_pos (by omega), if_neg first]
      exact copied
    · intro position less
      rw [before position (by omega)]
      exact Function.update_of_ne (by omega) ..
    · intro position least most
      by_cases here : position = target
      · rw [here, before target (by omega)]
        dsimp only
        rw [Function.update_self]
        exact first
      · exact after position (by omega) (by omega)

/-- It leaves the block, when it is long enough. -/
theorem strncpy_out {block : Block} {target source count : Nat} (up : source < target)
    (inside : target ≤ block.size) (out : block.size < target + count)
    (nonzero : ∀ position, source ≤ position → position < target → block.bytes position ≠ 0) :
    block.strncpy target source count = none := by
  induction count generalizing block target source with
  | zero => omega
  | succ count ih =>
    by_cases room : target < block.size
    · rw [strncpy, if_pos (by omega), if_neg (nonzero source (Nat.le_refl _) up)]
      exact ih (by omega) (by dsimp only; omega) (by dsimp only; omega) (nonzero_copied up nonzero)
    · rw [strncpy, if_neg (by omega)]

/-- **`strcpy` down** of a string behind its target leaves it there. -/
theorem strcpyWithin_down {block : Block} {target source : Nat} {chars : List UInt8}
    (spells : Spells block.bytes source chars) (down : target ≤ source)
    (inside : source + chars.length < block.size) : block.strcpyWithin target source =
      some { block with bytes := overlay block.bytes target (chars ++ [0]) } := by
  obtain ⟨limit, is_limit⟩ : ∃ limit, limit = block.size - source := ⟨_, rfl⟩
  have enough : chars.length < limit := by omega
  rw [strcpyWithin, ← is_limit]
  clear is_limit
  induction chars generalizing block target source limit with
  | nil =>
    obtain ⟨limit, rfl⟩ := Nat.exists_eq_succ_of_ne_zero (Nat.ne_zero_of_lt enough)
    have zero := spells_nil_iff.mp spells
    rw [List.length_nil] at inside
    rw [copyText, if_pos (by omega), if_pos zero, zero, List.nil_append, overlay_singleton]
  | cons char rest ih =>
    obtain ⟨limit, rfl⟩ := Nat.exists_eq_succ_of_ne_zero (Nat.ne_zero_of_lt enough)
    obtain ⟨here, nonzero, later⟩ := spells_cons_iff.mp spells
    rw [List.length_cons] at inside enough
    have kept : Spells (Function.update block.bytes target (block.bytes source)) (source + 1) rest :=
      later.congr fun offset _ => Function.update_of_ne (by omega) ..
    rw [copyText, if_pos (by omega), if_neg (here ▸ nonzero)]
    rw [@ih ⟨Function.update block.bytes target (block.bytes source), block.size⟩ _ _ kept (by omega)
      (by dsimp only; omega) limit (by omega)]
    dsimp only
    rw [here, ← overlay_singleton, show target + 1 = target + [char].length from rfl, overlay_append]
    rfl

/-- **`strcpy` up** over its own zero reads what it has stored, and leaves the block. -/
theorem strcpyWithin_up {block : Block} {target source : Nat} (up : source < target)
    (nonzero : ∀ position, source ≤ position → position < target → block.bytes position ≠ 0) :
    block.strcpyWithin target source = none := by
  obtain ⟨limit, is_limit⟩ : ∃ limit, limit = block.size - source := ⟨_, rfl⟩
  rw [strcpyWithin, ← is_limit]
  clear is_limit
  induction limit generalizing block target source with
  | zero => rfl
  | succ limit ih =>
    rw [copyText, if_neg (nonzero source (Nat.le_refl _) up)]
    split_ifs
    · exact ih (Nat.succ_lt_succ up) (nonzero_copied up nonzero)
    · rfl

theorem text_eq_some {block : Block} {start : Nat} {chars : List UInt8}
    (spells : Spells block.bytes start chars) (inside : start + chars.length < block.size) :
    block.text start = some chars := readText_eq_some_iff.mpr ⟨spells, by omega⟩

end Block

end PrimoCore.Lib
