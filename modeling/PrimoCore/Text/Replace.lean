/-
**`String::replace`.**

Its three branches depend on the two lengths. A replacement of the same length is copied over each
occurrence, a shorter one while the rest of the text is moved down; both look for the next occurrence from
the left. A longer one makes room from the right, looking for the last occurrence in what stands in the
buffer by then.

* `replace`, with `replaceSame`, `replaceShorter`, `resultSize`, `replaceLonger` — the code.
* `lastIndexOf_spec` — the last occurrence is found.
* `replaceSame_spec`, `replaceShorter_spec`, `replaceLonger_spec` — what the branches leave in the buffer.
* `replace_right_iff` — **all occurrences are replaced from the left exactly when** the replacement is not
  longer than the pattern, or the occurrences are alone.
-/

import PrimoCore.Text.Search

namespace PrimoCore.Text

open PrimoCore.Lib

namespace WString

/-- The first bytes of the buffer, as `memcpy` reads them. -/
def bytes (text : WString) (count : Nat) : Option (List UInt8) :=
  if count = 0 then some []
  else text.buffer.bind fun block =>
    if count ≤ block.size then some (slice block.bytes 0 count) else none

/-! ### `replace` -/

/-- The loop for a replacement as long as the pattern. -/
def replaceSame (find replace : WString) (block : Block) (readFrom : Nat) : Nat → Option Block
  | 0 => none
  | fuel + 1 =>
      match strstr block readFrom find.charPtr with
      | none => none
      | some none => some block
      | some (some foundAt) =>
          (replace.bytes replace.len.toNat).bind fun bytes =>
            (block.write foundAt bytes).bind fun block =>
              replaceSame find replace block (foundAt + replace.len.toNat) fuel

/-- The loop for a shorter replacement, and the copy behind it: the block and the length. -/
def replaceShorter (find replace : WString) (block : Block) (len : UInt32) (writeTo readFrom : Nat) :
    Nat → Option (Block × UInt32)
  | 0 => none
  | fuel + 1 =>
      match strstr block readFrom find.charPtr with
      | none => none
      | some none =>
          (block.text readFrom).bind fun chars =>
            (block.memcpy writeTo readFrom (chars.length + 1)).map (·, len)
      | some (some foundAt) =>
          let n := foundAt - readFrom
          (block.memcpy writeTo readFrom n).bind fun block =>
            (replace.bytes replace.len.toNat).bind fun bytes =>
              (block.write (writeTo + n) bytes).bind fun block =>
                replaceShorter find replace block (len + (replace.len - find.len))
                  (writeTo + n + replace.len.toNat) (foundAt + find.len.toNat) fuel

/-- The loop that computes the size of a longer result. -/
def resultSize (find : WString) (diff : UInt32) (block : Block) (size : UInt32) (readFrom : Nat) :
    Nat → Option UInt32
  | 0 => none
  | fuel + 1 =>
      match strstr block readFrom find.charPtr with
      | none => none
      | some none => some size
      | some (some foundAt) =>
          resultSize find diff block (size + diff) (foundAt + find.len.toNat) fuel

/-- One round of the loop for a longer replacement: room is made, and the replacement copied into it. -/
def replaceAt (find replace text : WString) (index : Nat) : Option WString :=
  let diff := replace.len - find.len
  let readFrom := index + find.len.toNat
  let len := text.len + diff
  { text with len := len }.onBuffer fun block =>
    (block.memmove (readFrom + diff.toNat) readFrom
        (text.len - UInt32.ofNat readFrom).toNat).bind fun block =>
      (block.write len.toNat [0]).bind fun block =>
        (replace.bytes replace.len.toNat).bind fun bytes => block.write index bytes

/-- The loop for a longer replacement. -/
def replaceLonger (find replace text : WString) (index : Int) : Nat → Option WString
  | 0 => none
  | fuel + 1 =>
      if 0 ≤ index then
        match text.lastIndexOf find (UInt32.ofNat index.toNat) with
        | none => none
        | some index =>
            if 0 ≤ index then
              (replaceAt find replace text index.toNat).bind fun text =>
                replaceLonger find replace text (index - 1) fuel
            else some text
      else some text

/-- `replace`, of and by other strings. Every loop moves on with each round, so there are no more rounds than
characters. -/
def replace (text find replace : WString) (answer : Answer) : Option WString :=
  if text.len = 0 ∨ find.len = 0 then some text
  else
    let diff := replace.len - find.len
    let rounds := text.len.toNat + 1
    if asInt diff = 0 then text.onBuffer fun block => replaceSame find replace block 0 rounds
    else if asInt diff < 0 then
      text.buffer.bind fun block =>
        (replaceShorter find replace block text.len 0 0 rounds).map fun (block, len) =>
          { text with buffer := some block, len := len }
    else
      text.buffer.bind fun block =>
        (resultSize find diff block text.len 0 rounds).bind fun size =>
          if size = text.len then some text
          else
            let (text, changed) :=
              if text.capacity < size then text.changeBuffer size answer else (text, true)
            if changed then replaceLonger find replace text (asInt (text.len - 1)) rounds
            else some text

/-! ### Arguments -/

theorem Represents.bytes {text : WString} {value : Option (List UInt8)}
    (represents : text.Represents value) : text.bytes text.len.toNat = some (textOf value) := by
  have len := represents.len
  cases value with
  | none =>
    rw [show text = invalid from represents]
    rfl
  | some chars =>
    obtain ⟨block, holds⟩ := represents
    have size := holds.size
    have fits := holds.fits
    change text.len.toNat = chars.length at len
    show text.bytes text.len.toNat = some chars
    rw [WString.bytes, len]
    split_ifs with empty
    · rw [List.eq_nil_of_length_eq_zero empty]
    · rw [holds.buffer, Option.bind_some, if_pos (by omega), holds.spells.here]

/-- **The arguments of `replace`**: a pattern and what it is replaced by, of sizes that an `int` holds. -/
structure Arguments (find replace : WString) (pattern rep : List UInt8) : Prop where
  patternText : find.charPtr = some (some pattern)
  patternLen : find.len.toNat = pattern.length
  nonempty : pattern ≠ []
  repBytes : replace.bytes replace.len.toNat = some rep
  repLen : replace.len.toNat = rep.length
  proper : 0 ∉ rep
  patternSmall : pattern.length < 2 ^ 31
  repSmall : rep.length < 2 ^ 31

variable {find replace : WString} {pattern rep : List UInt8}

/-- The difference of the lengths, added to a length. -/
theorem Arguments.toNat_add_diff (arguments : Arguments find replace pattern rep) {len : UInt32}
    (room : len.toNat + rep.length - pattern.length < 2 ^ 32)
    (enough : pattern.length ≤ len.toNat + rep.length) :
    (len + (replace.len - find.len)).toNat = len.toNat + rep.length - pattern.length := by
  have patternLen := arguments.patternLen
  have repLen := arguments.repLen
  have patternSmall := arguments.patternSmall
  have repSmall := arguments.repSmall
  rw [UInt32.toNat_add, UInt32.toNat_sub, patternLen, repLen]
  omega

theorem Arguments.asInt_diff (arguments : Arguments find replace pattern rep) :
    asInt (replace.len - find.len) = (rep.length : Int) - pattern.length := by
  have patternLen := arguments.patternLen
  have repLen := arguments.repLen
  have patternSmall := arguments.patternSmall
  have repSmall := arguments.repSmall
  unfold asInt
  rw [UInt32.toNat_sub, patternLen, repLen]
  split_ifs <;> omega

theorem Arguments.toNat_diff (arguments : Arguments find replace pattern rep)
    (longer : pattern.length ≤ rep.length) :
    (replace.len - find.len).toNat = rep.length - pattern.length := by
  have patternLen := arguments.patternLen
  have repLen := arguments.repLen
  rw [UInt32.toNat_sub_of_le _ _ (UInt32.le_iff_toNat_le.mpr (by omega)), repLen, patternLen]

/-- There is something to look for, and something to look at. -/
theorem Arguments.not_nothing (arguments : Arguments find replace pattern rep) {text : WString}
    {chars : List UInt8} (len : text.len.toNat = chars.length) (some_chars : 0 < chars.length) :
    ¬ (text.len = 0 ∨ find.len = 0) := by
  have patternLen := arguments.patternLen
  have positive := List.length_pos_iff.mpr arguments.nonempty
  rintro (zero | zero)
  · rw [zero] at len
    exact absurd len (Nat.ne_of_lt some_chars)
  · rw [zero] at patternLen
    exact absurd patternLen (Nat.ne_of_lt positive)

/-! ### Replacements of the same length, and shorter ones -/

/-- **The loop for a replacement of the same length** replaces what is behind the index. -/
theorem replaceSame_spec (arguments : Arguments find replace pattern rep)
    (same : rep.length = pattern.length) {block : Block} {front rest : List UInt8}
    (spells : Spells block.bytes 0 (front ++ rest)) (inside : (front ++ rest).length < block.size)
    {fuel : Nat} (enough : rest.length < fuel) :
    ∃ bytes, replaceSame find replace block front.length fuel = some ⟨bytes, block.size⟩ ∧
      Spells bytes 0 (front ++ replaceAll pattern rep rest) := by
  have positive := List.length_pos_iff.mpr arguments.nonempty
  induction fuel generalizing block front rest with
  | zero => omega
  | succ fuel ih =>
    have behind : Spells block.bytes front.length rest := by
      have dropped := spells.drop (show front.length ≤ (front ++ rest).length by simp)
      rwa [List.drop_left, Nat.zero_add] at dropped
    rw [List.length_append] at inside
    rw [replaceSame, arguments.patternText, strstr_eq behind inside]
    obtain ⟨absent, present⟩ := @replaceAll_firstAt _ _ _ rep arguments.nonempty rest
    cases found : firstAt pattern rest with
    | none =>
      rw [(absent found).1]
      exact ⟨block.bytes, rfl, spells⟩
    | some offset =>
      have least := firstAt_inside arguments.nonempty found
      obtain ⟨old, back, parts, oldLength⟩ : ∃ old back, rest.drop offset = old ++ back ∧
          old.length = rep.length :=
        ⟨(rest.drop offset).take rep.length, (rest.drop offset).drop rep.length,
          (List.take_append_drop ..).symm, by rw [List.length_take, List.length_drop]; omega⟩
      have takeLength : (front ++ rest.take offset).length = front.length + offset := by
        rw [List.length_append, List.length_take]
        omega
      have later : back = rest.drop (offset + pattern.length) := by
        rw [← List.drop_drop, parts, ← same, ← oldLength, List.drop_left]
      have split : front ++ rest = (front ++ rest.take offset) ++ (old ++ back) := by
        rw [← parts, List.append_assoc, List.take_append_drop]
      rw [split] at spells
      have stored := spells_overlay_same spells oldLength arguments.proper
      rw [takeLength, Nat.zero_add, ← List.append_assoc] at stored
      have fits : front.length + offset + rep.length ≤ block.size := by omega
      have lengths : (rest.take offset).length + back.length + rep.length = rest.length := by
        rw [later, List.length_take, List.length_drop]
        omega
      obtain ⟨bytes, done, spelled⟩ := @ih ⟨overlay block.bytes (front.length + offset) rep, block.size⟩
        (front ++ rest.take offset ++ rep) back stored (by simp only [List.length_append]; omega) (by omega)
      refine ⟨bytes, ?_, ?_⟩
      · simp only [Option.map_some, arguments.repBytes, Option.bind_some, Block.write_eq_some fits]
        rw [← done, List.length_append, takeLength, arguments.repLen]
      · rw [(present offset found).1, ← later, ← List.append_assoc, ← List.append_assoc]
        exact spelled

/-- **The loop for a shorter replacement** writes the result in front of what it reads. -/
theorem replaceShorter_spec (arguments : Arguments find replace pattern rep)
    (shorter : rep.length < pattern.length) {block : Block} {done rest : List UInt8} {readFrom : Nat}
    (here : slice block.bytes 0 done.length = done) (properDone : 0 ∉ done)
    (spells : Spells block.bytes readFrom rest) (order : done.length ≤ readFrom)
    (inside : readFrom + rest.length < block.size) {len : UInt32}
    (total : len.toNat = done.length + rest.length) {fuel : Nat} (enough : rest.length < fuel) :
    ∃ bytes last, replaceShorter find replace block len done.length readFrom fuel =
        some (⟨bytes, block.size⟩, last) ∧
      Spells bytes 0 (done ++ replaceAll pattern rep rest) ∧
      last.toNat = (done ++ replaceAll pattern rep rest).length := by
  have positive := List.length_pos_iff.mpr arguments.nonempty
  induction fuel generalizing block done rest readFrom len with
  | zero => omega
  | succ fuel ih =>
    rw [replaceShorter, arguments.patternText, strstr_eq spells inside]
    obtain ⟨absent, present⟩ := @replaceAll_firstAt _ _ _ rep arguments.nonempty rest
    cases found : firstAt pattern rest with
    | none =>
      have whole : slice block.bytes readFrom (rest.length + 1) = rest ++ [0] := by
        rw [slice_add, spells.here, slice_succ, spells.terminated, slice_zero]
      rw [(absent found).1]
      simp only [Option.map_none, Block.text_eq_some spells inside, Option.bind_some]
      rw [Block.memcpy_down order (by omega), whole]
      refine ⟨_, len, rfl, ?_, by rw [total, List.length_append]⟩
      have copied := spells_overlay_append here properDone spells.proper
      rwa [Nat.zero_add] at copied
    | some offset =>
      have least := firstAt_inside arguments.nonempty found
      obtain ⟨kept, is_kept, keptLength⟩ : ∃ kept, kept = rest.take offset ∧ kept.length = offset :=
        ⟨_, rfl, by rw [List.length_take]; omega⟩
      have source : slice block.bytes readFrom offset = kept := by
        rw [is_kept]
        exact spells.slice_take (by omega)
      have later := spells.drop (show offset + pattern.length ≤ rest.length by omega)
      have restLength : (rest.drop (offset + pattern.length)).length =
          rest.length - (offset + pattern.length) := List.length_drop
      -- What is written ends in front of what is left to be read.
      obtain ⟨bytes, is_bytes⟩ : ∃ bytes, bytes = overlay block.bytes done.length (kept ++ rep) :=
        ⟨_, rfl⟩
      have untouched : ∀ position, done.length + offset + rep.length ≤ position →
          bytes position = block.bytes position := by
        intro position behind
        rw [is_bytes]
        exact overlay_outside (.inr (by rw [List.length_append, keptLength]; omega))
      have doneNext : slice bytes 0 (done ++ (kept ++ rep)).length = done ++ (kept ++ rep) := by
        rw [List.length_append, slice_add, Nat.zero_add, is_bytes, slice_overlay,
          slice_overlay_before (Nat.le_of_eq (Nat.zero_add _)), here]
      have properNext : 0 ∉ done ++ (kept ++ rep) := by
        simp only [List.mem_append, not_or]
        exact ⟨properDone, fun zero => spells.proper (List.mem_of_mem_take (is_kept ▸ zero)),
          arguments.proper⟩
      have spellsNext : Spells bytes (readFrom + (offset + pattern.length))
          (rest.drop (offset + pattern.length)) :=
        later.congr fun position _ => untouched _ (by omega)
      have lengthNext : (done ++ (kept ++ rep)).length = done.length + offset + rep.length := by
        rw [List.length_append, List.length_append, keptLength]
        omega
      have small := len.toNat_lt
      obtain ⟨after, last, finished, spelled, length⟩ := @ih ⟨bytes, block.size⟩ (done ++ (kept ++ rep))
        (rest.drop (offset + pattern.length)) (readFrom + (offset + pattern.length)) doneNext properNext
        spellsNext (by omega) (by dsimp only; omega) (len + (replace.len - find.len))
        (by rw [arguments.toNat_add_diff (by omega) (by omega)]; omega) (by omega)
      have fits : done.length + offset + rep.length ≤ block.size := by omega
      refine ⟨after, last, ?_, ?_, ?_⟩
      · simp only [Option.map_some, Nat.add_sub_cancel_left, Block.memcpy_down order
          (show readFrom + offset ≤ block.size by omega), Option.bind_some, arguments.repBytes, source]
        rw [@Block.write_eq_some ⟨overlay block.bytes done.length kept, block.size⟩ _ _ fits,
          Option.bind_some]
        dsimp only
        rw [show overlay (overlay block.bytes done.length kept) (done.length + offset) rep = bytes by
          rw [is_bytes, ← keptLength, overlay_append], ← finished, lengthNext, arguments.repLen,
          arguments.patternLen, Nat.add_assoc readFrom]
      · rw [(present offset found).1, ← is_kept]
        simpa only [List.append_assoc] using spelled
      · rw [(present offset found).1, ← is_kept]
        simpa only [List.append_assoc] using length

/-! ### Longer replacements -/

/-- The last occurrence below a bound, or `-1`. -/
def LastBelow (pattern chars : List UInt8) (bound : Nat) (found : Int) : Prop :=
  (found = -1 ∧ ∀ index < bound, ¬ pattern <+: chars.drop index) ∨
    ∃ index < bound, found = index ∧ pattern <+: chars.drop index ∧
      ∀ later, index < later → later < bound → ¬ pattern <+: chars.drop later

/-- **`lastIndexOf`** finds the last occurrence that starts at the index or in front of it. -/
theorem lastIndexOf_spec (arguments : Arguments find replace pattern rep) {text : WString}
    {block : Block} {chars : List UInt8} (holds : text.Holds block chars)
    (small : chars.length < 2 ^ 31) {fromIndex : UInt32} (inside : fromIndex.toNat < chars.length) :
    ∃ index, text.lastIndexOf find fromIndex = some index ∧
      LastBelow pattern chars (fromIndex.toNat + 1) index := by
  have represents : text.Represents (some chars) := ⟨block, holds⟩
  obtain ⟨found, searched, greatest⟩ := lastIndexOf_greatest represents arguments.patternText
    arguments.patternLen arguments.nonempty fromIndex
  refine ⟨found, searched, ?_⟩
  rcases greatest with ⟨nothing, rfl⟩ | ⟨index, ⟨⟨starts, front⟩, greatest⟩, rfl⟩
  · refine .inl ⟨rfl, fun index less starts => ?_⟩
    exact Set.notMem_empty index (nothing ▸ ⟨starts, Nat.le_of_lt_succ less⟩)
  · rw [Set.mem_Iic] at front
    refine .inr ⟨index, Nat.lt_succ_of_le front, asInt_ofNat (by omega), starts, ?_⟩
    intro later behind less starts
    exact Nat.not_lt.mpr (greatest ⟨starts, Nat.le_of_lt_succ less⟩) behind

/-- **The size of the result**, as it is counted from the left. -/
theorem resultSize_spec (arguments : Arguments find replace pattern rep) {block : Block}
    {readFrom : Nat} {rest : List UInt8} (spells : Spells block.bytes readFrom rest)
    (inside : readFrom + rest.length < block.size) {diff size : UInt32}
    (bounded : size.toNat + hits pattern 0 rest * diff.toNat < 2 ^ 32) {fuel : Nat}
    (enough : rest.length < fuel) :
    ∃ last, resultSize find diff block size readFrom fuel = some last ∧
      last.toNat = size.toNat + hits pattern 0 rest * diff.toNat := by
  have positive := List.length_pos_iff.mpr arguments.nonempty
  induction fuel generalizing readFrom rest size with
  | zero => omega
  | succ fuel ih =>
    rw [resultSize, arguments.patternText, strstr_eq spells inside]
    obtain ⟨absent, present⟩ := @replaceAll_firstAt _ _ _ rep arguments.nonempty rest
    cases found : firstAt pattern rest with
    | none =>
      refine ⟨size, rfl, ?_⟩
      rw [(absent found).2, Nat.zero_mul, Nat.add_zero]
    | some offset =>
      have least := firstAt_inside arguments.nonempty found
      have count := (present offset found).2
      rw [count, Nat.add_mul, Nat.one_mul] at bounded ⊢
      have sum : (size + diff).toNat = size.toNat + diff.toNat := by
        rw [UInt32.toNat_add]
        exact Nat.mod_eq_of_lt (by omega)
      have restLength : (rest.drop (offset + pattern.length)).length =
          rest.length - (offset + pattern.length) := List.length_drop
      obtain ⟨last, counted, total⟩ := @ih _ _ (spells.drop least) (by omega) (size + diff) (by omega)
        (by omega)
      refine ⟨last, ?_, by omega⟩
      simp only [Option.map_some]
      rw [← counted, arguments.patternLen, Nat.add_assoc]

/-- **One round** replaces an occurrence, if there is room, and leaves the block otherwise. -/
theorem replaceAt_spec (arguments : Arguments find replace pattern rep)
    (longer : pattern.length < rep.length) {text : WString} {block : Block} {chars : List UInt8}
    (holds : text.Holds block chars) (small : text.capacity.toNat < 2 ^ 31) {index : Nat}
    (occurs : pattern <+: chars.drop index) (inside : index < chars.length) :
    ((chars.take index ++ (rep ++ chars.drop (index + pattern.length))).length ≤ text.capacity.toNat →
      ∃ after last, replaceAt find replace text index = some after ∧
        after.Holds last (chars.take index ++ (rep ++ chars.drop (index + pattern.length))) ∧
        after.capacity = text.capacity) ∧
    (¬ (chars.take index ++ (rep ++ chars.drop (index + pattern.length))).length ≤
        text.capacity.toNat → replaceAt find replace text index = none) := by
  have len := holds.len
  have fits := holds.fits
  have size := holds.size
  have patternLen := arguments.patternLen
  have repLen := arguments.repLen
  have repSmall := arguments.repSmall
  have room := occurs.length_le
  rw [List.length_drop] at room
  obtain ⟨tail, is_tail, tailLength⟩ : ∃ tail, tail = chars.drop (index + pattern.length) ∧
      tail.length = chars.length - (index + pattern.length) := ⟨_, rfl, List.length_drop⟩
  have frontLength : (chars.take index).length = index := by
    rw [List.length_take]
    omega
  have total : (chars.take index ++ (rep ++ tail)).length = index + rep.length + tail.length := by
    rw [List.length_append, List.length_append, frontLength, Nat.add_assoc]
  have diff := arguments.toNat_diff (Nat.le_of_lt longer)
  have newLen : (text.len + (replace.len - find.len)).toNat = index + rep.length + tail.length := by
    rw [arguments.toNat_add_diff (by omega) (by omega), len]
    omega
  have count : (text.len - UInt32.ofNat (index + pattern.length)).toNat = tail.length := by
    have word : UInt32.size = 4294967296 := rfl
    have whole : (UInt32.ofNat (index + pattern.length)).toNat = index + pattern.length :=
      UInt32.toNat_ofNat_of_lt' (by omega)
    rw [UInt32.toNat_sub_of_le _ _ (UInt32.le_iff_toNat_le.mpr (by omega)), whole]
    omega
  have behind := holds.spells.drop (show index + pattern.length ≤ chars.length by omega)
  rw [Nat.zero_add, ← is_tail] at behind
  have target : index + pattern.length + (replace.len - find.len).toNat = index + rep.length := by
    omega
  rw [← is_tail, total, replaceAt]
  simp only [onBuffer, holds.buffer, Option.bind_some, target, count, newLen, Block.memmove,
    patternLen, if_pos (show index + pattern.length + tail.length ≤ block.size by omega), behind.here]
  constructor
  · intro enough
    have storesTail : index + rep.length + tail.length ≤ block.size := by omega
    have storesZero : index + rep.length + tail.length + [(0 : UInt8)].length ≤ block.size := by
      rw [List.length_singleton]
      omega
    have storesRep : index + rep.length ≤ block.size := by omega
    obtain ⟨moved, is_moved⟩ : ∃ moved, moved =
        overlay block.bytes (index + rep.length) (tail ++ [0]) := ⟨_, rfl⟩
    rw [Block.write_eq_some storesTail, Option.bind_some,
      @Block.write_eq_some ⟨overlay block.bytes (index + rep.length) tail, block.size⟩ _ _ storesZero,
      Option.bind_some]
    dsimp only
    rw [overlay_append, ← is_moved, arguments.repBytes, Option.bind_some,
      @Block.write_eq_some ⟨moved, block.size⟩ _ _ storesRep, Option.map_some]
    refine ⟨_, _, rfl, ⟨rfl, size, holds.bounded, ?_, ?_, ?_⟩, rfl⟩
    · rw [total]
      exact newLen
    · rw [total]
      exact enough
    · have properFront : 0 ∉ chars.take index := fun zero =>
        holds.spells.proper (List.mem_of_mem_take zero)
      have front : slice block.bytes 0 index = chars.take index :=
        holds.spells.slice_take (Nat.le_of_lt inside)
      have tailSpells : Spells (overlay moved index rep) (index + rep.length) tail := by
        refine (spells_overlay block.bytes (index + rep.length) behind.proper).congr fun offset _ => ?_
        rw [overlay_outside (.inr (Nat.le_add_right ..)), is_moved]
      refine Spells.append ?_ properFront ?_
      · dsimp only
        rw [frontLength, slice_overlay_before (by omega), is_moved, slice_overlay_before (by omega), front]
      · rw [frontLength, Nat.zero_add]
        exact Spells.append (slice_overlay ..) arguments.proper tailSpells
  · intro short
    by_cases storesTail : index + rep.length + tail.length ≤ block.size
    · rw [Block.write_eq_some storesTail, Option.bind_some, Block.write, if_neg]
      · rfl
      · rw [List.length_singleton]
        dsimp only
        omega
    · rw [Block.write, if_neg storesTail]
      rfl

/-- **The loop for a longer replacement** replaces from the right, if there is room, and leaves the block
otherwise. -/
theorem replaceLonger_spec (arguments : Arguments find replace pattern rep)
    (longer : pattern.length < rep.length) {text : WString} {block : Block} {front done : List UInt8}
    (holds : text.Holds block (front ++ done)) (small : text.capacity.toNat < 2 ^ 31) {fuel : Nat}
    (enough : front.length < fuel) :
    ((front.foldr (backStep pattern rep) done).length ≤ text.capacity.toNat →
      ∃ after last, replaceLonger find replace text (front.length - 1) fuel = some after ∧
        after.Holds last (front.foldr (backStep pattern rep) done)) ∧
    (¬ (front.foldr (backStep pattern rep) done).length ≤ text.capacity.toNat →
      replaceLonger find replace text (front.length - 1) fuel = none) := by
  induction fuel generalizing text block front done with
  | zero => omega
  | succ fuel ih =>
    have fits := holds.fits
    rw [replaceLonger]
    rcases Nat.eq_zero_or_pos front.length with empty | some_front
    · obtain rfl := List.eq_nil_of_length_eq_zero empty
      refine ⟨fun _ => ⟨text, block, if_neg (by decide), holds⟩, fun tooLong => absurd fits tooLong⟩
    · have word : UInt32.size = 4294967296 := rfl
      have length : (front ++ done).length = front.length + done.length := List.length_append
      have first : ((front.length : Int) - 1).toNat = front.length - 1 := by omega
      have index : (UInt32.ofNat (front.length - 1)).toNat = front.length - 1 :=
        UInt32.toNat_ofNat_of_lt' (by omega)
      obtain ⟨found, searched, last⟩ := lastIndexOf_spec arguments holds (by omega)
        (show (UInt32.ofNat (front.length - 1)).toNat < (front ++ done).length by omega)
      rw [index, Nat.sub_add_cancel some_front] at last
      rw [if_pos (show (0 : Int) ≤ front.length - 1 by omega), first, searched]
      dsimp only
      rcases last with ⟨rfl, absent⟩ | ⟨position, below, rfl, starts, later⟩
      · rw [foldr_absent front done absent, if_neg (by decide)]
        exact ⟨fun _ => ⟨text, block, rfl, holds⟩, fun tooLong => absurd fits tooLong⟩
      · obtain ⟨fitting, tooLong⟩ := replaceAt_spec arguments longer holds small starts (by omega)
        rw [foldr_last below starts later, if_pos (Int.natCast_nonneg position), Int.toNat_natCast]
        rw [List.take_append_of_le_length (Nat.le_of_lt below)] at fitting tooLong
        have frontLength : (front.take position).length = position := by
          rw [List.length_take]
          omega
        have grows := @length_le_foldr _ _ pattern rep (Nat.le_of_lt longer) (front.take position)
          (rep ++ (front ++ done).drop (position + pattern.length))
        by_cases room : (front.take position ++ (rep ++
            (front ++ done).drop (position + pattern.length))).length ≤ text.capacity.toNat
        · obtain ⟨after, next, replaced, nextHolds, capacity⟩ := fitting room
          rw [replaced, Option.bind_some]
          have later := ih nextHolds (by rwa [capacity]) (by omega)
          rwa [capacity, frontLength] at later
        · rw [tooLong room]
          rw [List.length_append] at room
          exact ⟨fun enough => absurd (Nat.le_trans grows enough) room, fun _ => rfl⟩

/-! ### The three branches -/

/-- The arguments are what they stand for. -/
theorem arguments_of_represents {other : Option (List UInt8)}
    (findRepresents : find.Represents (some pattern)) (nonempty : pattern ≠ [])
    (replaceRepresents : replace.Represents other) (findSmall : find.capacity.toNat < 2 ^ 31)
    (replaceSmall : replace.capacity.toNat < 2 ^ 31) :
    Arguments find replace pattern (textOf other) where
  patternText := findRepresents.charPtr
  patternLen := findRepresents.len
  nonempty := nonempty
  repBytes := replaceRepresents.bytes
  repLen := replaceRepresents.len
  proper := replaceRepresents.proper
  patternSmall := by
    obtain ⟨block, holds⟩ := findRepresents
    have fits := holds.fits
    omega
  repSmall := by
    cases other with
    | none => exact Nat.two_pow_pos 31
    | some chars =>
      obtain ⟨block, holds⟩ := replaceRepresents
      have fits := holds.fits
      show chars.length < 2 ^ 31
      omega

/-- `replace` by as many characters. -/
theorem replace_same (arguments : Arguments find replace pattern rep)
    (same : rep.length = pattern.length) {text : WString} {block : Block} {chars : List UInt8}
    (holds : text.Holds block chars) :
    ∃ after, (text.onBuffer fun block => replaceSame find replace block 0 (text.len.toNat + 1)) =
      some after ∧ after.Represents (some (replaceAll pattern rep chars)) := by
  have len := holds.len
  have fits := holds.fits
  have size := holds.size
  obtain ⟨bytes, replaced, spells⟩ := @replaceSame_spec _ _ _ _ arguments same block [] chars
    holds.spells (by rw [List.nil_append]; omega) (text.len.toNat + 1) (by omega)
  have length : (replaceAll pattern rep chars).length = chars.length := by
    rw [replaceAll, @length_replaceFrom _ _ _ _ 0 same arguments.nonempty, Nat.mul_zero]
    rfl
  refine ⟨_, onBuffer_eq holds.buffer replaced, ⟨bytes, block.size⟩, rfl, size, holds.bounded, ?_, ?_,
    spells⟩
  · rw [length]
    exact len
  · rw [length]
    exact fits

/-- `replace` by fewer characters. -/
theorem replace_shorter (arguments : Arguments find replace pattern rep)
    (shorter : rep.length < pattern.length) {text : WString} {block : Block} {chars : List UInt8}
    (holds : text.Holds block chars) :
    ∃ after, (text.buffer.bind fun block =>
      (replaceShorter find replace block text.len 0 0 (text.len.toNat + 1)).map fun (block, len) =>
        { text with buffer := some block, len := len }) = some after ∧
      after.Represents (some (replaceAll pattern rep chars)) := by
  have len := holds.len
  have fits := holds.fits
  have size := holds.size
  obtain ⟨bytes, last, replaced, spells, length⟩ := @replaceShorter_spec _ _ _ _ arguments shorter block
    [] chars 0 rfl List.not_mem_nil holds.spells (Nat.le_refl 0) (by omega) text.len
    (by rw [List.length_nil]; omega) (text.len.toNat + 1) (by omega)
  have notLonger := length_replaceFrom_le (Nat.le_of_lt shorter) arguments.nonempty 0 chars
  refine ⟨{ text with buffer := some ⟨bytes, block.size⟩, len := last }, ?_, ⟨bytes, block.size⟩, rfl,
    size, holds.bounded, length, Nat.le_trans notLonger fits, spells⟩
  rw [holds.buffer, Option.bind_some]
  exact congrArg (Option.map _) replaced

/-- The string with room for a longer result. -/
theorem grown_holds {text : WString} {block : Block} {chars : List UInt8}
    (holds : text.Holds block chars) (small : text.capacity.toNat < 2 ^ 31) {size : UInt32}
    (sizeSmall : size.toNat < 2 ^ 31) (room : chars.length ≤ size.toNat) (fresh : Memory UInt8) :
    ∃ grown last,
      (if text.capacity < size then text.changeBuffer size (some fresh) else (text, true)) =
        (grown, true) ∧
      grown.Holds last chars ∧ size.toNat ≤ grown.capacity.toNat ∧ grown.capacity.toNat < 2 ^ 31 := by
  by_cases short : text.capacity < size
  · have proper : size.toNat + 1 < UInt32.size := by
      have word : UInt32.size = 4294967296 := rfl
      omega
    rcases changeBuffer_holds holds proper room (some fresh) with
      ⟨none, -⟩ | ⟨-, grown, last, changed, capacity, grownHolds⟩
    · cases none
    · refine ⟨grown, last, by rw [if_pos short, changed], grownHolds, ?_, ?_⟩
      · exact Nat.le_of_eq (congrArg UInt32.toNat capacity).symm
      · rwa [capacity]
  · refine ⟨text, block, if_neg short, holds, ?_, small⟩
    rw [UInt32.lt_iff_toNat_lt] at short
    omega

/-- **What the loop for a longer replacement starts from**: the size of the result, a string with room
for it, and the index of the last character. -/
theorem longer_start (arguments : Arguments find replace pattern rep)
    (longer : pattern.length < rep.length) {text : WString} {block : Block} {chars : List UInt8}
    (holds : text.Holds block chars) (small : text.capacity.toNat < 2 ^ 31)
    (some_chars : 0 < chars.length) (fits : (replaceAll pattern rep chars).length < 2 ^ 31)
    (fresh : Memory UInt8) :
    ∃ size, resultSize find (replace.len - find.len) block text.len 0 (text.len.toNat + 1) = some size ∧
      size.toNat = chars.length + hits pattern 0 chars * (rep.length - pattern.length) ∧
      ∃ grown last,
        (if text.capacity < size then text.changeBuffer size (some fresh) else (text, true)) =
          (grown, true) ∧
        grown.Holds last (chars ++ []) ∧ size.toNat ≤ grown.capacity.toNat ∧
        grown.capacity.toNat < 2 ^ 31 ∧ asInt (grown.len - 1) = (chars.length : Int) - 1 := by
  have len := holds.len
  have room := holds.fits
  have blockSize := holds.size
  have diff := arguments.toNat_diff (Nat.le_of_lt longer)
  have length : (replaceAll pattern rep chars).length =
      chars.length + hits pattern 0 chars * (rep.length - pattern.length) :=
    length_replaceFrom (by omega) arguments.nonempty 0 chars
  rw [length] at fits
  obtain ⟨size, counted, total⟩ := @resultSize_spec _ _ _ _ arguments block 0 chars holds.spells
    (by omega) (replace.len - find.len) text.len (by rw [diff]; omega) (text.len.toNat + 1) (by omega)
  rw [diff, len] at total
  obtain ⟨grown, last, grows, grownHolds, enough, grownSmall⟩ :=
    @grown_holds _ _ _ holds small size (by omega) (by omega) fresh
  have grownLen := grownHolds.len
  refine ⟨size, counted, total, grown, last, grows, by rwa [List.append_nil], enough, grownSmall, ?_⟩
  have one : (1 : UInt32).toNat = 1 := rfl
  have whole : (grown.len - 1).toNat = chars.length - 1 := by
    rw [UInt32.toNat_sub_of_le _ _ (UInt32.le_iff_toNat_le.mpr (by omega)), grownLen, one]
  rw [asInt, whole, if_pos (by omega)]
  omega

/-- The size stays the same when nothing is counted. -/
theorem size_eq_iff (longer : pattern.length < rep.length) {text : WString} {chars : List UInt8}
    (len : text.len.toNat = chars.length) {size : UInt32}
    (total : size.toNat = chars.length + hits pattern 0 chars * (rep.length - pattern.length)) :
    size = text.len ↔ hits pattern 0 chars = 0 := by
  rw [← UInt32.toNat_inj, total, len, Nat.add_eq_left, Nat.mul_eq_zero]
  exact or_iff_left (by omega)

/-- `replace` by more characters. -/
theorem replace_longer_iff (arguments : Arguments find replace pattern rep)
    (longer : pattern.length < rep.length) {text : WString} {block : Block} {chars : List UInt8}
    (holds : text.Holds block chars) (small : text.capacity.toNat < 2 ^ 31)
    (some_chars : 0 < chars.length) (fits : (replaceAll pattern rep chars).length < 2 ^ 31)
    (fresh : Memory UInt8) :
    (∃ after, (text.buffer.bind fun block =>
        (resultSize find (replace.len - find.len) block text.len 0 (text.len.toNat + 1)).bind fun size =>
          if size = text.len then some text
          else
            let (grown, changed) :=
              if text.capacity < size then text.changeBuffer size (some fresh) else (text, true)
            if changed then
              replaceLonger find replace grown (asInt (grown.len - 1)) (text.len.toNat + 1)
            else some grown) = some after ∧
      after.Represents (some (replaceAll pattern rep chars))) ↔ Alone pattern rep 0 chars := by
  have len := holds.len
  have length : (replaceAll pattern rep chars).length =
      chars.length + hits pattern 0 chars * (rep.length - pattern.length) :=
    length_replaceFrom (by omega) arguments.nonempty 0 chars
  obtain ⟨size, counted, total, grown, last, grows, held, enough, grownSmall, index⟩ :=
    longer_start arguments longer holds small some_chars fits fresh
  rw [holds.buffer, Option.bind_some, counted, Option.bind_some]
  by_cases nothing : size = text.len
  · have zero := (size_eq_iff longer len total).mp nothing
    have same := ((@replaceAll_firstAt _ _ _ rep arguments.nonempty chars).1
      (firstAt_of_hits arguments.nonempty zero)).1
    rw [if_pos nothing, same]
    exact iff_of_true ⟨text, rfl, block, holds⟩ (alone_of_hits longer arguments.nonempty zero)
  · obtain ⟨fitting, tooLong⟩ := @replaceLonger_spec _ _ _ _ arguments longer grown last chars [] held
      grownSmall (text.len.toNat + 1) (by omega)
    change ((replaceBack pattern rep chars).length ≤ _ →
      ∃ after last, _ ∧ Holds after last (replaceBack pattern rep chars)) at fitting
    change (¬ (replaceBack pattern rep chars).length ≤ _ → _) at tooLong
    rw [if_neg nothing, grows]
    simp only [if_true, index]
    rw [← replaceBack_eq_iff longer arguments.nonempty]
    constructor
    · rintro ⟨after, replaced, represents⟩
      by_cases inside : (replaceBack pattern rep chars).length ≤ grown.capacity.toNat
      · obtain ⟨result, resultBlock, done, resultHolds⟩ := fitting inside
        obtain rfl : result = after := Option.some.inj (done.symm.trans replaced)
        have left : result.Represents (some _) := ⟨resultBlock, resultHolds⟩
        exact Option.some.inj (left.unique represents)
      · rw [tooLong inside] at replaced
        cases replaced
    · intro same
      rw [same, length, ← total] at fitting
      obtain ⟨result, resultBlock, done, resultHolds⟩ := fitting enough
      exact ⟨result, done, resultBlock, resultHolds⟩

/-- **All occurrences are replaced from the left exactly when** the replacement is not longer than the
pattern, or the occurrences are alone. No block is of `2 ^ 31` bytes or more, and neither is the result. -/
theorem replace_right_iff {text : WString} {value other : Option (List UInt8)}
    (represents : text.Represents value) (findRepresents : find.Represents (some pattern))
    (nonempty : pattern ≠ []) (replaceRepresents : replace.Represents other)
    (small : ∀ each ∈ [text, find, replace], each.capacity.toNat < 2 ^ 31)
    (fits : (replaceAll pattern (textOf other) (textOf value)).length < 2 ^ 31)
    (fresh : Memory UInt8) :
    (∃ after, text.replace find replace (some fresh) = some after ∧
        after.Represents (value.map (replaceAll pattern (textOf other)))) ↔
      (pattern.length < (textOf other).length → Alone pattern (textOf other) 0 (textOf value)) := by
  have arguments := arguments_of_represents findRepresents nonempty replaceRepresents
    (small find (by simp)) (small replace (by simp))
  have len := represents.len
  rcases Nat.eq_zero_or_pos (textOf value).length with empty | some_chars
  · -- Nothing is in the text.
    have zero : text.len = 0 := UInt32.toNat_inj.mp (len.trans empty)
    have nothing : textOf value = [] := List.eq_nil_of_length_eq_zero empty
    have unchanged : value.map (replaceAll pattern (textOf other)) = value := by
      cases value with
      | none => rfl
      | some chars =>
        obtain rfl : chars = [] := nothing
        rfl
    rw [unchanged, nothing]
    exact iff_of_true ⟨text, if_pos (.inl zero), represents⟩ fun _ => trivial
  · cases value with
    | none => exact absurd some_chars (Nat.lt_irrefl 0)
    | some chars =>
      obtain ⟨block, holds⟩ := represents
      unfold WString.replace
      rw [if_neg (arguments.not_nothing holds.len some_chars)]
      simp only [arguments.asInt_diff]
      rcases Nat.lt_trichotomy (textOf other).length pattern.length with shorter | same | longer
      · rw [if_neg (by omega), if_pos (by omega)]
        exact iff_of_true (replace_shorter arguments shorter holds) fun longer => by omega
      · rw [if_pos (by omega)]
        exact iff_of_true (replace_same arguments same holds) fun longer => by omega
      · rw [if_neg (by omega), if_neg (by omega)]
        exact (replace_longer_iff arguments longer holds (small text (by simp)) some_chars fits fresh).trans
          ⟨fun alone _ => alone, fun alone => alone longer⟩

/-- Two occurrences of `an` in `banana`, and a longer replacement. -/
theorem replace_right_iff_banana :
    ∃ after, (literal [98, 97, 110, 97, 110, 97]).replace (literal [97, 110]) (literal [49, 50, 51])
        (some fun _ => 85) = some after ∧
      after.Represents (some [98, 49, 50, 51, 49, 50, 51, 97]) := by
  have banana := literal_represents (show 0 ∉ [98, 97, 110, 97, 110, 97] by decide) (by decide)
  have find := literal_represents (show 0 ∉ [97, 110] by decide) (by decide)
  have rep := literal_represents (show 0 ∉ [49, 50, 51] by decide) (by decide)
  have result := (replace_right_iff banana find (by decide) rep (by decide) (by decide) fun _ => 85).mpr
    fun _ => by decide
  rwa [show Option.map (replaceAll [97, 110] (textOf (some [49, 50, 51])))
    (some [98, 97, 110, 97, 110, 97]) = some [98, 49, 50, 51, 49, 50, 51, 97] by decide] at result

/-- **Where occurrences overlap, the last one is replaced**: `aaa` becomes `abbb`. -/
theorem replace_overlapping :
    ¬ ∀ (text find replace : WString) (value other : Option (List UInt8)) (pattern : List UInt8),
      text.Represents value → find.Represents (some pattern) → pattern ≠ [] → replace.Represents other →
      (∀ each ∈ [text, find, replace], each.capacity.toNat < 2 ^ 31) →
      (replaceAll pattern (textOf other) (textOf value)).length < 2 ^ 31 → ∀ fresh : Memory UInt8,
      ∃ after, text.replace find replace (some fresh) = some after ∧
        after.Represents (value.map (replaceAll pattern (textOf other))) := by
  intro always
  obtain ⟨after, replaced, block, holds⟩ := always (literal [97, 97, 97]) (literal [97, 97])
    (literal [98, 98, 98]) (some [97, 97, 97]) (some [98, 98, 98]) [97, 97]
    (literal_represents (by decide) (by decide)) (literal_represents (by decide) (by decide)) (by decide)
    (literal_represents (by decide) (by decide)) (by decide) (by decide) fun _ => 85
  have first : (((literal [97, 97, 97]).replace (literal [97, 97]) (literal [98, 98, 98])
      (some fun _ => 85)).bind fun after => after.buffer.map fun block => block.bytes 0) = some 97 := by
    decide
  rw [replaced, Option.bind_some, holds.buffer, Option.map_some, slice_head holds.spells.here] at first
  exact absurd first (by decide)

end WString

end PrimoCore.Text
