/-
**The rounds of `String::replace`, for a longer replacement.**

The size of the result is counted from the left and allocated; then the replacements are made from the
right, in a text that each of them changes. Nothing in the loop looks at the size again. The pattern or the
replacement may be the string itself, whose length and buffer change on the way.

* `Replaced`, `roundAt`, `replaceRounds` — the arguments, and the growing branch of `replace` with the string
  after each round; `replace_eq_rounds` reads the result off it when both arguments are other strings.
* `longerRounds_spec` — the loop makes `backCount` rounds, and no string on the way is longer than the
  last.
* `rounds_find_itself` — a string that looks for itself makes the rounds of a copy of it.
* `rounds_replace_itself_iff` — one that is put in the place of a part of itself is copied over what it reads,
  but for a part at its front.
* `replacements_counted_iff` — **as many rounds are made as were counted, and no string is longer than the
  size, exactly when** each occurrence replaced from the right is counted from the left, or there is none
  behind the front of a string that replaces a part of itself.
-/

import PrimoCore.Lib.PatternCount
import PrimoCore.Text.Replace

namespace PrimoCore.Text

open PrimoCore.Lib

namespace WString

/-! ### The loop, round by round -/

/-- An argument of `replace`: the string itself, or another. -/
inductive Replaced where
  | itself
  | other (s : WString)

/-- The argument as it is when it is read. -/
def Replaced.now (text : WString) : Replaced → WString
  | .itself => text
  | .other s => s

/-- `memcpy` from the start of a block to a place in it. It is undefined for a place inside of what it
reads: what is left depends on how many bytes are copied at a time. -/
def copyFront (block : Block) (target count : Nat) : Option Block :=
  if 0 < target ∧ target < count then none else block.memcpy target 0 count

/-- One round. An argument that is the string itself has the new length when it is copied. -/
def roundAt (find replace : Replaced) (diff : UInt32) (text : WString) (index : Nat) : Option WString :=
  let readFrom := index + (find.now text).len.toNat
  let len := text.len + diff
  { text with len := len }.onBuffer fun block =>
    (block.memmove (readFrom + diff.toNat) readFrom
        (text.len - UInt32.ofNat readFrom).toNat).bind fun block =>
      (block.write len.toNat [0]).bind fun block =>
        match replace with
        | .itself => copyFront block index len.toNat
        | .other s => (s.bytes s.len.toNat).bind fun bytes => block.write index bytes

/-- The loop for a longer replacement, with the string after each round; nothing, when a round writes
outside the block. -/
def longerRounds (find replace : Replaced) (diff : UInt32) (text : WString) (index : Int) :
    Nat → Option (List WString)
  | 0 => none
  | fuel + 1 =>
      if 0 ≤ index then
        match text.lastIndexOf (find.now text) (UInt32.ofNat index.toNat) with
        | none => none
        | some index =>
            if 0 ≤ index then
              (roundAt find replace diff text index.toNat).bind fun text =>
                (longerRounds find replace diff text (index - 1) fuel).map (text :: ·)
            else some []
      else some []

/-- The growing branch of `replace`: the size it computes, the string the loop starts from, and the
string after each round. -/
def replaceRounds (text : WString) (find replace : Replaced) (answer : Answer) :
    Option (UInt32 × WString × List WString) :=
  if text.len = 0 ∨ (find.now text).len = 0 then some (text.len, text, [])
  else
    let diff := (replace.now text).len - (find.now text).len
    let rounds := text.len.toNat + 1
    text.buffer.bind fun block =>
      (resultSize (find.now text) diff block text.len 0 rounds).bind fun size =>
        if size = text.len then some (size, text, [])
        else
          let (text, changed) :=
            if text.capacity < size then text.changeBuffer size answer else (text, true)
          if changed then
            (longerRounds find replace diff text (asInt (text.len - 1)) rounds).map (size, text, ·)
          else some (size, text, [])

/-- A round between other strings is one of `replace`. -/
theorem roundAt_other (find replace text : WString) (index : Nat) :
    roundAt (.other find) (.other replace) (replace.len - find.len) text index =
      replaceAt find replace text index := rfl

/-- The loop leaves what its last round leaves. -/
theorem replaceLonger_eq (find replace text : WString) (index : Int) (fuel : Nat) :
    replaceLonger find replace text index fuel =
      (longerRounds (.other find) (.other replace) (replace.len - find.len) text index fuel).map
        (·.getLastD text) := by
  induction fuel generalizing text index with
  | zero => rfl
  | succ fuel ih =>
    rw [replaceLonger, longerRounds, Replaced.now]
    by_cases more : 0 ≤ index
    · rw [if_pos more, if_pos more]
      cases text.lastIndexOf find (UInt32.ofNat index.toNat) with
      | none => rfl
      | some found =>
        dsimp only
        by_cases present : 0 ≤ found
        · rw [if_pos present, if_pos present, roundAt_other]
          cases replaceAt find replace text found.toNat with
          | none => rfl
          | some after =>
            rw [Option.bind_some, Option.bind_some, ih, Option.map_map]
            congr 1
            funext rounds
            exact (@List.getLastD_cons _ text after rounds).symm
        · rw [if_neg present, if_neg present]
          rfl
    · rw [if_neg more, if_neg more]
      rfl

/-- **`replace` leaves what the last round leaves**, for a longer replacement and other strings. -/
theorem replace_eq_rounds (text find replace : WString) (answer : Answer)
    (longer : 0 < asInt (replace.len - find.len)) :
    text.replace find replace answer =
      (text.replaceRounds (.other find) (.other replace) answer).map
        fun result => result.2.2.getLastD result.2.1 := by
  unfold WString.replace replaceRounds Replaced.now
  split_ifs with nothing
  · rfl
  · dsimp only
    rw [if_neg (by omega), if_neg (by omega)]
    cases text.buffer with
    | none => rfl
    | some block =>
      rw [Option.bind_some, Option.bind_some]
      cases resultSize find (replace.len - find.len) block text.len 0 (text.len.toNat + 1) with
      | none => rfl
      | some size =>
        rw [Option.bind_some, Option.bind_some]
        by_cases same : size = text.len
        · rw [if_pos same, if_pos same]
          rfl
        · rw [if_neg same, if_neg same]
          obtain ⟨grown, changed⟩ := if text.capacity < size then text.changeBuffer size answer
            else (text, true)
          cases changed with
          | false => rfl
          | true =>
            simp only [if_true, Option.map_map]
            exact replaceLonger_eq ..

/-! ### What the rounds are -/

section Rounds

variable {find replace : WString} {pattern rep : List UInt8}

/-- **The loop makes a round for each replacement from the right**, and no string on the way is longer
than the last. -/
theorem longerRounds_spec (arguments : Arguments find replace pattern rep)
    (longer : pattern.length < rep.length) {text : WString} {block : Block} {front done : List UInt8}
    (holds : text.Holds block (front ++ done)) (small : text.capacity.toNat < 2 ^ 31) {fuel : Nat}
    {rounds : List WString}
    (ran : longerRounds (.other find) (.other replace) (replace.len - find.len) text (front.length - 1)
      fuel = some rounds) :
    rounds.length = backCount pattern rep front done ∧
      ∀ each ∈ rounds, each.len.toNat ≤ (front.foldr (backStep pattern rep) done).length := by
  induction fuel generalizing text block front done rounds with
  | zero => cases ran
  | succ fuel ih =>
    have fits := holds.fits
    rw [longerRounds, Replaced.now] at ran
    rcases Nat.eq_zero_or_pos front.length with empty | some_front
    · obtain rfl := List.eq_nil_of_length_eq_zero empty
      rw [if_neg (by decide)] at ran
      obtain rfl := Option.some.inj ran
      exact ⟨rfl, fun _ member => absurd member List.not_mem_nil⟩
    · have word : UInt32.size = 4294967296 := rfl
      have length : (front ++ done).length = front.length + done.length := List.length_append
      have first : ((front.length : Int) - 1).toNat = front.length - 1 := by omega
      have index : (UInt32.ofNat (front.length - 1)).toNat = front.length - 1 :=
        UInt32.toNat_ofNat_of_lt' (by omega)
      obtain ⟨found, searched, last⟩ := lastIndexOf_spec arguments holds (by omega)
        (show (UInt32.ofNat (front.length - 1)).toNat < (front ++ done).length by omega)
      rw [index, Nat.sub_add_cancel some_front] at last
      rw [if_pos (show (0 : Int) ≤ front.length - 1 by omega), first, searched] at ran
      dsimp only at ran
      rcases last with ⟨rfl, absent⟩ | ⟨position, below, rfl, starts, later⟩
      · rw [if_neg (by decide)] at ran
        obtain rfl := Option.some.inj ran
        exact ⟨(backCount_absent front done absent).symm, fun _ member => absurd member List.not_mem_nil⟩
      · obtain ⟨fitting, tooLong⟩ := replaceAt_spec arguments longer holds small starts (by omega)
        rw [if_pos (Int.natCast_nonneg position), Int.toNat_natCast, roundAt_other] at ran
        rw [List.take_append_of_le_length (Nat.le_of_lt below)] at fitting tooLong
        rw [foldr_last below starts later, backCount_last below starts later]
        have frontLength : (front.take position).length = position := by
          rw [List.length_take]
          omega
        have grows := @length_le_foldr _ _ pattern rep (Nat.le_of_lt longer) (front.take position)
          (rep ++ (front ++ done).drop (position + pattern.length))
        by_cases room : (front.take position ++ (rep ++
            (front ++ done).drop (position + pattern.length))).length ≤ text.capacity.toNat
        · obtain ⟨after, next, replaced, nextHolds, capacity⟩ := fitting room
          rw [replaced, Option.bind_some] at ran
          obtain ⟨others, later_ran, rfl⟩ := Option.map_eq_some_iff.mp ran
          rw [← frontLength] at later_ran
          obtain ⟨count, shorter⟩ := ih nextHolds (by rwa [capacity]) later_ran
          refine ⟨congrArg (· + 1) count, fun each member => ?_⟩
          rcases List.mem_cons.mp member with rfl | member
          · rw [nextHolds.len, List.length_append]
            exact grows
          · exact shorter each member
        · rw [tooLong room] at ran
          cases ran

/-- **As many rounds as were counted**: the loop does not leave the block, its rounds make up the size
that was computed, and no string on the way is longer. -/
def RoundsCounted (text : WString) (find replace : Replaced) (answer : Answer) : Prop :=
  ∃ size before rounds, text.replaceRounds find replace answer = some (size, before, rounds) ∧
    size.toNat = text.len.toNat +
      rounds.length * ((replace.now text).len - (find.now text).len).toNat ∧
    ∀ each ∈ rounds, each.len ≤ size

/-- The rounds, from a text with characters. -/
theorem rounds_counted_iff (arguments : Arguments find replace pattern rep)
    (longer : pattern.length < rep.length) {text : WString} {block : Block} {chars : List UInt8}
    (holds : text.Holds block chars) (small : text.capacity.toNat < 2 ^ 31)
    (some_chars : 0 < chars.length) (fits : (replaceAll pattern rep chars).length < 2 ^ 31)
    (fresh : Memory UInt8) :
    text.RoundsCounted (.other find) (.other replace) (some fresh) ↔
      backHits pattern rep chars = hits pattern 0 chars := by
  have len := holds.len
  have diff := arguments.toNat_diff (Nat.le_of_lt longer)
  obtain ⟨size, counted, total, grown, last, grows, held, enough, grownSmall, index⟩ :=
    longer_start arguments longer holds small some_chars fits fresh
  unfold RoundsCounted replaceRounds Replaced.now
  rw [if_neg (arguments.not_nothing len some_chars)]
  simp only [holds.buffer, Option.bind_some, counted]
  by_cases nothing : size = text.len
  · have zero := (size_eq_iff longer len total).mp nothing
    have none : backHits pattern rep chars = 0 := by
      rw [← backCount_nil]
      refine backCount_absent chars [] fun offset _ => ?_
      rw [List.append_nil]
      exact firstAt_eq_none arguments.nonempty (firstAt_of_hits arguments.nonempty zero) offset
    rw [if_pos nothing, zero, none]
    refine iff_of_true ⟨size, text, [], rfl, ?_, fun _ member => absurd member List.not_mem_nil⟩ rfl
    rw [nothing, List.length_nil, Nat.zero_mul, Nat.add_zero]
  · rw [if_neg nothing, grows]
    simp only [if_true, index]
    have length : (replaceBack pattern rep chars).length =
        chars.length + backHits pattern rep chars * (rep.length - pattern.length) :=
      length_replaceBack (by omega) chars
    constructor
    · rintro ⟨_, _, rounds, ran, sum, -⟩
      obtain ⟨others, later, same⟩ := Option.map_eq_some_iff.mp ran
      cases same
      have count := (longerRounds_spec arguments longer held grownSmall later).1
      rw [backCount_nil] at count
      rw [total, len, diff, count] at sum
      exact (Nat.eq_of_mul_eq_mul_right (by omega) (Nat.add_left_cancel sum)).symm
    · intro agree
      have fitting := (@replaceLonger_spec _ _ _ _ arguments longer grown last chars [] held grownSmall
        (text.len.toNat + 1) (by omega)).1
      change (replaceBack pattern rep chars).length ≤ _ → _ at fitting
      rw [length, agree, ← total] at fitting
      obtain ⟨after, _, done, -⟩ := fitting enough
      rw [replaceLonger_eq] at done
      obtain ⟨rounds, ran, -⟩ := Option.map_eq_some_iff.mp done
      obtain ⟨count, shorter⟩ := longerRounds_spec arguments longer held grownSmall ran
      change ∀ each ∈ rounds, each.len.toNat ≤ (replaceBack pattern rep chars).length at shorter
      rw [backCount_nil, agree] at count
      rw [length, agree, ← total] at shorter
      refine ⟨size, grown, rounds, by rw [ran]; rfl, ?_, fun each member => ?_⟩
      · rw [total, len, diff, count]
      · exact UInt32.le_iff_toNat_le.mpr (shorter each member)

/-! ### The string itself -/

/-- A search looks at the text of its argument and at the length. -/
theorem lastIndexOf_congr {s2 other : WString} (len : s2.len = other.len)
    (same : s2.charPtr = other.charPtr) (text : WString) (fromIndex : UInt32) :
    text.lastIndexOf s2 fromIndex = text.lastIndexOf other fromIndex := by
  unfold lastIndexOf
  rw [len, same]

/-- The first search of the loop looks at the whole text. -/
theorem lastIndexOf_whole (arguments : Arguments find replace pattern rep) {text : WString} {block : Block}
    {chars : List UInt8} (holds : text.Holds block chars) (small : text.capacity.toNat < 2 ^ 31)
    (some_chars : 0 < chars.length) :
    ∃ found, text.lastIndexOf find (UInt32.ofNat ((chars.length : Int) - 1).toNat) = some found ∧
      LastBelow pattern chars chars.length found := by
  have fits := holds.fits
  have first : ((chars.length : Int) - 1).toNat = chars.length - 1 := by omega
  have whole : (UInt32.ofNat (chars.length - 1)).toNat = chars.length - 1 :=
    UInt32.toNat_ofNat_of_lt' (Nat.lt_of_le_of_lt (by omega) (show 2 ^ 31 < UInt32.size by decide))
  obtain ⟨found, searched, last⟩ := lastIndexOf_spec arguments holds (by omega)
    (show (UInt32.ofNat (chars.length - 1)).toNat < chars.length by omega)
  rw [whole, Nat.sub_add_cancel some_chars] at last
  exact ⟨found, by rw [first, searched], last⟩

/-- Behind the front there is no round. -/
theorem longerRounds_done (find other replace : Replaced) (diff : UInt32) (text : WString) (fuel : Nat) :
    longerRounds find replace diff text (-1) fuel = longerRounds other replace diff text (-1) fuel := by
  cases fuel with
  | zero => rfl
  | succ fuel => rw [longerRounds, longerRounds, if_neg (by decide), if_neg (by decide)]

/-- A text is found in itself at its front, and the loop ends there. -/
theorem longerRounds_find_itself {chars : List UInt8} (arguments : Arguments find replace chars rep)
    {text : WString} {block : Block} (holds : text.Holds block chars)
    (small : text.capacity.toNat < 2 ^ 31) (diff : UInt32) (fuel : Nat) :
    longerRounds .itself (.other replace) diff text (chars.length - 1) fuel =
      longerRounds (.other find) (.other replace) diff text (chars.length - 1) fuel := by
  have represents : text.Represents (some chars) := ⟨block, holds⟩
  have len : text.len = find.len := UInt32.toNat_inj.mp (holds.len.trans arguments.patternLen.symm)
  have searches := lastIndexOf_congr len (represents.charPtr.trans arguments.patternText.symm) text
  cases fuel with
  | zero => rfl
  | succ fuel =>
    obtain ⟨found, searched, last⟩ := lastIndexOf_whole arguments holds small
      (List.length_pos_iff.mpr arguments.nonempty)
    rw [longerRounds, longerRounds, Replaced.now, Replaced.now, searches, searched]
    dsimp only
    rcases last with ⟨rfl, -⟩ | ⟨position, below, rfl, starts, -⟩
    · rw [if_neg (show ¬ (0 : Int) ≤ -1 by decide), if_neg (show ¬ (0 : Int) ≤ -1 by decide)]
    · have front : position = 0 := by
        have short := starts.length_le
        rw [List.length_drop] at short
        omega
      subst front
      have round : roundAt .itself (.other replace) diff text 0 =
          roundAt (.other find) (.other replace) diff text 0 := by
        unfold roundAt
        rw [Replaced.now, Replaced.now, len]
      have behind : ((0 : Nat) : Int) - 1 = -1 := rfl
      simp only [Int.toNat_natCast, round, behind, longerRounds_done .itself (.other find)]

/-- **A string that looks for itself** makes the rounds of one that looks for a copy. -/
theorem rounds_find_itself {text : WString} {block : Block} {chars : List UInt8}
    (arguments : Arguments text replace chars rep) (longer : chars.length < rep.length)
    (holds : text.Holds block chars) (small : text.capacity.toNat < 2 ^ 31)
    (fits : (replaceAll chars rep chars).length < 2 ^ 31) (fresh : Memory UInt8) :
    text.replaceRounds .itself (.other replace) (some fresh) =
      text.replaceRounds (.other text) (.other replace) (some fresh) := by
  obtain ⟨size, counted, -, grown, last, grows, held, -, grownSmall, index⟩ :=
    longer_start arguments longer holds small (List.length_pos_iff.mpr arguments.nonempty) fits fresh
  rw [List.append_nil] at held
  unfold replaceRounds
  simp only [Replaced.now, holds.buffer, Option.bind_some, counted, grows, if_true, index,
    longerRounds_find_itself arguments held grownSmall]

/-- A pattern does not start behind the end. -/
theorem Arguments.absent_behind (arguments : Arguments find replace pattern rep) {chars : List UInt8}
    {index : Nat} (behind : chars.length ≤ index) : ¬ pattern <+: chars.drop index := by
  rw [List.drop_eq_nil_of_le behind, List.prefix_nil]
  exact arguments.nonempty

/-- One round at the front leaves the text where it is, and its back behind it. -/
theorem roundAt_front {find : WString} {text : WString} {block : Block} {chars : List UInt8}
    (patternLen : find.len.toNat = pattern.length) (shorter : pattern.length < chars.length)
    (holds : text.Holds block chars) {diff : UInt32} (grow : diff.toNat = chars.length - pattern.length)
    (small : text.capacity.toNat < 2 ^ 31)
    (room : chars.length + diff.toNat ≤ text.capacity.toNat) :
    ∃ after, roundAt (.other find) .itself diff text 0 = some after ∧
      after.len.toNat = chars.length + diff.toNat := by
  have len := holds.len
  have size := holds.size
  have newLen : (text.len + diff).toNat = chars.length + diff.toNat := by
    rw [UInt32.toNat_add, len]
    exact Nat.mod_eq_of_lt (by omega)
  have count : (text.len - UInt32.ofNat pattern.length).toNat = chars.length - pattern.length := by
    have word : UInt32.size = 4294967296 := rfl
    have whole : (UInt32.ofNat pattern.length).toNat = pattern.length :=
      UInt32.toNat_ofNat_of_lt' (by omega)
    rw [UInt32.toNat_sub_of_le _ _ (UInt32.le_iff_toNat_le.mpr (by omega)), whole, len]
  have source : pattern.length + (chars.length - pattern.length) ≤ block.size := by omega
  have storesBack : pattern.length + diff.toNat +
      (slice block.bytes pattern.length (chars.length - pattern.length)).length ≤ block.size := by
    rw [slice_length]
    omega
  have storesZero : chars.length + diff.toNat + [(0 : UInt8)].length ≤ block.size := by
    rw [List.length_singleton]
    omega
  have ended : ∀ bytes, Block.write ⟨bytes, block.size⟩ (chars.length + diff.toNat) [0] =
      some ⟨overlay bytes (chars.length + diff.toNat) [0], block.size⟩ :=
    fun bytes => Block.write_eq_some storesZero
  have copied : ∀ bytes, ∃ after, copyFront ⟨bytes, block.size⟩ 0 (chars.length + diff.toNat) = some after :=
    fun bytes => ⟨_, (if_neg fun inside => Nat.lt_irrefl 0 inside.1).trans
      (Block.memcpy_down (Nat.le_refl 0) (by dsimp only; omega))⟩
  unfold roundAt onBuffer
  simp only [Replaced.now, holds.buffer, Option.bind_some, patternLen, Nat.zero_add, count, newLen,
    Block.memmove, if_pos source, Block.write_eq_some storesBack, ended]
  obtain ⟨after, copied⟩ := copied (overlay (overlay block.bytes (pattern.length + diff.toNat)
    (slice block.bytes pattern.length (chars.length - pattern.length))) (chars.length + diff.toNat) [0])
  rw [copied]
  exact ⟨_, rfl, newLen⟩

/-- One round behind the front copies the text over itself. -/
theorem roundAt_behind {find : WString} {text : WString} {diff : UInt32} {index : Nat} (behind : 0 < index)
    (inside : index < (text.len + diff).toNat) : roundAt (.other find) .itself diff text index = none := by
  unfold roundAt onBuffer copyFront
  simp only [if_pos (And.intro behind inside), Option.bind_fun_none, Option.map_none]

/-- A pattern that starts nowhere behind the front of the text is counted once. -/
theorem Arguments.hits_front {find text : WString} (arguments : Arguments find text pattern chars)
    (later : ∀ index, 0 < index → index < chars.length → ¬ pattern <+: chars.drop index)
    (some_hits : hits pattern 0 chars ≠ 0) : hits pattern 0 chars = 1 := by
  have atMost := hits_append_le_succ 0 [] fun index positive =>
    (Nat.lt_or_ge index chars.length).elim (later index positive) arguments.absent_behind
  rw [List.nil_append] at atMost
  exact Nat.le_antisymm atMost (Nat.one_le_iff_ne_zero.mpr some_hits)

/-- **A string that replaces a part of itself**: there is none behind its front. -/
theorem rounds_replace_itself_iff {text : WString} {block : Block} {chars : List UInt8}
    (arguments : Arguments find text pattern chars) (longer : pattern.length < chars.length)
    (holds : text.Holds block chars) (small : text.capacity.toNat < 2 ^ 31)
    (fits : (replaceAll pattern chars chars).length < 2 ^ 31) (fresh : Memory UInt8) :
    text.RoundsCounted (.other find) .itself (some fresh) ↔
      ∀ index < chars.length, 0 < index → ¬ pattern <+: chars.drop index := by
  have len := holds.len
  have some_chars : 0 < chars.length := by omega
  have diff := arguments.toNat_diff (Nat.le_of_lt longer)
  obtain ⟨size, counted, total, grown, last, grows, held, enough, grownSmall, index⟩ :=
    longer_start arguments longer holds small some_chars fits fresh
  rw [List.append_nil] at held
  have grownLen := held.len
  unfold RoundsCounted replaceRounds Replaced.now
  rw [if_neg (arguments.not_nothing len some_chars)]
  simp only [holds.buffer, Option.bind_some, counted]
  by_cases nothing : size = text.len
  · have zero := (size_eq_iff longer len total).mp nothing
    have none := firstAt_eq_none arguments.nonempty (firstAt_of_hits arguments.nonempty zero)
    rw [if_pos nothing]
    refine iff_of_true ⟨size, text, [], rfl, ?_, fun _ member => absurd member List.not_mem_nil⟩
      fun index _ _ => none index
    rw [nothing, List.length_nil, Nat.zero_mul, Nat.add_zero]
  · rw [if_neg nothing, grows]
    simp only [if_true, index]
    have some_hits := mt (size_eq_iff longer len total).mpr nothing
    -- The first round decides: at the front there is no second one, and behind it the copy is undefined.
    obtain ⟨found, searched, last⟩ := lastIndexOf_whole arguments held grownSmall some_chars
    rw [longerRounds, if_pos (show (0 : Int) ≤ chars.length - 1 by omega), Replaced.now, searched]
    dsimp only
    rcases last with ⟨rfl, absent⟩ | ⟨position, below, rfl, starts, later⟩
    · exact absurd (hits_absent 0 fun index => (Nat.lt_or_ge index chars.length).elim
        (absent index) arguments.absent_behind) some_hits
    · rw [if_pos (Int.natCast_nonneg position), Int.toNat_natCast]
      rcases Nat.eq_zero_or_pos position with rfl | behind
      · rw [arguments.hits_front later some_hits, Nat.one_mul] at total
        obtain ⟨after, round, afterLen⟩ := roundAt_front arguments.patternLen longer held diff grownSmall
          (by rw [diff]; omega)
        obtain ⟨fuel, is_fuel⟩ : ∃ fuel, text.len.toNat = fuel + 1 := ⟨chars.length - 1, by omega⟩
        rw [round, Option.bind_some, is_fuel, longerRounds, if_neg (show ¬ (0 : Int) ≤ (0 : Nat) - 1 by decide)]
        refine iff_of_true ⟨size, grown, [after], rfl, ?_, fun each member => ?_⟩
          fun index inside positive => later index positive inside
        · rw [List.length_singleton, Nat.one_mul, total, diff, ← is_fuel, len]
        · obtain rfl := List.mem_singleton.mp member
          exact UInt32.le_iff_toNat_le.mpr (Nat.le_of_eq (by rw [afterLen, total, diff]))
      · have inside : position < (grown.len + (text.len - find.len)).toNat := by
          rw [UInt32.toNat_add, grownLen, diff, Nat.mod_eq_of_lt (by omega)]
          omega
        rw [roundAt_behind behind inside]
        refine iff_of_false ?_ fun none => none position below behind starts
        rintro ⟨_, _, _, ran, -⟩
        cases ran

end Rounds

/-- **The occurrences are counted**: each that is replaced from the right is counted from the left. A string
that replaces a part of itself has none behind its front. -/
def OccurrencesCounted (replace : Replaced) (pattern rep text : List UInt8) : Prop :=
  match replace with
  | .itself => ∀ index < text.length, 0 < index → ¬ pattern <+: text.drop index
  | .other _ => Counted pattern rep text text.length [] text.length

instance (replace : Replaced) (pattern rep text : List UInt8) :
    Decidable (OccurrencesCounted replace pattern rep text) :=
  match replace with
  | .itself => inferInstanceAs (Decidable (∀ index < _, _))
  | .other _ => decidableCounted ..

/-- **As many rounds are made as were counted, and no string is longer than the size, exactly when** the
occurrences are counted. No block is of `2 ^ 31` bytes or more, and neither is the result. -/
theorem replacements_counted_iff {text : WString} {find replace : Replaced} {value other : Option (List UInt8)}
    {pattern : List UInt8} (represents : text.Represents value)
    (findRepresents : (find.now text).Represents (some pattern)) (nonempty : pattern ≠ [])
    (replaceRepresents : (replace.now text).Represents other)
    (longer : pattern.length < (textOf other).length)
    (small : ∀ each ∈ [text, find.now text, replace.now text], each.capacity.toNat < 2 ^ 31)
    (fits : (replaceAll pattern (textOf other) (textOf value)).length < 2 ^ 31)
    (fresh : Memory UInt8) :
    text.RoundsCounted find replace (some fresh) ↔
      OccurrencesCounted replace pattern (textOf other) (textOf value) := by
  have arguments := arguments_of_represents findRepresents nonempty replaceRepresents
    (small (find.now text) (by simp)) (small (replace.now text) (by simp))
  have textSmall := small text (by simp)
  have len := represents.len
  rcases Nat.eq_zero_or_pos (textOf value).length with empty | some_chars
  · have zero : text.len = 0 := UInt32.toNat_inj.mp (len.trans empty)
    rw [List.eq_nil_of_length_eq_zero empty]
    refine iff_of_true ⟨text.len, text, [], if_pos (.inl zero), ?_,
      fun _ member => absurd member List.not_mem_nil⟩ ?_
    · rw [List.length_nil, Nat.zero_mul, Nat.add_zero]
    · cases replace with
      | itself => exact fun index inside => absurd inside (Nat.not_lt_zero index)
      | other s => trivial
  · cases value with
    | none => exact absurd some_chars (Nat.lt_irrefl 0)
    | some chars =>
      obtain ⟨block, holds⟩ := represents
      cases find with
      | other find =>
        cases replace with
        | other replace =>
          exact (rounds_counted_iff arguments longer holds textSmall some_chars fits fresh).trans
            (backHits_eq_iff longer nonempty)
        | itself =>
          obtain rfl : other = some chars := Represents.unique replaceRepresents ⟨block, holds⟩
          exact rounds_replace_itself_iff arguments longer holds textSmall fits fresh
      | itself =>
        obtain rfl : pattern = chars :=
          Option.some.inj (Represents.unique findRepresents ⟨block, holds⟩)
        cases replace with
        | itself =>
          obtain rfl : other = some pattern := Represents.unique replaceRepresents ⟨block, holds⟩
          exact absurd longer (Nat.lt_irrefl _)
        | other replace =>
          have same : text.replaceRounds .itself (.other replace) (some fresh) =
              text.replaceRounds (.other text) (.other replace) (some fresh) :=
            rounds_find_itself arguments longer holds textSmall fits fresh
          unfold RoundsCounted
          rw [same]
          exact (rounds_counted_iff arguments longer holds textSmall some_chars fits fresh).trans
            (backHits_eq_iff longer nonempty)

/-- Six times `a`: the last three are replaced, and then the two in front of them together with the `a`
that has been put in. Two rounds, as counted. -/
theorem replacements_counted_iff_letters :
    (literal [97, 97, 97, 97, 97, 97]).RoundsCounted (.other (literal [97, 97, 97]))
      (.other (literal [97, 98, 98, 98])) (some fun _ => 85) := by
  have find := literal_represents (show 0 ∉ [97, 97, 97] by decide) (by decide)
  have rep := literal_represents (show 0 ∉ [97, 98, 98, 98] by decide) (by decide)
  exact (@replacements_counted_iff _ (.other _) (.other _) _ _ _
    (literal_represents (show 0 ∉ [97, 97, 97, 97, 97, 97] by decide) (by decide)) find (by decide) rep
    (by decide) (by decide) (by decide) fun _ => 85).mpr (by decide)

/-- The front of `aab` is replaced by `aab` itself; what is behind the front is copied over itself. -/
example : OccurrencesCounted .itself [97, 97] [97, 97, 98] [97, 97, 98] ∧
    ¬ OccurrencesCounted .itself [98] [97, 97, 98] [97, 97, 98] := by decide

/-- **One round too many**: `ab` in `aab`, replaced by `bab`, makes another `ab` with the `a` in front of
it, and the second round writes behind the block. -/
theorem replacements_overflow :
    ¬ ∀ (text : WString) (find replace : Replaced) (value other : Option (List UInt8))
      (pattern : List UInt8),
      text.Represents value → (find.now text).Represents (some pattern) → pattern ≠ [] →
      (replace.now text).Represents other → pattern.length < (textOf other).length →
      (∀ each ∈ [text, find.now text, replace.now text], each.capacity.toNat < 2 ^ 31) →
      (replaceAll pattern (textOf other) (textOf value)).length < 2 ^ 31 → ∀ fresh : Memory UInt8,
      text.RoundsCounted find replace (some fresh) := by
  intro always
  obtain ⟨size, before, rounds, ran, -⟩ := always (literal [97, 97, 98]) (.other (literal [97, 98]))
    (.other (literal [98, 97, 98])) (some [97, 97, 98]) (some [98, 97, 98]) [97, 98]
    (literal_represents (by decide) (by decide)) (literal_represents (by decide) (by decide)) (by decide)
    (literal_represents (by decide) (by decide)) (by decide) (by decide) (by decide) fun _ => 85
  have faults : ((literal [97, 97, 98]).replaceRounds (.other (literal [97, 98]))
      (.other (literal [98, 97, 98])) (some fun _ => 85)).isNone = true := by decide
  rw [ran] at faults
  cases faults

end WString

end PrimoCore.Text
