/-
**The text of a UUID, character by character.**

The constructor of `BLEUuid` walks from the end of the text to its front. A dash is passed alone; any other character
is taken with the one in front of it.

* `Written` — the ways to write bytes as hexadecimal text, with dashes between, before and behind them.
* `uuid_of_written` — **the constructor reads what was written**, the last byte first.
* `Parsing`, `step` — the loop with what it reads and writes.
* `final_bytes` — the loop ends with the bytes of `BLEUuid.ofString`.
* `safe_of_written` — on what was written, it keeps to the text.
* `parse_safe_iff` — **the loop keeps to the text exactly when** it does not end on a single character that is no
  dash.
-/

import PrimoCore.Ble.Uuid
import PrimoCore.Lib.Terminates
import Mathlib.Data.List.Basic
import Mathlib.Tactic.Push

namespace PrimoCore.Ble

open PrimoCore.Lib

/-! ### Texts as the constructor takes them -/

/-- The code of a dash. -/
def dash : UInt8 := 45

/-- A text that is passed without a character left over, with the bytes it gives. -/
inductive Blocks : List UInt8 → List UInt8 → Prop
  | none : Blocks [] []
  | dash {values chars : List UInt8} : Blocks values chars → Blocks values (dash :: chars)
  | pair {values chars : List UInt8} (first : UInt8) {second : UInt8} (other : second ≠ Ble.dash) :
      Blocks values chars → Blocks (values ++ [strtoul16 first second]) (first :: second :: chars)

/-- The digits of a number below sixteen, in lower and in upper case. -/
def digitChars (value : Nat) : List UInt8 :=
  if value < 10 then [UInt8.ofNat (48 + value)] else [UInt8.ofNat (87 + value), UInt8.ofNat (55 + value)]

/-- **Bytes written as hexadecimal text**, each digit in either letter case, with any number of dashes in front of,
between and behind the pairs. -/
inductive Written : List UInt8 → List UInt8 → Prop
  | none : Written [] []
  | dash {bytes chars : List UInt8} : Written bytes chars → Written bytes (dash :: chars)
  | pair {bytes chars : List UInt8} (byte : UInt8) {high low : UInt8}
      (first : high ∈ digitChars (byte.toNat / 16)) (second : low ∈ digitChars (byte.toNat % 16)) :
      Written bytes chars → Written (byte :: bytes) (high :: low :: chars)

/-- A digit is read as its value. -/
theorem hexDigit_of_mem {value : Nat} (small : value < 16) {char : UInt8}
    (digit : char ∈ digitChars value) : hexDigit char = some (UInt8.ofNat value) := by
  have each : ∀ value < 16, ∀ char ∈ digitChars value, hexDigit char = some (UInt8.ofNat value) := by
    decide +kernel
  exact each value small char digit

/-- A digit is no dash. -/
theorem ne_dash_of_mem {value : Nat} (small : value < 16) {char : UInt8}
    (digit : char ∈ digitChars value) : char ≠ dash := by
  have each : ∀ value < 16, ∀ char ∈ digitChars value, char ≠ dash := by decide +kernel
  exact each value small char digit

/-- The two digits of a byte are read as the byte. -/
theorem strtoul16_of_mem {byte high low : UInt8} (first : high ∈ digitChars (byte.toNat / 16))
    (second : low ∈ digitChars (byte.toNat % 16)) : strtoul16 high low = byte := by
  have bound := byte.toNat_lt
  unfold strtoul16
  rw [hexDigit_of_mem (by omega) first, hexDigit_of_mem (by omega) second]
  rw [← UInt8.toNat_inj, UInt8.toNat_add, UInt8.toNat_mul, UInt8.toNat_ofNat', UInt8.toNat_ofNat']
  change (16 * (byte.toNat / 16 % 256) % 256 + byte.toNat % 16 % 256) % 256 = byte.toNat
  omega

/-- What is written is passed in whole, and read from its end. -/
theorem Written.blocks {bytes chars : List UInt8} (written : Written bytes chars) :
    Blocks bytes.reverse chars := by
  induction written with
  | none => exact .none
  | dash _ ih => exact .dash ih
  | pair byte first second _ ih =>
    have bound := byte.toNat_lt
    rw [List.reverse_cons, ← strtoul16_of_mem first second]
    exact .pair _ (ne_dash_of_mem (by omega) second) ih

/-- In front of blocks a single character makes no further block, unless it is a dash. -/
theorem Blocks.dash_of_cons {values others chars : List UInt8} {first : UInt8}
    (whole : Blocks values (first :: chars)) (rest : Blocks others chars) : first = Ble.dash := by
  generalize text_eq : first :: chars = text at whole
  induction whole generalizing first chars others with
  | none => cases text_eq
  | dash _ _ => exact (List.cons.inj text_eq).1
  | pair _ second_other inner ih =>
    obtain ⟨rfl, rfl⟩ := List.cons.inj text_eq
    cases rest with
    | dash _ => exact absurd rfl second_other
    | pair _ other behind => exact absurd (ih behind rfl) other

namespace BLEUuid

/-! ### The constructor on such texts -/

theorem readFrom_full (text : CString) {bytes : List UInt8} (full : maxUuidLength ≤ bytes.length)
    (left : Nat) : readFrom text bytes left = bytes := by
  unfold readFrom
  split
  · rfl
  · rw [if_neg (by omega)]
  · rw [if_neg (by omega)]

theorem charAt_append (text : CString) {front back : List UInt8} {char : UInt8}
    (parts : text.chars = front ++ char :: back) : text.charAt front.length = char := by
  rw [CString.charAt, parts, List.getD_eq_getElem?_getD, List.getElem?_append_right (Nat.le_refl _),
    Nat.sub_self]
  rfl

/-- The character after it. -/
theorem charAt_second (text : CString) {front back : List UInt8} {first second : UInt8}
    (parts : text.chars = front ++ first :: second :: back) : text.charAt (front.length + 1) = second := by
  have split : text.chars = (front ++ [first]) ++ second :: back := by
    rw [parts, List.append_assoc]; rfl
  have at_end := charAt_append text split
  rwa [List.length_append, List.length_singleton] at at_end

/-- Blocks at the end of the text are read with their bytes. -/
theorem readFrom_blocks (text : CString) {values chars : List UInt8} (blocks : Blocks values chars)
    {front : List UInt8} (parts : text.chars = front ++ chars) (short : values.length ≤ maxUuidLength) :
    readFrom text [] text.strlen = readFrom text values front.length := by
  induction blocks generalizing front with
  | none => rw [CString.strlen, parts, List.append_nil]
  | @dash values chars _ ih =>
    have parts' : text.chars = (front ++ [dash]) ++ chars := by rw [parts, List.append_assoc]; rfl
    have here : text.charAt front.length = 45 := charAt_append text parts
    rw [ih parts' short, List.length_append, List.length_singleton]
    by_cases room : values.length < maxUuidLength
    · rcases front with - | ⟨char, front⟩
      · change readFrom text values 1 = readFrom text values 0
        rw [List.length_nil] at here
        simp only [readFrom, if_pos room, if_pos here]
      · rw [List.length_cons] at here ⊢
        rw [readFrom, if_pos room, if_pos here]
    · rw [readFrom_full text (Nat.not_lt.mp room), readFrom_full text (Nat.not_lt.mp room)]
  | @pair values chars first second other _ ih =>
    rw [List.length_append, List.length_singleton] at short
    have parts' : text.chars = (front ++ [first, second]) ++ chars := by
      rw [parts, List.append_assoc]; rfl
    have high : text.charAt front.length = first := charAt_append text parts
    have low : text.charAt (front.length + 1) = second := charAt_second text parts
    have kept : ¬ text.charAt (front.length + 1) = 45 := by rw [low]; exact other
    rw [ih parts' (by omega), List.length_append]
    change readFrom text values (front.length + 2) = _
    rw [readFrom, if_pos (by omega), if_neg kept, high, low]

/-- **The constructor reads what was written.** -/
theorem uuid_of_written (text : CString) {bytes : List UInt8} (written : Written bytes text.chars)
    (short : bytes.length ≤ maxUuidLength) (uninit : Memory UInt8) :
    (ofString text).length.toNat = bytes.length ∧
      (List.range bytes.length).map ((ofString text).data uninit) = bytes.reverse := by
  have read : (ofString text).bytes = bytes.reverse := by
    have parts : text.chars = [] ++ text.chars := rfl
    have all := readFrom_blocks text written.blocks parts (by rwa [List.length_reverse])
    rw [List.length_nil, readFrom] at all
    exact all
  have count : (ofString text).length.toNat = bytes.length := by
    rw [length_toNat, read, List.length_reverse]
  refine ⟨count, List.ext_getElem? fun index => ?_⟩
  rw [List.getElem?_map]
  by_cases inside : index < bytes.length
  · have reversed : index < bytes.reverse.length := by rwa [List.length_reverse]
    rw [List.getElem?_range inside, Option.map_some, data, read, List.getD_eq_getElem?_getD,
      List.getElem?_eq_getElem reversed, Option.getD_some]
  · rw [List.getElem?_eq_none (by rw [List.length_range]; omega),
      List.getElem?_eq_none (by rw [List.length_reverse]; omega), Option.map_none]

/-- The heart rate service, between dashes. -/
theorem uuid_of_written_heart_rate :
    (ofString ⟨0, [45, 49, 56, 45, 45, 48, 100, 45], by decide⟩).length.toNat = 2 ∧
      (List.range 2).map ((ofString ⟨0, [45, 49, 56, 45, 45, 48, 100, 45], by decide⟩).data fun _ => 0) =
        [0x0D, 0x18] :=
  uuid_of_written ⟨0, [45, 49, 56, 45, 45, 48, 100, 45], by decide⟩
    (.dash (.pair 0x18 (by decide) (by decide)
      (.dash (.dash (.pair 0x0D (by decide) (by decide) (.dash .none))))))
    (by decide) fun _ => 0

/-! ### What the constructor reads and writes -/

/-- The loop of the constructor: its index, the bytes stored, and the indices of the text read and of `_data`
written up to here. -/
structure Parsing where
  i : Int
  bytes : List UInt8
  reads : List Int
  writes : List Nat
  deriving DecidableEq

/-- `str[index]`. -/
def str (text : CString) (index : Int) : UInt8 :=
  if index < 0 then text.before else text.charAt index.toNat

/-- Behind `strlen`, which reads up to the terminating zero. -/
def start (text : CString) : Parsing :=
  ⟨text.strlen - 1, [], (List.range (text.strlen + 1)).map Int.ofNat, []⟩

/-- One turn of the loop; none when it ends. -/
def step (text : CString) (before : Parsing) : Option Parsing :=
  if 0 ≤ before.i ∧ before.bytes.length < maxUuidLength then
    if str text before.i = dash then
      some { before with i := before.i - 1, reads := before.reads ++ [before.i] }
    else
      some ⟨before.i - 2, before.bytes ++ [strtoul16 (str text (before.i - 1)) (str text before.i)],
        before.reads ++ [before.i, before.i - 1, before.i], before.writes ++ [before.bytes.length]⟩
  else none

/-- One turn as a relation. -/
def Turn (text : CString) (before after : Parsing) : Prop := step text before = some after

/-- What a turn does. -/
theorem turn_cases {text : CString} {before after : Parsing} (turn : Turn text before after) :
    0 ≤ before.i ∧ before.bytes.length < maxUuidLength ∧
      (str text before.i = dash ∧
          after = { before with i := before.i - 1, reads := before.reads ++ [before.i] } ∨
        str text before.i ≠ dash ∧
          after = ⟨before.i - 2,
            before.bytes ++ [strtoul16 (str text (before.i - 1)) (str text before.i)],
            before.reads ++ [before.i, before.i - 1, before.i],
            before.writes ++ [before.bytes.length]⟩) := by
  unfold Turn step at turn
  split_ifs at turn with more here
  · exact ⟨more.1, more.2, .inl ⟨here, (Option.some_inj.1 turn).symm⟩⟩
  · exact ⟨more.1, more.2, .inr ⟨here, (Option.some_inj.1 turn).symm⟩⟩

theorem turn_dash {text : CString} {before : Parsing} (more : 0 ≤ before.i)
    (room : before.bytes.length < maxUuidLength) (here : str text before.i = dash) :
    Turn text before { before with i := before.i - 1, reads := before.reads ++ [before.i] } := by
  rw [Turn, step, if_pos ⟨more, room⟩, if_pos here]

theorem turn_pair {text : CString} {before : Parsing} (more : 0 ≤ before.i)
    (room : before.bytes.length < maxUuidLength) (other : str text before.i ≠ dash) :
    Turn text before ⟨before.i - 2,
      before.bytes ++ [strtoul16 (str text (before.i - 1)) (str text before.i)],
      before.reads ++ [before.i, before.i - 1, before.i], before.writes ++ [before.bytes.length]⟩ := by
  rw [Turn, step, if_pos ⟨more, room⟩, if_neg other]

/-- Every turn lowers the index. -/
theorem turns_lower (text : CString) :
    Lowers (Turn text) fun parsing bound => bound = (parsing.i + 2).toNat := by
  rintro before after bound rfl turn
  obtain ⟨more, _, ⟨_, rfl⟩ | ⟨_, rfl⟩⟩ := turn_cases turn
  · exact ⟨_, by simp only; omega, rfl⟩
  · exact ⟨_, by simp only; omega, rfl⟩

/-- The loop ends. -/
theorem turns_terminate (text : CString) : Terminates (Turn text) (start text) :=
  (turns_lower text).terminates rfl

theorem str_natCast (text : CString) (index : Nat) : str text index = text.charAt index := by
  rw [str, if_neg (by omega), Int.toNat_natCast]

/-- What the constructor stores from a state on does not change in a turn. -/
theorem readFrom_turn {text : CString} {before after : Parsing} (turn : Turn text before after) :
    readFrom text before.bytes (before.i + 1).toNat = readFrom text after.bytes (after.i + 1).toNat := by
  obtain ⟨more, room, what⟩ := turn_cases turn
  obtain ⟨index, at_index⟩ := Int.eq_ofNat_of_zero_le more
  have left : (before.i + 1).toNat = index + 1 := by omega
  rw [at_index, str_natCast] at what
  obtain ⟨here, rfl⟩ | ⟨other, rfl⟩ := what
  · change text.charAt index = 45 at here
    have after_left : ((index : Int) - 1 + 1).toNat = index := by omega
    simp only [left, after_left]
    rcases index with - | index
    · simp only [readFrom, if_pos room, if_pos here]
    · rw [readFrom, if_pos room, if_pos here]
  · change ¬ text.charAt index = 45 at other
    simp only [left]
    rcases index with - | index
    · simp only [readFrom, if_pos room, if_neg other]
      rfl
    · have after_left : (((index + 1 : Nat) : Int) - 2 + 1).toNat = index := by omega
      have first : ((index + 1 : Nat) : Int) - 1 = index := by omega
      rw [readFrom, if_pos room, if_neg other, after_left, first, str_natCast]

/-- **The loop ends with the bytes of the constructor.** -/
theorem final_bytes {text : CString} {final : Parsing}
    (reached : Relation.ReflTransGen (Turn text) (start text) final)
    (ends : step text final = none) : final.bytes = (ofString text).bytes := by
  have kept : readFrom text final.bytes (final.i + 1).toNat = (ofString text).bytes := by
    clear ends
    induction reached with
    | refl =>
      have left : ((start text).i + 1).toNat = text.strlen := by simp only [start]; omega
      rw [left]
      rfl
    | tail _ turn ih => rw [← readFrom_turn turn, ih]
  rw [← kept]
  by_cases room : final.bytes.length < maxUuidLength
  · have done : (final.i + 1).toNat = 0 := by
      unfold step at ends
      split_ifs at ends with more
      omega
    rw [done, readFrom]
  · rw [readFrom_full text (Nat.not_lt.mp room)]

/-- A single character that is no dash is left over in front, with fewer than sixteen bytes read. -/
def LeftOver (text : CString) : Prop :=
  ∃ first rest values, text.chars = first :: rest ∧ first ≠ dash ∧ Blocks values rest ∧
    values.length < maxUuidLength

/-- **The loop ends and keeps to the text and to `_data`.** -/
def Safe (text : CString) : Prop :=
  Terminates (Turn text) (start text) ∧
    ∀ parsing, Relation.ReflTransGen (Turn text) (start text) parsing →
      (∀ index ∈ parsing.reads, 0 ≤ index ∧ index ≤ text.strlen) ∧
        (∀ index ∈ parsing.writes, index < maxUuidLength) ∧
        parsing.writes.length ≤ maxUuidLength ∧ parsing.bytes.length ≤ maxUuidLength

/-- The loop stands in front of blocks, and has kept to the text. -/
structure InText (text : CString) (parsing : Parsing) : Prop where
  reads : ∀ index ∈ parsing.reads, 0 ≤ index ∧ index ≤ text.strlen
  writes : parsing.writes = List.range parsing.bytes.length
  short : parsing.bytes.length ≤ maxUuidLength
  blocks : ∃ front chars, text.chars = front ++ chars ∧ parsing.i = front.length - 1 ∧
    Blocks parsing.bytes chars

theorem start_inText (text : CString) : InText text (start text) where
  reads := by
    intro index read
    obtain ⟨position, inside, rfl⟩ := List.mem_map.1 read
    have bound := List.mem_range.1 inside
    exact ⟨Int.natCast_nonneg position, Int.ofNat_le.2 (Nat.le_of_lt_succ bound)⟩
  writes := rfl
  short := Nat.zero_le _
  blocks := ⟨text.chars, [], (List.append_nil _).symm, rfl, .none⟩

/-- A text without such a character is kept to. -/
theorem turn_inText {text : CString} (none_left : ¬ LeftOver text) {before after : Parsing}
    (kept : InText text before) (turn : Turn text before after) : InText text after := by
  obtain ⟨front, chars, parts, position, blocks⟩ := kept.blocks
  obtain ⟨more, room, what⟩ := turn_cases turn
  have length : text.strlen = front.length + chars.length := by
    rw [CString.strlen, parts, List.length_append]
  obtain ⟨front, char, rfl⟩ : ∃ shorter char, front = shorter ++ [char] := by
    rcases List.eq_nil_or_concat' front with rfl | found
    · rw [List.length_nil] at position; omega
    · exact found
  rw [List.length_append, List.length_singleton] at position length
  have parts' : text.chars = front ++ char :: chars := by rw [parts, List.append_assoc]; rfl
  have here : str text before.i = char := by
    have index : before.i = front.length := by omega
    rw [index, str_natCast, charAt_append text parts']
  rw [here] at what
  obtain ⟨rfl, rfl⟩ | ⟨other, rfl⟩ := what
  · refine ⟨fun index read => ?_, kept.writes, kept.short,
      ⟨front, dash :: chars, parts', ?_, blocks.dash⟩⟩
    · obtain old | new := List.mem_append.1 read
      · exact kept.reads index old
      · rw [List.mem_singleton.1 new]
        omega
    · simp only
      omega
  · obtain ⟨front, first, rfl⟩ : ∃ shorter first, front = shorter ++ [first] := by
      rcases List.eq_nil_or_concat' front with rfl | found
      · exact absurd ⟨char, chars, before.bytes, parts, other, blocks, room⟩ none_left
      · exact found
    rw [List.length_append, List.length_singleton] at position length
    have parts'' : text.chars = front ++ first :: char :: chars := by rw [parts', List.append_assoc]; rfl
    have high : str text (before.i - 1) = first := by
      have index : before.i - 1 = front.length := by omega
      rw [index, str_natCast, charAt_append text parts'']
    refine ⟨fun index read => ?_, ?_, ?_, ⟨front, first :: char :: chars, parts'', ?_, ?_⟩⟩
    · obtain old | new := List.mem_append.1 read
      · exact kept.reads index old
      · simp only [List.mem_cons, List.not_mem_nil, or_false] at new
        omega
    · simp only [List.length_append, List.length_singleton]
      rw [kept.writes, List.range_succ]
    · rw [List.length_append, List.length_singleton]
      exact room
    · simp only
      omega
    · rw [high]
      exact blocks.pair first other

/-- Blocks at the end of the text are passed. -/
theorem reaches_blocks (text : CString) {values chars : List UInt8} (blocks : Blocks values chars)
    {front : List UInt8} (parts : text.chars = front ++ chars) (room : values.length < maxUuidLength) :
    ∃ parsing, Relation.ReflTransGen (Turn text) (start text) parsing ∧ parsing.bytes = values ∧
      parsing.i = front.length - 1 := by
  induction blocks generalizing front with
  | none =>
    rw [List.append_nil] at parts
    exact ⟨start text, .refl, rfl, by rw [← parts]; rfl⟩
  | @dash values chars _ ih =>
    have parts' : text.chars = (front ++ [dash]) ++ chars := by rw [parts, List.append_assoc]; rfl
    obtain ⟨parsing, reached, rfl, position⟩ := ih parts' room
    rw [List.length_append, List.length_singleton] at position
    have index : parsing.i = front.length := by omega
    have here : str text parsing.i = dash := by rw [index, str_natCast, charAt_append text parts]
    exact ⟨_, reached.tail (turn_dash (by omega) room here), rfl, by simp only [index]⟩
  | @pair values chars first second other _ ih =>
    rw [List.length_append, List.length_singleton] at room
    have parts' : text.chars = (front ++ [first, second]) ++ chars := by
      rw [parts, List.append_assoc]; rfl
    obtain ⟨parsing, reached, rfl, position⟩ := ih parts' (by omega)
    rw [List.length_append] at position
    change parsing.i = (front.length + 2 : Nat) - 1 at position
    have index : parsing.i = (front.length + 1 : Nat) := by omega
    have low : str text parsing.i = second := by rw [index, str_natCast, charAt_second text parts]
    have high : str text (parsing.i - 1) = first := by
      have before : parsing.i - 1 = front.length := by omega
      rw [before, str_natCast, charAt_append text parts]
    refine ⟨_, reached.tail (turn_pair (by omega) (by omega) (by rw [low]; exact other)), ?_, ?_⟩
    · simp only [high, low]
    · simp only
      omega

/-- **Where nothing is left over, the constructor keeps to the text.** -/
theorem safe_of_not_leftOver {text : CString} (none_left : ¬ LeftOver text) : Safe text := by
  refine ⟨turns_terminate text, fun parsing reached => ?_⟩
  have kept : InText text parsing := by
    induction reached with
    | refl => exact start_inText text
    | tail _ turn ih => exact turn_inText none_left ih turn
  refine ⟨kept.reads, ?_, ?_, kept.short⟩
  · intro index written
    rw [kept.writes, List.mem_range] at written
    exact Nat.lt_of_lt_of_le written kept.short
  · rw [kept.writes, List.length_range]
    exact kept.short

/-- **What is written is read within the text.** -/
theorem safe_of_written {text : CString} {bytes : List UInt8} (written : Written bytes text.chars) : Safe text := by
  refine safe_of_not_leftOver ?_
  rintro ⟨first, rest, values, parts, other, blocks, -⟩
  have whole := written.blocks
  rw [parts] at whole
  exact other (whole.dash_of_cons blocks)

/-- **The constructor keeps to the text exactly when** no single character that is no dash is left over in front. -/
theorem parse_safe_iff (text : CString) : Safe text ↔ ¬ LeftOver text := by
  constructor
  · rintro ⟨_, safe⟩ ⟨first, rest, values, parts, other, blocks, room⟩
    have parts' : text.chars = [first] ++ rest := parts
    obtain ⟨parsing, reached, rfl, position⟩ := reaches_blocks text blocks parts' room
    rw [List.length_singleton] at position
    have index : parsing.i = (0 : Nat) := by omega
    have here : str text parsing.i = first := by
      have front : text.chars = [] ++ first :: rest := parts
      have at_front := charAt_append text front
      rw [index, str_natCast]
      exact at_front
    have turn := turn_pair (by omega) room (by rw [here]; exact other)
    have read := (safe _ (reached.tail turn)).1 (parsing.i - 1) (by simp)
    omega
  · exact safe_of_not_leftOver

/-- The text "a". -/
def oneDigit : CString := ⟨0, [97], by decide⟩

/-- For a single digit the character in front of the text is read. -/
theorem oneDigit_unsafe :
    Turn oneDigit (start oneDigit) ⟨-2, [0], [0, 1, 0, -1, 0], [0]⟩ ∧ ¬ Safe oneDigit := by
  have turn : Turn oneDigit (start oneDigit) ⟨-2, [0], [0, 1, 0, -1, 0], [0]⟩ := by
    unfold Turn
    rfl
  refine ⟨turn, fun safe => ?_⟩
  have read := (safe.2 _ (.single turn)).1 (-1) (by decide)
  omega

end BLEUuid
end PrimoCore.Ble
