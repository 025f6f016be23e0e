/-
**The compressed URI of an Eddystone beacon, `EddystoneBeacon::compressURI`.**

The scheme prefixes and then the suffixes are replaced wherever they stand in the URI, each by its index with the high
bit set, which is cleared when the bytes are stored. Both tables use the same small numbers.

* `compressURI`, with `substitute` and `substituteEach` — the code, on the `String` class.
* `expand` — the tables read back: a prefix first, suffixes behind it.
* `compressed` — the replacements on the text; `compressURI_eq` says that the code stores them.
* `Symbol`, `symbols` — the same with prefixes and suffixes told apart; `symbols_lead` — the first symbol is a prefix.
* `expand_compressURI_iff` — **the URI is given back exactly when** no scheme prefix stands behind its front.
-/

import PrimoCore.Lib.Substitute
import PrimoCore.Text.Replace
import Mathlib.Tactic.Push

namespace PrimoCore.Ble.EddystoneBeacon

open PrimoCore.Lib PrimoCore.Text PrimoCore.Text.WString

/-! ### The tables -/

/-- `EDDYSTONE_URL_BEACON_PREFIX_SUBSTITUTIONS`: http://www. https://www. http:// https:// urn:uuid: -/
def prefixSubstitutions : List CStr :=
  [⟨[104, 116, 116, 112, 58, 47, 47, 119, 119, 119, 46], by decide⟩,
    ⟨[104, 116, 116, 112, 115, 58, 47, 47, 119, 119, 119, 46], by decide⟩,
    ⟨[104, 116, 116, 112, 58, 47, 47], by decide⟩,
    ⟨[104, 116, 116, 112, 115, 58, 47, 47], by decide⟩,
    ⟨[117, 114, 110, 58, 117, 117, 105, 100, 58], by decide⟩]

/-- `EDDYSTONE_URL_BEACON_SUFFIX_SUBSTITUTIONS`: .com/ .org/ .edu/ .net/ .info/ .biz/ .gov/, and without the slash. -/
def suffixSubstitutions : List CStr :=
  [⟨[46, 99, 111, 109, 47], by decide⟩, ⟨[46, 111, 114, 103, 47], by decide⟩,
    ⟨[46, 101, 100, 117, 47], by decide⟩, ⟨[46, 110, 101, 116, 47], by decide⟩,
    ⟨[46, 105, 110, 102, 111, 47], by decide⟩, ⟨[46, 98, 105, 122, 47], by decide⟩,
    ⟨[46, 103, 111, 118, 47], by decide⟩, ⟨[46, 99, 111, 109], by decide⟩,
    ⟨[46, 111, 114, 103], by decide⟩,
    ⟨[46, 101, 100, 117], by decide⟩, ⟨[46, 110, 101, 116], by decide⟩,
    ⟨[46, 105, 110, 102, 111], by decide⟩,
    ⟨[46, 98, 105, 122], by decide⟩, ⟨[46, 103, 111, 118], by decide⟩]

/-- The texts of the prefixes. -/
def prefixes : List (List UInt8) := prefixSubstitutions.map CStr.chars

/-- The texts of the suffixes. -/
def suffixes : List (List UInt8) := suffixSubstitutions.map CStr.chars

/-! ### `compressURI` -/

/-- `operator []` with an assignment: behind the length it goes nowhere. -/
def storeAt (text : WString) (index : UInt32) (c : UInt8) : Option WString :=
  if text.len ≤ index ∨ text.buffer.isNone then some text
  else text.onBuffer fun block => block.write index.toNat [c]

/-- `operator []`. -/
def charAt (text : WString) (index : Nat) : Option UInt8 :=
  if text.len.toNat ≤ index then some 0
  else match text.buffer with
    | none => some 0
    | some block => if index < block.size then some (block.bytes index) else none

/-- The replacement for an index, `(char) (i | 0x80)`. -/
def code (i : Nat) : UInt8 := UInt8.ofNat i ||| 0x80

/-- One round of the loops: the replacement, the pattern as a `String`, and `replace`. -/
def substitute (uriString : WString) (pattern : CStr) (i : Nat) (answers : Answer × Answer) :
    Option WString :=
  (fromCString (some ⟨[32], by decide⟩) answers.1).bind fun replacement =>
    (storeAt replacement 0 (code i)).bind fun replacement =>
      (fromCString (some pattern) answers.2).bind fun find => uriString.replace find replacement none

/-- A loop over one of the tables, from an index on. -/
def substituteEach (answers : Nat → Answer × Answer) : Nat → List CStr → WString → Option WString
  | _, [], uriString => some uriString
  | i, pattern :: patterns, uriString =>
      (substitute uriString pattern i (answers i)).bind (substituteEach answers (i + 1) patterns)

/-- The last loop: the bytes stored from an index on, without their high bit. -/
def copyOut (uriString : WString) (i : Nat) : Nat → Option (List UInt8)
  | 0 => some []
  | left + 1 => (charAt uriString i).bind fun c =>
      (copyOut uriString (i + 1) left).map ((c &&& 0x7f) :: ·)

/-- `compressURI`: the bytes stored. What `realloc` answers is numbered in the order of the calls. -/
def compressURI (uri : CStr) (compressedUriSize : UInt8) (heap : Nat → Answer) : Option (List UInt8) :=
  (fromCString (some uri) (heap 0)).bind fun uriString =>
    (substituteEach (fun i => (heap (2 * i + 1), heap (2 * i + 2))) 0 prefixSubstitutions uriString).bind
      fun uriString =>
        (substituteEach (fun i => (heap (2 * i + 11), heap (2 * i + 12))) 0 suffixSubstitutions
          uriString).bind
          fun uriString => copyOut uriString 0 (min uriString.len.toNat compressedUriSize.toNat)

/-- **The tables read back**: the first byte is the index of a prefix, each later one below 14 that of a suffix. -/
def expand : List UInt8 → List UInt8
  | [] => []
  | first :: rest =>
      prefixes.getD first.toNat [] ++ rest.flatMap fun byte =>
        if byte < 14 then suffixes.getD byte.toNat [] else [byte]

/-- The replacements on the text. -/
def compressed (uri : List UInt8) : List UInt8 :=
  replaceEach code 0 suffixes (replaceEach code 0 prefixes uri)

/-! ### The strings -/

theorem code_high (i : Nat) : 128 ≤ (code i).toNat := by
  rw [code, UInt8.toNat_or]
  exact Nat.right_le_or

theorem code_ne_zero (i : Nat) : code i ≠ 0 := by
  intro zero
  have high := code_high i
  rw [zero] at high
  exact absurd high (by decide)

/-- A string made of a C string. -/
theorem fromCString_holds (cstr : CStr) (bounded : cstr.chars.length + 1 < UInt32.size)
    (fresh : Memory UInt8) :
    ∃ after, fromCString (some cstr) (some fresh) = some after ∧ after.Represents (some cstr.chars) := by
  have len : cstr.strlen.toNat = cstr.chars.length := UInt32.toNat_ofNat_of_lt' (by omega)
  have nothing : invalid.Represents none := rfl
  have grants : invalid.Grants cstr.strlen (some fresh) := .inr rfl
  obtain ⟨after, copied, represents⟩ := copy_represents nothing cstr.terminated len (by rwa [len])
    (some fresh)
  rw [if_pos grants] at represents
  exact ⟨after, copied, represents⟩

/-- The blank of a replacement is overwritten. -/
theorem storeAt_represents {text : WString} (represents : text.Represents (some [32])) {c : UInt8}
    (proper : c ≠ 0) : ∃ after, storeAt text 0 c = some after ∧ after.Represents (some [c]) := by
  obtain ⟨block, holds⟩ := represents
  have len : text.len.toNat = 1 := holds.len
  have size := holds.size
  have stored : ¬ (text.len ≤ 0 ∨ text.buffer.isNone) := by
    rintro (short | none)
    · rw [UInt32.le_iff_toNat_le, len] at short
      exact absurd short (by decide)
    · rw [holds.buffer] at none
      exact Bool.false_ne_true none
  have inside : (0 : UInt32).toNat + [c].length ≤ block.size := by
    change 0 + 1 ≤ block.size
    omega
  have spelled : Spells (overlay block.bytes 0 [c]) 0 [c] :=
    @spells_overlay_same block.bytes 0 [] [32] [c] [] holds.spells rfl fun zero =>
      proper (List.mem_singleton.1 zero).symm
  rw [storeAt, if_neg stored]
  simp only [onBuffer, holds.buffer, Option.bind_some, Block.write_eq_some inside, Option.map_some]
  exact ⟨_, rfl, _, rfl, size, holds.bounded, len, holds.fits, spelled⟩

/-- A replacement by fewer characters. -/
theorem replace_represents {text find replace : WString} {chars pattern rep : List UInt8}
    (represents : text.Represents (some chars)) (findRepresents : find.Represents (some pattern))
    (replaceRepresents : replace.Represents (some rep)) (nonempty : pattern ≠ [])
    (shorter : rep.length < pattern.length)
    (small : pattern.length < 2 ^ 31) (answer : Answer) :
    ∃ after, text.replace find replace answer = some after ∧
      after.Represents (some (replaceAll pattern rep chars)) := by
  have arguments : Arguments find replace pattern rep :=
    ⟨findRepresents.charPtr, findRepresents.len, nonempty, replaceRepresents.bytes, replaceRepresents.len,
      replaceRepresents.proper, small, by omega⟩
  have len : text.len.toNat = chars.length := represents.len
  have patternLen := arguments.patternLen
  unfold WString.replace
  by_cases nothing : text.len = 0 ∨ find.len = 0
  · have empty : chars = [] := by
      obtain zero | zero := nothing
      · rw [zero] at len
        exact List.eq_nil_of_length_eq_zero len.symm
      · rw [zero] at patternLen
        exact absurd (List.eq_nil_of_length_eq_zero patternLen.symm) nonempty
    subst empty
    rw [if_pos nothing]
    exact ⟨text, rfl, represents⟩
  · obtain ⟨block, holds⟩ := represents
    have less := arguments.asInt_diff
    rw [if_neg nothing]
    simp only [less]
    rw [if_neg (by omega), if_pos (by omega)]
    exact replace_shorter arguments shorter holds

/-- **A round** replaces the pattern by the code. -/
theorem substitute_represents {uriString : WString} {chars : List UInt8}
    (represents : uriString.Represents (some chars)) {pattern : CStr} (long : 1 < pattern.chars.length)
    (small : pattern.chars.length < 2 ^ 31) (i : Nat) (first second : Memory UInt8) :
    ∃ after, substitute uriString pattern i (some first, some second) = some after ∧
      after.Represents (some (replaceAll pattern.chars [code i] chars)) := by
  have nonempty : pattern.chars ≠ [] := List.length_pos_iff.1 (by omega)
  have size : UInt32.size = 4294967296 := rfl
  obtain ⟨blank, blank_eq, blankHolds⟩ := fromCString_holds ⟨[32], by decide⟩ (by decide) first
  obtain ⟨replacement, stored, replacementHolds⟩ := storeAt_represents blankHolds (code_ne_zero i)
  obtain ⟨find, find_eq, findHolds⟩ := fromCString_holds pattern (by omega) second
  obtain ⟨after, replaced, afterHolds⟩ :=
    replace_represents represents findHolds replacementHolds nonempty long small none
  refine ⟨after, ?_, afterHolds⟩
  rw [substitute, blank_eq, Option.bind_some, stored, Option.bind_some, find_eq, Option.bind_some,
    replaced]

/-- **A loop** replaces each pattern of its table. -/
theorem substituteEach_represents {patterns : List CStr}
    (sizes : ∀ pattern ∈ patterns, 1 < pattern.chars.length ∧ pattern.chars.length < 2 ^ 31)
    {uriString : WString} {chars : List UInt8} (represents : uriString.Represents (some chars)) (i : Nat)
    (first second : Nat → Memory UInt8) :
    ∃ after,
      substituteEach (fun i => (some (first i), some (second i))) i patterns uriString = some after ∧
      after.Represents (some (replaceEach code i (patterns.map CStr.chars) chars)) := by
  induction patterns generalizing i uriString chars with
  | nil => exact ⟨uriString, rfl, represents⟩
  | cons pattern patterns ih =>
    obtain ⟨long, small⟩ := sizes pattern List.mem_cons_self
    obtain ⟨next, round, nextHolds⟩ := substitute_represents represents long small i (first i) (second i)
    obtain ⟨after, rest, afterHolds⟩ :=
      ih (fun pattern member => sizes pattern (List.mem_cons_of_mem _ member))
      nextHolds (i + 1)
    refine ⟨after, ?_, afterHolds⟩
    rw [substituteEach, round, Option.bind_some, rest]

/-- The last loop stores the characters without their high bit. -/
theorem copyOut_eq {text : WString} {block : Block} {chars : List UInt8}
    (holds : text.Holds block chars) {i left : Nat} (inside : i + left ≤ chars.length) :
    copyOut text i left = some (((chars.drop i).take left).map (· &&& 0x7f)) := by
  have len := holds.len
  have size := holds.size
  have fits := holds.fits
  induction left generalizing i with
  | zero => rw [List.take_zero]; rfl
  | succ left ih =>
    have here : i < chars.length := by omega
    have char : charAt text i = some chars[i] := by
      have read := holds.spells.at_offset here
      rw [Nat.zero_add] at read
      rw [charAt, if_neg (by omega), holds.buffer]
      simp only
      rw [if_pos (by omega), read]
    rw [copyOut, char, Option.bind_some, ih (by omega), List.drop_eq_getElem_cons here,
      List.take_succ_cons]
    rfl

theorem prefix_sizes :
    ∀ pattern ∈ prefixSubstitutions, 1 < pattern.chars.length ∧ pattern.chars.length < 2 ^ 31 := by
  decide

theorem suffix_sizes :
    ∀ pattern ∈ suffixSubstitutions, 1 < pattern.chars.length ∧ pattern.chars.length < 2 ^ 31 := by
  decide

/-- **`compressURI` stores the replaced text** as far as there is room, if all requests for memory are granted. -/
theorem compressURI_eq (uri : CStr) (bounded : uri.chars.length + 1 < UInt32.size)
    (compressedUriSize : UInt8) (fresh : Nat → Memory UInt8) :
    compressURI uri compressedUriSize (fun call => some (fresh call)) =
      some (((compressed uri.chars).take compressedUriSize.toNat).map (· &&& 0x7f)) := by
  obtain ⟨start, start_eq, startHolds⟩ := fromCString_holds uri bounded (fresh 0)
  obtain ⟨schemes, schemes_eq, schemesHolds⟩ := substituteEach_represents prefix_sizes startHolds 0
    (fun i => fresh (2 * i + 1)) fun i => fresh (2 * i + 2)
  obtain ⟨after, after_eq, block, holds⟩ := substituteEach_represents suffix_sizes schemesHolds 0
    (fun i => fresh (2 * i + 11)) fun i => fresh (2 * i + 12)
  change after.Holds block (compressed uri.chars) at holds
  have len := holds.len
  rw [compressURI, start_eq, Option.bind_some, schemes_eq, Option.bind_some, after_eq, Option.bind_some,
    copyOut_eq holds (by omega), List.drop_zero, len, Nat.min_comm, ← List.take_take, List.take_length]

/-! ### Prefixes and suffixes told apart -/

/-- A character, or what stands for a prefix or a suffix. -/
inductive Symbol
  | char (c : UInt8)
  | scheme (i : Nat)
  | ending (i : Nat)
  deriving DecidableEq

namespace Symbol

/-- The byte of a symbol in the `String`. -/
def byte : Symbol → UInt8
  | char c => c
  | scheme i => code i
  | ending i => code i

/-- What the symbol stands for. -/
def spell : Symbol → List UInt8
  | char c => [c]
  | scheme i => prefixes.getD i []
  | ending i => suffixes.getD i []

/-- What is read where a prefix is not expected. -/
def read : Symbol → List UInt8
  | char c => [c]
  | scheme i => suffixes.getD i []
  | ending i => suffixes.getD i []

end Symbol

/-- A table as symbols. -/
def asSymbols (table : List (List UInt8)) : List (List Symbol) := table.map (·.map Symbol.char)

/-- The prefixes of a text replaced. -/
def schemes (text : List UInt8) : List Symbol :=
  replaceEach .scheme 0 (asSymbols prefixes) (text.map .char)

/-- The replacements, with prefixes and suffixes told apart. -/
def symbols (text : List UInt8) : List Symbol := replaceEach .ending 0 (asSymbols suffixes) (schemes text)

theorem mem_asSymbols {table : List (List UInt8)} {find : List Symbol} :
    find ∈ asSymbols table ↔ ∃ chars ∈ table, chars.map Symbol.char = find := List.mem_map

theorem prefixes_plain : ∀ chars ∈ prefixes, chars ≠ [] ∧ ∀ c ∈ chars, c.toNat < 128 := by decide +kernel

theorem suffixes_plain : ∀ chars ∈ suffixes, chars ≠ [] ∧ ∀ c ∈ chars, c.toNat < 128 := by decide +kernel

section Tables

variable {table : List (List UInt8)} (plain : ∀ chars ∈ table, chars ≠ [] ∧ ∀ c ∈ chars, c.toNat < 128)
include plain

theorem asSymbols_nonempty : ∀ find ∈ asSymbols table, find ≠ [] := by
  intro find member
  obtain ⟨chars, there, rfl⟩ := mem_asSymbols.1 member
  rw [Ne, List.map_eq_nil_iff]
  exact (plain chars there).1

/-- No code is a character of the tables. -/
theorem asSymbols_faithful :
    ∀ find ∈ asSymbols table, ∀ other, ∀ char ∈ find, other.byte = char.byte → other = char := by
  intro find member other char inside same
  obtain ⟨chars, there, rfl⟩ := mem_asSymbols.1 member
  obtain ⟨c, within, rfl⟩ := List.mem_map.1 inside
  have low := (plain chars there).2 c within
  cases other with
  | char d => exact congrArg Symbol.char same
  | scheme i | ending i =>
    have high := code_high i
    change code i = c at same
    rw [same] at high
    omega

end Tables

theorem asSymbols_fresh {table : List (List UInt8)} {symbol : Symbol} (special : ∀ c, symbol ≠ .char c) :
    ∀ find ∈ asSymbols table, symbol ∉ find := by
  intro find member inside
  obtain ⟨chars, _, rfl⟩ := mem_asSymbols.1 member
  obtain ⟨c, _, rfl⟩ := List.mem_map.1 inside
  exact special c rfl

theorem spell_chars (text : List UInt8) : (text.map Symbol.char).flatMap Symbol.spell = text := by
  rw [List.flatMap_map]
  exact List.flatMap_singleton' text

theorem asSymbols_map (table : List (List UInt8)) :
    (asSymbols table).map (·.map Symbol.byte) = table := by
  rw [asSymbols, List.map_map]
  refine (List.map_congr_left fun chars _ => ?_).trans (List.map_id table)
  change (chars.map Symbol.char).map Symbol.byte = chars
  rw [List.map_map]
  exact List.map_id chars

/-- The bytes of the symbols are those of the `String`. -/
theorem compressed_eq (text : List UInt8) : compressed text = (symbols text).map Symbol.byte := by
  rw [symbols, map_replaceEach (asSymbols_nonempty suffixes_plain) (asSymbols_faithful suffixes_plain),
    asSymbols_map,
    schemes, map_replaceEach (asSymbols_nonempty prefixes_plain) (asSymbols_faithful prefixes_plain),
    asSymbols_map,
    List.map_map]
  have chars : text.map (Symbol.byte ∘ Symbol.char) = text := List.map_id text
  rw [chars]
  rfl

/-- The symbol of a table spells its entry. -/
theorem spell_entry {table : List (List UInt8)} {k : Nat} {find : List Symbol}
    (found : (asSymbols table)[k]? = some find) : table.getD k [] = find.flatMap Symbol.spell := by
  rw [asSymbols, List.getElem?_map] at found
  obtain ⟨chars, entry, rfl⟩ := Option.map_eq_some_iff.1 found
  rw [spell_chars, List.getD_eq_getElem?_getD, entry, Option.getD_some]

theorem spell_schemes (text : List UInt8) : (schemes text).flatMap Symbol.spell = text := by
  rw [schemes, flatMap_replaceEach (asSymbols_nonempty prefixes_plain), spell_chars]
  intro k find found
  rw [Nat.zero_add]
  exact spell_entry found

/-- **The symbols spell the text.** -/
theorem spell_symbols (text : List UInt8) : (symbols text).flatMap Symbol.spell = text := by
  rw [symbols, flatMap_replaceEach (asSymbols_nonempty suffixes_plain), spell_schemes]
  intro k find found
  rw [Nat.zero_add]
  exact spell_entry found

/-- What the symbols of a text are. -/
theorem mem_symbols {text : List UInt8} {symbol : Symbol} (member : symbol ∈ symbols text) :
    (∃ c ∈ text, symbol = .char c) ∨ (∃ k < 5, symbol = .scheme k) ∨ ∃ k < 14, symbol = .ending k := by
  obtain before | ⟨k, inside, rfl⟩ := mem_or_eq_of_mem_replaceEach
    (asSymbols_nonempty suffixes_plain) member
  · obtain old | ⟨k, inside, rfl⟩ := mem_or_eq_of_mem_replaceEach
      (asSymbols_nonempty prefixes_plain) before
    · obtain ⟨c, there, rfl⟩ := List.mem_map.1 old
      exact .inl ⟨c, there, rfl⟩
    · exact .inr (.inl ⟨0 + k, by rw [Nat.zero_add]; exact inside, rfl⟩)
  · exact .inr (.inr ⟨0 + k, by rw [Nat.zero_add]; exact inside, rfl⟩)

/-- **A prefix is put in exactly when one occurs.** -/
theorem exists_scheme_iff (text : List UInt8) :
    (∃ k, Symbol.scheme k ∈ symbols text) ↔ ∃ chars ∈ prefixes, ∃ position,
      position ∈ occurrences chars text := by
  have through : ∀ k, Symbol.scheme k ∈ symbols text ↔ Symbol.scheme k ∈ schemes text := by
    intro k
    constructor
    · intro member
      obtain before | ⟨other, _, same⟩ := mem_or_eq_of_mem_replaceEach
        (asSymbols_nonempty suffixes_plain) member
      · exact before
      · cases same
    · exact mem_replaceEach_of_mem (asSymbols_nonempty suffixes_plain)
        (asSymbols_fresh fun c same => by cases same)
  have special : ∀ k c, Symbol.scheme k ≠ .char c := fun k c same => by cases same
  simp only [through]
  rw [schemes, exists_mem_replaceEach_iff (asSymbols_nonempty prefixes_plain)
    (fun k => asSymbols_fresh (special k))]
  · constructor
    · rintro ⟨find, member, position, occurs⟩
      obtain ⟨chars, there, rfl⟩ := mem_asSymbols.1 member
      change chars.map Symbol.char <+: (text.map Symbol.char).drop position at occurs
      rw [← List.map_drop, map_prefix_iff fun other char _ same => Symbol.char.inj same] at occurs
      exact ⟨chars, there, position, occurs⟩
    · rintro ⟨chars, there, position, occurs⟩
      refine ⟨chars.map Symbol.char, mem_asSymbols.2 ⟨chars, there, rfl⟩, position, ?_⟩
      change chars.map Symbol.char <+: (text.map Symbol.char).drop position
      rw [← List.map_drop, map_prefix_iff fun other char _ same => Symbol.char.inj same]
      exact occurs
  · intro k member
    obtain ⟨c, _, same⟩ := List.mem_map.1 member
    exact special k c same.symm

/-! ### The first symbol -/

/-- No prefix starts inside another. -/
theorem prefixes_clear : ∀ front ∈ prefixes, ∀ find ∈ prefixes, Clear front find := by
  unfold Clear
  decide +kernel

theorem clear_asSymbols {front find : List UInt8} (clear : Clear front find) :
    Clear (front.map Symbol.char) (find.map Symbol.char) := by
  intro position inside positive starts
  rw [List.length_map] at inside
  rw [← List.map_drop, map_prefix_iff fun other char _ same => Symbol.char.inj same,
    map_prefix_iff fun other char _ same => Symbol.char.inj same] at starts
  exact clear position inside positive starts

/-- **The first symbol is a prefix**, the first one of the table that stands in front; what is behind it is replaced on
its own. -/
theorem symbols_lead {text : List UInt8} (starts : ∃ chars ∈ prefixes, chars <+: text) :
    ∃ j front rest, prefixes[j]? = some front ∧ text = front ++ rest ∧
      symbols text = .scheme j :: symbols rest := by
  have found : (prefixes.find? fun chars => decide (chars <+: text)).isSome := by
    obtain ⟨chars, member, here⟩ := starts
    exact List.find?_isSome.2 ⟨chars, member, decide_eq_true here⟩
  obtain ⟨front, first⟩ := Option.isSome_iff_exists.1 found
  obtain ⟨here, before, after, split, absent⟩ := List.find?_eq_some_iff_append.1 first
  obtain ⟨rest, rfl⟩ := of_decide_eq_true here
  have member : ∀ chars ∈ before, chars ∈ prefixes := fun chars there => by
    rw [split]
    exact List.mem_append_left _ there
  have front_member : front ∈ prefixes := by
    rw [split]
    exact List.mem_append_right _ List.mem_cons_self
  have table : asSymbols prefixes = asSymbols before ++ front.map Symbol.char :: asSymbols after := by
    rw [split, asSymbols, List.map_append, List.map_cons]
    rfl
  have length : (asSymbols before).length = before.length := List.length_map _
  have lead : replaceEach .scheme 0 (asSymbols before ++ front.map Symbol.char :: asSymbols after)
      (front.map Symbol.char ++ rest.map Symbol.char) = Symbol.scheme (0 + (asSymbols before).length) ::
        replaceEach .scheme 0 (asSymbols before ++ front.map Symbol.char :: asSymbols after)
          (rest.map Symbol.char) := by
    refine @replaceEach_lead _ UInt8 _ _ _ _ _ _ _ Symbol.spell ?_ ?_ ?_ ?_ ?_
    · rw [← table]
      exact asSymbols_nonempty prefixes_plain
    · intro k find found
      have inside := (List.getElem?_eq_some_iff.1 found).1
      have entry : (asSymbols prefixes)[k]? = some find := by
        rw [table, List.getElem?_append_left inside, found]
      rw [Nat.zero_add]
      exact spell_entry entry
    · intro find there
      obtain ⟨chars, inside, rfl⟩ := mem_asSymbols.1 there
      exact clear_asSymbols (prefixes_clear front front_member chars (member chars inside))
    · intro find there
      obtain ⟨chars, inside, rfl⟩ := mem_asSymbols.1 there
      rw [List.flatMap_append, spell_chars, spell_chars, spell_chars]
      have other := absent chars inside
      rw [Bool.not_eq_true', decide_eq_false_iff_not] at other
      exact other
    · exact asSymbols_fresh fun c same => by cases same
  rw [← table, length, Nat.zero_add, ← List.map_append] at lead
  refine ⟨before.length, front, rest, ?_, rfl, ?_⟩
  · rw [split, List.getElem?_append_right (Nat.le_refl _), Nat.sub_self]
    rfl
  · rw [symbols, schemes, lead, replaceEach_cons (asSymbols_fresh fun c same => by cases same)
      (asSymbols_nonempty suffixes_plain)]
    rfl

/-! ### Reading the tables back -/

/-- The number of a code. -/
theorem code_low : ∀ k < 14, code k &&& 0x7f < 14 ∧ (code k &&& 0x7f).toNat = k := by decide

/-- A printable character has no high bit, and is no number of a table. -/
theorem char_low {c : UInt8} (printable : 32 ≤ c ∧ c ≤ 126) : c &&& 0x7f = c ∧ ¬ c < 14 := by
  have least := UInt8.le_iff_toNat_le.1 printable.1
  have most := UInt8.le_iff_toNat_le.1 printable.2
  change 32 ≤ c.toNat at least
  change c.toNat ≤ 126 at most
  constructor
  · rw [← UInt8.toNat_inj, UInt8.toNat_and]
    exact (Nat.and_two_pow_sub_one_eq_mod c.toNat 7).trans (Nat.mod_eq_of_lt (by omega))
  · rw [UInt8.lt_iff_toNat_lt]
    change ¬ c.toNat < 14
    omega

/-- A code is read as the suffix of its number. -/
theorem read_code {k : Nat} (small : k < 14) (otherwise : List UInt8) :
    (if code k &&& 0x7f < 14 then suffixes.getD (code k &&& 0x7f).toNat [] else otherwise) =
      suffixes.getD k [] := by
  obtain ⟨low, number⟩ := code_low k small
  rw [if_pos low, number]

/-- What a later byte is read as. -/
theorem read_byte {text : List UInt8} (printable : ∀ c ∈ text, 32 ≤ c ∧ c ≤ 126) {symbol : Symbol}
    (member : symbol ∈ symbols text) :
    (if symbol.byte &&& 0x7f < 14 then suffixes.getD (symbol.byte &&& 0x7f).toNat []
      else [symbol.byte &&& 0x7f]) =
      symbol.read := by
  obtain ⟨c, there, rfl⟩ | ⟨k, small, rfl⟩ | ⟨k, small, rfl⟩ := mem_symbols member
  · obtain ⟨same, high⟩ := char_low (printable c there)
    change (if c &&& 0x7f < 14 then suffixes.getD (c &&& 0x7f).toNat [] else [c &&& 0x7f]) = [c]
    rw [same, if_neg high]
  · exact read_code (by omega) _
  · exact read_code small _

/-- A prefix and the suffix of its number begin with different characters. -/
theorem entries_differ : ∀ k < 5, (suffixes.getD k []).head? = some 46 ∧
    (prefixes.getD k []).head? ≠ some 46 ∧
    prefixes.getD k [] ≠ [] := by decide

/-- **Symbols are read as what they stand for exactly when** no prefix is among them. -/
theorem read_eq_spell_iff {tail : List Symbol} (small : ∀ k, Symbol.scheme k ∈ tail → k < 5) :
    tail.flatMap Symbol.read = tail.flatMap Symbol.spell ↔ ∀ k, Symbol.scheme k ∉ tail := by
  induction tail with
  | nil => exact iff_of_true rfl fun k => List.not_mem_nil
  | cons symbol tail ih =>
    have later := ih fun k member => small k (List.mem_cons_of_mem _ member)
    rw [List.flatMap_cons, List.flatMap_cons]
    cases symbol with
    | char c | ending i =>
      rw [Symbol.read, Symbol.spell, List.append_cancel_left_eq, later]
      refine forall_congr' fun k => not_congr ⟨List.mem_cons_of_mem _, fun member => ?_⟩
      obtain same | behind := List.mem_cons.1 member
      · cases same
      · exact behind
    | scheme i =>
      refine iff_of_false (fun same => ?_) fun none => none i List.mem_cons_self
      obtain ⟨dot, other, nonempty⟩ := entries_differ i (small i List.mem_cons_self)
      have heads := congrArg List.head? same
      rw [Symbol.read, Symbol.spell, List.head?_append, dot,
        List.head?_append_of_ne_nil _ nonempty] at heads
      exact other heads.symm

/-- No symbol stands for more than twelve characters. -/
theorem length_le_symbols (text : List UInt8) : text.length ≤ (symbols text).length * 12 := by
  have entry : ∀ symbol ∈ symbols text, symbol.spell.length ≤ 12 := by
    have schemes_short : ∀ k < 5, (prefixes.getD k []).length ≤ 12 := by decide
    have endings_short : ∀ k < 14, (suffixes.getD k []).length ≤ 12 := by decide
    intro symbol member
    obtain ⟨c, _, rfl⟩ | ⟨k, small, rfl⟩ | ⟨k, small, rfl⟩ := mem_symbols member
    · exact Nat.le_add_left 1 11
    · exact schemes_short k small
    · exact endings_short k small
  have bound : ∀ list : List Symbol, (∀ symbol ∈ list, symbol.spell.length ≤ 12) →
      (list.flatMap Symbol.spell).length ≤ list.length * 12 := by
    intro list short
    induction list with
    | nil => exact Nat.le_refl 0
    | cons symbol list ih =>
      have here := short symbol List.mem_cons_self
      have later := ih fun symbol member => short symbol (List.mem_cons_of_mem _ member)
      rw [List.flatMap_cons, List.length_append, List.length_cons]
      omega
  have whole := bound (symbols text) entry
  rwa [spell_symbols] at whole

/-- A prefix stands behind the front exactly when it stands behind the first prefix. -/
theorem occurrences_behind_iff {front rest : List UInt8} (member : front ∈ prefixes) :
    (∃ scheme ∈ prefixes, ∃ position, 0 < position ∧ position ∈ occurrences scheme (front ++ rest)) ↔
      ∃ scheme ∈ prefixes, ∃ position, position ∈ occurrences scheme rest := by
  have some_front : 0 < front.length := List.length_pos_iff.2 (prefixes_plain front member).1
  constructor
  · rintro ⟨scheme, there, position, positive, occurs⟩
    by_cases inside : position < front.length
    · exact absurd occurs ((prefixes_clear front member scheme there).absent inside positive rest)
    · refine ⟨scheme, there, position - front.length, ?_⟩
      change scheme <+: (front ++ rest).drop position at occurs
      rwa [List.drop_append, List.drop_eq_nil_of_le (Nat.not_lt.1 inside), List.nil_append] at occurs
  · rintro ⟨scheme, there, position, occurs⟩
    refine ⟨scheme, there, front.length + position, by omega, ?_⟩
    change scheme <+: (front ++ rest).drop (front.length + position)
    rwa [← List.drop_drop, List.drop_left]

/-- **The compressed URI is expanded to the URI exactly when** no scheme prefix stands in it behind its front. -/
theorem expand_compressURI_iff (uri : CStr) (printable : ∀ c ∈ uri.chars, 32 ≤ c ∧ c ≤ 126)
    (starts : ∃ scheme ∈ prefixes, scheme <+: uri.chars) (fits : (compressed uri.chars).length ≤ 18)
    (fresh : Nat → Memory UInt8) :
    (compressURI uri 18 fun call => some (fresh call)).map expand = some uri.chars ↔
      ∀ scheme ∈ prefixes, ∀ position, 0 < position → position ∉ occurrences scheme uri.chars := by
  obtain ⟨j, front, rest, entry, split, lead⟩ := symbols_lead starts
  have word : UInt32.size = 4294967296 := rfl
  have room : UInt8.toNat 18 = 18 := rfl
  have inside : j < 5 := (List.getElem?_eq_some_iff.1 entry).1
  have member : front ∈ prefixes := List.mem_of_getElem? entry
  have length : (compressed uri.chars).length = (symbols uri.chars).length := by
    rw [compressed_eq, List.length_map]
  have short := length_le_symbols uri.chars
  have stored : compressURI uri 18 (fun call => some (fresh call)) =
      some ((symbols uri.chars).map fun symbol => symbol.byte &&& 0x7f) := by
    rw [compressURI_eq uri (by omega), room, List.take_of_length_le fits, compressed_eq, List.map_map]
    rfl
  have later : ∀ c ∈ rest, 32 ≤ c ∧ c ≤ 126 := fun c there =>
    printable c (by rw [split]; exact List.mem_append_right _ there)
  have expanded : expand ((symbols uri.chars).map fun symbol => symbol.byte &&& 0x7f) =
      front ++ (symbols rest).flatMap Symbol.read := by
    have number : ((Symbol.scheme j).byte &&& 0x7f).toNat = j := (code_low j (by omega)).2
    rw [lead, List.map_cons, expand, number, List.getD_eq_getElem?_getD, entry, Option.getD_some,
      List.flatMap_map]
    exact congrArg (front ++ ·) (List.flatMap_congr fun symbol there => read_byte later there)
  have spelled : uri.chars = front ++ (symbols rest).flatMap Symbol.spell := by rw [spell_symbols, split]
  have small : ∀ k, Symbol.scheme k ∈ symbols rest → k < 5 := by
    intro k there
    obtain ⟨c, _, same⟩ | ⟨k, small, same⟩ | ⟨k, _, same⟩ := mem_symbols there
    · cases same
    · cases same
      exact small
    · cases same
  have none_later : (∀ k, Symbol.scheme k ∉ symbols rest) ↔
      ∀ scheme ∈ prefixes, ∀ position, 0 < position → position ∉ occurrences scheme uri.chars := by
    have behind := (exists_scheme_iff rest).trans (occurrences_behind_iff member).symm
    rw [← split] at behind
    rw [← not_exists, behind]
    push Not
    rfl
  rw [stored, Option.map_some, Option.some_inj, expanded, ← none_later, ← read_eq_spell_iff small]
  constructor
  · intro same
    exact List.append_cancel_left (same.trans spelled)
  · intro same
    rw [same, ← spelled]

/-- "http://a.com/b". -/
def plainUri : CStr := ⟨[104, 116, 116, 112, 58, 47, 47, 97, 46, 99, 111, 109, 47, 98], by decide⟩

theorem expand_compressURI_iff_plain :
    (compressURI plainUri 18 fun _ => some fun _ => 0).map expand = some plainUri.chars := by
  refine (expand_compressURI_iff plainUri (by decide +kernel) (by decide) (by decide +kernel)
    fun _ _ => 0).mpr fun scheme member position behind starts => ?_
  have none_inside : ∀ scheme ∈ prefixes, ∀ position < 14, 0 < position →
      ¬ scheme <+: plainUri.chars.drop position := by decide +kernel
  rcases Nat.lt_or_ge position 14 with inside | beyond
  · exact none_inside scheme member position inside behind starts
  · have nothing : plainUri.chars.drop position = [] := List.drop_eq_nil_of_le beyond
    have empty : scheme = [] := List.prefix_nil.mp (nothing ▸ starts)
    exact absurd (empty ▸ member) (by decide)

/-- "http://a.b/http://c". -/
def nestedUri : CStr :=
  ⟨[104, 116, 116, 112, 58, 47, 47, 97, 46, 98, 47, 104, 116, 116, 112, 58, 47, 47, 99], by decide⟩

/-- A prefix inside the URI is read back as a suffix. -/
theorem nestedUri_lost :
    (∀ c ∈ nestedUri.chars, 32 ≤ c ∧ c ≤ 126) ∧ (∃ scheme ∈ prefixes, scheme <+: nestedUri.chars) ∧
      compressURI nestedUri 18 (fun _ => some fun _ => 0) = some [2, 97, 46, 98, 47, 2, 99] ∧
      expand [2, 97, 46, 98, 47, 2, 99] ≠ nestedUri.chars := by
  refine ⟨by decide +kernel, by decide, ?_, by decide⟩
  rw [compressURI_eq nestedUri (by decide)]
  decide +kernel

end PrimoCore.Ble.EddystoneBeacon
