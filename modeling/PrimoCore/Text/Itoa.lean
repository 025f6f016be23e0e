/-
**Integers as text, `itoa.c` and `Print::printNumber`.**

There are two digit loops in `itoa.c`, which store the digits in `tmp` and copy them back, and one in `Print`, which
fills its buffer from the end. A store outside a buffer has no result here.

* `Itoa.ltoa`, `Itoa.ultoa`, `Itoa.itoa`, `Itoa.utoa`, `Print.print` and so on — the code.
* `Number` — a number with its C type: `Number.toa`, `Number.constructed` and `Number.concatenated` are the calls
  made for it, with the buffers of the callers.
* `Formats` — **the text a number is to have** in a radix.
* `digitLoop_eq`, `printLoop_eq` — both loops give the digits of the numeral.
* `ultoa_chars`, `ltoa_chars` — the texts that the `String` class is given are those of the loops.
* `formatters_agree` — **all of them give that text**, within their buffers.
-/

import PrimoCore.Lib.Numeral
import PrimoCore.Text.WString

namespace PrimoCore.Text

open PrimoCore.Lib

/-! ### `itoa.c` -/

namespace Itoa

/-- The character of `v % radix`. -/
def charOf (i : UInt32) : UInt8 := if i < 10 then (i + 48).toUInt8 else (i + 97 - 10).toUInt8

/-- The loop of the digits, with the bytes of `tmp` that are left and the characters in it, the last one in front. -/
def digitLoop (radix : UInt32) : Nat → List UInt8 → UInt32 → Option (List UInt8)
  | 0, tmp, v => if v ≠ 0 ∨ tmp = [] then none else some tmp
  | left + 1, tmp, v =>
      if v ≠ 0 ∨ tmp = [] then digitLoop radix left (charOf (v % radix) :: tmp) (v / radix) else some tmp

/-- The loop that copies `tmp` from its end, and the zero. -/
def copyBack : List UInt8 → Block → Nat → Option Block
  | [], string, sp => string.write sp [0]
  | char :: tmp, string, sp => (string.write sp [char]).bind fun string => copyBack tmp string (sp + 1)

/-- `ltoa`: what is returned, NULL or the string. -/
def ltoa (value : Int32) (string : Option Block) (radix : Int) : Option (Option Block) :=
  match string with
  | none => some none
  | some string =>
      if 36 < radix ∨ radix ≤ 1 then some none
      else if radix = 10 ∧ value < 0 then
        (digitLoop (UInt32.ofInt radix) 33 [] (-value).toUInt32).bind fun tmp =>
          (string.write 0 [45]).bind fun string => (copyBack tmp string 1).map some
      else
        (digitLoop (UInt32.ofInt radix) 33 [] value.toUInt32).bind fun tmp =>
          (copyBack tmp string 0).map some

/-- `ultoa`. -/
def ultoa (value : UInt32) (string : Option Block) (radix : Int) : Option (Option Block) :=
  match string with
  | none => some none
  | some string =>
      if 36 < radix ∨ radix ≤ 1 then some none
      else (digitLoop (UInt32.ofInt radix) 33 [] value).bind fun tmp => (copyBack tmp string 0).map some

/-- `itoa`. -/
def itoa (value : Int32) (string : Option Block) (radix : Int) : Option (Option Block) :=
  ltoa value string radix

/-- `utoa`. -/
def utoa (value : UInt32) (string : Option Block) (radix : Int) : Option (Option Block) :=
  ultoa value string radix

end Itoa

/-! ### `Print` -/

namespace Print

/-- The character of a digit. -/
def charOf (c : UInt8) : UInt8 := if c < 10 then c + 48 else c + 65 - 10

/-- The loop of `printNumber`, with the bytes of `buf` that are left in front and the string behind them. -/
def printLoop (base : UInt8) : Nat → List UInt8 → UInt32 → Option (List UInt8)
  | 0, _, _ => none
  | left + 1, str, m =>
      let n := m / base.toUInt32
      let c := (m - base.toUInt32 * n).toUInt8
      if n ≠ 0 then printLoop base left (charOf c :: str) n else some (charOf c :: str)

/-- `printNumber`: the characters handed to `write`. The last byte of `buf` is the zero. -/
def printNumber (n : UInt32) (base : UInt8) : Option (List UInt8) :=
  printLoop (if base < 2 then 10 else base) 32 [] n

/-- `print` of a `long`. -/
def printLong (n : Int32) (base : Int) : Option (List UInt8) :=
  if base = 0 then some [n.toUInt32.toUInt8]
  else if base = 10 then
    if n < 0 then (printNumber (-n).toUInt32 10).map (45 :: ·) else printNumber n.toUInt32 10
  else printNumber n.toUInt32 (UInt8.ofInt base)

/-- `print` of an `unsigned long`. -/
def printUnsignedLong (n : UInt32) (base : Int) : Option (List UInt8) :=
  if base = 0 then some [n.toUInt8] else printNumber n (UInt8.ofInt base)

end Print

/-! ### Numbers of the C types -/

/-- A number with its type. -/
inductive Number
  | unsignedChar (value : UInt8)
  | int (value : Int32)
  | unsignedInt (value : UInt32)
  | long (value : Int32)
  | unsignedLong (value : UInt32)
  deriving DecidableEq

namespace Number

/-- The function of `itoa.c` for the type. -/
def toa (string : Option Block) (radix : Int) : Number → Option (Option Block)
  | unsignedChar value => Itoa.utoa value.toUInt32 string radix
  | int value => Itoa.itoa value string radix
  | unsignedInt value => Itoa.utoa value string radix
  | long value => Itoa.ltoa value string radix
  | unsignedLong value => Itoa.ultoa value string radix

/-- The call in the constructor of `String`, with its buffer and what that held. -/
def constructed (held : Memory UInt8) (base : UInt8) : Number → Option (Option Block)
  | unsignedChar value => Itoa.utoa value.toUInt32 (some ⟨held, 1 + 8 * 1⟩) base.toNat
  | int value => Itoa.itoa value (some ⟨held, 2 + 8 * 4⟩) base.toNat
  | unsignedInt value => Itoa.utoa value (some ⟨held, 1 + 8 * 4⟩) base.toNat
  | long value => Itoa.ltoa value (some ⟨held, 2 + 8 * 4⟩) base.toNat
  | unsignedLong value => Itoa.ultoa value (some ⟨held, 1 + 8 * 4⟩) base.toNat

/-- The call in `concat`, with its buffer. -/
def concatenated (held : Memory UInt8) : Number → Option (Option Block)
  | unsignedChar num => Itoa.itoa (Int32.ofNat num.toNat) (some ⟨held, 1 + 3 * 1⟩) 10
  | int num => Itoa.itoa num (some ⟨held, 2 + 3 * 4⟩) 10
  | unsignedInt num => Itoa.utoa num (some ⟨held, 1 + 3 * 4⟩) 10
  | long num => Itoa.ltoa num (some ⟨held, 2 + 3 * 4⟩) 10
  | unsignedLong num => Itoa.ultoa num (some ⟨held, 1 + 3 * 4⟩) 10

/-- `print`. -/
def print (base : Int) : Number → Option (List UInt8)
  | unsignedChar b => Print.printUnsignedLong b.toUInt32 base
  | int n => Print.printLong n base
  | unsignedInt n => Print.printUnsignedLong n base
  | long n => Print.printLong n base
  | unsignedLong n => Print.printUnsignedLong n base

/-- The value. -/
def value : Number → Int
  | unsignedChar value => value.toNat
  | int value => value.toInt
  | unsignedInt value => value.toNat
  | long value => value.toInt
  | unsignedLong value => value.toNat

/-- The value a text in the radix shows: in radix ten the value, in the others its unsigned complement. -/
def shown (number : Number) (radix : Nat) : Int :=
  if radix = 10 then number.value else number.value % 2 ^ 32

end Number

/-- **The text of a number** in a radix: the canonical numeral of what is shown, behind a minus sign where that is
negative. -/
def Formats (number : Number) (radix : Nat) (chars : List UInt8) : Prop :=
  ∃ digits, Canonical radix (number.shown radix).natAbs digits ∧
    chars = (if number.shown radix < 0 then [45] else []) ++ digits.map digitChar

/-- A call stores a text in its buffer, and returns it. -/
def Gives (result : Option (Option Block)) (chars : List UInt8) : Prop :=
  ∃ string, result = some (some string) ∧ string.text 0 = some chars

/-! ### The digit loops -/

/-- The characters of a numeral. -/
theorem digitChars_eq (value radix : Nat) :
    digitChars value radix = (numeral radix value).map digitChar := by
  unfold digitChars numeral
  split_ifs
  · rfl
  · rfl

theorem itoa_charOf {i : UInt32} (small : i.toNat < 36) : Itoa.charOf i = digitChar i.toNat := by
  have each : ∀ digit < 36, Itoa.charOf (UInt32.ofNat digit) = digitChar digit := by decide
  have same := each i.toNat small
  rwa [UInt32.ofNat_toNat] at same

theorem print_charOf {digit : Nat} (small : digit < 36) :
    tolower (Print.charOf (UInt8.ofNat digit)) = digitChar digit := by
  have each : ∀ digit < 36, tolower (Print.charOf (UInt8.ofNat digit)) = digitChar digit := by decide
  exact each digit small

section Loops

variable {radix : UInt32} (low : 1 < radix.toNat) (high : radix.toNat ≤ 36)
include low high

/-- The loop stores the digits of what remains in front of those stored before. -/
theorem digitLoop_started {left : Nat} {tmp : List UInt8} {v : UInt32} (started : tmp ≠ [])
    (small : v.toNat < radix.toNat ^ left) :
    Itoa.digitLoop radix left tmp v =
      some ((Nat.digits radix.toNat v.toNat).reverse.map digitChar ++ tmp) := by
  induction left generalizing tmp v with
  | zero =>
    have zero : v = 0 := UInt32.toNat_inj.1 (Nat.lt_one_iff.1 small)
    rw [Itoa.digitLoop, if_neg (not_or.2 ⟨not_not.2 zero, started⟩), zero]
    simp
  | succ left ih =>
    by_cases zero : v = 0
    · rw [Itoa.digitLoop, if_neg (not_or.2 ⟨not_not.2 zero, started⟩), zero]
      simp
    · have positive : 0 < v.toNat := Nat.pos_of_ne_zero fun none => zero (UInt32.toNat_inj.1 none)
      have digit : (v % radix).toNat < 36 := by
        rw [UInt32.toNat_mod]
        exact Nat.lt_of_lt_of_le (Nat.mod_lt _ (by omega)) high
      have rest : (v / radix).toNat < radix.toNat ^ left := by
        rw [UInt32.toNat_div]
        exact Nat.div_lt_of_lt_mul (by rwa [Nat.pow_succ, Nat.mul_comm] at small)
      rw [Itoa.digitLoop, if_pos (.inl zero), ih (List.cons_ne_nil _ _) rest, itoa_charOf digit,
        digits_reverse_split low positive, UInt32.toNat_div, UInt32.toNat_mod]
      simp

/-- **The digit loop of `itoa.c`** gives the numeral, as long as that fits. -/
theorem digitLoop_eq {left : Nat} {v : UInt32} (small : v.toNat < radix.toNat ^ (left + 1)) :
    Itoa.digitLoop radix (left + 1) [] v = some ((numeral radix.toNat v.toNat).map digitChar) := by
  have digit : (v % radix).toNat < 36 := by
    rw [UInt32.toNat_mod]
    exact Nat.lt_of_lt_of_le (Nat.mod_lt _ (by omega)) high
  have rest : (v / radix).toNat < radix.toNat ^ left := by
    rw [UInt32.toNat_div]
    exact Nat.div_lt_of_lt_mul (by rwa [Nat.pow_succ, Nat.mul_comm] at small)
  rw [Itoa.digitLoop, if_pos (.inr rfl), digitLoop_started low high (List.cons_ne_nil _ _) rest,
    itoa_charOf digit, UInt32.toNat_div, UInt32.toNat_mod]
  by_cases single : v.toNat < radix.toNat
  · rw [numeral_small single, Nat.div_eq_of_lt single, Nat.mod_eq_of_lt single]
    simp
  · have quotient : v.toNat / radix.toNat ≠ 0 :=
      Nat.ne_of_gt (Nat.div_pos (Nat.not_lt.1 single) (by omega))
    rw [numeral_split low (Nat.not_lt.1 single), numeral, if_neg quotient]
    simp

end Loops

/-- The digit that `printNumber` takes is the remainder. -/
theorem print_digit (base : UInt8) (m : UInt32) :
    (m - base.toUInt32 * (m / base.toUInt32)).toUInt8 = UInt8.ofNat (m.toNat % base.toNat) := by
  have size := m.toNat_lt
  have widened : base.toUInt32.toNat = base.toNat := UInt8.toNat_toUInt32 base
  have whole : base.toNat * (m.toNat / base.toNat) ≤ m.toNat := Nat.mul_div_le _ _
  have product : (base.toUInt32 * (m / base.toUInt32)).toNat = base.toNat * (m.toNat / base.toNat) := by
    rw [UInt32.toNat_mul, UInt32.toNat_div, widened, Nat.mod_eq_of_lt (by omega)]
  have difference : (m - base.toUInt32 * (m / base.toUInt32)).toNat = m.toNat % base.toNat := by
    rw [UInt32.toNat_sub_of_le _ _ (UInt32.le_iff_toNat_le.2 (by rw [product]; exact whole)), product,
      Nat.mod_eq_sub_mul_div]
  rw [← difference, UInt8.ofNat_uInt32ToNat]

theorem printLoop_single {base : UInt8} {m : UInt32} (single : m.toNat < base.toNat) (left : Nat)
    (str : List UInt8) :
    Print.printLoop base (left + 1) str m = some (Print.charOf (UInt8.ofNat m.toNat) :: str) := by
  have none_left : m / base.toUInt32 = 0 := by
    rw [← UInt32.toNat_inj, UInt32.toNat_div, UInt8.toNat_toUInt32, Nat.div_eq_of_lt single]
    rfl
  rw [Print.printLoop]
  simp only [print_digit]
  rw [if_neg (not_not.2 none_left), Nat.mod_eq_of_lt single]

/-- **The digit loop of `Print`** gives the numeral, as long as that fits. -/
theorem printLoop_eq {base : UInt8} (low : 1 < base.toNat) {left : Nat} {str : List UInt8} {m : UInt32}
    (small : m.toNat < base.toNat ^ (left + 1)) :
    Print.printLoop base (left + 1) str m =
      some ((numeral base.toNat m.toNat).map (fun digit => Print.charOf (UInt8.ofNat digit)) ++ str) := by
  induction left generalizing str m with
  | zero =>
    have single : m.toNat < base.toNat := by rwa [Nat.zero_add, Nat.pow_one] at small
    rw [printLoop_single single, numeral_small single]
    rfl
  | succ left ih =>
    by_cases single : m.toNat < base.toNat
    · rw [printLoop_single single, numeral_small single]
      rfl
    · have quotient : (m / base.toUInt32).toNat = m.toNat / base.toNat := by
        rw [UInt32.toNat_div, UInt8.toNat_toUInt32]
      have more : m / base.toUInt32 ≠ 0 := by
        intro none_left
        have positive := Nat.div_pos (Nat.not_lt.1 single) (by omega : 0 < base.toNat)
        rw [← quotient, none_left] at positive
        exact absurd positive (Nat.lt_irrefl 0)
      have rest : (m / base.toUInt32).toNat < base.toNat ^ (left + 1) := by
        rw [quotient]
        exact Nat.div_lt_of_lt_mul (by rwa [Nat.pow_succ, Nat.mul_comm] at small)
      rw [Print.printLoop]
      simp only [print_digit]
      rw [if_pos more, ih rest, quotient, numeral_split low (Nat.not_lt.1 single)]
      simp

/-! ### What a number is spelled as -/

/-- A `long` as an `unsigned long`. -/
theorem toUInt32_toNat (value : Int32) : (value.toUInt32.toNat : Int) = value.toInt % 2 ^ 32 := by
  have bound := value.toUInt32.toNat_lt
  have signed : value.toInt = if 2 * value.toUInt32.toNat < 2 ^ 32 then (value.toUInt32.toNat : Int)
      else value.toUInt32.toNat - (2 ^ 32 : Nat) := BitVec.toInt_eq_toNat_cond value.toBitVec
  split_ifs at signed
  · omega
  · omega

/-- A negative `long` with its sign taken off, the most negative one too. -/
theorem neg_toUInt32_toNat {value : Int32} (negative : value.toInt < 0) :
    ((-value).toUInt32.toNat : Int) = -value.toInt := by
  have unsigned := toUInt32_toNat value
  have least := value.le_toInt
  have complement : (-value).toUInt32.toNat = (UInt32.size - value.toUInt32.toNat) % UInt32.size := rfl
  rw [complement]
  simp only [UInt32.size]
  omega

theorem negative_iff (value : Int32) : value < 0 ↔ value.toInt < 0 := Int32.lt_iff_toInt_lt

namespace Number

/-- The sign and the numeral of a number, in given characters. -/
def spelled (char : Nat → UInt8) (number : Number) (radix : Nat) : List UInt8 :=
  (if number.shown radix < 0 then [45] else []) ++ (numeral radix (number.shown radix).natAbs).map char

/-- The text of a number. -/
def text (number : Number) (radix : Nat) : List UInt8 := number.spelled digitChar radix

theorem text_formats (number : Number) {radix : Nat} (low : 1 < radix) :
    Formats number radix (number.text radix) :=
  ⟨_, numeral_canonical low _, rfl⟩

variable {char : Nat → UInt8} {radix : Nat}

theorem spelled_natural {number : Number} {shown : Nat} (natural : number.shown radix = shown) :
    number.spelled char radix = (numeral radix shown).map char := by
  rw [spelled, natural, if_neg (by omega), Int.natAbs_natCast, List.nil_append]

theorem spelled_unsignedLong (value : UInt32) :
    (unsignedLong value).spelled char radix = (numeral radix value.toNat).map char := by
  have bound := value.toNat_lt
  refine spelled_natural ?_
  unfold shown Number.value
  split_ifs
  · rfl
  · simp only
    omega

/-- A number whose sign is not shown. -/
theorem spelled_long {value : Int32} (unsigned : ¬ (radix = 10 ∧ value < 0)) :
    (long value).spelled char radix = (numeral radix value.toUInt32.toNat).map char := by
  have same := toUInt32_toNat value
  have upper := value.toInt_lt
  refine spelled_natural ?_
  unfold shown Number.value
  split_ifs with ten
  · have positive := (negative_iff value).not.1 fun negative => unsigned ⟨ten, negative⟩
    simp only
    omega
  · exact same.symm

/-- A number whose sign is shown. -/
theorem spelled_negative {value : Int32} (negative : value < 0) :
    (long value).spelled char 10 = 45 :: (numeral 10 (-value).toUInt32.toNat).map char := by
  have below := (negative_iff value).1 negative
  have magnitude := neg_toUInt32_toNat below
  have shown_eq : (long value).shown 10 = value.toInt := rfl
  have abs : value.toInt.natAbs = (-value).toUInt32.toNat := by omega
  rw [spelled, shown_eq, if_pos below, abs]
  rfl

/-- The text is made of characters. -/
theorem text_proper (number : Number) (low : 2 ≤ radix) (high : radix ≤ 36) : 0 ∉ number.text radix := by
  have proper := @digitChars_proper (number.shown radix).natAbs radix low high
  rw [digitChars_eq] at proper
  unfold text spelled
  rw [List.mem_append, not_or]
  refine ⟨?_, proper⟩
  split_ifs
  · decide
  · exact List.not_mem_nil

end Number

/-! ### The functions of `itoa.c` -/

/-- Copying from the end of `tmp` is a store of the characters and a zero. -/
theorem copyBack_eq (tmp : List UInt8) (string : Block) (sp : Nat) :
    Itoa.copyBack tmp string sp = string.write sp (tmp ++ [0]) := by
  induction tmp generalizing string sp with
  | nil => rfl
  | cons char tmp ih =>
    have both := string.write_append sp [char] (tmp ++ [0])
    rw [List.length_singleton] at both
    simp only [Itoa.copyBack, ih]
    exact both

/-- A text with a zero behind it, in a block that has room for both. -/
theorem gives_write {string : Block} {chars : List UInt8} (proper : 0 ∉ chars)
    (fits : chars.length < string.size) : Gives ((string.write 0 (chars ++ [0])).map some) chars := by
  rw [Block.write_eq_some (by rw [List.length_append, List.length_singleton]; omega)]
  exact ⟨_, rfl, Block.text_eq_some (spells_overlay string.bytes 0 proper) (by simpa using fits)⟩

section Calls

variable {radix : Nat} (low : 2 ≤ radix) (high : radix ≤ 36)
include low high

/-- The digits of a 32-bit number fit in `tmp`. -/
theorem tmp_eq (v : UInt32) :
    Itoa.digitLoop (UInt32.ofInt radix) 33 [] v = some ((numeral radix v.toNat).map digitChar) := by
  have nat : (UInt32.ofInt radix).toNat = radix := by
    rw [UInt32.ofInt, UInt32.toNat_ofNat']
    omega
  have small : v.toNat < (UInt32.ofInt radix).toNat ^ (32 + 1) := by
    rw [nat]
    calc v.toNat < 2 ^ 32 := v.toNat_lt
      _ ≤ 2 ^ 33 := by decide
      _ ≤ radix ^ 33 := Nat.pow_le_pow_left low 33
  have digits := digitLoop_eq (by rw [nat]; omega) (by rwa [nat]) small
  rwa [nat] at digits

/-- **`ultoa`** stores the text of its number. -/
theorem ultoa_eq (value : UInt32) (string : Block) :
    Itoa.ultoa value (some string) radix =
      (string.write 0 ((Number.unsignedLong value).text radix ++ [0])).map some := by
  rw [Itoa.ultoa, if_neg (by omega), tmp_eq low high, Number.text, Number.spelled_unsignedLong,
    Option.bind_some, copyBack_eq]

/-- **`ltoa`** stores the text of its number. -/
theorem ltoa_eq (value : Int32) (string : Block) :
    Itoa.ltoa value (some string) radix =
      (string.write 0 ((Number.long value).text radix ++ [0])).map some := by
  rw [Itoa.ltoa, if_neg (by omega)]
  by_cases sign : radix = 10 ∧ value < 0
  · obtain ⟨rfl, negative⟩ := sign
    have both := string.write_append 0 [45] ((numeral 10 (-value).toUInt32.toNat).map digitChar ++ [0])
    rw [List.length_singleton, List.singleton_append] at both
    rw [if_pos ⟨rfl, negative⟩, tmp_eq low high, Number.text, Number.spelled_negative negative,
      Option.bind_some, List.cons_append, ← both, Option.map_bind]
    simp only [copyBack_eq]
    rfl
  · rw [if_neg fun both => sign ⟨Int.ofNat_inj.1 both.1, both.2⟩, tmp_eq low high, Number.text,
      Number.spelled_long sign, Option.bind_some, copyBack_eq]

/-- The function for a type stores the text of its number. -/
theorem toa_eq (number : Number) (string : Block) :
    number.toa (some string) radix = (string.write 0 (number.text radix ++ [0])).map some := by
  cases number with
  | unsignedChar value => exact ultoa_eq low high value.toUInt32 string
  | int value => exact ltoa_eq low high value string
  | unsignedInt value => exact ultoa_eq low high value string
  | long value => exact ltoa_eq low high value string
  | unsignedLong value => exact ultoa_eq low high value string

/-- `printNumber` hands the numeral to `write`. -/
theorem printNumber_eq (n : UInt32) :
    Print.printNumber n (UInt8.ofInt radix) =
      some ((numeral radix n.toNat).map fun digit => Print.charOf (UInt8.ofNat digit)) := by
  have nat : (UInt8.ofInt radix).toNat = radix := by
    rw [UInt8.ofInt, UInt8.toNat_ofNat']
    omega
  have base : ¬ UInt8.ofInt radix < 2 := by
    rw [UInt8.lt_iff_toNat_lt, nat]
    exact Nat.not_lt.2 low
  have small : n.toNat < (UInt8.ofInt radix).toNat ^ (31 + 1) := by
    rw [nat]
    calc n.toNat < 2 ^ 32 := n.toNat_lt
      _ ≤ radix ^ 32 := Nat.pow_le_pow_left low 32
  have printed := @printLoop_eq _ (by rw [nat]; omega) 31 [] n small
  rw [nat, List.append_nil] at printed
  rw [Print.printNumber, if_neg base, printed]

theorem printUnsignedLong_eq (n : UInt32) :
    Print.printUnsignedLong n radix =
      some ((Number.unsignedLong n).spelled (fun digit => Print.charOf (UInt8.ofNat digit)) radix) := by
  rw [Print.printUnsignedLong, if_neg (by omega), printNumber_eq low high, Number.spelled_unsignedLong]

theorem printLong_eq (n : Int32) :
    Print.printLong n radix =
      some ((Number.long n).spelled (fun digit => Print.charOf (UInt8.ofNat digit)) radix) := by
  rw [Print.printLong, if_neg (by omega)]
  by_cases sign : radix = 10 ∧ n < 0
  · obtain ⟨rfl, negative⟩ := sign
    have printed := printNumber_eq low high (-n).toUInt32
    have ten : ((10 : Nat) : Int) = 10 := rfl
    rw [if_pos ten, if_pos negative, Number.spelled_negative negative]
    exact congrArg (Option.map (45 :: ·)) printed
  · rw [Number.spelled_long sign, ← printNumber_eq low high]
    by_cases ten : (radix : Int) = 10
    · have positive : ¬ n < 0 := fun negative => sign ⟨Int.ofNat_inj.1 ten, negative⟩
      rw [if_pos ten, if_neg positive, ten]
      rfl
    · rw [if_neg ten]

/-- **`print`** hands the text of its number to `write`, with the letters in upper case. -/
theorem print_eq (number : Number) :
    number.print radix = some (number.spelled (fun digit => Print.charOf (UInt8.ofNat digit)) radix) := by
  cases number with
  | unsignedChar b => exact printUnsignedLong_eq low high b.toUInt32
  | int n => exact printLong_eq low high n
  | unsignedInt n => exact printUnsignedLong_eq low high n
  | long n => exact printLong_eq low high n
  | unsignedLong n => exact printUnsignedLong_eq low high n

theorem printed_lower (number : Number) :
    (number.spelled (fun digit => Print.charOf (UInt8.ofNat digit)) radix).map tolower =
      number.text radix := by
  have canonical := numeral_canonical low (number.shown radix).natAbs
  have sign : (if number.shown radix < 0 then [45] else [] : List UInt8).map tolower =
      if number.shown radix < 0 then [45] else [] := by split_ifs <;> rfl
  rw [Number.text, Number.spelled, Number.spelled, List.map_append, sign, List.map_map]
  refine congrArg _ (List.map_congr_left fun digit member => ?_)
  exact print_charOf (Nat.lt_of_lt_of_le (canonical.below digit member) high)

end Calls

/-! ### The texts the `String` class is given -/

theorem ultoa_chars (value : UInt32) {base : UInt8} (low : 1 < base.toNat) (high : base.toNat ≤ 36)
    (uninit : CStr) :
    (ultoa value base uninit).chars = (Number.unsignedLong value).text base.toNat := by
  rw [ultoa, dif_pos ⟨low, high⟩, Number.text, Number.spelled_unsignedLong]
  exact digitChars_eq _ _

theorem ltoa_chars (value : Int32) {base : UInt8} (low : 1 < base.toNat) (high : base.toNat ≤ 36)
    (uninit : CStr) : (ltoa value base uninit).chars = (Number.long value).text base.toNat := by
  by_cases sign : base = 10 ∧ value < 0
  · obtain ⟨rfl, negative⟩ := sign
    rw [ltoa, if_pos ⟨rfl, negative⟩]
    change 45 :: digitChars (-value).toUInt32.toNat 10 = (Number.long value).spelled digitChar 10
    rw [Number.spelled_negative negative, digitChars_eq]
  · have unsigned : ¬ (base.toNat = 10 ∧ value < 0) := fun both => sign ⟨UInt8.toNat_inj.1 both.1, both.2⟩
    rw [ltoa, if_neg sign, ultoa_chars _ low high, Number.text, Number.spelled_unsignedLong, Number.text,
      Number.spelled_long unsigned]

/-! ### The buffers of the callers -/

namespace Number

/-- `sizeof` of the type. -/
def bytes : Number → Nat
  | unsignedChar _ => 1
  | _ => 4

theorem bytes_cases (number : Number) : number.bytes = 1 ∨ number.bytes = 4 := by
  cases number with
  | unsignedChar => exact .inl rfl
  | int | unsignedInt | long | unsignedLong => exact .inr rfl

/-- The characters a sign takes in the type. -/
def signs : Number → Nat
  | int _ | long _ => 1
  | _ => 0

theorem shown_bounds (number : Number) (radix : Nat) :
    (number.shown radix).natAbs < 2 ^ (8 * number.bytes) ∧
      (number.shown radix < 0 → number.signs = 1) := by
  cases number with
  | unsignedChar value | unsignedInt value | unsignedLong value =>
    have bound := value.toNat_lt
    unfold shown Number.value bytes
    split_ifs
    · simp only
      omega
    · simp only
      omega
  | int value | long value =>
    have lower := value.le_toInt
    have upper := value.toInt_lt
    unfold shown Number.value bytes
    refine ⟨?_, fun _ => rfl⟩
    split_ifs
    · simp only
      omega
    · simp only
      omega

/-- A text has a character for each digit and one for the sign of a signed type. -/
theorem text_length (number : Number) {radix count : Nat} (low : 2 ≤ radix) (some_digit : 0 < count)
    (enough : 2 ^ (8 * number.bytes) ≤ radix ^ count) :
    (number.text radix).length ≤ number.signs + count := by
  obtain ⟨small, sign⟩ := number.shown_bounds radix
  have digits := numeral_length low some_digit (Nat.lt_of_lt_of_le small enough)
  rw [text, spelled, List.length_append, List.length_map]
  split_ifs with negative
  · rw [sign negative, List.length_singleton]
    omega
  · rw [List.length_nil]
    omega

end Number

/-- The buffers have a byte for each character and the zero. -/
theorem constructed_eq (number : Number) {radix : Nat} (high : radix ≤ 36) (held : Memory UInt8) :
    number.constructed held (UInt8.ofNat radix) =
      number.toa (some ⟨held, 1 + number.signs + 8 * number.bytes⟩) radix := by
  have nat : (UInt8.ofNat radix).toNat = radix := UInt8.toNat_ofNat_of_lt' (by change radix < 256; omega)
  cases number with
  | unsignedChar value | int value | unsignedInt value | long value | unsignedLong value =>
    unfold Number.constructed Number.toa
    rw [nat]
    rfl

theorem concatenated_eq (number : Number) (held : Memory UInt8) :
    number.concatenated held =
      ((⟨held, 1 + number.signs + 3 * number.bytes⟩ : Block).write 0 (number.text 10 ++ [0])).map
        some := by
  have low : 2 ≤ 10 := by decide
  have high : 10 ≤ 36 := by decide
  cases number with
  | unsignedChar num =>
    have bound := num.toNat_lt
    have same : (Number.long (Int32.ofNat num.toNat)).text 10 = (Number.unsignedChar num).text 10 := by
      have value : (Int32.ofNat num.toNat).toInt = num.toNat := Int32.toInt_ofNat_of_lt (by omega)
      unfold Number.text Number.spelled Number.shown Number.value
      simp only [value]
    rw [← same]
    exact ltoa_eq low high (Int32.ofNat num.toNat) ⟨held, 1 + 3 * 1⟩
  | int num | long num => exact ltoa_eq low high num ⟨held, 2 + 3 * 4⟩
  | unsignedInt num | unsignedLong num => exact ultoa_eq low high num ⟨held, 1 + 3 * 4⟩

/-- **The integer formatters agree**: for every number and every radix from 2 to 36 the functions of `itoa.c` store the
text of the number, within `tmp` and within the buffers of `String`, and `print` writes it, up to the case of its
letters. -/
theorem formatters_agree (number : Number) {radix : Nat} (low : 2 ≤ radix) (high : radix ≤ 36)
    (held : Memory UInt8) :
    ∃ chars, Formats number radix chars ∧
      (∀ string : Block, chars.length < string.size → Gives (number.toa (some string) radix) chars) ∧
      Gives (number.constructed held (UInt8.ofNat radix)) chars ∧
      (radix = 10 → Gives (number.concatenated held) chars) ∧
      ∃ printed, number.print radix = some printed ∧ printed.map tolower = chars := by
  have proper := number.text_proper low high
  have stored : ∀ string : Block, (number.text radix).length < string.size →
      Gives (number.toa (some string) radix) (number.text radix) := by
    intro string fits
    rw [toa_eq low high]
    exact gives_write proper fits
  refine ⟨number.text radix, number.text_formats low, stored, ?_, ?_, _, print_eq low high number,
    printed_lower low high number⟩
  · have some_bit : 0 < 8 * number.bytes := by obtain one | four := number.bytes_cases <;> omega
    have length := number.text_length low some_bit (Nat.pow_le_pow_left low (8 * number.bytes))
    rw [constructed_eq number high]
    exact stored _ (by dsimp only; omega)
  · rintro rfl
    have some_byte : 0 < 3 * number.bytes := by obtain one | four := number.bytes_cases <;> omega
    have enough : 2 ^ (8 * number.bytes) ≤ 10 ^ (3 * number.bytes) := by
      obtain one | four := number.bytes_cases
      · rw [one]
        decide
      · rw [four]
        decide
    have length := number.text_length low some_byte enough
    rw [concatenated_eq]
    exact gives_write proper (by dsimp only; omega)

/-- The most negative number in radix ten. -/
theorem formatters_agree_least :
    2 ≤ 10 ∧ 10 ≤ 36 ∧ ∃ chars, Formats (.long (-2147483648)) 10 chars ∧
      (∀ string : Block, chars.length < string.size →
        Gives (Number.toa (some string) 10 (.long (-2147483648))) chars) ∧
      Gives (Number.constructed (fun _ => 0) 10 (.long (-2147483648))) chars ∧
      (10 = 10 → Gives (Number.concatenated (fun _ => 0) (.long (-2147483648))) chars) ∧
      ∃ printed, Number.print 10 (.long (-2147483648)) = some printed ∧ printed.map tolower = chars :=
  ⟨by decide, by decide, formatters_agree (.long (-2147483648)) (by decide) (by decide) fun _ => 0⟩

end PrimoCore.Text
