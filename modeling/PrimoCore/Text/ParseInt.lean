/-
**A number read from a stream, `Stream::parseInt`.**

A stream is the bytes that are still to come; behind the last one a read or a peek times out.

* `peekNextDigit`, `parseLoop`, `parseInt` — the code, on 32-bit numbers.
* `parseLoop_digits` — the loop adds up the digits in front of it.
* `parseInt_print` — **what `print` writes is read back**, for every number, with anything that is no digit in front
  and whatever follows left in the stream.
-/

import PrimoCore.Text.Itoa

namespace PrimoCore.Text

open PrimoCore.Lib

namespace Stream

/-- The characters `'0'` to `'9'`. -/
def isDigit (c : UInt8) : Bool := 48 ≤ c && c ≤ 57

/-- `NO_SKIP_CHAR`. -/
def noSkipChar : UInt8 := 1

/-- `peekNextDigit`: the stream from the next digit or minus sign on; at the end it answers -1. -/
def peekNextDigit : List UInt8 → List UInt8
  | [] => []
  | c :: unread => if c = 45 ∨ isDigit c then c :: unread else peekNextDigit unread

/-- The condition of the loop of `parseInt`, on what is peeked. -/
def continues (skipChar : UInt8) : List UInt8 → Bool
  | [] => false
  | c :: _ => isDigit c || c = skipChar

/-- The loop of `parseInt`: the sign, the value and the stream behind. -/
def parseLoop (skipChar : UInt8) (isNegative : Bool) (value : Int32) : List UInt8 →
    Bool × Int32 × List UInt8
  | [] => (isNegative, value, [])
  | c :: unread =>
      let (isNegative, value) :=
        if c = skipChar then (isNegative, value)
        else if c = 45 then (true, value)
        else if isDigit c then (isNegative, value * 10 + Int32.ofNat c.toNat - 48)
        else (isNegative, value)
      if continues skipChar unread then parseLoop skipChar isNegative value unread
      else (isNegative, value, unread)

/-- `parseInt`, with the character to skip: the number and the stream behind. -/
def parseIntSkipping (skipChar : UInt8) (unread : List UInt8) : Int32 × List UInt8 :=
  match peekNextDigit unread with
  | [] => (0, [])
  | c :: unread =>
      let (isNegative, value, unread) := parseLoop skipChar false 0 (c :: unread)
      (if isNegative then -value else value, unread)

/-- `parseInt`. -/
def parseInt (unread : List UInt8) : Int32 × List UInt8 := parseIntSkipping noSkipChar unread

/-! ### Digits -/

/-- The characters that `print` writes in radix ten. -/
theorem decimal_cases {digit : Nat} (small : digit < 10) :
    isDigit (Print.charOf (UInt8.ofNat digit)) = true ∧ Print.charOf (UInt8.ofNat digit) ≠ noSkipChar ∧
      Print.charOf (UInt8.ofNat digit) ≠ 45 ∧ (Print.charOf (UInt8.ofNat digit)).toNat = digit + 48 := by
  have each : ∀ digit < 10,
      isDigit (Print.charOf (UInt8.ofNat digit)) = true ∧ Print.charOf (UInt8.ofNat digit) ≠ noSkipChar ∧
        Print.charOf (UInt8.ofNat digit) ≠ 45 ∧
          (Print.charOf (UInt8.ofNat digit)).toNat = digit + 48 := by decide
  exact each digit small

/-- One more digit, with the value as a 32-bit number. -/
theorem value_digit (value digit : Nat) :
    Int32.ofNat value * 10 + Int32.ofNat (digit + 48) - 48 = Int32.ofNat (value * 10 + digit) := by
  have ten : (10 : Int32) = Int32.ofNat 10 := rfl
  have zero : (48 : Int32) = Int32.ofNat 48 := rfl
  rw [ten, zero, ← Int32.ofNat_mul, ← Int32.ofNat_add, ← Int32.ofNat_sub _ _ (by omega), ← Nat.add_assoc,
    Nat.add_sub_cancel]

/-- **The loop adds up the digits** in front of it, and stops behind them. -/
theorem parseLoop_digits {digits : List Nat} (nonempty : digits ≠ [])
    (below : ∀ digit ∈ digits, digit < 10)
    (isNegative : Bool) (value : Nat) {rest : List UInt8} (stops : continues noSkipChar rest = false) :
    parseLoop noSkipChar isNegative (Int32.ofNat value)
        (digits.map (fun digit => Print.charOf (UInt8.ofNat digit)) ++ rest) =
      (isNegative, Int32.ofNat (digits.foldl (fun value digit => value * 10 + digit) value), rest) := by
  induction digits generalizing value with
  | nil => exact absurd rfl nonempty
  | cons digit digits ih =>
    obtain ⟨digits_are, no_skip, no_minus, char⟩ := decimal_cases (below digit List.mem_cons_self)
    have later : ∀ digit ∈ digits, digit < 10 :=
      fun digit member => below digit (List.mem_cons_of_mem _ member)
    rw [List.map_cons, List.cons_append, parseLoop, if_neg no_skip, if_neg no_minus, if_pos digits_are,
      char, value_digit, List.foldl_cons]
    dsimp only
    rcases digits with - | ⟨next, digits⟩
    · rw [List.map_nil, List.nil_append, if_neg (by rw [stops]; exact Bool.false_ne_true)]
      rfl
    · have more : continues noSkipChar
          ((next :: digits).map (fun digit => Print.charOf (UInt8.ofNat digit)) ++ rest) = true := by
        rw [List.map_cons, List.cons_append, continues, (decimal_cases (later next List.mem_cons_self)).1]
        rfl
      rw [if_pos more]
      exact ih (List.cons_ne_nil _ _) later (value * 10 + digit)

/-- What is no digit and no minus sign is passed. -/
theorem peekNextDigit_append {before : List UInt8} (plain : ∀ c ∈ before, isDigit c = false ∧ c ≠ 45)
    (unread : List UInt8) : peekNextDigit (before ++ unread) = peekNextDigit unread := by
  induction before with
  | nil => rfl
  | cons c before ih =>
    obtain ⟨no_digit, no_minus⟩ := plain c List.mem_cons_self
    have other : ¬ (c = 45 ∨ isDigit c = true) := by
      rw [no_digit]
      exact not_or.2 ⟨no_minus, Bool.false_ne_true⟩
    rw [List.cons_append, peekNextDigit, if_neg other,
      ih fun c member => plain c (List.mem_cons_of_mem _ member)]

theorem ofNat_toUInt32_toNat (value : Int32) : Int32.ofNat value.toUInt32.toNat = value :=
  Int32.ofNat_bitVecToNat value.toBitVec

/-! ### Numbers -/

/-- The digits of a number, as `print` writes them. -/
def decimal (value : Nat) : List UInt8 :=
  (numeral 10 value).map fun digit => Print.charOf (UInt8.ofNat digit)

/-- They begin with a digit, and are added up to the number. -/
theorem parseLoop_decimal (isNegative : Bool) (value : Nat) {rest : List UInt8}
    (stops : continues noSkipChar rest = false) :
    parseLoop noSkipChar isNegative 0 (decimal value ++ rest) =
      (isNegative, Int32.ofNat value, rest) := by
  have canonical := numeral_canonical (by decide : 1 < 10) value
  have read := parseLoop_digits canonical.nonempty canonical.below isNegative 0 stops
  rwa [← evaluate, canonical.value_eq] at read

theorem decimal_head (value : Nat) (rest : List UInt8) :
    ∃ c unread, decimal value ++ rest = c :: unread ∧ isDigit c = true := by
  have canonical := numeral_canonical (by decide : 1 < 10) value
  obtain ⟨digit, digits, split⟩ := List.exists_cons_of_ne_nil canonical.nonempty
  have small := canonical.below digit (by rw [split]; exact List.mem_cons_self)
  exact ⟨_, _, by rw [decimal, split]; rfl, (decimal_cases small).1⟩

/-- A number without a sign. -/
theorem parseInt_decimal (value : Nat) {before rest : List UInt8}
    (plain : ∀ c ∈ before, isDigit c = false ∧ c ≠ 45) (stops : continues noSkipChar rest = false) :
    parseInt (before ++ (decimal value ++ rest)) = (Int32.ofNat value, rest) := by
  obtain ⟨c, unread, split, digit⟩ := decimal_head value rest
  have found : peekNextDigit (c :: unread) = c :: unread := if_pos (.inr digit)
  have read := parseLoop_decimal false value stops
  rw [parseInt, parseIntSkipping, peekNextDigit_append plain, split, found]
  rw [split] at read
  simp only [read]
  rfl

/-- A number behind a minus sign. -/
theorem parseInt_minus (value : Nat) {before rest : List UInt8}
    (plain : ∀ c ∈ before, isDigit c = false ∧ c ≠ 45) (stops : continues noSkipChar rest = false) :
    parseInt (before ++ (45 :: decimal value ++ rest)) = (-Int32.ofNat value, rest) := by
  obtain ⟨c, unread, split, digit⟩ := decimal_head value rest
  have found : peekNextDigit (45 :: (decimal value ++ rest)) = 45 :: (decimal value ++ rest) :=
    if_pos (.inl rfl)
  have more : continues noSkipChar (decimal value ++ rest) = true := by
    rw [split, continues, digit]
    rfl
  have no_skip : ¬ (45 : UInt8) = noSkipChar := by decide
  have read : parseLoop noSkipChar false 0 (45 :: (decimal value ++ rest)) =
    (true, Int32.ofNat value, rest) := by
    rw [parseLoop, if_neg no_skip, if_pos rfl]
    dsimp only
    rw [if_pos more, parseLoop_decimal true value stops]
  rw [parseInt, parseIntSkipping, peekNextDigit_append plain, List.cons_append, found]
  simp only [read]
  rfl

/-- **`parseInt` reads back what `print` writes**, and leaves the rest in the stream. -/
theorem parseInt_print (n : Int32) {before rest : List UInt8}
    (plain : ∀ c ∈ before, isDigit c = false ∧ c ≠ 45)
    (stops : ∀ c ∈ rest.head?, isDigit c = false ∧ c ≠ noSkipChar) :
    ∃ printed, Print.printLong n 10 = some printed ∧
      parseInt (before ++ printed ++ rest) = (n, rest) := by
  have ends : continues noSkipChar rest = false := by
    rcases rest with - | ⟨c, rest⟩
    · rfl
    · obtain ⟨no_digit, no_skip⟩ := stops c rfl
      rw [continues, no_digit, decide_eq_false no_skip]
      rfl
  refine ⟨_, printLong_eq (by decide) (by decide) n, ?_⟩
  rw [List.append_assoc]
  by_cases negative : n < 0
  · rw [Number.spelled_negative negative]
    refine (parseInt_minus _ plain ends).trans ?_
    rw [ofNat_toUInt32_toNat, Int32.neg_neg]
  · rw [Number.spelled_long fun both => negative both.2]
    refine (parseInt_decimal _ plain ends).trans ?_
    rw [ofNat_toUInt32_toNat]

/-- The most negative number, between a word and a comma. -/
theorem parseInt_print_least :
    ∃ printed, Print.printLong (-2147483648) 10 = some printed ∧
      parseInt ([116, 58, 32] ++ printed ++ [44, 49]) = (-2147483648, [44, 49]) :=
  parseInt_print (-2147483648) (by decide +kernel) (by decide +kernel)

end Stream

end PrimoCore.Text
