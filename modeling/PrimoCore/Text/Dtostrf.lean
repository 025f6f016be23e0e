/-
**The constructors from `float` and `double`.**

Both print the value into a local array of 33 bytes with `dtostrf`, which does not know how large its array is.
A `float` is a `double` from there on.

* `Double` — the values of a `double`.
* `sprintf` — the text of a value with a width and a precision; `dtostrf` and `WString.fromFloat` — the code.
* `WString.fromFloat_represents` — what the constructor makes of a value **that is printed in 32 characters**.
* `places_le_of_fits` — a finite value with more than 30 decimal places never is.
-/

import PrimoCore.Text.WString

namespace PrimoCore.Text

/-- A `double`: no number, an infinity, or `mantissa * 2 ^ exponent`, each with a sign. -/
inductive Double where
  | nan (negative : Bool)
  | infinite (negative : Bool)
  | finite (negative : Bool) (mantissa : Nat) (exponent : Int)
      (binary64 : mantissa < 2 ^ 53 ∧ -1074 ≤ exponent ∧ exponent ≤ 971)

/-! ### `sprintf` -/

/-- The integer nearest to a quotient, and the even one of two. -/
def roundEven (numerator denominator : Nat) : Nat :=
  let quotient := numerator / denominator
  let twice := 2 * (numerator % denominator)
  if denominator < twice ∨ denominator = twice ∧ quotient % 2 = 1 then quotient + 1 else quotient

/-- `mantissa * 2 ^ exponent` in units of the last decimal place. -/
def scaled (mantissa : Nat) (exponent : Int) (places : Nat) : Nat :=
  roundEven (mantissa * 2 ^ exponent.toNat * 10 ^ places) (2 ^ (-exponent).toNat)

/-- The digits of a number, with zeros in front that leave one digit before the decimal places. -/
def paddedDigits (value places : Nat) : List UInt8 :=
  List.replicate (places + 1 - (digitChars value 10).length) 48 ++ digitChars value 10

/-- The digits with the point. Without decimal places there is none. -/
def fixedPoint (value places : Nat) : List UInt8 :=
  let digits := paddedDigits value places
  if places = 0 then digits
  else digits.take (digits.length - places) ++ 46 :: digits.drop (digits.length - places)

/-- The text of a value without its sign. -/
def Double.magnitude (prec : Nat) : Double → List UInt8
  | .nan _ => [110, 97, 110]
  | .infinite _ => [105, 110, 102]
  | .finite _ mantissa exponent _ => fixedPoint (scaled mantissa exponent prec) prec

def Double.negative : Double → Bool
  | .nan negative => negative
  | .infinite negative => negative
  | .finite negative _ _ _ => negative

/-- The text of a value. -/
def Double.text (val : Double) (prec : Nat) : List UInt8 :=
  if val.negative then 45 :: val.magnitude prec else val.magnitude prec

/-- What `%f` prints with a width and a precision. With a negative width the blanks are behind the text. -/
def printed (val : Double) (width : Int8) (prec : UInt8) : List UInt8 :=
  let text := val.text prec.toNat
  let blanks := List.replicate (width.toInt.natAbs - text.length) 32
  if width < 0 then text ++ blanks else blanks ++ text

theorem paddedDigits_proper (value places : Nat) : 0 ∉ paddedDigits value places := by
  rw [paddedDigits, List.mem_append, not_or]
  refine ⟨fun zero => ?_, digitChars_proper (by decide) (by decide)⟩
  exact absurd (List.eq_of_mem_replicate zero) (by decide)

theorem fixedPoint_proper (value places : Nat) : 0 ∉ fixedPoint value places := by
  have proper := paddedDigits_proper value places
  unfold fixedPoint
  dsimp only
  split_ifs
  · exact proper
  · intro zero
    rcases List.mem_append.mp zero with whole | rest
    · exact proper (List.mem_of_mem_take whole)
    · rcases List.mem_cons.mp rest with point | places
      · exact absurd point (by decide)
      · exact proper (List.mem_of_mem_drop places)

theorem Double.text_proper (val : Double) (prec : Nat) : 0 ∉ val.text prec := by
  have proper : 0 ∉ val.magnitude prec := by
    cases val with
    | nan => exact (by decide : (0 : UInt8) ∉ [110, 97, 110])
    | infinite => exact (by decide : (0 : UInt8) ∉ [105, 110, 102])
    | finite => exact fixedPoint_proper _ _
  unfold text
  split_ifs
  · rw [List.mem_cons, not_or]
    exact ⟨by decide, proper⟩
  · exact proper

theorem printed_proper (val : Double) (width : Int8) (prec : UInt8) : 0 ∉ printed val width prec := by
  have proper := val.text_proper prec.toNat
  have blank : ∀ count, (0 : UInt8) ∉ List.replicate count 32 := fun count zero =>
    absurd (List.eq_of_mem_replicate zero) (by decide)
  unfold printed
  dsimp only
  split_ifs
  · exact fun zero => (List.mem_append.mp zero).elim proper (blank _)
  · exact fun zero => (List.mem_append.mp zero).elim (blank _) proper

/-- `sprintf` with the format of `dtostrf`. -/
def sprintf (val : Double) (width : Int8) (prec : UInt8) : CStr :=
  ⟨printed val width prec, printed_proper val width prec⟩

/-- The value 3.140625 with two places, in six columns. -/
example : (sprintf (.finite false 201 (-6) (by decide)) 6 2).chars = [32, 32, 51, 46, 49, 52] := by decide

/-! ### How long a text is -/

theorem printed_length (val : Double) (width : Int8) (prec : UInt8) :
    (printed val width prec).length = max width.toInt.natAbs (val.text prec.toNat).length := by
  unfold printed
  dsimp only
  split_ifs <;> rw [List.length_append, List.length_replicate] <;> omega

theorem paddedDigits_length (value places : Nat) :
    (paddedDigits value places).length = max (places + 1) (digitChars value 10).length := by
  rw [paddedDigits, List.length_append, List.length_replicate]
  omega

/-- The point is one more character. -/
theorem fixedPoint_length (value places : Nat) :
    (fixedPoint value places).length =
      max (places + 1) (digitChars value 10).length + if places = 0 then 0 else 1 := by
  have length := paddedDigits_length value places
  unfold fixedPoint
  dsimp only
  split_ifs
  · exact length
  · rw [List.length_append, List.length_cons, List.length_take, List.length_drop]
    omega

theorem Double.magnitude_le_text (val : Double) (prec : Nat) :
    (val.magnitude prec).length ≤ (val.text prec).length := by
  unfold text
  split_ifs
  · exact Nat.le_succ _
  · exact Nat.le_refl _

/-! ### The code -/

/-- `dtostrf` into an array of this size: there is no result when the text and its zero are longer. The format
is at most ten characters, and has an array of 20. -/
def dtostrf (val : Double) (width : Int8) (prec : UInt8) (size : Nat) : Option CStr :=
  if (sprintf val width prec).chars.length < size then some (sprintf val width prec) else none

/-- The constructors from `float` and `double`. The width is cut to a `signed char`. -/
def WString.fromFloat (value : Double) (decimalPlaces : UInt8) (answer : Answer) : Option WString :=
  (dtostrf value (Int8.ofNat (decimalPlaces.toNat + 2)) decimalPlaces 33).bind fun text =>
    invalid.assignCString (some (some text.chars)) answer

/-- **The text of the value fits** in the array of the constructors. -/
def Double.Fits (value : Double) (decimalPlaces : UInt8) : Prop :=
  (sprintf value (Int8.ofNat (decimalPlaces.toNat + 2)) decimalPlaces).chars.length ≤ 32

instance (value : Double) (decimalPlaces : UInt8) : Decidable (value.Fits decimalPlaces) :=
  inferInstanceAs (Decidable (_ ≤ _))

/-- **With more than 30 decimal places** no finite value fits. -/
theorem places_le_of_fits {negative : Bool} {mantissa : Nat} {exponent : Int}
    {binary64 : mantissa < 2 ^ 53 ∧ -1074 ≤ exponent ∧ exponent ≤ 971} {decimalPlaces : UInt8}
    (fits : (Double.finite negative mantissa exponent binary64).Fits decimalPlaces) :
    decimalPlaces.toNat ≤ 30 := by
  have longer := Double.magnitude_le_text (.finite negative mantissa exponent binary64) decimalPlaces.toNat
  rw [Double.magnitude, fixedPoint_length] at longer
  change (printed _ _ _).length ≤ 32 at fits
  rw [printed_length] at fits
  split_ifs at longer <;> omega

/-- The `float` nearest to 1e38 does not fit with two. -/
example : ¬ (Double.finite false 9860761 103 (by decide)).Fits 2 := by decide

namespace WString

variable {value : Double} {decimalPlaces : UInt8}

/-- A text that fits is assigned to a string that is invalid. -/
theorem fromFloat_represents (fits : value.Fits decimalPlaces) (answer : Answer) :
    ∃ text chars, fromFloat value decimalPlaces answer = some text ∧ text.Represents chars := by
  have nothing : invalid.Represents none := rfl
  rw [fromFloat, dtostrf, if_pos (show _ < 33 from Nat.lt_succ_of_le fits)]
  have bounded : (sprintf value (Int8.ofNat (decimalPlaces.toNat + 2)) decimalPlaces).chars.length + 1 <
      UInt32.size := Nat.lt_of_le_of_lt (Nat.succ_le_succ fits) (by decide)
  exact assignCString_represents nothing (CStr.terminated _) bounded answer

/-- Any other is written past the end of the array. -/
theorem fromFloat_faults (overrun : ¬ value.Fits decimalPlaces) (answer : Answer) :
    fromFloat value decimalPlaces answer = none := by
  rw [fromFloat, dtostrf, if_neg fun short : _ < 33 => overrun (Nat.le_of_lt_succ short)]
  rfl

end WString

end PrimoCore.Text
