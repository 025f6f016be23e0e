/-
**The strings of a program, over any sequence of operations.**

A program makes strings and changes them, one call after the other; any call of `realloc` may fail. The
arguments of a call do not alias the string it changes, and lie in the same 32-bit address space.

* `TextInput`, `Strings.step` — the operations, and what each makes of the strings.
* `Fair` — a call that answers that it failed has changed nothing.
* `strings_right_iff` — **both hold in a run exactly when** its steps keep clear of six corners: a number that
  is printed in more than 32 characters, a character zero that is appended, a move that copies, a range
  whose end wraps, a part of a string that has no buffer, and a request for the largest size.
-/

import Mathlib.Data.Nat.Digits.Lemmas
import PrimoCore.Lib.Run
import PrimoCore.Text.Dtostrf

namespace PrimoCore.Text

open PrimoCore.Lib

/-- The strings of a program, by name, invalid before they are made. -/
structure Strings where
  texts : Nat → WString
  /-- NULL was dereferenced, or memory outside of a block was read or written. -/
  faulted : Bool

/-- A call that answers whether it succeeded. -/
inductive TextCall where
  | concatString (s : Nat)
  | concatCString (cstr : Option CStr)
  | concatChar (c : UInt8)
  | concatUnsigned (num : UInt32)
  | concatSigned (num : Int32)
  | reserve (size : UInt32)

/-- The string a call reads. -/
def TextCall.reads : TextCall → Option Nat
  | .concatString s => some s
  | _ => none

/-- A C string, with its zero, is in memory together with something else. -/
def CStr.InMemory (cstr : CStr) : Prop := cstr.chars.length + 1 < UInt32.size

instance (cstr : CStr) : Decidable cstr.InMemory := inferInstanceAs (Decidable (_ < _))

/-- An operation on the strings that have these names. -/
inductive TextInput where
  | fromCString (name : Nat) (cstr : Option CStr) (answer : Answer)
  | fromString (name value : Nat) (answer : Answer)
  | fromMoved (name rval : Nat)
  | fromChar (name : Nat) (c : UInt8) (answer : Answer)
  | fromUnsigned (name : Nat) (value : UInt32) (base : UInt8) (uninit : CStr) (answer : Answer)
  | fromSigned (name : Nat) (value : Int32) (base : UInt8) (uninit : CStr) (answer : Answer)
  | fromFloat (name : Nat) (value : Double) (decimalPlaces : UInt8) (answer : Answer)
  | assign (name rhs : Nat) (answer : Answer)
  | assignMoved (name rval : Nat)
  | assignCString (name : Nat) (cstr : Option CStr) (answer : Answer)
  | call (name : Nat) (call : TextCall) (answer : Answer)
  | removeCount (name : Nat) (index count : UInt32)
  | remove (name : Nat) (index : UInt32)
  | trim (name : Nat)
  | toLowerCase (name : Nat)
  | toUpperCase (name : Nat)
  | substring (name source : Nat) (left right : UInt32) (first second : Answer)

namespace Strings

/-- No string has been made. -/
def start : Strings := ⟨fun _ => .invalid, false⟩

/-- A string is made or changed. -/
def store (strings : Strings) (name : Nat) : Option WString → Strings
  | some text => { strings with texts := Function.update strings.texts name text }
  | none => { strings with faulted := true }

/-- Two strings are changed. -/
def storeBoth (strings : Strings) (name other : Nat) : Option (WString × WString) → Strings
  | some (text, rest) => (strings.store other rest).store name text
  | none => { strings with faulted := true }

/-- What a call makes of the string, and its answer. -/
def called (strings : Strings) (name : Nat) (call : TextCall) (answer : Answer) :
    Option (WString × Bool) :=
  let text := strings.texts name
  match call with
  | .concatString s => text.concatString (strings.texts s) answer
  | .concatCString cstr => text.concatCString cstr answer
  | .concatChar c => text.concatChar c answer
  | .concatUnsigned num => text.concatUnsigned num answer
  | .concatSigned num => text.concatSigned num answer
  | .reserve size => text.reserve size answer

def step (strings : Strings) : TextInput → Strings
  | .fromCString name cstr answer => strings.store name (WString.fromCString cstr answer)
  | .fromString name value answer =>
      strings.store name (WString.fromString (strings.texts value) answer)
  | .fromMoved name rval => strings.storeBoth name rval (WString.fromMoved (strings.texts rval))
  | .fromChar name c answer => strings.store name (WString.fromChar c answer)
  | .fromUnsigned name value base uninit answer =>
      strings.store name (WString.fromUnsigned value base uninit answer)
  | .fromSigned name value base uninit answer =>
      strings.store name (WString.fromSigned value base uninit answer)
  | .fromFloat name value decimalPlaces answer =>
      strings.store name (WString.fromFloat value decimalPlaces answer)
  | .assign name rhs answer =>
      if name = rhs then strings
      else strings.store name ((strings.texts name).assign (strings.texts rhs) answer)
  | .assignMoved name rval =>
      if name = rval then strings
      else strings.storeBoth name rval ((strings.texts name).move (strings.texts rval))
  | .assignCString name cstr answer =>
      strings.store name ((strings.texts name).assignCString (cstr.map fun cstr => some cstr.chars) answer)
  | .call name call answer => strings.store name ((strings.called name call answer).map Prod.fst)
  | .removeCount name index count =>
      strings.store name ((strings.texts name).removeCount index count)
  | .remove name index => strings.store name ((strings.texts name).remove index)
  | .trim name => strings.store name (strings.texts name).trim
  | .toLowerCase name => strings.store name (strings.texts name).toLowerCase
  | .toUpperCase name => strings.store name (strings.texts name).toUpperCase
  | .substring name source left right first second =>
      strings.storeBoth source name ((strings.texts source).substring left right first second)

/-! ### What is to hold -/

/-- Nothing has gone wrong so far, and every string is right. -/
def Right (strings : Strings) : Prop :=
  strings.faulted = false ∧ ∀ name, (strings.texts name).Right

/-- A call that answers that it failed leaves the string as it was. -/
def Fair (strings : Strings) : TextInput → Prop
  | .call name call answer =>
      ∀ text, strings.called name call answer = some (text, false) → text = strings.texts name
  | _ => True

/-- The number of characters a call appends. -/
def argument (strings : Strings) : TextCall → Nat
  | .concatString s => (strings.texts s).len.toNat
  | .concatCString cstr => (cstr.elim [] CStr.chars).length
  | .concatChar _ => 1
  | .concatUnsigned num => (ultoa num 10 CStr.empty).chars.length
  | .concatSigned num => (ltoa num 10 CStr.empty).chars.length
  | .reserve _ => 0

/-- **What the language and the memory give**: a string that is made is not one of the arguments, a call
that appends does not read the string it changes, and what lies in memory at the same time fits in it. -/
def Legal (strings : Strings) : TextInput → Prop
  | .fromCString _ cstr _ => ∀ text ∈ cstr, text.InMemory
  | .fromString name value _ => name ≠ value
  | .fromMoved name rval => name ≠ rval
  | .fromUnsigned _ _ _ uninit _ => uninit.InMemory
  | .fromSigned _ _ _ uninit _ => uninit.InMemory
  | .assignCString _ cstr _ => ∀ text ∈ cstr, text.InMemory
  | .call name call _ => call.reads ≠ some name ∧
      (strings.texts name).len.toNat + strings.argument call + 1 < UInt32.size
  | .substring name source _ _ _ _ => name ≠ source
  | _ => True

/-- **The step keeps clear of the corners.** -/
def Keeps (strings : Strings) : TextInput → Prop
  | .fromFloat _ value decimalPlaces _ => value.Fits decimalPlaces
  | .assignMoved name rval =>
      name = rval ∨ (strings.texts name).MovesWell (strings.texts rval)
  | .call name (.concatChar c) answer =>
      c ≠ 0 ∨ ¬ (strings.texts name).Grants ((strings.texts name).len + 1) answer
  | .call name (.reserve size) answer =>
      size.toNat + 1 < UInt32.size ∨ (strings.texts name).buffer = none ∧ answer = none
  | .removeCount name index count => (strings.texts name).RemovesWell index count
  | .substring _ source left right _ _ => (strings.texts source).TakesWell left right
  | _ => True

/-! ### Arguments -/

/-- The digits of a number are in memory. -/
theorem digitChars_length {value radix : Nat} (small : value < UInt32.size) (low : 1 < radix) :
    (digitChars value radix).length ≤ 32 := by
  unfold digitChars
  split_ifs
  · decide
  · rw [List.length_map, List.length_reverse, Nat.digits_length_le_iff low]
    calc value < 2 ^ 32 := small
      _ ≤ radix ^ 32 := Nat.pow_le_pow_left low 32

theorem ultoa_inMemory (value : UInt32) (radix : UInt8) {uninit : CStr} (inMemory : uninit.InMemory) :
    (ultoa value radix uninit).InMemory := by
  unfold ultoa
  split_ifs with known
  · have few := digitChars_length value.toNat_lt known.1
    have word : UInt32.size = 4294967296 := rfl
    show (digitChars value.toNat radix.toNat).length + 1 < UInt32.size
    omega
  · exact inMemory

theorem ltoa_inMemory (value : Int32) (radix : UInt8) {uninit : CStr} (inMemory : uninit.InMemory) :
    (ltoa value radix uninit).InMemory := by
  unfold ltoa
  split_ifs
  · have few := digitChars_length (-value).toUInt32.toNat_lt (show 1 < 10 by decide)
    have word : UInt32.size = 4294967296 := rfl
    show (45 :: digitChars (-value).toUInt32.toNat 10).length + 1 < UInt32.size
    rw [List.length_cons]
    omega
  · exact ultoa_inMemory _ _ inMemory

theorem charText_proper (c : UInt8) : 0 ∉ WString.charText c := by
  unfold WString.charText
  split_ifs with zero
  · exact List.not_mem_nil
  · rw [List.mem_singleton]
    exact fun same => zero same.symm

/-! ### One step -/

/-- **What a run keeps**: nothing has gone wrong, and every string stands for something. -/
def Sound (strings : Strings) : Prop :=
  strings.faulted = false ∧ ∀ name, ∃ value, (strings.texts name).Represents value

theorem start_sound : start.Sound := ⟨rfl, fun _ => ⟨none, rfl⟩⟩

theorem Sound.right {strings : Strings} (sound : strings.Sound) : strings.Right :=
  ⟨sound.1, fun name => (sound.2 name).elim fun _ represents => represents.right⟩

variable {strings : Strings}

theorem store_texts (strings : Strings) (name : Nat) (text : WString) :
    (strings.store name (some text)).texts = Function.update strings.texts name text := rfl

theorem store_sound (sound : strings.Sound) (name : Nat) {result : Option WString}
    (made : ∃ text value, result = some text ∧ text.Represents value) :
    (strings.store name result).Sound := by
  obtain ⟨text, value, rfl, represents⟩ := made
  refine ⟨sound.1, fun other => ?_⟩
  by_cases same : other = name
  · subst same
    exact ⟨value, by rwa [store_texts, Function.update_self]⟩
  · obtain ⟨before, kept⟩ := sound.2 other
    exact ⟨before, by rwa [store_texts, Function.update_of_ne same]⟩

theorem storeBoth_sound (sound : strings.Sound) (name other : Nat)
    {result : Option (WString × WString)}
    (made : ∃ text rest value otherValue, result = some (text, rest) ∧ text.Represents value ∧
      rest.Represents otherValue) : (strings.storeBoth name other result).Sound := by
  obtain ⟨text, rest, value, otherValue, rfl, represents, restRepresents⟩ := made
  exact store_sound (store_sound sound other ⟨rest, otherValue, rfl, restRepresents⟩) name
    ⟨text, value, rfl, represents⟩

/-- The assignment of a C string, or of nothing. -/
theorem assignCString_sound {text : WString} {value : Option (List UInt8)}
    (represents : text.Represents value) {cstr : Option CStr}
    (inMemory : ∀ text ∈ cstr, text.InMemory) (answer : Answer) :
    ∃ after value, text.assignCString (cstr.map fun cstr => some cstr.chars) answer = some after ∧
      after.Represents value := by
  cases cstr with
  | none => exact ⟨.invalid, none, rfl, rfl⟩
  | some cstr =>
    exact WString.assignCString_represents represents cstr.terminated (inMemory cstr rfl) answer

/-- What a call makes of a string: it succeeds and leaves something, or fails and changes nothing. -/
def Answers (text : WString) (result : Option (WString × Bool)) : Prop :=
  (∃ after value, result = some (after, true) ∧ after.Represents value) ∨ result = some (text, false)

theorem concat_answers {text : WString} {value : Option (List UInt8)}
    (represents : text.Represents value) {chars : List UInt8} (proper : 0 ∉ chars) {length : UInt32}
    (len : length.toNat = chars.length)
    (inMemory : text.len.toNat + length.toNat + 1 < UInt32.size) (answer : Answer) :
    Answers text (text.concat (some (some chars)) length answer) :=
  (WString.concat_appends represents proper len inMemory answer).imp_left
    fun ⟨after, last, appended, holds, _⟩ => ⟨after, last, appended, holds⟩

theorem concatCString_answers {text : WString} {value : Option (List UInt8)}
    (represents : text.Represents value) {cstr : Option CStr}
    (inMemory : text.len.toNat + (cstr.elim [] CStr.chars).length + 1 < UInt32.size)
    (answer : Answer) : Answers text (text.concatCString cstr answer) := by
  cases cstr with
  | none => exact .inr rfl
  | some cstr =>
    change text.len.toNat + cstr.chars.length + 1 < UInt32.size at inMemory
    have strlen : cstr.strlen.toNat = cstr.chars.length := UInt32.toNat_ofNat_of_lt' (by omega)
    exact concat_answers represents cstr.terminated strlen (by rwa [strlen]) answer

/-- **One call** succeeds, or changes nothing. -/
theorem called_answers (sound : strings.Sound) {name : Nat} {call : TextCall} {answer : Answer}
    (legal : strings.Legal (.call name call answer)) (keeps : strings.Keeps (.call name call answer)) :
    Answers (strings.texts name) (strings.called name call answer) := by
  obtain ⟨-, inMemory⟩ := legal
  obtain ⟨value, represents⟩ := sound.2 name
  cases call with
  | concatString s =>
    obtain ⟨other, sRepresents⟩ := sound.2 s
    show Answers _ (WString.concat _ (strings.texts s).charPtr _ answer)
    rw [sRepresents.charPtr]
    cases other with
    | none => exact .inr rfl
    | some chars =>
      exact concat_answers represents sRepresents.proper sRepresents.len inMemory answer
  | concatCString cstr => exact concatCString_answers represents inMemory answer
  | concatChar c =>
    show Answers _ (WString.concat _ (some (some (WString.charText c))) 1 answer)
    by_cases zero : c = 0
    · have whole : ((strings.texts name).len + 1).toNat = (strings.texts name).len.toNat + 1 := by
        rw [UInt32.toNat_add]
        exact Nat.mod_eq_of_lt (Nat.lt_of_succ_lt inMemory)
      have refused := keeps.resolve_left (not_not.mpr zero)
      rcases WString.reserve_represents represents (by rwa [whole]) answer with
        ⟨granted, -⟩ | ⟨-, failed⟩
      · exact absurd granted refused
      · refine .inr ?_
        simp only [WString.concat, failed]
        rfl
    · have text : WString.charText c = [c] := if_neg zero
      have length : (1 : UInt32).toNat = (WString.charText c).length := by
        rw [text]
        rfl
      exact concat_answers represents (charText_proper c) length inMemory answer
  | concatUnsigned num =>
    exact @concatCString_answers _ _ represents (some (ultoa num 10 CStr.empty)) inMemory answer
  | concatSigned num =>
    exact @concatCString_answers _ _ represents (some (ltoa num 10 CStr.empty)) inMemory answer
  | reserve size =>
    show Answers _ (WString.reserve _ size answer)
    rcases keeps with proper | ⟨invalid, rfl⟩
    · rcases WString.reserve_represents represents proper answer with
        ⟨-, after, block, reserved, holds, -⟩ | ⟨-, failed⟩
      · exact .inl ⟨after, some _, reserved, block, holds⟩
      · exact .inr failed
    · cases value with
      | none =>
        rw [show strings.texts name = .invalid from represents]
        exact .inr rfl
      | some chars =>
        obtain ⟨block, holds⟩ := represents
        rw [holds.buffer] at invalid
        cases invalid

/-- **One step** that keeps clear of the corners leaves strings that stand for something. -/
theorem step_sound {input : TextInput} (sound : strings.Sound) (legal : strings.Legal input)
    (keeps : strings.Keeps input) : (strings.step input).Sound := by
  have nothing : WString.invalid.Represents none := rfl
  cases input with
  | fromCString name cstr answer =>
    refine store_sound sound name ?_
    cases cstr with
    | none => exact ⟨.invalid, none, rfl, rfl⟩
    | some cstr => exact WString.fromCString_represents cstr (legal cstr rfl) answer
  | fromString name value answer =>
    obtain ⟨other, represents⟩ := sound.2 value
    exact store_sound sound name (WString.assign_represents nothing represents answer)
  | fromMoved name rval =>
    obtain ⟨other, represents⟩ := sound.2 rval
    refine storeBoth_sound sound name rval (WString.move_represents nothing represents ?_)
    exact fun copies => absurd copies.1 Bool.false_ne_true
  | fromChar name c answer =>
    refine store_sound sound name (WString.assignCString_represents nothing (charText_proper c) ?_ answer)
    have word : UInt32.size = 4294967296 := rfl
    unfold WString.charText
    split_ifs
    · decide
    · rw [List.length_singleton]
      omega
  | fromUnsigned name value base uninit answer =>
    exact store_sound sound name (WString.assignCString_represents nothing (CStr.terminated _)
      (ultoa_inMemory value base legal) answer)
  | fromSigned name value base uninit answer =>
    exact store_sound sound name (WString.assignCString_represents nothing (CStr.terminated _)
      (ltoa_inMemory value base legal) answer)
  | fromFloat name value decimalPlaces answer =>
    exact store_sound sound name (WString.fromFloat_represents keeps answer)
  | assign name rhs answer =>
    show (ite _ _ _ : Strings).Sound
    split_ifs
    · exact sound
    · obtain ⟨value, represents⟩ := sound.2 name
      obtain ⟨other, rhsRepresents⟩ := sound.2 rhs
      exact store_sound sound name (WString.assign_represents represents rhsRepresents answer)
  | assignMoved name rval =>
    show (ite _ _ _ : Strings).Sound
    split_ifs with same
    · exact sound
    · obtain ⟨value, represents⟩ := sound.2 name
      obtain ⟨other, rvalRepresents⟩ := sound.2 rval
      exact storeBoth_sound sound name rval
        (WString.move_represents represents rvalRepresents (keeps.resolve_left same))
  | assignCString name cstr answer =>
    obtain ⟨value, represents⟩ := sound.2 name
    exact store_sound sound name (assignCString_sound represents legal answer)
  | call name call answer =>
    obtain ⟨value, represents⟩ := sound.2 name
    refine store_sound sound name ?_
    rcases called_answers sound legal keeps with ⟨after, other, result, made⟩ | failed
    · exact ⟨after, other, by rw [result]; rfl, made⟩
    · exact ⟨strings.texts name, value, by rw [failed]; rfl, represents⟩
  | removeCount name index count =>
    obtain ⟨value, represents⟩ := sound.2 name
    exact store_sound sound name (WString.removeCount_represents represents keeps)
  | remove name index =>
    obtain ⟨value, represents⟩ := sound.2 name
    exact store_sound sound name (WString.remove_represents represents index)
  | trim name =>
    obtain ⟨value, represents⟩ := sound.2 name
    exact store_sound sound name (WString.trim_represents represents)
  | toLowerCase name =>
    obtain ⟨value, represents⟩ := sound.2 name
    exact store_sound sound name (WString.mapChars_represents represents WString.tolower_ne_zero)
  | toUpperCase name =>
    obtain ⟨value, represents⟩ := sound.2 name
    exact store_sound sound name (WString.mapChars_represents represents WString.toupper_ne_zero)
  | substring name source left right first second =>
    obtain ⟨value, represents⟩ := sound.2 source
    obtain ⟨out, other, made, outRepresents⟩ :=
      WString.substring_represents represents keeps first second
    exact storeBoth_sound sound source name
      ⟨strings.texts source, out, value, other, made, represents, outRepresents⟩

theorem step_fair {input : TextInput} (sound : strings.Sound) (legal : strings.Legal input)
    (keeps : strings.Keeps input) : strings.Fair input := by
  cases input with
  | call name call answer =>
    intro text answered
    rcases called_answers sound legal keeps with ⟨after, other, result, -⟩ | failed
    · rw [result] at answered
      cases answered
    · rw [failed] at answered
      cases answered
      rfl
  | _ => trivial

theorem Right.of_store {name : Nat} {result : Option WString}
    (right : (strings.store name result).Right) : ∃ text, result = some text ∧ text.Right := by
  cases result with
  | none => cases right.1
  | some text =>
    have this := right.2 name
    rw [store_texts, Function.update_self] at this
    exact ⟨text, rfl, this⟩

theorem Right.of_storeBoth {name other : Nat} {result : Option (WString × WString)}
    (apart : name ≠ other) (right : (strings.storeBoth name other result).Right) :
    ∃ text rest, result = some (text, rest) ∧ rest.Right := by
  cases result with
  | none => cases right.1
  | some both =>
    have this := right.2 other
    rw [storeBoth, store_texts, Function.update_of_ne apart.symm, store_texts, Function.update_self]
      at this
    exact ⟨both.1, both.2, rfl, this⟩

/-- **A step into one of the corners** faults, or leaves a string that is not right. -/
theorem step_breaks {input : TextInput} (sound : strings.Sound) (legal : strings.Legal input)
    (badly : ¬ strings.Keeps input) : ¬ (strings.step input).Right := by
  intro right
  cases input with
  | fromFloat name value decimalPlaces answer =>
    obtain ⟨after, result, -⟩ := right.of_store
    rw [WString.fromFloat_faults badly answer] at result
    cases result
  | assignMoved name rval =>
    obtain ⟨apart, copies⟩ := not_or.mp badly
    obtain ⟨value, represents⟩ := sound.2 name
    obtain ⟨other, rvalRepresents⟩ := sound.2 rval
    change (ite _ _ _ : Strings).Right at right
    rw [if_neg apart] at right
    obtain ⟨text, rest, moved, restRight⟩ := right.of_storeBoth apart
    rcases WString.move_breaks represents rvalRepresents copies with
      faults | ⟨after, left, copied, wrong⟩
    · rw [faults] at moved
      cases moved
    · rw [copied] at moved
      cases moved
      exact wrong restRight
  | call name call answer =>
    obtain ⟨value, represents⟩ := sound.2 name
    obtain ⟨after, result, afterRight⟩ := right.of_store
    cases call with
    | concatChar c =>
      obtain ⟨zero, granted⟩ := not_or.mp badly
      obtain ⟨last, appended, wrong⟩ :=
        WString.concatChar_zero represents legal.2 (not_not.mp granted)
      rw [not_not.mp zero] at result
      change Option.map Prod.fst (WString.concatChar _ 0 answer) = some after at result
      rw [appended] at result
      cases result
      exact wrong afterRight
    | reserve size =>
      obtain ⟨largest, asks⟩ := not_or.mp badly
      change Option.map Prod.fst (WString.reserve _ size answer) = some after at result
      rcases WString.reserve_largest represents largest answer asks with
        faults | ⟨last, freed, wrong⟩
      · rw [faults] at result
        cases result
      · rw [freed] at result
        cases result
        exact wrong afterRight
    | _ => exact badly trivial
  | removeCount name index count =>
    obtain ⟨value, represents⟩ := sound.2 name
    obtain ⟨after, result, -⟩ := right.of_store
    rw [WString.removeCount_faults represents badly] at result
    cases result
  | substring name source left right' first second =>
    obtain ⟨value, represents⟩ := sound.2 source
    obtain ⟨after, rest, result, -⟩ := right.of_storeBoth (Ne.symm legal)
    rw [WString.substring_faults represents badly first second] at result
    cases result
  | _ => exact badly trivial

/-! ### Runs -/

/-- **Every string is right in every state of a run, and every call that fails changes nothing**, exactly
when every step keeps clear of the corners. -/
theorem strings_right_iff (inputs : List TextInput) (legal : EachStep step Legal start inputs) :
    Always step Right start inputs ∧ EachStep step Fair start inputs ↔
      EachStep step Keeps start inputs := by
  refine @always_and_iff_of_invariant _ _ _ Sound _ _ _ _ ?_ ?_ _ _ start_sound.right start_sound legal
  · intro strings input sound legal good
    exact step_sound sound legal (not_not.mp fun badly => step_breaks sound legal badly good.1)
  · intro strings input sound legal
    refine ⟨fun good => not_not.mp fun badly => step_breaks sound legal badly good.1, fun keeps => ?_⟩
    exact ⟨(step_sound sound legal keeps).right, step_fair sound legal keeps⟩

/-- The word hello, a character that is appended to it, a string it is moved to, and the text of 3.140625. -/
def hello : List TextInput :=
  [.fromCString 0 (some ⟨[104, 101, 108, 108, 111], by decide⟩) (some fun _ => 85),
    .call 0 (.concatChar 33) (some fun _ => 170), .fromMoved 1 0,
    .fromFloat 2 (.finite false 201 (-6) (by decide)) 2 (some fun _ => 85)]

theorem strings_right_iff_hello :
    Always step Right start hello ∧ EachStep step Fair start hello :=
  (strings_right_iff hello ⟨fun text same => by cases same; decide, ⟨by decide, by decide⟩,
    Nat.one_ne_zero, trivial, trivial⟩).mpr
    ⟨trivial, .inl (by decide), trivial, show Double.Fits _ _ by decide, trivial⟩

/-- **A move from a string without a buffer** to one that has one copies from NULL. -/
theorem move_from_invalid :
    ¬ ∀ inputs : List TextInput, EachStep step Legal start inputs →
      Always step Right start inputs ∧ EachStep step Fair start inputs := by
  intro always
  have legal : EachStep step Legal start
      [.fromChar 0 65 (some fun _ => 85), .assignMoved 0 1] := ⟨trivial, trivial, trivial⟩
  have fine := (always _ legal).1.last.1
  exact absurd fine (by decide)

end Strings

end PrimoCore.Text
