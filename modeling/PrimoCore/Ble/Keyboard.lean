/-
**The keyboard, `BLEKeyboard`.**

A report has a byte of modifiers and six slots for the codes of the keys held. A press takes the first free slot,
a release frees the first one with the code; both change the modifiers only if they find a slot. `write` presses
a key and releases it again.

* `BLEKeyboard.press`, `release`, `releaseAll`, `write` — the code, with the reports that are sent.
* `replaceFirst_perm` — a slot that is taken and freed again leaves the same keys held.
* `write_cases` — the keys held stay held; the modifiers do unless one of them is that of the character.
* `typing_leaves_keys_iff` — **typing leaves what is held alone, in a run, exactly when** no character that needs
  the shift key is written while it is held and a slot is free.
-/

import PrimoCore.Lib.Run
import Mathlib.Data.List.Perm.Basic

namespace PrimoCore.Ble

open PrimoCore.Lib

/-! ### A slot is taken or freed -/

section Slots

variable {α : Type*} [DecidableEq α]

/-- The first element with a value, replaced. -/
def replaceFirst (old new : α) : List α → Option (List α)
  | [] => none
  | first :: rest =>
      if first = old then some (new :: rest) else (replaceFirst old new rest).map (first :: ·)

variable {old new : α} {elements after : List α}

theorem replaceFirst_eq_none_iff : replaceFirst old new elements = none ↔ old ∉ elements := by
  induction elements with
  | nil => simp [replaceFirst]
  | cons first rest ih =>
    unfold replaceFirst
    split_ifs with same
    · simp [same]
    · simp [ih, Ne.symm same]

/-- **One element is replaced**, up to the order. -/
theorem replaceFirst_perm (replaced : replaceFirst old new elements = some after) :
    after.Perm (new :: elements.erase old) := by
  induction elements generalizing after with
  | nil => cases replaced
  | cons first rest ih =>
    unfold replaceFirst at replaced
    split_ifs at replaced with same
    · obtain rfl := Option.some.inj replaced
      rw [same, List.erase_cons_head]
    · obtain ⟨tail, found, rfl⟩ := Option.map_eq_some_iff.mp replaced
      rw [List.erase_cons_tail (by simpa using same)]
      exact (List.Perm.cons first (ih found)).trans (List.Perm.swap _ _ _)

/-- **A slot that is taken and freed again** leaves the same elements. -/
theorem replaceFirst_back {taken : List α} (took : replaceFirst old new elements = some taken)
    (freed : replaceFirst new old taken = some after) : after.Perm elements := by
  have member : old ∈ elements := by
    by_contra absent
    rw [replaceFirst_eq_none_iff.mpr absent] at took
    cases took
  have first := replaceFirst_perm took
  calc after.Perm (old :: taken.erase new) := replaceFirst_perm freed
    _ |>.Perm (old :: elements.erase old) := by
      refine List.Perm.cons old ?_
      have erased := first.erase new
      rwa [List.erase_cons_head] at erased
    _ |>.Perm elements := (List.perm_cons_erase member).symm

theorem replaceFirst_length (replaced : replaceFirst old new elements = some after) :
    after.length = elements.length := by
  have member : old ∈ elements := by
    by_contra absent
    rw [replaceFirst_eq_none_iff.mpr absent] at replaced
    cases replaced
  rw [(replaceFirst_perm replaced).length_eq, List.length_cons, List.length_erase_of_mem member]
  have positive := List.length_pos_of_mem member
  omega

end Slots

/-! ### The keyboard -/

/-- `_value`: the modifiers, a byte that is not used, and the codes of the keys held. -/
structure BLEKeyboard where
  modifiers : UInt8
  reserved : UInt8
  keys : List UInt8
  six : keys.length = 6

/-- What a call does: the value, the result, and the reports sent. -/
structure KeyboardEffect where
  keyboard : BLEKeyboard
  result : Nat
  reports : List (List UInt8)

/-- `KEYCODE_MOD_LEFT_SHIFT`. -/
def keycodeModLeftShift : UInt8 := 0x02

/-- `asciiMap`: the code of each character, with the highest bit set where it needs the shift key. -/
def asciiMap : List UInt8 :=
  [0x00, 0x00, 0x00, 0x00, 0x00, 0x00, 0x00, 0x00, 0x2a, 0x2b, 0x28, 0x00, 0x00, 0x00, 0x00, 0x00,
   0x00, 0x00, 0x00, 0x00, 0x00, 0x00, 0x00, 0x00, 0x00, 0x00, 0x00, 0x00, 0x00, 0x00, 0x00, 0x00,
   0x2c, 0x9e, 0xb4, 0xa0, 0xa1, 0xa2, 0xa4, 0x34, 0xa6, 0xa7, 0xa5, 0xae, 0x36, 0x2d, 0x37, 0x38,
   0x27, 0x1e, 0x1f, 0x20, 0x21, 0x22, 0x23, 0x24, 0x25, 0x26, 0xb3, 0x33, 0xb6, 0x2e, 0xb7, 0xb8,
   0x9f, 0x84, 0x85, 0x86, 0x87, 0x88, 0x89, 0x8a, 0x8b, 0x8c, 0x8d, 0x8e, 0x8f, 0x90, 0x91, 0x92,
   0x93, 0x94, 0x95, 0x96, 0x97, 0x98, 0x99, 0x9a, 0x9b, 0x9c, 0x9d, 0x2f, 0x31, 0x30, 0xa3, 0xad,
   0x35, 0x04, 0x05, 0x06, 0x07, 0x08, 0x09, 0x0a, 0x0b, 0x0c, 0x0d, 0x0e, 0x0f, 0x10, 0x11, 0x12,
   0x13, 0x14, 0x15, 0x16, 0x17, 0x18, 0x19, 0x1a, 0x1b, 0x1c, 0x1d, 0xaf, 0xb1, 0xb0, 0xb5, 0x00]

/-- `keyToCodeAndModifier`: the code and the modifier. -/
def keyToCodeAndModifier (k : UInt8) : UInt8 × UInt8 :=
  if k < 128 then
    let code := asciiMap.getD k.toNat 0
    if code &&& 0x80 ≠ 0 then (code &&& 0x7f, keycodeModLeftShift) else (code, 0)
  else (0, 0)

namespace BLEKeyboard

/-- The constructor: nothing is held. -/
def initial : BLEKeyboard := ⟨0, 0, List.replicate 6 0, rfl⟩

/-- `sendValue`, after a call that returns one. -/
def sendValue (keyboard : BLEKeyboard) : KeyboardEffect :=
  ⟨keyboard, 1, [keyboard.modifiers :: keyboard.reserved :: keyboard.keys]⟩

/-- `press` and `release`: a slot goes from one code to another and the modifiers to a value, or the modifiers
alone where there is no code. -/
def change (keyboard : BLEKeyboard) (code modifiers old new value : UInt8) : KeyboardEffect :=
  if code ≠ 0 then
    match found : replaceFirst old new keyboard.keys with
    | some keys => sendValue ⟨value, keyboard.reserved, keys,
      (replaceFirst_length found).trans keyboard.six⟩
    | none => ⟨keyboard, 0, []⟩
  else if modifiers ≠ 0 then sendValue { keyboard with modifiers := value }
  else ⟨keyboard, 0, []⟩

/-- `press`. -/
def press (keyboard : BLEKeyboard) (code modifiers : UInt8) : KeyboardEffect :=
  keyboard.change code modifiers 0 code (keyboard.modifiers ||| modifiers)

/-- `release`. -/
def release (keyboard : BLEKeyboard) (code modifiers : UInt8) : KeyboardEffect :=
  keyboard.change code modifiers code 0 (keyboard.modifiers &&& ~~~modifiers)

/-- `releaseAll`. -/
def releaseAll (_ : BLEKeyboard) : KeyboardEffect := initial.sendValue

/-- `write`: both, the second if the first returns one. -/
def write (keyboard : BLEKeyboard) (k : UInt8) : KeyboardEffect :=
  let (code, modifier) := keyToCodeAndModifier k
  let pressed := keyboard.press code modifier
  if pressed.result ≠ 0 then
    let released := pressed.keyboard.release code modifier
    ⟨released.keyboard, if released.result ≠ 0 then 1 else 0, pressed.reports ++ released.reports⟩
  else ⟨pressed.keyboard, 0, pressed.reports⟩

/-- The codes of the keys held. -/
def held (keyboard : BLEKeyboard) : List UInt8 := keyboard.keys.filter (· ≠ 0)

end BLEKeyboard

/-- A call. -/
inductive KeyboardCall where
  | press (code modifiers : UInt8)
  | release (code modifiers : UInt8)
  | releaseAll
  | write (k : UInt8)

namespace BLEKeyboard

/-- What a call does. -/
def call (keyboard : BLEKeyboard) : KeyboardCall → KeyboardEffect
  | .press code modifiers => keyboard.press code modifiers
  | .release code modifiers => keyboard.release code modifiers
  | .releaseAll => keyboard.releaseAll
  | .write k => keyboard.write k

/-- One call, in a run. -/
def step (keyboard : BLEKeyboard) (input : KeyboardCall) : BLEKeyboard := (keyboard.call input).keyboard

/-- Nothing has happened where the result is zero. -/
def Refused (keyboard : BLEKeyboard) (effect : KeyboardEffect) : Prop :=
  effect.result = 0 → effect.keyboard = keyboard ∧ effect.reports = []

/-- **What is to hold of a call**: a character that is written leaves the keys and the modifiers as they were, and a
press or a release that returns zero does nothing. -/
def LeavesAlone (keyboard : BLEKeyboard) : KeyboardCall → Prop
  | .press code modifiers => keyboard.Refused (keyboard.press code modifiers)
  | .release code modifiers => keyboard.Refused (keyboard.release code modifiers)
  | .releaseAll => True
  | .write k => (keyboard.write k).keyboard.held.Perm keyboard.held ∧
      (keyboard.write k).keyboard.modifiers = keyboard.modifiers

/-- A character that needs the shift key is written while it is not held, or while all slots are taken. -/
def Meets (keyboard : BLEKeyboard) : KeyboardCall → Prop
  | .write k => keyboard.modifiers &&& (keyToCodeAndModifier k).2 = 0 ∨ 0 ∉ keyboard.keys
  | _ => True

variable {keyboard : BLEKeyboard}

/-- **What a press or a release does**: nothing, or the modifiers are set and a slot changes. -/
theorem change_cases (keyboard : BLEKeyboard) (code modifiers old new value : UInt8) :
    keyboard.change code modifiers old new value = ⟨keyboard, 0, []⟩ ∧ (code ≠ 0 → old ∉ keyboard.keys) ∨
    (keyboard.change code modifiers old new value).result = 1 ∧
      (keyboard.change code modifiers old new value).keyboard.modifiers = value ∧
      if code ≠ 0 then
        replaceFirst old new keyboard.keys =
          some (keyboard.change code modifiers old new value).keyboard.keys
      else (keyboard.change code modifiers old new value).keyboard.keys = keyboard.keys := by
  unfold change
  split_ifs with given mods
  · split
    · rename_i keys found
      exact Or.inr ⟨rfl, rfl, found⟩
    · rename_i found
      exact Or.inl ⟨rfl, fun _ => replaceFirst_eq_none_iff.mp found⟩
  · exact Or.inr ⟨rfl, rfl, rfl⟩
  · exact Or.inl ⟨rfl, fun code => absurd code given⟩

/-- A press or a release that returns zero does nothing. -/
theorem change_refused (keyboard : BLEKeyboard) (code modifiers old new value : UInt8) :
    keyboard.Refused (keyboard.change code modifiers old new value) := by
  intro refused
  rcases keyboard.change_cases code modifiers old new value with ⟨nothing, -⟩ | ⟨done, -⟩
  · rw [nothing]
    exact ⟨rfl, rfl⟩
  · rw [done] at refused
    cases refused

/-- Modifiers that are set and cleared again are as they were exactly when none of them was set. -/
theorem restored_iff (held modifiers : UInt8) :
    (held ||| modifiers) &&& ~~~modifiers = held ↔ held &&& modifiers = 0 := by
  simp only [← UInt8.toBitVec_inj, UInt8.toBitVec_and, UInt8.toBitVec_or, UInt8.toBitVec_not,
    UInt8.toBitVec_zero]
  constructor
  · intro same
    ext bit inside
    have value := congrArg (fun bits => bits[bit]) same
    simp only [BitVec.getElem_and, BitVec.getElem_or, BitVec.getElem_not] at value
    cases first : held.toBitVec[bit] <;> cases second : modifiers.toBitVec[bit] <;> simp_all
  · intro apart
    ext bit inside
    have value := congrArg (fun bits => bits[bit]) apart
    simp only [BitVec.getElem_and, BitVec.getElem_zero] at value
    cases first : held.toBitVec[bit] <;> cases second : modifiers.toBitVec[bit] <;> simp_all

/-- A character without a code needs no modifier. -/
theorem modifier_of_code {k : UInt8} (absent : (keyToCodeAndModifier k).1 = 0) :
    (keyToCodeAndModifier k).2 = 0 := by
  have shifted : ∀ code ∈ asciiMap, code &&& 0x80 ≠ 0 → code &&& 0x7f ≠ 0 := by decide +kernel
  unfold keyToCodeAndModifier at absent ⊢
  dsimp only at absent ⊢
  split_ifs at absent ⊢ with ascii shift
  · have inside : k.toNat < asciiMap.length := UInt8.lt_iff_toNat_lt.mp ascii
    have code := shifted (asciiMap.getD k.toNat 0) (by
      rw [List.getD_eq_getElem?_getD, List.getElem?_eq_getElem inside]
      exact List.getElem_mem inside)
    exact absurd absent (code shift)
  · rfl
  · rfl

/-- **What `write` leaves**: the keys held, and the modifiers less that of the character. -/
theorem write_cases (keyboard : BLEKeyboard) (k : UInt8) :
    (keyboard.write k).keyboard.keys.Perm keyboard.keys ∧
    ((keyboard.write k).keyboard.modifiers = keyboard.modifiers ↔
      keyboard.modifiers &&& (keyToCodeAndModifier k).2 = 0 ∨ 0 ∉ keyboard.keys) := by
  have codeless := @modifier_of_code k
  unfold write
  rcases pair : keyToCodeAndModifier k with ⟨code, modifier⟩
  rw [pair] at codeless
  dsimp only at codeless ⊢
  rcases keyboard.change_cases code modifier 0 code (keyboard.modifiers ||| modifier) with
    ⟨refused, full⟩ | ⟨pressed, set, slot⟩
  · unfold press
    rw [refused, if_neg (by simp)]
    refine ⟨List.Perm.refl _, iff_of_true rfl ?_⟩
    by_cases given : code = 0
    · exact Or.inl (by rw [codeless given]; simp)
    · exact Or.inr (full given)
  · change (keyboard.press code modifier).result = 1 at pressed
    change (keyboard.press code modifier).keyboard.modifiers = _ at set
    have given : code ≠ 0 := by
      rintro rfl
      rw [codeless rfl] at pressed
      cases pressed
    rw [if_pos given] at slot
    change _ = some (keyboard.press code modifier).keyboard.keys at slot
    have free : 0 ∈ keyboard.keys := by
      by_contra full
      rw [replaceFirst_eq_none_iff.mpr full] at slot
      cases slot
    rw [if_pos (by rw [pressed]; decide)]
    dsimp only
    rcases (keyboard.press code modifier).keyboard.change_cases code modifier code 0
      ((keyboard.press code modifier).keyboard.modifiers &&& ~~~modifier) with
      ⟨-, absent⟩ | ⟨-, cleared, back⟩
    · exact absurd ((replaceFirst_perm slot).symm.subset List.mem_cons_self) (absent given)
    · change
        ((keyboard.press code modifier).keyboard.release code modifier).keyboard.modifiers = _ at cleared
      rw [if_pos given] at back
      refine ⟨replaceFirst_back slot back, ?_⟩
      rw [cleared, set, restored_iff]
      exact ⟨Or.inl, fun apart => apart.resolve_right (not_not_intro free)⟩

/-- **One call**: it leaves alone what is held exactly when it meets the condition. -/
theorem leavesAlone_iff (keyboard : BLEKeyboard) (input : KeyboardCall) :
    keyboard.LeavesAlone input ↔ keyboard.Meets input := by
  cases input with
  | press code modifiers => exact iff_of_true (keyboard.change_refused _ _ _ _ _) trivial
  | release code modifiers => exact iff_of_true (keyboard.change_refused _ _ _ _ _) trivial
  | releaseAll => exact Iff.rfl
  | write k =>
    obtain ⟨keys, modifiers⟩ := keyboard.write_cases k
    exact ⟨fun leaves => modifiers.mp leaves.2, fun meets => ⟨keys.filter _, modifiers.mpr meets⟩⟩

end BLEKeyboard

/-- **Typing leaves alone what is held, in a run, exactly when** each character that is written meets the
condition. -/
theorem typing_leaves_keys_iff (calls : List KeyboardCall) :
    EachStep BLEKeyboard.step BLEKeyboard.LeavesAlone .initial calls ↔
      EachStep BLEKeyboard.step BLEKeyboard.Meets .initial calls := by
  have same : BLEKeyboard.LeavesAlone = BLEKeyboard.Meets := by
    funext keyboard input
    exact propext (keyboard.leavesAlone_iff input)
  rw [same]

/-- The shift key is held, and a capital letter is typed: the key is let go. -/
theorem shift_released : ¬ EachStep BLEKeyboard.step BLEKeyboard.LeavesAlone .initial
    [.press 0 keycodeModLeftShift, .write 65] := by
  rintro ⟨-, ⟨-, modifiers⟩, -⟩
  exact absurd modifiers (by decide +kernel)

end PrimoCore.Ble
