/-
**Writers into a buffer of a limited room.**

A writer is handed a memory, a place in it and the room there is, and says what it made of them. It
may fail. It keeps to its room: what it reports as its length is no more than the room, and nothing
outside the room is touched, whether it fails or not.

* `Stored` — some bytes stand at a place; `stored_cons_iff` and `stored_append_iff` take them apart.
* `Writer` — a writer with the proof that it keeps to its room.
* `Writer.Emits` — a writer of some bytes: **with room for them it stores them, without it fails**.
* `Writer.Emits.unique` — a writer emits one list of bytes.
* `Writer.copying`, `Writer.failing` — a writer of given bytes, and one that fails; `Writer.like`
  takes over the proofs of a writer.
* `overlay_comm` — two stores that do not meet may change places.
* `overlay_patch` — bytes whose middle is stored last.
-/

import PrimoCore.Lib.CStr

namespace PrimoCore.Lib

/-! ### Bytes at a place -/

/-- Some bytes stand at a place of a memory. -/
def Stored (memory : Memory UInt8) (start : Nat) (bytes : List UInt8) : Prop :=
  slice memory start bytes.length = bytes

instance decidableStored (memory : Memory UInt8) (start : Nat) (bytes : List UInt8) :
    Decidable (Stored memory start bytes) :=
  inferInstanceAs (Decidable (slice memory start bytes.length = bytes))

section Stored

variable {memory : Memory UInt8} {start : Nat}

@[simp] theorem stored_nil : Stored memory start [] := rfl

theorem stored_cons_iff {byte : UInt8} {rest : List UInt8} :
    Stored memory start (byte :: rest) ↔ memory start = byte ∧ Stored memory (start + 1) rest := by
  unfold Stored
  rw [List.length_cons, slice_succ, List.cons.injEq]

theorem stored_append_iff {first second : List UInt8} :
    Stored memory start (first ++ second) ↔
      Stored memory start first ∧ Stored memory (start + first.length) second := by
  constructor
  · intro both
    exact slice_split both
  · rintro ⟨here, behind⟩
    unfold Stored at here behind ⊢
    rw [List.length_append, slice_add, here, behind]

theorem stored_slice (memory : Memory UInt8) (start count : Nat) :
    Stored memory start (slice memory start count) := by
  unfold Stored
  rw [slice_length]

theorem stored_overlay (memory : Memory UInt8) (start : Nat) (bytes : List UInt8) :
    Stored (overlay memory start bytes) start bytes :=
  slice_overlay ..

/-- A store of what is there changes nothing. -/
theorem Stored.overlay_eq {bytes : List UInt8} (holds : Stored memory start bytes) :
    overlay memory start bytes = memory := by
  have same := overlay_slice memory start bytes.length
  rwa [show slice memory start bytes.length = bytes from holds] at same

/-- Two lists of one length at one place are the same. -/
theorem Stored.unique {bytes others : List UInt8} (holds : Stored memory start bytes)
    (also : Stored memory start others) (length : bytes.length = others.length) : bytes = others := by
  unfold Stored at holds also
  rw [← holds, ← also, length]

end Stored

/-! ### Stores that do not meet -/

theorem overlay_comm (memory : Memory UInt8) {first second : Nat} {these those : List UInt8}
    (apart : first + these.length ≤ second) :
    overlay (overlay memory first these) second those =
      overlay (overlay memory second those) first these := by
  funext position
  by_cases inThese : first ≤ position ∧ position < first + these.length
  · obtain ⟨offset, rfl⟩ := Nat.exists_eq_add_of_le inThese.1
    have inside : offset < these.length := by omega
    rw [overlay_outside (by omega), overlay_inside inside, overlay_inside inside]
  · have outside : position < first ∨ first + these.length ≤ position := by omega
    have untouched : overlay (overlay memory second those) first these position =
        overlay memory second those position := overlay_outside outside
    rw [untouched]
    by_cases inThose : second ≤ position ∧ position < second + those.length
    · obtain ⟨offset, rfl⟩ := Nat.exists_eq_add_of_le inThose.1
      have inside : offset < those.length := by omega
      rw [overlay_inside inside, overlay_inside inside]
    · have beyond : position < second ∨ second + those.length ≤ position := by omega
      rw [overlay_outside beyond, overlay_outside beyond, overlay_outside outside]

/-- Bytes of three parts, of which the one in the middle is stored last. -/
theorem overlay_patch (memory : Memory UInt8) (start : Nat) (front middle back : List UInt8) :
    overlay (overlay (overlay memory start front) (start + front.length + middle.length) back)
      (start + front.length) middle = overlay memory start (front ++ middle ++ back) := by
  calc overlay (overlay (overlay memory start front) (start + front.length + middle.length) back)
        (start + front.length) middle
      = overlay (overlay (overlay memory start front) (start + front.length) middle)
          (start + front.length + middle.length) back := (overlay_comm _ (Nat.le_refl _)).symm
    _ = overlay (overlay memory start (front ++ middle)) (start + (front ++ middle).length) back := by
        rw [overlay_append memory start front middle, List.length_append, Nat.add_assoc]
    _ = overlay memory start (front ++ middle ++ back) := overlay_append ..

/-! ### Writers -/

/-- What a writer leaves: a code, the memory and a length. -/
structure Written (Code : Type*) where
  code : Code
  memory : Memory UInt8
  length : Nat

/-- **A writer that keeps to its room.** -/
structure Writer (Code : Type*) (success : Code) where
  write : Memory UInt8 → Nat → Nat → Written Code
  within : ∀ memory start room, (write memory start room).code = success →
    (write memory start room).length ≤ room
  frame : ∀ memory start room position, position < start ∨ start + room ≤ position →
    (write memory start room).memory position = memory position

variable {Code : Type*} {success full : Code}

/-- **A writer of some bytes.** With room for them it stores them and reports their number; without
room it fails with the code for that. -/
structure Writer.Emits (writer : Writer Code success) (full : Code) (bytes : List UInt8) : Prop where
  emitted : ∀ memory start room, bytes.length ≤ room →
    writer.write memory start room = ⟨success, overlay memory start bytes, bytes.length⟩
  refused : ∀ memory start room, room < bytes.length → (writer.write memory start room).code = full

namespace Writer

/-- A writer of some bytes succeeds exactly when there is room for them. -/
theorem Emits.success_iff {writer : Writer Code success} {bytes : List UInt8}
    (emits : writer.Emits full bytes) (different : full ≠ success) (memory : Memory UInt8)
    (start room : Nat) :
    (writer.write memory start room).code = success ↔ bytes.length ≤ room := by
  constructor
  · intro succeeded
    by_contra short
    exact different ((emits.refused memory start room (by omega)).symm.trans succeeded)
  · intro fits
    rw [emits.emitted memory start room fits]

/-- A writer emits one list of bytes. -/
theorem Emits.unique {writer : Writer Code success} {bytes others : List UInt8}
    (emits : writer.Emits full bytes) (also : writer.Emits full others) : bytes = others := by
  let room := max bytes.length others.length
  have first := emits.emitted (fun _ => 0) 0 room (Nat.le_max_left ..)
  have second := also.emitted (fun _ => 0) 0 room (Nat.le_max_right ..)
  have same := first.symm.trans second
  have length : bytes.length = others.length := congrArg Written.length same
  have memory := congrArg Written.memory same
  have read := slice_overlay (fun _ => 0) 0 bytes
  rw [show overlay _ 0 bytes = overlay _ 0 others from memory, length, slice_overlay] at read
  exact read.symm

/-- A writer that checks the room for some bytes and copies them. -/
def copying (success full : Code) (bytes : List UInt8) : Writer Code success where
  write := fun memory start room =>
    if room < bytes.length then ⟨full, memory, room⟩
    else ⟨success, overlay memory start bytes, bytes.length⟩
  within := by
    intro memory start room _
    split
    · exact Nat.le_refl _
    · next fits => exact Nat.le_of_not_lt fits
  frame := by
    intro memory start room position outside
    split
    · rfl
    · exact overlay_outside (by omega)

theorem copying_emits (success full : Code) (bytes : List UInt8) :
    (copying success full bytes).Emits full bytes where
  emitted := fun _ _ _ fits => if_neg (Nat.not_lt_of_le fits)
  refused := fun _ _ _ short => congrArg Written.code (if_pos short)

/-- A writer that fails at once. -/
def failing (success code : Code) : Writer Code success where
  write := fun memory _ room => ⟨code, memory, room⟩
  within := fun _ _ _ _ => Nat.le_refl _
  frame := fun _ _ _ _ _ => rfl

/-- A function that writes what a writer writes. -/
def like (writer : Writer Code success) (write : Memory UInt8 → Nat → Nat → Written Code)
    (same : write = writer.write) : Writer Code success where
  write := write
  within := same ▸ writer.within
  frame := same ▸ writer.frame

theorem like_eq (writer : Writer Code success) (write : Memory UInt8 → Nat → Nat → Written Code)
    (same : write = writer.write) : writer.like write same = writer := by
  subst same
  rfl

end Writer

end PrimoCore.Lib
