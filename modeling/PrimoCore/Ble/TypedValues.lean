/-
**Remote values of a type.**

A remote characteristic stores what the peer has sent. `value` copies it into a variable of its type, as
many bytes as there are, and `valueBE` reverses the bytes of that variable.

* `RemoteBuffer` — `_value` and `_valueLength`, with `setValue`; cells that nothing has been stored in
  are undefined.
* `RemoteTyped.value`, `RemoteTyped.valueBE` — the code; `copied` and `byteSwap` are their variables, with
  the indices that are written.
* `ReadsRight` — what the two functions are to do.
* `typed_value_iff` — **after any values of the peer, they do it exactly when** the last one has the size
  of the type.
-/

import Mathlib.Tactic.SplitIfs
import PrimoCore.Lib.Buffer
import PrimoCore.Lib.Bytes

namespace PrimoCore.Ble

open PrimoCore.Lib

/-- `BLE_REMOTE_ATTRIBUTE_MAX_VALUE_LENGTH`. -/
def remoteAttributeMaxValueLength : Nat := 22

/-- An array nothing has been stored in. -/
def undefinedArray : Buffer (Option UInt8) := ⟨fun _ => none, []⟩

/-- `_valueLength` and `_value` of a `BLERemoteCharacteristic`. -/
structure RemoteBuffer where
  valueLength : UInt8
  value : Buffer (Option UInt8)

namespace RemoteBuffer

/-- The constructor. -/
def new : RemoteBuffer := ⟨0, undefinedArray⟩

/-- `setValue`, for a read response and for a notification. -/
def setValue (remote : RemoteBuffer) (payload : List UInt8) : RemoteBuffer :=
  let length := UInt8.ofNat payload.length
  { valueLength := length
    value := remote.value.memcpy 0 (fun index => payload[index]?) length.toNat }

/-- The characteristic after some values of the peer. -/
def received (payloads : List (List UInt8)) : RemoteBuffer := payloads.foldl setValue new

end RemoteBuffer

/-! ### `BLERemoteTypedCharacteristic` -/

namespace RemoteTyped

variable {T : Type*} (type : ByteType T) (remote : RemoteBuffer)

/-- The variable of `value` after the `memcpy`. -/
def copied : Buffer (Option UInt8) :=
  undefinedArray.memcpy 0 remote.value.bytes remote.valueLength.toNat

/-- The variable of `byteSwap`, whose argument is another one. -/
def byteSwap (value : Buffer (Option UInt8)) : Buffer (Option UInt8) :=
  (List.range type.size).foldl
    (fun result i => result.set i (value.bytes (type.size - i - 1))) undefinedArray

/-- What a variable of the type holds, if its bytes are defined. -/
def held (result : Buffer (Option UInt8)) : Option T :=
  (known (slice result.bytes 0 type.size)).map type.ofBytes

/-- `value`. -/
def value : Option T := held type (copied remote)

/-- `valueBE`. -/
def valueBE : Option T := held type (byteSwap type (copied remote))

/-- **What the two functions are to do** after some values of the peer: they write inside their variables
and return a defined value; and where the last value has the size of the type, it is that value, read
with its lowest byte first, or last. -/
structure ReadsRight (payloads : List (List UInt8)) : Prop where
  inside : (copied (.received payloads)).WritesBelow type.size ∧
    (byteSwap type (copied (.received payloads))).WritesBelow type.size
  defined : (value type (.received payloads)).isSome ∧ (valueBE type (.received payloads)).isSome
  decoded : ∀ payload ∈ payloads.getLast?, payload.length = type.size →
    value type (.received payloads) = some (type.ofBytes payload) ∧
      valueBE type (.received payloads) = some (type.ofBytes payload.reverse)

end RemoteTyped

/-! ### What is stored -/

namespace RemoteBuffer

/-- A value of the peer lies in front of the array. -/
structure Stores (remote : RemoteBuffer) (payload : List UInt8) : Prop where
  length : remote.valueLength.toNat = payload.length
  bytes : ∀ index < payload.length, remote.value.bytes index = payload[index]?

/-- A value of the peer that fits is stored. -/
theorem setValue_stores (remote : RemoteBuffer) {payload : List UInt8}
    (short : payload.length ≤ remoteAttributeMaxValueLength) : (remote.setValue payload).Stores payload := by
  have length : (UInt8.ofNat payload.length).toNat = payload.length := by
    rw [remoteAttributeMaxValueLength] at short
    rw [UInt8.toNat_ofNat']
    exact Nat.mod_eq_of_lt (by omega)
  refine ⟨length, fun index inside => ?_⟩
  show (if 0 ≤ index ∧ index < 0 + (UInt8.ofNat payload.length).toNat then payload[index - 0]? else _) = _
  rw [length, if_pos ⟨Nat.zero_le _, by omega⟩, Nat.sub_zero]

/-- **After some values of the peer, the last one is stored**; before the first, nothing is. -/
theorem received_stores {payloads : List (List UInt8)}
    (short : ∀ payload ∈ payloads, payload.length ≤ remoteAttributeMaxValueLength) :
    (received payloads).Stores (payloads.getLast?.getD []) := by
  rcases List.eq_nil_or_concat payloads with rfl | ⟨front, last, rfl⟩
  · exact ⟨rfl, fun index below => absurd below (Nat.not_lt_zero index)⟩
  · rw [List.concat_eq_append] at short ⊢
    have shortLast := short last (List.mem_append_right _ (List.mem_singleton_self last))
    rw [List.getLast?_concat, Option.getD_some, received, List.foldl_append]
    exact setValue_stores _ shortLast

end RemoteBuffer

namespace RemoteTyped

variable {T : Type*} {type : ByteType T} {remote : RemoteBuffer} {payload : List UInt8}

/-! ### The two variables -/

/-- The first variable gets the stored bytes, and nothing else. -/
theorem copied_bytes (stores : remote.Stores payload) (index : Nat) :
    (copied remote).bytes index = payload[index]? := by
  show (if 0 ≤ index ∧ index < 0 + remote.valueLength.toNat then remote.value.bytes (index - 0)
    else none) = _
  rw [stores.length, Nat.zero_add, Nat.sub_zero]
  by_cases inside : index < payload.length
  · rw [if_pos ⟨Nat.zero_le _, inside⟩, stores.bytes index inside]
  · rw [if_neg fun both => inside both.2, List.getElem?_eq_none (Nat.le_of_not_lt inside)]

/-- It has room for them exactly when there are not too many. -/
theorem copied_inside_iff (stores : remote.Stores payload) (size : Nat) :
    (copied remote).WritesBelow size ↔ payload.length ≤ size := by
  have written : (copied remote).written = (List.range payload.length).map (0 + ·) ++ [] :=
    stores.length ▸ rfl
  rw [Buffer.WritesBelow, written, List.append_nil]
  constructor
  · intro below
    by_contra long
    have last := below size (List.mem_map.mpr ⟨size, List.mem_range.mpr (by omega), Nat.zero_add size⟩)
    exact absurd last (Nat.lt_irrefl size)
  · intro fits index member
    obtain ⟨offset, inside, rfl⟩ := List.mem_map.mp member
    have := List.mem_range.mp inside
    omega

/-- The loop of `byteSwap` after some rounds. -/
theorem byteSwap_rounds (value : Buffer (Option UInt8)) (size count : Nat) :
    let result := (List.range count).foldl
      (fun result i => Buffer.set result i (value.bytes (size - i - 1))) undefinedArray
    (∀ index < count, result.bytes index = value.bytes (size - index - 1)) ∧
      ∀ index ∈ result.written, index < count := by
  induction count with
  | zero => exact ⟨fun index below => absurd below (Nat.not_lt_zero index), fun _ none => by cases none⟩
  | succ count ih =>
    obtain ⟨bytes, written⟩ := ih
    simp only [List.range_succ, List.foldl_append, List.foldl_cons, List.foldl_nil]
    refine ⟨fun index below => ?_, fun index member => ?_⟩
    · rw [Buffer.set_at]
      split_ifs with last
      · rw [last]
      · exact bytes index (by omega)
    · rcases List.mem_cons.mp member with rfl | earlier
      · exact Nat.lt_succ_self _
      · exact Nat.lt_succ_of_lt (written index earlier)

/-- The second variable has room, and gets the bytes of the first one in reverse. -/
theorem byteSwap_spec (type : ByteType T) (value : Buffer (Option UInt8)) :
    (byteSwap type value).WritesBelow type.size ∧
      slice (byteSwap type value).bytes 0 type.size = (slice value.bytes 0 type.size).reverse := by
  obtain ⟨bytes, written⟩ := byteSwap_rounds value type.size type.size
  refine ⟨written, List.ext_getElem (by simp) fun index first second => ?_⟩
  rw [slice_length] at first
  rw [getElem_slice, List.getElem_reverse, getElem_slice, slice_length, Nat.zero_add, Nat.zero_add]
  have swapped : (byteSwap type value).bytes index = value.bytes (type.size - index - 1) :=
    bytes index first
  rw [swapped, show type.size - index - 1 = type.size - 1 - index by omega]

/-- The cells of the first variable. -/
theorem slice_copied (stores : remote.Stores payload) (exact_size : payload.length = type.size) :
    slice (copied remote).bytes 0 type.size = payload.map some := by
  refine List.ext_getElem (by rw [slice_length, List.length_map, exact_size]) fun index first second => ?_
  rw [slice_length] at first
  rw [getElem_slice, List.getElem_map, Nat.zero_add, copied_bytes stores,
    List.getElem?_eq_getElem (exact_size ▸ first)]

/-- A short value leaves a cell undefined. -/
theorem value_undefined (stores : remote.Stores payload) (short : payload.length < type.size) :
    (value type remote).isSome = false := by
  have missing : none ∈ slice (copied remote).bytes 0 type.size := by
    rw [slice, List.mem_map]
    refine ⟨payload.length, List.mem_range.mpr short, ?_⟩
    rw [Nat.zero_add, copied_bytes stores]
    exact List.getElem?_eq_none (Nat.le_refl _)
  rw [value, held, Option.isSome_map, Bool.eq_false_iff, Ne, known_isSome_iff]
  exact not_not.mpr missing

/-- A value of the right size is returned, by `valueBE` in reverse. -/
theorem value_exact (stores : remote.Stores payload) (exact_size : payload.length = type.size) :
    value type remote = some (type.ofBytes payload) ∧
      valueBE type remote = some (type.ofBytes payload.reverse) := by
  have cells := slice_copied stores exact_size
  refine ⟨?_, ?_⟩
  · rw [value, held, cells, known_map_some, Option.map_some]
  · rw [valueBE, held, (byteSwap_spec type _).2, cells, ← List.map_reverse, known_map_some,
      Option.map_some]

/-- For unsigned numbers: the number of the bytes, little endian and big endian. -/
theorem number_exact {size : Nat} {positive : 0 < size} (stores : remote.Stores payload)
    (exact_size : payload.length = size) :
    value (.unsigned size positive) remote = some (Nat.ofDigits 256 (payload.map UInt8.toNat)) ∧
      valueBE (.unsigned size positive) remote = some (bigEndian payload) := by
  have result := @value_exact _ (ByteType.unsigned size positive) _ _ stores exact_size
  rw [ByteType.unsigned_reverse] at result
  exact result

/-- **When remote values are read rightly.** For every type and all values the peer has sent, `value` and
`valueBE` do what they are to do exactly when the peer has sent one, and the last has the size of the
type. -/
theorem typed_value_iff (type : ByteType T) {payloads : List (List UInt8)}
    (short : ∀ payload ∈ payloads, payload.length ≤ remoteAttributeMaxValueLength) :
    ReadsRight type payloads ↔ ∃ payload ∈ payloads.getLast?, payload.length = type.size := by
  have stores := RemoteBuffer.received_stores short
  constructor
  · rintro ⟨⟨inside, -⟩, ⟨defined, -⟩, -⟩
    have fits := (copied_inside_iff stores type.size).mp inside
    have long : ¬ (payloads.getLast?.getD []).length < type.size := by
      intro less
      rw [value_undefined stores less] at defined
      cases defined
    have positive := type.positive
    cases last : payloads.getLast? with
    | none =>
      rw [last] at long
      exact absurd positive long
    | some payload =>
      rw [last, Option.getD_some] at fits long
      exact ⟨payload, rfl, by omega⟩
  · rintro ⟨payload, last, exact_size⟩
    rw [Option.mem_def] at last
    rw [last, Option.getD_some] at stores
    have result := @value_exact _ type _ _ stores exact_size
    refine ⟨⟨?_, (byteSwap_spec type _).1⟩, ?_, ?_⟩
    · exact (copied_inside_iff stores type.size).mpr (Nat.le_of_eq exact_size)
    · rw [result.1, result.2]
      exact ⟨rfl, rfl⟩
    · intro other isLast _
      obtain rfl := Option.some.inj (last.symm.trans isLast)
      exact result

/-- `unsigned short`. -/
def unsignedShort : ByteType Nat := .unsigned 2 (by decide)

/-- A peer that sends one byte, and then two. -/
theorem typed_value_iff_two : ReadsRight unsignedShort [[5], [1, 2]] :=
  (typed_value_iff unsignedShort (by decide)).mpr ⟨[1, 2], rfl, rfl⟩

/-- **A value of another size**: with three bytes, `value` writes behind its variable; with one, it returns
an undefined byte. -/
theorem value_overrun : ¬ ReadsRight unsignedShort [[1, 2, 3]] ∧ ¬ ReadsRight unsignedShort [[1]] := by
  refine ⟨fun right => ?_, fun right => ?_⟩
  · have behind : 2 ∈ (copied (.received [[1, 2, 3]])).written := by decide
    exact absurd (right.inside.1 2 behind) (by decide)
  · exact absurd right.defined.1 (by decide)

end RemoteTyped

end PrimoCore.Ble
