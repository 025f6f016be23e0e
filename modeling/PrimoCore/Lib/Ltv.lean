/-
**Length-tag-value records.**

A record is a length byte, a tag byte and a value; the length counts the tag and the value. A zero
length, and a length that runs past the end, are not records.

* `parse` — reads a byte list as a sequence of records, or fails.
* `parse_encode` — what is encoded is read back.
* `encode_of_parse` — only encodings are read: a byte list that parses is the encoding of its records.
-/

import Mathlib.Data.List.Basic

namespace PrimoCore.Lib.Ltv

/-- A record. The value leaves room for the tag in the length byte. -/
structure Record where
  tag : UInt8
  value : List UInt8
  fits : value.length < 255
  deriving DecidableEq

/-- The bytes of a record. -/
def Record.encode (record : Record) : List UInt8 :=
  UInt8.ofNat (record.value.length + 1) :: record.tag :: record.value

/-- The bytes of a sequence of records. -/
def encode (records : List Record) : List UInt8 :=
  records.flatMap Record.encode

@[simp] theorem encode_nil : encode [] = [] := rfl

@[simp] theorem encode_cons (record : Record) (rest : List Record) :
    encode (record :: rest) = record.encode ++ encode rest := rfl

@[simp] theorem encode_append (first second : List Record) :
    encode (first ++ second) = encode first ++ encode second :=
  List.flatMap_append

@[simp] theorem Record.encode_length (record : Record) :
    record.encode.length = record.value.length + 2 := rfl

/-- The length byte counts the tag and the value. -/
theorem Record.lengthByte_toNat (record : Record) :
    (UInt8.ofNat (record.value.length + 1)).toNat = record.value.length + 1 := by
  rw [UInt8.toNat_ofNat']
  exact Nat.mod_eq_of_lt (by have := record.fits; omega)

/-- Reads one record off the front. -/
def take : List UInt8 → Option (Record × List UInt8)
  | length :: tag :: rest =>
      if fits : 1 ≤ length.toNat ∧ length.toNat - 1 ≤ rest.length then
        some (⟨tag, rest.take (length.toNat - 1), by
          have := length.toNat_lt
          rw [List.length_take]
          omega⟩, rest.drop (length.toNat - 1))
      else none
  | _ => none

theorem take_encode (record : Record) (rest : List UInt8) :
    take (record.encode ++ rest) = some (record, rest) := by
  have count := record.lengthByte_toNat
  simp only [take, Record.encode, List.cons_append, count, Nat.add_sub_cancel]
  rw [dif_pos ⟨by omega, by simp⟩]
  simp

theorem encode_of_take {bytes rest : List UInt8} {record : Record}
    (taken : take bytes = some (record, rest)) : bytes = record.encode ++ rest := by
  match bytes, taken with
  | length :: tag :: tail, taken =>
    simp only [take] at taken
    split at taken
    · rename_i fits
      simp only [Option.some.injEq, Prod.mk.injEq] at taken
      obtain ⟨rfl, rfl⟩ := taken
      have count : (tail.take (length.toNat - 1)).length + 1 = length.toNat := by
        rw [List.length_take]
        omega
      simp only [Record.encode, count, List.cons_append, UInt8.ofNat_toNat, List.take_append_drop]
    · cases taken

theorem length_of_take {bytes rest : List UInt8} {record : Record}
    (taken : take bytes = some (record, rest)) : rest.length < bytes.length := by
  rw [encode_of_take taken, List.length_append, Record.encode_length]
  omega

/-- Reads a byte list as a sequence of records. -/
def parse (bytes : List UInt8) : Option (List Record) :=
  if bytes = [] then some []
  else
    match taken : take bytes with
    | none => none
    | some (record, rest) =>
      have : rest.length < bytes.length := length_of_take taken
      (parse rest).map (record :: ·)
termination_by bytes.length

/-- **What is encoded is read back.** -/
theorem parse_encode (records : List Record) : parse (encode records) = some records := by
  induction records with
  | nil => rw [parse, if_pos encode_nil]
  | cons record rest ih =>
    have some_bytes : encode (record :: rest) ≠ [] := by simp [Record.encode]
    rw [parse, if_neg some_bytes]
    have front := take_encode record (encode rest)
    rw [← encode_cons] at front
    split
    · simp_all
    · rename_i taken
      rw [front] at taken
      cases taken
      rw [ih]
      rfl

/-- **Only encodings are read.** -/
theorem encode_of_parse {bytes : List UInt8} {records : List Record}
    (parsed : parse bytes = some records) : encode records = bytes := by
  induction records generalizing bytes with
  | nil =>
    rw [parse] at parsed
    split at parsed
    · rename_i none_left
      rw [none_left, encode_nil]
    · split at parsed
      · cases parsed
      · simp at parsed
  | cons record rest ih =>
    rw [parse] at parsed
    split at parsed
    · cases parsed
    · split at parsed
      · cases parsed
      · rename_i taken
        simp only [Option.map_eq_some_iff, List.cons.injEq] at parsed
        obtain ⟨tail, tailParsed, rfl, rfl⟩ := parsed
        rw [encode_cons, ih tailParsed, encode_of_take taken]

/-- A byte list parses exactly when it is an encoding. -/
theorem parse_isSome_iff (bytes : List UInt8) :
    (parse bytes).isSome ↔ ∃ records, encode records = bytes := by
  constructor
  · intro parsed
    obtain ⟨records, same⟩ := Option.isSome_iff_exists.mp parsed
    exact ⟨records, encode_of_parse same⟩
  · rintro ⟨records, rfl⟩
    rw [parse_encode]
    rfl

end PrimoCore.Lib.Ltv
