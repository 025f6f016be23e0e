/-
**NDEF messages.**

`nfc_ndef_msg_encode` writes the records of a message one behind the other, `internal_ndef_msg_parser`
reads them back. The bits of the first byte of a record say whether it is the first or the last.

* `NdefMsgDesc` — a message descriptor; `nfcNdefMsgRecordAdd` and `nfcNdefMsgClear` change it.
* `NdefMsgDesc.writer` — the encoder as a payload constructor: **it keeps to its buffer**, so that
  messages can be nested.
* `msgWriter_emits` — **the encoder emits the records of the message, or there is no room**.
* `parseRecords_success_iff` — what the loop of the parser accepts.
* `ndefParserMemoResolve_eq_ok_iff` — how many records a result buffer has room for.
* `ndefMsgParser_success_iff` — **the parser accepts exactly the messages with room in its result
  buffer**, apart from records whose payload runs out of the data.
* `message_round_trip` — **a message that was encoded is read back**, whatever follows it; with a
  result buffer that is too small the parser returns `NRF_ERROR_NO_MEM`.
-/

import Mathlib.Data.List.Forall2
import Mathlib.Tactic.Ring
import PrimoCore.Nfc.NdefRecord

namespace PrimoCore.Nfc

open PrimoCore.Lib

/-! ### Message descriptors -/

/-- `nfc_ndef_msg_desc_t`: the records that were added, and the size of the array for them. The array
holds pointers to records, or here the records themselves. -/
structure NdefMsgDesc (Record : Type) where
  records : List Record
  maxRecordCount : Nat
  counted : records.length ≤ maxRecordCount

section Descriptors

variable {Record : Type}

/-- `NFC_NDEF_MSG_DEF`. -/
def nfcNdefMsgDef (maxRecordCount : Nat) : NdefMsgDesc Record := ⟨[], maxRecordCount, Nat.zero_le _⟩

/-- `nfc_ndef_msg_clear`. -/
def nfcNdefMsgClear (msg : NdefMsgDesc Record) : NdefMsgDesc Record :=
  ⟨[], msg.maxRecordCount, Nat.zero_le _⟩

/-- `nfc_ndef_msg_record_add`. -/
def nfcNdefMsgRecordAdd (msg : NdefMsgDesc Record) (record : Record) : RetCode × NdefMsgDesc Record :=
  if full : msg.records.length ≥ msg.maxRecordCount then (.noMem, msg)
  else
    (.success, ⟨msg.records ++ [record], msg.maxRecordCount, by
      rw [List.length_append, List.length_singleton]
      omega⟩)

/-- The message with the records behind its pointers. -/
def NdefMsgDesc.resolve (msg : NdefMsgDesc Record) (desc : Record → NdefRecordDesc) :
    NdefMsgDesc NdefRecordDesc :=
  ⟨msg.records.map desc, msg.maxRecordCount, by
    rw [List.length_map]
    exact msg.counted⟩

end Descriptors

/-! ### The encoder -/

/-- `record_location_get`. -/
def recordLocationGet (index recordCount : Nat) : RecordLocation :=
  if index = 0 then if recordCount = 1 then .lone else .first
  else if recordCount = index + 1 then .last
  else .middle

/-- The loop of `nfc_ndef_msg_encode`. -/
def encodeRecords (recordCount msgLen msgBuffer : Nat) :
    Nat → Nat → Memory UInt8 → List NdefRecordDesc → Written RetCode
  | _, sumOfLen, memory, [] => ⟨.success, memory, sumOfLen⟩
  | index, sumOfLen, memory, record :: rest =>
      let encoded := nfcNdefRecordEncode record (recordLocationGet index recordCount).code memory
        (msgBuffer + sumOfLen) (msgLen - sumOfLen)
      if encoded.code ≠ .success then ⟨encoded.code, encoded.memory, msgLen⟩
      else encodeRecords recordCount msgLen msgBuffer (index + 1) (sumOfLen + encoded.length)
        encoded.memory rest

/-- `nfc_ndef_msg_encode`. -/
def nfcNdefMsgEncode (msg : NdefMsgDesc NdefRecordDesc) (memory : Memory UInt8) (msgBuffer msgLen : Nat) :
    Written RetCode :=
  encodeRecords msg.records.length msgLen msgBuffer 0 0 memory msg.records

section Keeps

variable {recordCount msgLen msgBuffer : Nat}

theorem encodeRecords_within {records : List NdefRecordDesc} {index sumOfLen : Nat}
    {memory : Memory UInt8} (below : sumOfLen ≤ msgLen)
    (succeeded : (encodeRecords recordCount msgLen msgBuffer index sumOfLen memory records).code =
      .success) :
    (encodeRecords recordCount msgLen msgBuffer index sumOfLen memory records).length ≤ msgLen := by
  induction records generalizing index sumOfLen memory with
  | nil => exact below
  | cons record rest ih =>
    unfold encodeRecords at succeeded ⊢
    dsimp only at succeeded ⊢
    split
    · exact Nat.le_refl _
    · next written =>
      rw [if_neg written] at succeeded
      have within := (record.writer (recordLocationGet index recordCount).code).within memory
        (msgBuffer + sumOfLen) (msgLen - sumOfLen) (Decidable.not_not.mp written)
      exact ih (by
        change (nfcNdefRecordEncode ..).length ≤ _ at within
        omega) succeeded

theorem encodeRecords_frame {records : List NdefRecordDesc} {index sumOfLen position : Nat}
    {memory : Memory UInt8} (below : sumOfLen ≤ msgLen)
    (outside : position < msgBuffer ∨ msgBuffer + msgLen ≤ position) :
    (encodeRecords recordCount msgLen msgBuffer index sumOfLen memory records).memory position =
      memory position := by
  induction records generalizing index sumOfLen memory with
  | nil => rfl
  | cons record rest ih =>
    have frame := (record.writer (recordLocationGet index recordCount).code).frame memory
      (msgBuffer + sumOfLen) (msgLen - sumOfLen) position (by omega)
    unfold encodeRecords
    dsimp only
    split
    · exact frame
    · next written =>
      have within := (record.writer (recordLocationGet index recordCount).code).within memory
        (msgBuffer + sumOfLen) (msgLen - sumOfLen) (Decidable.not_not.mp written)
      change (nfcNdefRecordEncode ..).length ≤ _ at within
      exact (ih (by omega)).trans frame

end Keeps

/-- **The encoder of messages keeps to its buffer**, whatever the payload constructors do in theirs. -/
def NdefMsgDesc.writer (msg : NdefMsgDesc NdefRecordDesc) : PayloadConstructor where
  write := nfcNdefMsgEncode msg
  within := fun _ _ _ => encodeRecords_within (Nat.zero_le _)
  frame := fun _ _ _ _ => encodeRecords_frame (Nat.zero_le _)

/-! ### The bytes of a message -/

/-- The records of a message on the wire, from an index on. -/
def wiresFrom (recordCount : Nat) : Nat → List NdefRecord → List WireRecord
  | _, [] => []
  | index, record :: rest =>
      record.wire (recordLocationGet index recordCount) :: wiresFrom recordCount (index + 1) rest

/-- The records of a message on the wire. -/
def messageWires (records : List NdefRecord) : List WireRecord := wiresFrom records.length 0 records

/-- The bytes of some records. -/
def wireBytes (wires : List WireRecord) : List UInt8 := wires.flatMap WireRecord.bytes

@[simp] theorem wireBytes_nil : wireBytes [] = [] := rfl

@[simp] theorem wireBytes_cons (wire : WireRecord) (rest : List WireRecord) :
    wireBytes (wire :: rest) = wire.bytes ++ wireBytes rest := rfl

/-- A descriptor of a message: its records describe those of the message. -/
def NdefMsgDesc.Describes (msg : NdefMsgDesc NdefRecordDesc) (records : List NdefRecord) : Prop :=
  List.Forall₂ NdefRecordDesc.Describes msg.records records

theorem encodeRecords_emitted {recordCount msgLen msgBuffer : Nat} {descs : List NdefRecordDesc}
    {records : List NdefRecord} (describes : List.Forall₂ NdefRecordDesc.Describes descs records)
    {index sumOfLen : Nat} {memory : Memory UInt8}
    (fits : sumOfLen + (wireBytes (wiresFrom recordCount index records)).length ≤ msgLen) :
    encodeRecords recordCount msgLen msgBuffer index sumOfLen memory descs =
      ⟨.success, overlay memory (msgBuffer + sumOfLen) (wireBytes (wiresFrom recordCount index records)),
        sumOfLen + (wireBytes (wiresFrom recordCount index records)).length⟩ := by
  induction describes generalizing index sumOfLen memory with
  | nil =>
    unfold encodeRecords wiresFrom
    rw [wireBytes_nil, overlay_nil]
    rfl
  | @cons desc record descs records one rest ih =>
    unfold wiresFrom at fits ⊢
    rw [wireBytes_cons, List.length_append] at fits
    have emitted := (writer_emits one (recordLocationGet index recordCount)).emitted memory
      (msgBuffer + sumOfLen) (msgLen - sumOfLen) (by omega)
    change nfcNdefRecordEncode .. = _ at emitted
    unfold encodeRecords
    dsimp only
    rw [emitted, if_neg (fun failed => failed rfl)]
    dsimp only
    rw [ih (by omega), wireBytes_cons, List.length_append, ← Nat.add_assoc, overlay_append,
      Nat.add_assoc]

theorem encodeRecords_refused {recordCount msgLen msgBuffer : Nat} {descs : List NdefRecordDesc}
    {records : List NdefRecord} (describes : List.Forall₂ NdefRecordDesc.Describes descs records)
    {index sumOfLen : Nat} {memory : Memory UInt8} (below : sumOfLen ≤ msgLen)
    (short : msgLen < sumOfLen + (wireBytes (wiresFrom recordCount index records)).length) :
    (encodeRecords recordCount msgLen msgBuffer index sumOfLen memory descs).code = .noMem := by
  induction describes generalizing index sumOfLen memory with
  | nil =>
    unfold wiresFrom at short
    rw [wireBytes_nil, List.length_nil] at short
    omega
  | @cons desc record descs records one rest ih =>
    unfold wiresFrom at short
    rw [wireBytes_cons, List.length_append] at short
    have emits := writer_emits one (recordLocationGet index recordCount)
    unfold encodeRecords
    dsimp only
    by_cases fits : (record.wire (recordLocationGet index recordCount)).bytes.length ≤ msgLen - sumOfLen
    · have emitted := emits.emitted memory (msgBuffer + sumOfLen) (msgLen - sumOfLen) fits
      change nfcNdefRecordEncode .. = _ at emitted
      rw [emitted, if_neg (fun failed => failed rfl)]
      dsimp only
      exact ih (by omega) (by omega)
    · have refused := emits.refused memory (msgBuffer + sumOfLen) (msgLen - sumOfLen) (by omega)
      change (nfcNdefRecordEncode ..).code = _ at refused
      rw [if_pos (by rw [refused]; exact RetCode.noConfusion)]
      exact refused

/-- A record that fails ends the message. -/
theorem encodeRecords_failed {recordCount msgLen msgBuffer index sumOfLen left : Nat}
    {memory after : Memory UInt8} {desc : NdefRecordDesc} {rest : List NdefRecordDesc} {code : RetCode}
    (failed : code ≠ .success)
    (encoded : nfcNdefRecordEncode desc (recordLocationGet index recordCount).code memory
      (msgBuffer + sumOfLen) (msgLen - sumOfLen) = ⟨code, after, left⟩) :
    encodeRecords recordCount msgLen msgBuffer index sumOfLen memory (desc :: rest) =
      ⟨code, after, msgLen⟩ := by
  unfold encodeRecords
  dsimp only
  rw [encoded, if_pos failed]

/-- **The encoder emits the records of the message**: it stores all of them, one behind the other, or
returns `NRF_ERROR_NO_MEM`. -/
theorem msgWriter_emits {msg : NdefMsgDesc NdefRecordDesc} {records : List NdefRecord}
    (describes : msg.Describes records) :
    msg.writer.Emits .noMem (wireBytes (messageWires records)) := by
  have count : msg.records.length = records.length := describes.length_eq
  constructor
  · intro memory start room fits
    show encodeRecords msg.records.length room start 0 0 memory msg.records = _
    rw [count, encodeRecords_emitted describes (by rw [Nat.zero_add]; exact fits), Nat.zero_add]
    rfl
  · intro memory start room short
    show (encodeRecords msg.records.length room start 0 0 memory msg.records).code = _
    rw [count]
    exact encodeRecords_refused describes (Nat.zero_le _) (by rw [Nat.zero_add]; exact short)

/-- **The encoder writes the records and nothing else.** With room for them they stand in the buffer one
behind the other; without room it returns `NRF_ERROR_NO_MEM`. In both cases what lies outside of the
buffer stays. -/
theorem message_written {msg : NdefMsgDesc NdefRecordDesc} {records : List NdefRecord}
    (describes : msg.Describes records) (memory : Memory UInt8) (msgBuffer msgLen : Nat) :
    let written := nfcNdefMsgEncode msg memory msgBuffer msgLen
    let bytes := wireBytes (messageWires records)
    (if bytes.length ≤ msgLen then
        written = ⟨.success, overlay memory msgBuffer bytes, bytes.length⟩
      else written.code = .noMem) ∧
      ∀ position, position < msgBuffer ∨ msgBuffer + msgLen ≤ position →
        written.memory position = memory position := by
  have emits := msgWriter_emits describes
  refine ⟨?_, msg.writer.frame memory msgBuffer msgLen⟩
  split
  · next fits => exact emits.emitted memory msgBuffer msgLen fits
  · next short => exact emits.refused memory msgBuffer msgLen (Nat.lt_of_not_le short)

/-- A message with a record whose payload is a message with an empty record, in a buffer with room. -/
theorem message_written_nested :
    let inner : NdefMsgDesc NdefRecordDesc :=
      ⟨[⟨.empty, ⟨[], by decide⟩, ⟨[], by decide⟩, binWriter []⟩], 1, by decide⟩
    let outer : NdefMsgDesc NdefRecordDesc :=
      ⟨[⟨.wellKnown, ⟨[7], by decide⟩, ⟨[0x48, 0x73], by decide⟩, inner.writer⟩], 1, by decide⟩
    let written := nfcNdefMsgEncode outer (fun _ => 0) 0 32
    let bytes : List UInt8 := [0xC9, 2, 0, 0, 0, 6, 1, 0x48, 0x73, 7, 0xC0, 0, 0, 0, 0, 0]
    written = ⟨.success, overlay (fun _ => 0) 0 bytes, 16⟩ ∧
      ∀ position, position < 0 ∨ 0 + 32 ≤ position → written.memory position = 0 := by
  intro inner outer written bytes
  have payload : inner.Describes [⟨.empty, ⟨[], by decide⟩, ⟨[], by decide⟩, [], by decide⟩] :=
    .cons ⟨rfl, rfl, rfl, binWriter_emits _⟩ .nil
  have describes : outer.Describes [⟨.wellKnown, ⟨[7], by decide⟩, ⟨[0x48, 0x73], by decide⟩,
      wireBytes (messageWires [⟨.empty, ⟨[], by decide⟩, ⟨[], by decide⟩, [], by decide⟩]), by decide⟩] :=
    .cons ⟨rfl, rfl, rfl, msgWriter_emits payload⟩ .nil
  have both := message_written describes (fun _ => 0) 0 32
  dsimp only at both
  rw [if_pos (by decide +kernel)] at both
  exact both

/-! ### The parser -/

/-- One turn of the loop of `internal_ndef_msg_parser`, up to the record that is added: the record, its
location and its size. -/
def nextRecord (memory : Memory UInt8) (recordCount nfcData : Nat) (nfcDataLeft : UInt32) :
    Except RetCode (ParsedRecord × RecordLocation × UInt32) :=
  if nfcDataLeft = 0 then .error .invalidData
  else
    match ndefRecordParser memory nfcData nfcDataLeft with
    | .error code => .error code
    | .ok (record, location, size) =>
        if recordCount = 0 then
          if location ≠ .first ∧ location ≠ .lone then .error .invalidData
          else .ok (record, location, size)
        else if location ≠ .middle ∧ location ≠ .last then .error .invalidData
        else .ok (record, location, size)

/-- The loop of `internal_ndef_msg_parser` with room for some more records: the code, the records that
are added and the data left. -/
def parseRecords (memory : Memory UInt8) :
    Nat → Nat → Nat → UInt32 → RetCode × List ParsedRecord × UInt32
  | 0, recordCount, nfcData, nfcDataLeft =>
      match nextRecord memory recordCount nfcData nfcDataLeft with
      | .error code => (code, [], nfcDataLeft)
      -- `nfc_ndef_msg_record_add` refuses it
      | .ok _ => (.noMem, [], nfcDataLeft)
  | room + 1, recordCount, nfcData, nfcDataLeft =>
      match nextRecord memory recordCount nfcData nfcDataLeft with
      | .error code => (code, [], nfcDataLeft)
      | .ok (record, location, size) =>
          if location = .last ∨ location = .lone then (.success, [record], nfcDataLeft - size)
          else if room = 0 then (.noMem, [record], nfcDataLeft - size)
          else
            let rest :=
              parseRecords memory room (recordCount + 1) (nfcData + size.toNat) (nfcDataLeft - size)
            (rest.1, record :: rest.2.1, rest.2.2)

/-- What `internal_ndef_msg_parser` leaves: a code, the records of the message, and the length, which is
that of the message after a success. -/
structure ParsedMessage where
  code : RetCode
  records : List ParsedRecord
  length : UInt32
  deriving DecidableEq

/-- `internal_ndef_msg_parser` with an empty message of some records at most. -/
def internalNdefMsgParser (memory : Memory UInt8) (maxRecordCount nfcData : Nat) (nfcDataLen : UInt32) :
    ParsedMessage :=
  let parsed := parseRecords memory maxRecordCount 0 nfcData nfcDataLen
  ⟨parsed.1, parsed.2.1,
    if parsed.1 = .success then nfcDataLen - parsed.2.2 else nfcDataLen⟩

/-! ### What the parser accepts -/

/-- The records behind some others have the locations that the encoder gives. -/
def Located : Nat → List WireRecord → Prop
  | _, [] => True
  | index, wire :: rest =>
      RecordLocation.ofFlags wire.flags = recordLocationGet index (index + (rest.length + 1)) ∧
        Located (index + 1) rest

/-- The descriptors of records that stand one behind the other. -/
def parsedFrom : Nat → List WireRecord → List ParsedRecord
  | _, [] => []
  | address, wire :: rest => wire.parsedAt address :: parsedFrom (address + wire.bytes.length) rest

/-- The payload of a record ends before a place. -/
def ParsedRecord.PayloadBelow (record : ParsedRecord) (finish : Nat) : Prop :=
  ∀ address, record.pPayload = .at address → address + record.payloadLength.toNat ≤ finish

/-- A record of the parser has its payload in the data exactly when its size is one of 32 bits. -/
theorem payloadBelow_iff {wire : WireRecord} {address left : Nat} (small : left < 2 ^ 32)
    (fits : wire.bytes.length % 2 ^ 32 ≤ left) :
    (wire.parsedAt address).PayloadBelow (address + left) ↔ wire.bytes.length < 2 ^ 32 := by
  have total := wire.bytes_length
  have header := wire.headerSize_lt
  have typeShort := wire.type.short
  have idShort := wire.id.short
  have length : (wire.parsedAt address).payloadLength.toNat = wire.payload.length :=
    UInt32.toNat_ofNat_of_lt' wire.payload_lt
  have parts : wire.headerSize ≤ 7 := by
    unfold WireRecord.headerSize
    split <;> split <;> omega
  unfold ParsedRecord.PayloadBelow
  rw [length]
  by_cases none : wire.payload = []
  · rw [none, List.length_nil] at total
    refine iff_of_true (fun at_ pointer => ?_) (by omega)
    have null : (wire.parsedAt address).pPayload = .null := if_pos none
    rw [null] at pointer
    cases pointer
  · have pointer : (wire.parsedAt address).pPayload =
        .at (address + wire.headerSize + wire.type.bytes.length + wire.id.bytes.length) := if_neg none
    constructor
    · intro below
      have ends := below _ pointer
      omega
    · intro less place same
      rw [pointer] at same
      cases same
      omega

/-- A check that refuses what was found. -/
theorem refusing_eq_ok_iff {α : Type} {refused : Prop} [Decidable refused] {found result : α}
    {code : RetCode} :
    (if refused then Except.error code else .ok found) = .ok result ↔ found = result ∧ ¬ refused := by
  by_cases no : refused
  · rw [if_pos no]
    exact iff_of_false (fun accepted => by cases accepted) (fun both => both.2 no)
  · rw [if_neg no, Except.ok.injEq]
    exact (and_iff_left no).symm

theorem nextRecord_eq_ok_iff {memory : Memory UInt8} {recordCount nfcData : Nat} {nfcDataLeft : UInt32}
    {result : ParsedRecord × RecordLocation × UInt32} :
    nextRecord memory recordCount nfcData nfcDataLeft = .ok result ↔
      ndefRecordParser memory nfcData nfcDataLeft = .ok result ∧
        if recordCount = 0 then result.2.1 = .first ∨ result.2.1 = .lone
        else result.2.1 = .middle ∨ result.2.1 = .last := by
  unfold nextRecord
  by_cases zero : nfcDataLeft = 0
  · rw [if_pos zero]
    refine iff_of_false (fun accepted => by cases accepted) ?_
    rintro ⟨parsed, -⟩
    obtain ⟨wire, -, ⟨fits, -⟩, -⟩ := ndefRecordParser_eq_ok_iff.mp parsed
    rw [zero] at fits
    unfold WireRecord.headerSize at fits
    change _ ≤ 0 at fits
    omega
  · rw [if_neg zero]
    cases parsed : ndefRecordParser memory nfcData nfcDataLeft with
    | error code => exact iff_of_false (fun accepted => by cases accepted) (fun both => by cases both.1)
    | ok found =>
      obtain ⟨record, location, size⟩ := found
      dsimp only
      rw [Except.ok.injEq]
      by_cases first : recordCount = 0
      · rw [if_pos first, if_pos first, refusing_eq_ok_iff]
        refine and_congr_right fun same => ?_
        rw [← same, not_and_or, ne_eq, ne_eq, not_not, not_not]
      · rw [if_neg first, if_neg first, refusing_eq_ok_iff]
        refine and_congr_right fun same => ?_
        rw [← same, not_and_or, ne_eq, ne_eq, not_not, not_not]

/-- **The locations say where the message ends.** A record of the location its index asks for is the
last one exactly when its location says so. -/
theorem located_cons_iff {index : Nat} {wire : WireRecord} {rest : List WireRecord} :
    Located index (wire :: rest) ↔
      (if index = 0 then RecordLocation.ofFlags wire.flags = .first ∨
          RecordLocation.ofFlags wire.flags = .lone
        else RecordLocation.ofFlags wire.flags = .middle ∨ RecordLocation.ofFlags wire.flags = .last) ∧
      ((RecordLocation.ofFlags wire.flags = .last ∨ RecordLocation.ofFlags wire.flags = .lone) ↔
        rest = []) ∧ Located (index + 1) rest := by
  have empty : rest = [] ↔ rest.length = 0 := List.length_eq_zero_iff.symm
  change RecordLocation.ofFlags wire.flags = recordLocationGet index (index + (rest.length + 1)) ∧
    Located (index + 1) rest ↔ _
  rw [empty, ← and_assoc]
  refine and_congr_left fun _ => ?_
  generalize RecordLocation.ofFlags wire.flags = location
  generalize rest.length = count
  unfold recordLocationGet
  by_cases first : index = 0
  · subst first
    rcases Nat.eq_zero_or_pos count with rfl | positive
    · cases location <;> decide
    · rw [if_pos rfl, if_neg (by omega), if_pos rfl]
      cases location <;> simp <;> omega
  · rw [if_neg first, if_neg first]
    rcases Nat.eq_zero_or_pos count with rfl | positive
    · rw [if_pos (by omega)]
      cases location <;> simp
    · rw [if_neg (by omega)]
      cases location <;> simp <;> omega

/-- A record in its place is found. -/
theorem nextRecord_wire {memory : Memory UInt8} {recordCount nfcData : Nat} {nfcDataLeft : UInt32}
    {wire : WireRecord} {rest : List WireRecord} (located : Located recordCount (wire :: rest))
    (holds : Stored memory nfcData wire.bytes) (fits : wire.bytes.length ≤ nfcDataLeft.toNat) :
    nextRecord memory recordCount nfcData nfcDataLeft =
      .ok (wire.parsedAt nfcData, RecordLocation.ofFlags wire.flags, UInt32.ofNat wire.bytes.length) := by
  have bound := nfcDataLeft.toNat_lt
  have total := wire.bytes_length
  refine nextRecord_eq_ok_iff.mpr ⟨ndefRecordParser_eq_ok_iff.mpr ⟨wire, holds, ⟨by omega, ?_⟩, rfl⟩,
    (located_cons_iff.mp located).1⟩
  rw [Nat.mod_eq_of_lt (by omega)]
  exact fits

theorem nextRecord_error {memory : Memory UInt8} {recordCount nfcData : Nat} {nfcDataLeft : UInt32}
    {code : RetCode} (refused : nextRecord memory recordCount nfcData nfcDataLeft = .error code) :
    code = .invalidData ∨ code = .invalidLength := by
  obtain ⟨wire, holds⟩ := WireRecord.exists_at memory nfcData
  unfold nextRecord at refused
  rw [ndefRecordParser_wire holds] at refused
  split at refused
  · exact .inl (Except.error.inj refused).symm
  · split at refused
    · next found =>
      split at found
      · cases found
      · cases found
        exact .inr (Except.error.inj refused).symm
    · split at refused <;> split at refused <;>
        first | exact .inl (Except.error.inj refused).symm | cases refused

/-- A size of 32 bits that fits into the data left. -/
theorem size_facts {size : Nat} {left : UInt32} (small : size < 2 ^ 32) (fits : size ≤ left.toNat) :
    (UInt32.ofNat size).toNat = size ∧ (left - UInt32.ofNat size).toNat = left.toNat - size := by
  have length : (UInt32.ofNat size).toNat = size := UInt32.toNat_ofNat_of_lt' small
  refine ⟨length, ?_⟩
  rw [UInt32.toNat_sub_of_le _ _ (UInt32.le_iff_toNat_le.mpr (by rwa [length])), length]

theorem sub_sum (left : UInt32) (first second : Nat) : left - UInt32.ofNat (first + second) =
    left - UInt32.ofNat first - UInt32.ofNat second := by
  rw [UInt32.ofNat_add]
  grind

/-- **What the loop accepts**: records that stand one behind the other, as many as there is room for,
each with the location its index asks for. -/
theorem parseRecords_success_iff {memory : Memory UInt8} {room recordCount nfcData : Nat}
    {nfcDataLeft left : UInt32} {records : List ParsedRecord} :
    (parseRecords memory room recordCount nfcData nfcDataLeft = (.success, records, left) ∧
        ∀ record ∈ records, record.PayloadBelow (nfcData + nfcDataLeft.toNat)) ↔
      ∃ wires : List WireRecord, wires ≠ [] ∧ wires.length ≤ room ∧ Located recordCount wires ∧
        Stored memory nfcData (wireBytes wires) ∧ (wireBytes wires).length ≤ nfcDataLeft.toNat ∧
        records = parsedFrom nfcData wires ∧
        left = nfcDataLeft - UInt32.ofNat (wireBytes wires).length := by
  induction room generalizing recordCount nfcData nfcDataLeft records left with
  | zero =>
    constructor
    · rintro ⟨parsed, -⟩
      unfold parseRecords at parsed
      split at parsed
      · next code refused =>
        have failed : code = .success := (Prod.mk.inj parsed).1
        rcases nextRecord_error refused with rfl | rfl <;> cases failed
      · cases (Prod.mk.inj parsed).1
    · rintro ⟨wires, some, few, -⟩
      exact absurd (List.length_eq_zero_iff.mp (Nat.le_zero.mp few)) some
  | succ room ih =>
    have bound := nfcDataLeft.toNat_lt
    constructor
    · rintro ⟨parsed, below⟩
      unfold parseRecords at parsed
      split at parsed
      · next code refused =>
        have failed : code = .success := (Prod.mk.inj parsed).1
        rcases nextRecord_error refused with rfl | rfl <;> cases failed
      · next record location size found =>
        obtain ⟨accepted, at_⟩ := nextRecord_eq_ok_iff.mp found
        obtain ⟨wire, holds, ⟨-, fits⟩, same⟩ := ndefRecordParser_eq_ok_iff.mp accepted
        cases same
        have headed : ∀ rest : List ParsedRecord, records = wire.parsedAt nfcData :: rest →
            wire.bytes.length < 2 ^ 32 := fun rest whole =>
          (payloadBelow_iff bound fits).mp (below _ (by rw [whole]; exact List.mem_cons_self))
        dsimp only at parsed at_
        split at parsed
        · next ends =>
          obtain ⟨-, rfl, rfl⟩ := Prod.mk.inj parsed |>.imp_right Prod.mk.inj
          have small := headed [] rfl
          rw [Nat.mod_eq_of_lt small] at fits
          refine ⟨[wire], List.cons_ne_nil _ _, Nat.le_add_left .., ?_, ?_, ?_, rfl, ?_⟩
          · exact located_cons_iff.mpr ⟨at_, iff_of_true ends rfl, trivial⟩
          · rwa [wireBytes_cons, wireBytes_nil, List.append_nil]
          · rwa [wireBytes_cons, wireBytes_nil, List.append_nil]
          · rw [wireBytes_cons, wireBytes_nil, List.append_nil]
        · next goesOn =>
          split at parsed
          · cases (Prod.mk.inj parsed).1
          · have small := headed _ (congrArg (fun result => result.2.1) parsed).symm
            rw [Nat.mod_eq_of_lt small] at fits
            obtain ⟨size, remaining⟩ := size_facts small fits
            rw [size] at parsed
            generalize behind : parseRecords memory room (recordCount + 1) (nfcData + wire.bytes.length)
              (nfcDataLeft - UInt32.ofNat wire.bytes.length) = rest at parsed
            obtain ⟨code, added, remains⟩ := rest
            cases parsed
            obtain ⟨wires, some, few, located, holdsRest, fitsRest, rfl, rfl⟩ :=
              ih.mp ⟨behind, fun record member => by
                rw [remaining, show nfcData + wire.bytes.length +
                  (nfcDataLeft.toNat - wire.bytes.length) = nfcData + nfcDataLeft.toNat by omega]
                exact below record (List.mem_cons_of_mem _ member)⟩
            rw [remaining] at fitsRest
            refine ⟨wire :: wires, List.cons_ne_nil _ _, Nat.succ_le_succ few, ?_, ?_, ?_, rfl, ?_⟩
            · exact located_cons_iff.mpr ⟨at_, iff_of_false goesOn some, located⟩
            · rw [wireBytes_cons]
              exact stored_append_iff.mpr ⟨holds, holdsRest⟩
            · rw [wireBytes_cons, List.length_append]
              omega
            · rw [wireBytes_cons, List.length_append, sub_sum]
    · rintro ⟨wires, some, few, located, holds, fits, rfl, rfl⟩
      cases wires with
      | nil => exact absurd rfl some
      | cons wire rest =>
        rw [wireBytes_cons] at holds fits ⊢
        rw [List.length_append] at fits ⊢
        obtain ⟨here, behind⟩ := stored_append_iff.mp holds
        obtain ⟨-, ends, locatedRest⟩ := located_cons_iff.mp located
        have small : wire.bytes.length < 2 ^ 32 := by omega
        obtain ⟨size, remaining⟩ := size_facts small (by omega : wire.bytes.length ≤ nfcDataLeft.toNat)
        have below : (wire.parsedAt nfcData).PayloadBelow (nfcData + nfcDataLeft.toNat) :=
          (payloadBelow_iff bound (by
            rw [Nat.mod_eq_of_lt small]
            omega)).mpr small
        unfold parseRecords parsedFrom
        rw [nextRecord_wire located here (by omega)]
        dsimp only
        by_cases last : rest = []
        · subst last
          rw [if_pos (ends.mpr rfl)]
          exact ⟨rfl, fun record member => by rwa [List.mem_singleton.mp member]⟩
        · have room_pos : room ≠ 0 := by
            have length := List.length_pos_iff.mpr last
            rw [List.length_cons] at few
            omega
          obtain ⟨parsed, belowRest⟩ := ih.mpr ⟨rest, last, Nat.le_of_succ_le_succ few, locatedRest,
            behind, by rw [remaining]; omega, rfl, rfl⟩
          rw [if_neg (fun final => last (ends.mp final)), if_neg room_pos, size, parsed]
          refine ⟨?_, ?_⟩
          · rw [sub_sum]
          · intro record member
            rcases List.mem_cons.mp member with rfl | inRest
            · exact below
            · have ends := belowRest record inRest
              rwa [remaining, show nfcData + wire.bytes.length +
                (nfcDataLeft.toNat - wire.bytes.length) = nfcData + nfcDataLeft.toNat by omega] at ends

/-- **The parser accepts exactly the messages**: records that stand one behind the other in the data,
with the locations of a message, of which there are no more than descriptors. Apart from them it
accepts records whose payload runs out of the data. -/
theorem internalNdefMsgParser_success_iff {memory : Memory UInt8} {maxRecordCount nfcData : Nat}
    {nfcDataLen size : UInt32} {records : List ParsedRecord} :
    (internalNdefMsgParser memory maxRecordCount nfcData nfcDataLen = ⟨.success, records, size⟩ ∧
        ∀ record ∈ records, record.PayloadBelow (nfcData + nfcDataLen.toNat)) ↔
      ∃ wires : List WireRecord, wires ≠ [] ∧ wires.length ≤ maxRecordCount ∧ Located 0 wires ∧
        Stored memory nfcData (wireBytes wires) ∧ (wireBytes wires).length ≤ nfcDataLen.toNat ∧
        records = parsedFrom nfcData wires ∧ size = UInt32.ofNat (wireBytes wires).length := by
  have whole : ∀ left used : UInt32, nfcDataLen - left = used ↔ left = nfcDataLen - used := by
    intro left used
    constructor <;> rintro rfl <;> grind
  have parser : internalNdefMsgParser memory maxRecordCount nfcData nfcDataLen =
      ⟨.success, records, size⟩ ↔ parseRecords memory maxRecordCount 0 nfcData nfcDataLen =
        (.success, records, nfcDataLen - size) := by
    unfold internalNdefMsgParser
    generalize parseRecords memory maxRecordCount 0 nfcData nfcDataLen = parsed
    obtain ⟨code, added, left⟩ := parsed
    dsimp only
    rw [ParsedMessage.mk.injEq, Prod.mk.injEq, Prod.mk.injEq]
    refine and_congr_right fun succeeded => and_congr_right fun _ => ?_
    rw [if_pos succeeded]
    exact whole left size
  have cancel : ∀ used : UInt32, nfcDataLen - size = nfcDataLen - used ↔ size = used := by
    intro used
    constructor <;> intro same <;> grind
  simp only [parser, parseRecords_success_iff, cancel]

/-! ### Round trip -/

@[simp] theorem wiresFrom_length (recordCount index : Nat) (records : List NdefRecord) :
    (wiresFrom recordCount index records).length = records.length := by
  induction records generalizing index with
  | nil => rfl
  | cons record rest ih => exact congrArg Nat.succ (ih (index + 1))

theorem messageBytes_ne_nil {records : List NdefRecord} (some : records ≠ []) :
    wireBytes (messageWires records) ≠ [] := by
  cases records with
  | nil => exact absurd rfl some
  | cons record rest => exact List.cons_ne_nil _ _

theorem located_wiresFrom {index recordCount : Nat} {records : List NdefRecord}
    (count : recordCount = index + records.length) :
    Located index (wiresFrom recordCount index records) := by
  induction records generalizing index with
  | nil => trivial
  | cons record rest ih =>
    rw [List.length_cons] at count
    refine ⟨?_, ih (by omega)⟩
    rw [wiresFrom_length, ← count]
    exact RecordLocation.ofFlags_encodedFlags ..

theorem content_parsedFrom {memory : Memory UInt8} {address recordCount index : Nat}
    {records : List NdefRecord}
    (holds : Stored memory address (wireBytes (wiresFrom recordCount index records))) :
    (parsedFrom address (wiresFrom recordCount index records)).map (ParsedRecord.content memory) =
      records.map NdefRecord.content := by
  induction records generalizing address index with
  | nil => rfl
  | cons record rest ih =>
    obtain ⟨here, behind⟩ := stored_append_iff.mp holds
    exact congrArg₂ List.cons (NdefRecord.content_wire here) (ih behind)

/-- A message that stands in the data is read. -/
theorem internalNdefMsgParser_message {memory : Memory UInt8} {maxRecordCount nfcData : Nat}
    {nfcDataLen : UInt32} {records : List NdefRecord} (some : records ≠ [])
    (room : records.length ≤ maxRecordCount)
    (holds : Stored memory nfcData (wireBytes (messageWires records)))
    (fits : (wireBytes (messageWires records)).length ≤ nfcDataLen.toNat) :
    internalNdefMsgParser memory maxRecordCount nfcData nfcDataLen =
      ⟨.success, parsedFrom nfcData (messageWires records),
        UInt32.ofNat (wireBytes (messageWires records)).length⟩ := by
  have nonempty : messageWires records ≠ [] := by
    intro none
    have length := congrArg List.length none
    rw [messageWires, wiresFrom_length, List.length_nil] at length
    exact some (List.length_eq_zero_iff.mp length)
  exact (internalNdefMsgParser_success_iff.mpr ⟨messageWires records, nonempty, by
    rwa [messageWires, wiresFrom_length], located_wiresFrom (Nat.zero_add _).symm, holds, fits, rfl,
    rfl⟩).1

/-- **With fewer descriptors than records there is no memory for the message.** -/
theorem parseRecords_noMem {memory : Memory UInt8} {recordCount index room nfcData : Nat}
    {nfcDataLeft : UInt32} {records : List NdefRecord} (count : recordCount = index + records.length)
    (few : room < records.length)
    (holds : Stored memory nfcData (wireBytes (wiresFrom recordCount index records)))
    (fits : (wireBytes (wiresFrom recordCount index records)).length ≤ nfcDataLeft.toNat) :
    (parseRecords memory room index nfcData nfcDataLeft).1 = .noMem := by
  induction room generalizing index nfcData nfcDataLeft records with
  | zero =>
    cases records with
    | nil => exact absurd few (Nat.not_lt_zero _)
    | cons record rest =>
      obtain ⟨here, -⟩ := stored_append_iff.mp holds
      unfold wiresFrom at fits
      rw [wireBytes_cons, List.length_append] at fits
      unfold parseRecords
      rw [nextRecord_wire (located_wiresFrom count) here (by omega)]
  | succ room ih =>
    cases records with
    | nil => exact absurd few (Nat.not_lt_zero _)
    | cons record rest =>
      obtain ⟨here, behind⟩ := stored_append_iff.mp holds
      have located := @located_wiresFrom _ _ (record :: rest) count
      unfold wiresFrom at fits
      rw [wireBytes_cons, List.length_append] at fits
      rw [List.length_cons] at few count
      have bound := nfcDataLeft.toNat_lt
      obtain ⟨size, remaining⟩ := size_facts (by omega)
        (by omega : (record.wire (recordLocationGet index recordCount)).bytes.length ≤ nfcDataLeft.toNat)
      have notLast := mt (located_cons_iff.mp located).2.1.mp (by
        intro none
        have length := congrArg List.length none
        rw [wiresFrom_length, List.length_nil] at length
        omega)
      unfold parseRecords
      rw [nextRecord_wire located here (by omega)]
      dsimp only
      rw [if_neg notLast]
      by_cases full : room = 0
      · rw [if_pos full]
      · rw [if_neg full, size]
        exact ih (by omega) (by omega) behind (by omega)

/-- A message that was encoded is read back, with enough descriptors for its records and whatever
follows it; with fewer there is no memory for it. -/
theorem internalNdefMsgParser_round_trip {msg : NdefMsgDesc NdefRecordDesc} {records : List NdefRecord}
    (describes : msg.Describes records) (some : records ≠ []) {memory : Memory UInt8}
    {msgBuffer msgLen : Nat} (encoded : (nfcNdefMsgEncode msg memory msgBuffer msgLen).code = .success)
    (maxRecordCount : Nat) {nfcDataLen : UInt32}
    (fits : (nfcNdefMsgEncode msg memory msgBuffer msgLen).length ≤ nfcDataLen.toNat) :
    let written := nfcNdefMsgEncode msg memory msgBuffer msgLen
    let parsed := internalNdefMsgParser written.memory maxRecordCount msgBuffer nfcDataLen
    if records.length ≤ maxRecordCount then
      parsed.code = .success ∧ parsed.length.toNat = written.length ∧
        parsed.records.map (ParsedRecord.content written.memory) = records.map NdefRecord.content
    else parsed.code = .noMem := by
  have emits := msgWriter_emits describes
  have room := (emits.success_iff RetCode.noConfusion memory msgBuffer msgLen).mp encoded
  have written := emits.emitted memory msgBuffer msgLen room
  change nfcNdefMsgEncode msg memory msgBuffer msgLen = _ at written
  rw [written] at fits ⊢
  dsimp only at fits ⊢
  have holds := stored_overlay memory msgBuffer (wireBytes (messageWires records))
  have bound := nfcDataLen.toNat_lt
  split
  · next enough =>
    rw [internalNdefMsgParser_message some enough holds fits]
    exact ⟨rfl, UInt32.toNat_ofNat_of_lt' (Nat.lt_of_le_of_lt fits bound), content_parsedFrom holds⟩
  · next few => exact parseRecords_noMem (Nat.zero_add _).symm (by omega) holds fits

/-! ### The result buffer -/

/-- The sizes of the descriptors in the result buffer: `nfc_ndef_msg_desc_t`, a pointer to a record,
`nfc_ndef_bin_payload_desc_t` and `nfc_ndef_record_desc_t`. -/
structure MemoSizes where
  msgDesc : Nat
  recordPointer : Nat
  binPayDesc : Nat
  recDesc : Nat
  positive : 0 < recDesc

namespace MemoSizes

variable (sizes : MemoSizes)

/-- `NFC_PARSER_M_DELTA`: what one more record takes. -/
def delta : Nat := sizes.recordPointer + sizes.binPayDesc + sizes.recDesc

/-- `sizeof(parsed_ndef_msg_1_t)`. -/
def parsedNdefMsg1 : Nat := sizes.msgDesc + sizes.delta

/-- `NFC_NDEF_PARSER_REQIRED_MEMO_SIZE_CALC`. -/
def requiredMemoSize (maxCountOfRecords : Nat) : Nat :=
  if maxCountOfRecords ≤ 1 then sizes.parsedNdefMsg1 * maxCountOfRecords
  else sizes.parsedNdefMsg1 + sizes.delta * (maxCountOfRecords - 1)

theorem delta_pos : 0 < sizes.delta := Nat.lt_of_lt_of_le sizes.positive (Nat.le_add_left ..)

theorem requiredMemoSize_succ (count : Nat) :
    sizes.requiredMemoSize (count + 1) = sizes.parsedNdefMsg1 + sizes.delta * count := by
  unfold requiredMemoSize
  split
  · rw [show count = 0 by omega, Nat.mul_one, Nat.mul_zero, Nat.add_zero]
  · rw [Nat.add_sub_cancel]

end MemoSizes

/-- `ndef_parser_memo_resolve`: how many records the buffer has room for, and the length it takes. -/
def ndefParserMemoResolve (sizes : MemoSizes) (resultBufLen : UInt32) : Except RetCode (Nat × UInt32) :=
  if resultBufLen.toNat < sizes.parsedNdefMsg1 then .error .noMem
  else
    let memoryLast := resultBufLen.toNat - sizes.parsedNdefMsg1
    let maxRecNum := memoryLast / sizes.delta + 1
    let recordDescArray := sizes.msgDesc
    let binPayDesc := recordDescArray + maxRecNum * sizes.recordPointer
    let recDesc := binPayDesc + maxRecNum * sizes.binPayDesc
    .ok (maxRecNum, UInt32.ofNat (recDesc + maxRecNum * sizes.recDesc))

/-- `ndef_msg_parser`: the message, and the length of the result buffer. -/
def ndefMsgParser (sizes : MemoSizes) (memory : Memory UInt8) (resultBufLen : UInt32) (nfcData : Nat)
    (nfcDataLen : UInt32) : ParsedMessage × UInt32 :=
  match ndefParserMemoResolve sizes resultBufLen with
  | .error code => (⟨code, [], nfcDataLen⟩, resultBufLen)
  | .ok (maxRecordCount, used) =>
      (internalNdefMsgParser memory maxRecordCount nfcData nfcDataLen, used)

/-- **The result buffer takes as many records as the macro asks for**: the descriptors of these lie in
the buffer, and those of one more do not. -/
theorem ndefParserMemoResolve_eq_ok_iff {sizes : MemoSizes} {resultBufLen used : UInt32} {count : Nat} :
    ndefParserMemoResolve sizes resultBufLen = .ok (count, used) ↔
      0 < count ∧ sizes.requiredMemoSize count ≤ resultBufLen.toNat ∧
        resultBufLen.toNat < sizes.requiredMemoSize (count + 1) ∧
        used.toNat = sizes.requiredMemoSize count := by
  have positive := sizes.delta_pos
  have bound : resultBufLen.toNat < UInt32.size := resultBufLen.toNat_lt
  unfold ndefParserMemoResolve
  by_cases small : resultBufLen.toNat < sizes.parsedNdefMsg1
  · rw [if_pos small]
    refine iff_of_false (fun resolved => by cases resolved) ?_
    rintro ⟨some, fits, -⟩
    obtain ⟨previous, rfl⟩ := Nat.exists_eq_succ_of_ne_zero (Nat.ne_of_gt some)
    rw [Nat.succ_eq_add_one, sizes.requiredMemoSize_succ] at fits
    omega
  · rw [if_neg small]
    have split := Nat.div_add_mod (resultBufLen.toNat - sizes.parsedNdefMsg1) sizes.delta
    have rest := Nat.mod_lt (resultBufLen.toNat - sizes.parsedNdefMsg1) positive
    dsimp only
    generalize quotient : (resultBufLen.toNat - sizes.parsedNdefMsg1) / sizes.delta = most at split ⊢
    have next : sizes.delta * (most + 1) = sizes.delta * most + sizes.delta := Nat.mul_succ ..
    have layout : sizes.msgDesc + (most + 1) * sizes.recordPointer + (most + 1) * sizes.binPayDesc +
        (most + 1) * sizes.recDesc = sizes.requiredMemoSize (most + 1) := by
      rw [sizes.requiredMemoSize_succ, MemoSizes.parsedNdefMsg1, MemoSizes.delta]
      ring
    have size := sizes.requiredMemoSize_succ most
    rw [layout, Except.ok.injEq, Prod.mk.injEq]
    constructor
    · rintro ⟨rfl, rfl⟩
      rw [sizes.requiredMemoSize_succ (most + 1)]
      refine ⟨Nat.succ_pos _, by omega, by omega, UInt32.toNat_ofNat_of_lt' (by omega)⟩
    · rintro ⟨some, fits, short, length⟩
      obtain ⟨previous, rfl⟩ := Nat.exists_eq_succ_of_ne_zero (Nat.ne_of_gt some)
      rw [Nat.succ_eq_add_one] at *
      rw [sizes.requiredMemoSize_succ] at fits short
      have same : previous = most := by
        rw [← quotient]
        refine (Nat.div_eq_of_lt_le ?_ ?_).symm
        · rw [Nat.mul_comm]
          omega
        · rw [Nat.mul_comm]
          omega
      subst same
      exact ⟨rfl, UInt32.toNat_inj.mp (by rw [length, UInt32.toNat_ofNat_of_lt' (by omega)])⟩

/-- The parser with a result buffer: it has room for the counts that the macro allows. -/
theorem ndefMsgParser_cases (sizes : MemoSizes) (memory : Memory UInt8) (resultBufLen : UInt32)
    (nfcData : Nat) (nfcDataLen : UInt32) :
    ∃ maxRecordCount, (∀ count, 0 < count →
        (sizes.requiredMemoSize count ≤ resultBufLen.toNat ↔ count ≤ maxRecordCount)) ∧
      (ndefMsgParser sizes memory resultBufLen nfcData nfcDataLen).1 =
        if maxRecordCount = 0 then ⟨.noMem, [], nfcDataLen⟩
        else internalNdefMsgParser memory maxRecordCount nfcData nfcDataLen := by
  have monotone : ∀ count, sizes.requiredMemoSize (count + 1) =
      sizes.parsedNdefMsg1 + sizes.delta * count := sizes.requiredMemoSize_succ
  unfold ndefMsgParser
  cases resolved : ndefParserMemoResolve sizes resultBufLen with
  | error code =>
    unfold ndefParserMemoResolve at resolved
    split at resolved
    · next small =>
      cases resolved
      refine ⟨0, fun count some => ?_, rfl⟩
      obtain ⟨previous, rfl⟩ := Nat.exists_eq_succ_of_ne_zero (Nat.ne_of_gt some)
      rw [Nat.succ_eq_add_one, monotone]
      exact iff_of_false (by omega) (by omega)
    · cases resolved
  | ok result =>
    obtain ⟨maxRecordCount, used⟩ := result
    obtain ⟨some, fits, short, -⟩ := ndefParserMemoResolve_eq_ok_iff.mp resolved
    refine ⟨maxRecordCount, fun count positive => ?_, (if_neg (Nat.ne_of_gt some)).symm⟩
    obtain ⟨most, rfl⟩ := Nat.exists_eq_succ_of_ne_zero (Nat.ne_of_gt some)
    obtain ⟨previous, rfl⟩ := Nat.exists_eq_succ_of_ne_zero (Nat.ne_of_gt positive)
    rw [Nat.succ_eq_add_one] at *
    rw [monotone] at fits short ⊢
    constructor
    · intro enough
      have below : sizes.delta * previous < sizes.delta * (most + 1) := by omega
      have := Nat.lt_of_mul_lt_mul_left below
      omega
    · intro few
      have below := Nat.mul_le_mul_left sizes.delta (Nat.le_of_succ_le_succ few)
      omega

/-- **The parser accepts exactly the messages for which its result buffer has room**: records that stand
one behind the other in the data, with the locations of a message. Apart from them it accepts records
whose payload runs out of the data. -/
theorem ndefMsgParser_success_iff {sizes : MemoSizes} {memory : Memory UInt8} {resultBufLen : UInt32}
    {nfcData : Nat} {nfcDataLen size : UInt32} {records : List ParsedRecord} :
    ((ndefMsgParser sizes memory resultBufLen nfcData nfcDataLen).1 = ⟨.success, records, size⟩ ∧
        ∀ record ∈ records, record.PayloadBelow (nfcData + nfcDataLen.toNat)) ↔
      ∃ wires : List WireRecord, wires ≠ [] ∧
        sizes.requiredMemoSize wires.length ≤ resultBufLen.toNat ∧ Located 0 wires ∧
        Stored memory nfcData (wireBytes wires) ∧ (wireBytes wires).length ≤ nfcDataLen.toNat ∧
        records = parsedFrom nfcData wires ∧ size = UInt32.ofNat (wireBytes wires).length := by
  obtain ⟨maxRecordCount, room, parsed⟩ :=
    ndefMsgParser_cases sizes memory resultBufLen nfcData nfcDataLen
  rw [parsed]
  by_cases none : maxRecordCount = 0
  · rw [if_pos none]
    refine iff_of_false (fun both => by cases both.1) ?_
    rintro ⟨wires, nonempty, fits, -⟩
    have few := (room _ (List.length_pos_iff.mpr nonempty)).mp fits
    exact nonempty (List.length_eq_zero_iff.mp (by omega))
  · rw [if_neg none, internalNdefMsgParser_success_iff]
    refine exists_congr fun wires => and_congr_right fun nonempty => ?_
    rw [room _ (List.length_pos_iff.mpr nonempty)]

/-- **A message that was encoded is read back**, whatever follows it, by a parser whose result buffer
has the size the macro gives for its records; with a smaller one there is no memory for it. -/
theorem message_round_trip {msg : NdefMsgDesc NdefRecordDesc} {records : List NdefRecord}
    (describes : msg.Describes records) (some : records ≠ []) (memory : Memory UInt8)
    (msgBuffer msgLen : Nat)
    (encoded : (nfcNdefMsgEncode msg memory msgBuffer msgLen).code = .success)
    (sizes : MemoSizes) (resultBufLen : UInt32) {nfcDataLen : UInt32}
    (fits : (nfcNdefMsgEncode msg memory msgBuffer msgLen).length ≤ nfcDataLen.toNat) :
    let written := nfcNdefMsgEncode msg memory msgBuffer msgLen
    let parsed := (ndefMsgParser sizes written.memory resultBufLen msgBuffer nfcDataLen).1
    if sizes.requiredMemoSize records.length ≤ resultBufLen.toNat then
      parsed.code = .success ∧ parsed.length.toNat = written.length ∧
        parsed.records.map (ParsedRecord.content written.memory) = records.map NdefRecord.content
    else parsed.code = .noMem := by
  intro written parsed
  obtain ⟨maxRecordCount, room, result⟩ :=
    ndefMsgParser_cases sizes written.memory resultBufLen msgBuffer nfcDataLen
  have inner := internalNdefMsgParser_round_trip describes some encoded maxRecordCount fits
  have enough := room _ (List.length_pos_iff.mpr some)
  change parsed = _ at result
  rw [result]
  by_cases none : maxRecordCount = 0
  · have few : ¬ sizes.requiredMemoSize records.length ≤ resultBufLen.toNat := by
      rw [enough, none, Nat.le_zero]
      exact fun empty => some (List.length_eq_zero_iff.mp empty)
    rw [if_pos none, if_neg few]
  · rw [if_neg none]
    simp only [enough]
    exact inner

/-- Two text records in a buffer of 32 bytes, of which 20 are looked at, with the sizes of a
Cortex-M4. -/
theorem message_round_trip_two :
    let text : List UInt8 → NdefRecordDesc := fun payload =>
      ⟨.wellKnown, ⟨[], by decide⟩, ⟨[0x54], by decide⟩, binWriter payload⟩
    let sizes : MemoSizes := ⟨12, 4, 8, 24, by decide⟩
    let written := nfcNdefMsgEncode ⟨[text [1, 2], text []], 2, by decide⟩ (fun _ => 0) 0 32
    let parsed := (ndefMsgParser sizes written.memory 84 0 20).1
    parsed.code = .success ∧ parsed.length.toNat = written.length ∧
      parsed.records.map (ParsedRecord.content written.memory) =
        [(.wellKnown, [], [0x54], [1, 2]), (.wellKnown, [], [0x54], [])] := by
  intro text sizes written parsed
  have describes : NdefMsgDesc.Describes ⟨[text [1, 2], text []], 2, by decide⟩
      [⟨.wellKnown, ⟨[], by decide⟩, ⟨[0x54], by decide⟩, [1, 2], by decide⟩,
        ⟨.wellKnown, ⟨[], by decide⟩, ⟨[0x54], by decide⟩, [], by decide⟩] :=
    .cons ⟨rfl, rfl, rfl, binWriter_emits _⟩ (.cons ⟨rfl, rfl, rfl, binWriter_emits _⟩ .nil)
  have both := message_round_trip describes (List.cons_ne_nil _ _) (fun _ => 0) 0 32
    (by decide +kernel) sizes 84 (by decide +kernel : _ ≤ (20 : UInt32).toNat)
  dsimp only at both
  split at both
  · exact both
  · next few => exact absurd (by decide) few

end PrimoCore.Nfc
