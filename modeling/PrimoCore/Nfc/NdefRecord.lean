/-
**NDEF records.**

`nfc_ndef_record_encode` writes a record for a descriptor, always in the long form, and
`ndef_record_parser` reads one, in the short or the long form. The parser gives pointers into the
data, and sums the sizes of the fields in 32 bits.

* `nfcNdefRecordEncode`, `NdefRecordDesc.writer` — the encoder, and **that it keeps to its buffer**.
* `WireRecord` — a record on the wire; `NdefRecord.wire` is the form the encoder writes.
* `writer_emits` — **the encoder emits the bytes of the record**, when the payload constructor emits
  the payload.
* `ndefRecordParser` — the parser; `ndefRecordParser_wire` — what it makes of a record on the wire.
* `ndefRecordParser_eq_ok_iff` — **a record is accepted exactly when it stands on the wire**, except
  for records whose sizes leave 32 bits.
* `NdefRecord.content_wire` — **what was encoded is read back**, whatever follows it.
-/

import PrimoCore.Lib.Bytes
import PrimoCore.Lib.Writer

namespace PrimoCore.Nfc

open PrimoCore.Lib

/-! ### Codes and enumerations -/

/-- `ret_code_t`: the codes returned here, and any other of a payload constructor. -/
inductive RetCode where
  | success
  | noMem
  | notSupported
  | invalidParam
  | invalidLength
  | invalidData
  | other (code : Nat)
  deriving DecidableEq

/-- `nfc_ndef_record_tnf_t`. -/
inductive Tnf where
  | empty
  | wellKnown
  | mediaType
  | absoluteUri
  | externalType
  | unknownType
  | unchanged
  | reserved
  deriving DecidableEq

def Tnf.code : Tnf → UInt8
  | .empty => 0x00
  | .wellKnown => 0x01
  | .mediaType => 0x02
  | .absoluteUri => 0x03
  | .externalType => 0x04
  | .unknownType => 0x05
  | .unchanged => 0x06
  | .reserved => 0x07

def ndefRecordIlMask : UInt8 := 0x08
def ndefRecordTnfMask : UInt8 := 0x07
def ndefRecordSrMask : UInt8 := 0x10

/-- The cast of the masked flags to the enumeration. -/
def Tnf.ofFlags (flags : UInt8) : Tnf :=
  match (flags &&& ndefRecordTnfMask).toNat with
  | 0 => .empty
  | 1 => .wellKnown
  | 2 => .mediaType
  | 3 => .absoluteUri
  | 4 => .externalType
  | 5 => .unknownType
  | 6 => .unchanged
  | _ => .reserved

/-- A reserved value is treated as unknown. -/
def Tnf.received : Tnf → Tnf
  | .reserved => .unknownType
  | tnf => tnf

/-- `nfc_ndef_record_location_t`. -/
inductive RecordLocation where
  | first
  | middle
  | last
  | lone
  deriving DecidableEq

def RecordLocation.code : RecordLocation → UInt8
  | .first => 0x80
  | .middle => 0x00
  | .last => 0x40
  | .lone => 0xC0

/-- `NDEF_RECORD_LOCATION_MASK`. -/
def ndefRecordLocationMask : UInt8 := RecordLocation.lone.code

def RecordLocation.ofFlags (flags : UInt8) : RecordLocation :=
  let bits := flags &&& ndefRecordLocationMask
  if bits = 0x80 then .first else if bits = 0x40 then .last else if bits = 0xC0 then .lone else .middle

/-! ### Descriptors -/

/-- A field whose length is a byte. -/
structure ShortBytes where
  bytes : List UInt8
  short : bytes.length < 256
  deriving DecidableEq

def ShortBytes.length (field : ShortBytes) : UInt8 := UInt8.ofNat field.bytes.length

@[simp] theorem ShortBytes.length_toNat (field : ShortBytes) :
    field.length.toNat = field.bytes.length := by
  rw [ShortBytes.length, UInt8.toNat_ofNat', Nat.mod_eq_of_lt field.short]

theorem ShortBytes.length_pos_iff (field : ShortBytes) : field.length > 0 ↔ field.bytes ≠ [] := by
  rw [gt_iff_lt, UInt8.lt_iff_toNat_lt, ShortBytes.length_toNat]
  exact List.length_pos_iff

/-- `p_payload_constructor_t` with its descriptor. "The implementation must check if the payload will
fit in the provided buffer." -/
abbrev PayloadConstructor := Writer RetCode .success

/-- `nfc_ndef_record_desc_t`, with the fields behind its pointers. -/
structure NdefRecordDesc where
  tnf : Tnf
  id : ShortBytes
  type : ShortBytes
  payloadConstructor : PayloadConstructor

/-- `nfc_ndef_bin_payload_memcopy` with its descriptor. -/
def nfcNdefBinPayloadMemcopy (payload : List UInt8) (memory : Memory UInt8) (start room : Nat) :
    Written RetCode :=
  if room < payload.length then ⟨.noMem, memory, room⟩
  else ⟨.success, overlay memory start payload, payload.length⟩

def binWriter (payload : List UInt8) : PayloadConstructor :=
  (Writer.copying RetCode.success .noMem payload).like (nfcNdefBinPayloadMemcopy payload) rfl

theorem binWriter_emits (payload : List UInt8) : (binWriter payload).Emits .noMem payload :=
  Writer.copying_emits ..

/-! ### The encoder -/

/-- `NDEF_RECORD_BASE_LONG_SIZE`. -/
def ndefRecordBaseLongSize : Nat := 2 + 4

/-- `record_header_size_calc`. -/
def recordHeaderSizeCalc (desc : NdefRecordDesc) : Nat :=
  ndefRecordBaseLongSize + (desc.id.bytes.length + desc.type.bytes.length) +
    (if desc.id.bytes.length > 0 then 1 else 0)

/-- The flags of `nfc_ndef_record_encode`. -/
def encodedFlags (location : UInt8) (tnf : Tnf) (id : ShortBytes) : UInt8 :=
  if id.bytes.length > 0 then (location ||| tnf.code) ||| ndefRecordIlMask else location ||| tnf.code

/-- `ID_LENGTH`, which is there when there is an ID. -/
def idLengthField (id : ShortBytes) : List UInt8 :=
  if id.bytes.length > 0 then [id.length] else []

/-- `uint32_big_encode`. -/
def uint32BigEncode (value : Nat) : List UInt8 := toBigEndian 4 value

/-- `nfc_ndef_record_encode`. The length of the payload is known, and stored, last. -/
def nfcNdefRecordEncode (desc : NdefRecordDesc) (location : UInt8) (memory : Memory UInt8)
    (start room : Nat) : Written RetCode :=
  let headerLen := recordHeaderSizeCalc desc
  if location &&& ~~~ ndefRecordLocationMask ≠ 0 then ⟨.invalidParam, memory, room⟩
  else if headerLen > room then ⟨.noMem, memory, room⟩
  else
    let memory := overlay memory start [encodedFlags location desc.tnf desc.id, desc.type.length]
    let pPayloadLen := start + 2
    let memory := overlay memory (pPayloadLen + 4)
      (idLengthField desc.id ++ desc.type.bytes ++ desc.id.bytes)
    let payload := desc.payloadConstructor.write memory (start + headerLen) (room - headerLen)
    if payload.code ≠ .success then ⟨payload.code, payload.memory, room⟩
    else
      ⟨.success, overlay payload.memory pPayloadLen (uint32BigEncode payload.length),
        headerLen + payload.length⟩

theorem recordHeaderSizeCalc_eq (desc : NdefRecordDesc) : recordHeaderSizeCalc desc =
    2 + 4 + (idLengthField desc.id ++ desc.type.bytes ++ desc.id.bytes).length := by
  unfold recordHeaderSizeCalc ndefRecordBaseLongSize idLengthField
  split <;> simp only [List.length_append, List.length_singleton, List.length_nil] <;> omega

/-- **The encoder keeps to its buffer**, for every descriptor and every location. -/
def NdefRecordDesc.writer (desc : NdefRecordDesc) (location : UInt8) : PayloadConstructor where
  write := nfcNdefRecordEncode desc location
  within := by
    intro memory start room succeeded
    unfold nfcNdefRecordEncode at succeeded ⊢
    dsimp only at succeeded ⊢
    split
    · exact Nat.le_refl _
    · split
      · exact Nat.le_refl _
      · next fits =>
        split
        · exact Nat.le_refl _
        · next written =>
          have payload := desc.payloadConstructor.within _ _ _ (Decidable.not_not.mp written)
          dsimp only
          omega
  frame := by
    intro memory start room position outside
    unfold nfcNdefRecordEncode
    dsimp only
    split
    · rfl
    · split
      · rfl
      · next fits =>
        have header := recordHeaderSizeCalc_eq desc
        have kept : ∀ values fields, values.length = 2 →
            fields.length + 6 = recordHeaderSizeCalc desc →
            overlay (overlay memory start values) (start + 2 + 4) fields position = memory position := by
          intro values fields two length
          rw [overlay_outside (by omega), overlay_outside (by omega)]
        have fields := kept [encodedFlags location desc.tnf desc.id, desc.type.length]
          (idLengthField desc.id ++ desc.type.bytes ++ desc.id.bytes) rfl (by omega)
        have payload := desc.payloadConstructor.frame
          (overlay (overlay memory start [encodedFlags location desc.tnf desc.id, desc.type.length])
            (start + 2 + 4) (idLengthField desc.id ++ desc.type.bytes ++ desc.id.bytes))
          (start + recordHeaderSizeCalc desc) (room - recordHeaderSizeCalc desc) position (by omega)
        split
        · exact payload.trans fields
        · dsimp only
          rw [overlay_outside (by
            rw [uint32BigEncode, toBigEndian_length]
            omega), payload, fields]

/-! ### Records on the wire -/

/-- A record on the wire. The length of the payload has one byte or four. -/
structure WireRecord where
  flags : UInt8
  type : ShortBytes
  id : ShortBytes
  payload : List UInt8
  idFlagged : flags &&& ndefRecordIlMask = 0 → id.bytes = []
  payloadFits : payload.length < if flags &&& ndefRecordSrMask = 0 then 2 ^ 32 else 2 ^ 8

namespace WireRecord

def payloadLengthField (wire : WireRecord) : List UInt8 :=
  if wire.flags &&& ndefRecordSrMask = 0 then toBigEndian 4 wire.payload.length
  else toBigEndian 1 wire.payload.length

def idField (wire : WireRecord) : List UInt8 :=
  if wire.flags &&& ndefRecordIlMask = 0 then [] else [wire.id.length]

/-- The bytes of a record. -/
def bytes (wire : WireRecord) : List UInt8 :=
  wire.flags :: wire.type.length ::
    (wire.payloadLengthField ++ (wire.idField ++ (wire.type.bytes ++ (wire.id.bytes ++ wire.payload))))

end WireRecord

/-- A record as a program means it. -/
structure NdefRecord where
  tnf : Tnf
  id : ShortBytes
  type : ShortBytes
  payload : List UInt8
  fits : payload.length < 2 ^ 32
  deriving DecidableEq

theorem encodedFlags_sr (location : RecordLocation) (tnf : Tnf) (id : ShortBytes) :
    encodedFlags location.code tnf id &&& ndefRecordSrMask = 0 := by
  unfold encodedFlags
  split <;> cases location <;> cases tnf <;> decide

theorem encodedFlags_il (location : RecordLocation) (tnf : Tnf) (id : ShortBytes) :
    encodedFlags location.code tnf id &&& ndefRecordIlMask = 0 ↔ id.bytes = [] := by
  unfold encodedFlags
  split
  · next some =>
    refine iff_of_false ?_ (List.length_pos_iff.mp some)
    cases location <;> cases tnf <;> decide
  · next none =>
    refine iff_of_true ?_ (List.length_eq_zero_iff.mp (by omega))
    cases location <;> cases tnf <;> decide

/-- The long form, in which the encoder writes a record. -/
def NdefRecord.wire (record : NdefRecord) (location : RecordLocation) : WireRecord where
  flags := encodedFlags location.code record.tnf record.id
  type := record.type
  id := record.id
  payload := record.payload
  idFlagged := (encodedFlags_il ..).mp
  payloadFits := by
    rw [if_pos (encodedFlags_sr ..)]
    exact record.fits

/-- The bytes of the long form, in the order in which the encoder stores them but for the length of the
payload. -/
theorem NdefRecord.wire_bytes (record : NdefRecord) (location : RecordLocation) :
    (record.wire location).bytes =
      [encodedFlags location.code record.tnf record.id, record.type.length] ++
        toBigEndian 4 record.payload.length ++
        ((idLengthField record.id ++ record.type.bytes ++ record.id.bytes) ++ record.payload) := by
  have long : (record.wire location).payloadLengthField = toBigEndian 4 record.payload.length :=
    if_pos (encodedFlags_sr ..)
  have flagged : (record.wire location).idField = idLengthField record.id := by
    have flags := encodedFlags_il location record.tnf record.id
    unfold WireRecord.idField idLengthField
    simp only [NdefRecord.wire, flags, List.length_pos_iff, ite_not]
  rw [WireRecord.bytes, long, flagged]
  simp only [NdefRecord.wire, List.cons_append, List.nil_append, List.append_assoc]

theorem NdefRecord.wire_length (record : NdefRecord) (location : RecordLocation) :
    (record.wire location).bytes.length = 6 + (idLengthField record.id).length +
      record.type.bytes.length + record.id.bytes.length + record.payload.length := by
  rw [record.wire_bytes]
  simp only [List.length_append, List.length_cons, List.length_nil, toBigEndian_length]
  omega

/-- A descriptor of a record: its payload constructor emits the payload. -/
structure NdefRecordDesc.Describes (desc : NdefRecordDesc) (record : NdefRecord) : Prop where
  tnf : desc.tnf = record.tnf
  id : desc.id = record.id
  type : desc.type = record.type
  payload : desc.payloadConstructor.Emits .noMem record.payload

/-- **The encoder emits the bytes of the record**: with room for them it stores them, without room it
returns `NRF_ERROR_NO_MEM`. -/
theorem writer_emits {desc : NdefRecordDesc} {record : NdefRecord} (describes : desc.Describes record)
    (location : RecordLocation) :
    (desc.writer location.code).Emits .noMem (record.wire location).bytes := by
  have valid : location.code &&& ~~~ ndefRecordLocationMask = 0 := by cases location <;> decide
  have header : recordHeaderSizeCalc desc =
      2 + 4 + (idLengthField record.id ++ record.type.bytes ++ record.id.bytes).length := by
    rw [recordHeaderSizeCalc_eq, describes.id, describes.type]
  have total : (record.wire location).bytes.length =
      recordHeaderSizeCalc desc + record.payload.length := by
    rw [record.wire_length, header]
    simp only [List.length_append]
    omega
  constructor
  · intro memory start room fits
    have payload := describes.payload.emitted
      (overlay (overlay memory start [encodedFlags location.code record.tnf record.id, record.type.length])
        (start + 2 + 4) (idLengthField record.id ++ record.type.bytes ++ record.id.bytes))
      (start + recordHeaderSizeCalc desc) (room - recordHeaderSizeCalc desc) (by omega)
    have stored : start + recordHeaderSizeCalc desc =
        start + 2 + 4 + (idLengthField record.id ++ record.type.bytes ++ record.id.bytes).length := by
      omega
    show nfcNdefRecordEncode desc location.code memory start room = _
    unfold nfcNdefRecordEncode
    dsimp only
    rw [if_neg (fun invalid => invalid valid), if_neg (by omega), describes.tnf, describes.id,
      describes.type, payload, if_neg (fun failed => failed rfl), stored, overlay_append, total,
      record.wire_bytes]
    have patched := overlay_patch memory start
      [encodedFlags location.code record.tnf record.id, record.type.length]
      (toBigEndian 4 record.payload.length)
      ((idLengthField record.id ++ record.type.bytes ++ record.id.bytes) ++ record.payload)
    rw [toBigEndian_length] at patched
    exact congrArg (fun after => Written.mk _ after _) patched
  · intro memory start room short
    show (nfcNdefRecordEncode desc location.code memory start room).code = _
    unfold nfcNdefRecordEncode
    dsimp only
    rw [if_neg (fun invalid => invalid valid)]
    split
    · rfl
    · next fits =>
      have refused := describes.payload.refused
        (overlay (overlay memory start [encodedFlags location.code desc.tnf desc.id, desc.type.length])
          (start + 2 + 4) (idLengthField desc.id ++ desc.type.bytes ++ desc.id.bytes))
        (start + recordHeaderSizeCalc desc) (room - recordHeaderSizeCalc desc) (by omega)
      rw [if_pos (by rw [refused]; exact RetCode.noConfusion)]
      exact refused

/-- A record whose payload constructor fails: the fields in front of the payload are stored, except for
its length. -/
theorem nfcNdefRecordEncode_failed {desc : NdefRecordDesc} {memory after : Memory UInt8}
    {start room left : Nat} (location : RecordLocation) {code : RetCode}
    (header : recordHeaderSizeCalc desc ≤ room) (failed : code ≠ .success)
    (payload : desc.payloadConstructor.write
      (overlay (overlay memory start [encodedFlags location.code desc.tnf desc.id, desc.type.length])
        (start + 2 + 4) (idLengthField desc.id ++ desc.type.bytes ++ desc.id.bytes))
      (start + recordHeaderSizeCalc desc) (room - recordHeaderSizeCalc desc) = ⟨code, after, left⟩) :
    nfcNdefRecordEncode desc location.code memory start room = ⟨code, after, room⟩ := by
  have valid : location.code &&& ~~~ ndefRecordLocationMask = 0 := by cases location <;> decide
  unfold nfcNdefRecordEncode
  dsimp only
  rw [if_neg (fun invalid => invalid valid), if_neg (Nat.not_lt_of_le header), payload, if_pos failed]

/-! ### The parser -/

/-- A pointer of a descriptor. `p_id` is not set when the ID field is there with a length of 0. -/
inductive RecordPointer where
  | null
  | unset
  | at (address : Nat)
  deriving DecidableEq

/-- The bytes behind a pointer. -/
def RecordPointer.read (memory : Memory UInt8) (count : Nat) : RecordPointer → List UInt8
  | .at address => slice memory address count
  | _ => []

/-- `nfc_ndef_record_desc_t` with its `nfc_ndef_bin_payload_desc_t`, as the parser fills them. -/
structure ParsedRecord where
  tnf : Tnf
  idLength : UInt8
  pId : RecordPointer
  typeLength : UInt8
  pType : RecordPointer
  payloadLength : UInt32
  pPayload : RecordPointer
  deriving DecidableEq

/-- `uint32_big_decode`. -/
def uint32BigDecode (memory : Memory UInt8) (pEncodedData : Nat) : UInt32 :=
  (memory pEncodedData).toUInt32 <<< 24 ||| (memory (pEncodedData + 1)).toUInt32 <<< 16 |||
    (memory (pEncodedData + 2)).toUInt32 <<< 8 ||| (memory (pEncodedData + 3)).toUInt32 <<< 0

/-- `ndef_record_parser`: the descriptor, the location and the size of the record. -/
def ndefRecordParser (memory : Memory UInt8) (pNfcData : Nat) (nfcDataLen : UInt32) :
    Except RetCode (ParsedRecord × RecordLocation × UInt32) :=
  let expectedRecSize : UInt32 := 2 + 1
  if expectedRecSize > nfcDataLen then .error .invalidLength
  else
    let flags := memory pNfcData
    let tnf := (Tnf.ofFlags flags).received
    let recordLocation := RecordLocation.ofFlags flags
    let typeLength := memory (pNfcData + 1)
    let nfcData := pNfcData + 2
    let long := flags &&& ndefRecordSrMask = 0
    let expectedRecSize := if long then expectedRecSize + (4 - 1) else expectedRecSize
    if long ∧ expectedRecSize > nfcDataLen then .error .invalidLength
    else
      let payloadLength :=
        if long then uint32BigDecode memory nfcData else (memory nfcData).toUInt32
      let nfcData := if long then nfcData + 4 else nfcData + 1
      let flagged := flags &&& ndefRecordIlMask ≠ 0
      let expectedRecSize := if flagged then expectedRecSize + 1 else expectedRecSize
      if flagged ∧ expectedRecSize > nfcDataLen then .error .invalidLength
      else
        let idLength := if flagged then memory nfcData else 0
        let nfcData := if flagged then nfcData + 1 else nfcData
        -- the sum of the sizes wraps around at 32 bits
        let expectedRecSize :=
          expectedRecSize + (typeLength.toUInt32 + idLength.toUInt32 + payloadLength)
        if expectedRecSize > nfcDataLen then .error .invalidLength
        else
          let pType := if typeLength > 0 then .at nfcData else .null
          let nfcData := nfcData + typeLength.toNat
          let pId :=
            if idLength > 0 then .at nfcData else if flagged then RecordPointer.unset else .null
          let nfcData := nfcData + idLength.toNat
          let pPayload := if payloadLength = 0 then .null else .at nfcData
          .ok (⟨tnf, idLength, pId, typeLength, pType, payloadLength, pPayload⟩, recordLocation,
            expectedRecSize)

/-! ### What the parser accepts -/

theorem uint32BigDecode_toNat (memory : Memory UInt8) (pEncodedData : Nat) :
    (uint32BigDecode memory pEncodedData).toNat = bigEndian (slice memory pEncodedData 4) := by
  have bounds := fun offset => (memory (pEncodedData + offset)).toNat_lt
  have first := bounds 0
  have second := bounds 1
  have third := bounds 2
  have fourth := bounds 3
  unfold uint32BigDecode
  show _ = bigEndian [memory pEncodedData, memory (pEncodedData + 1), memory (pEncodedData + 2),
    memory (pEncodedData + 3)]
  rw [Nat.add_zero] at first
  generalize memory pEncodedData = a at *
  generalize memory (pEncodedData + 1) = b at *
  generalize memory (pEncodedData + 2) = c at *
  generalize memory (pEncodedData + 3) = d at *
  have value : (a.toUInt32 <<< 24 ||| b.toUInt32 <<< 16 ||| c.toUInt32 <<< 8 |||
      d.toUInt32 <<< 0).toNat =
      2 ^ 24 * a.toNat ||| 2 ^ 16 * b.toNat ||| 2 ^ 8 * c.toNat ||| d.toNat := by
    simp only [UInt32.toNat_or, UInt32.toNat_shiftLeft, UInt8.toNat_toUInt32, Nat.shiftLeft_eq]
    simp only [UInt32.reduceToNat, Nat.reduceMod, Nat.pow_zero, Nat.mul_one]
    rw [Nat.mod_eq_of_lt (by omega), Nat.mod_eq_of_lt (by omega), Nat.mod_eq_of_lt (by omega),
      Nat.mod_eq_of_lt (by omega)]
    simp only [Nat.mul_comm]
  rw [value, ← Nat.two_pow_add_eq_or_of_lt (by omega),
    show 2 ^ 24 * a.toNat + 2 ^ 16 * b.toNat = 2 ^ 16 * (2 ^ 8 * a.toNat + b.toNat) by omega,
    ← Nat.two_pow_add_eq_or_of_lt (by omega),
    show 2 ^ 16 * (2 ^ 8 * a.toNat + b.toNat) + 2 ^ 8 * c.toNat =
      2 ^ 8 * (2 ^ 8 * (2 ^ 8 * a.toNat + b.toNat) + c.toNat) by omega,
    ← Nat.two_pow_add_eq_or_of_lt (by omega)]
  simp only [bigEndian, List.foldl_cons, List.foldl_nil]
  omega

namespace WireRecord

/-- The size of the fields in front of the type. -/
def headerSize (wire : WireRecord) : Nat :=
  2 + (if wire.flags &&& ndefRecordSrMask = 0 then 4 else 1) +
    (if wire.flags &&& ndefRecordIlMask ≠ 0 then 1 else 0)

/-- The descriptor of a record that stands at an address. -/
def parsedAt (wire : WireRecord) (address : Nat) : ParsedRecord where
  tnf := (Tnf.ofFlags wire.flags).received
  idLength := wire.id.length
  pId :=
    if wire.id.bytes ≠ [] then .at (address + wire.headerSize + wire.type.bytes.length)
    else if wire.flags &&& ndefRecordIlMask ≠ 0 then .unset else .null
  typeLength := wire.type.length
  pType := if wire.type.bytes ≠ [] then .at (address + wire.headerSize) else .null
  payloadLength := UInt32.ofNat wire.payload.length
  pPayload :=
    if wire.payload = [] then .null
    else .at (address + wire.headerSize + wire.type.bytes.length + wire.id.bytes.length)

theorem payloadLengthField_length (wire : WireRecord) : wire.payloadLengthField.length =
    if wire.flags &&& ndefRecordSrMask = 0 then 4 else 1 := by
  unfold payloadLengthField
  split <;> exact toBigEndian_length ..

theorem idField_length (wire : WireRecord) : wire.idField.length =
    if wire.flags &&& ndefRecordIlMask ≠ 0 then 1 else 0 := by
  unfold idField
  split <;> simp_all

theorem bytes_length (wire : WireRecord) : wire.bytes.length =
    wire.headerSize + wire.type.bytes.length + wire.id.bytes.length + wire.payload.length := by
  unfold bytes headerSize
  simp only [List.length_cons, List.length_append, payloadLengthField_length, idField_length]
  omega

theorem headerSize_lt (wire : WireRecord) : wire.headerSize < 2 ^ 32 := by
  unfold headerSize
  split <;> split <;> decide

theorem payload_lt (wire : WireRecord) : wire.payload.length < 2 ^ 32 := by
  have fits := wire.payloadFits
  split at fits <;> omega

/-- **Something of a record's form stands at every address**: the parser refuses a record for its size
only. -/
theorem exists_at (memory : Memory UInt8) (address : Nat) :
    ∃ wire : WireRecord, Stored memory address wire.bytes := by
  let flags := memory address
  let typeLength := memory (address + 1)
  let count := if flags &&& ndefRecordSrMask = 0 then 4 else 1
  let payloadLength := bigEndian (slice memory (address + 2) count)
  let idCount := if flags &&& ndefRecordIlMask = 0 then 0 else 1
  let idLength :=
    if flags &&& ndefRecordIlMask = 0 then 0 else (memory (address + 2 + count)).toNat
  let fields := address + 2 + count + idCount
  have idShort : idLength < 256 := by
    simp only [idLength]
    split
    · decide
    · exact UInt8.toNat_lt _
  have payloadFits : payloadLength < if flags &&& ndefRecordSrMask = 0 then 2 ^ 32 else 2 ^ 8 := by
    have bound := bigEndian_lt (slice memory (address + 2) count)
    rw [slice_length] at bound
    simp only [payloadLength, count] at bound ⊢
    split <;> next size =>
      simpa only [size, reduceIte, Nat.reducePow] using bound
  let wire : WireRecord :=
    { flags := flags
      type := ⟨slice memory fields typeLength.toNat, by
        rw [slice_length]
        exact UInt8.toNat_lt _⟩
      id := ⟨slice memory (fields + typeLength.toNat) idLength, by rwa [slice_length]⟩
      payload := slice memory (fields + typeLength.toNat + idLength) payloadLength
      idFlagged := fun unflagged => by simp only [idLength, if_pos unflagged, slice_zero]
      payloadFits := by rwa [slice_length] }
  have typeByte : memory (address + 1) = wire.type.length := by
    apply UInt8.toNat_inj.mp
    rw [ShortBytes.length_toNat, slice_length]
  have lengthBytes : Stored memory (address + 2) wire.payloadLengthField := by
    have standing := toBigEndian_bigEndian (slice memory (address + 2) count)
    rw [slice_length] at standing
    have field : wire.payloadLengthField = toBigEndian count payloadLength := by
      unfold payloadLengthField
      simp only [wire, slice_length, count]
      split <;> rfl
    rw [field, standing]
    exact stored_slice ..
  have idBytes : Stored memory (address + 2 + count) wire.idField := by
    unfold idField
    split
    · exact stored_nil
    · next flagged =>
      refine stored_cons_iff.mpr ⟨?_, stored_nil⟩
      apply UInt8.toNat_inj.mp
      rw [ShortBytes.length_toNat, slice_length]
      exact (if_neg flagged).symm
  refine ⟨wire, stored_cons_iff.mpr ⟨rfl, stored_cons_iff.mpr ⟨typeByte, ?_⟩⟩⟩
  rw [stored_append_iff, stored_append_iff, stored_append_iff, stored_append_iff]
  have lengthCount : wire.payloadLengthField.length = count := payloadLengthField_length ..
  have idCountEq : wire.idField.length = idCount := by
    rw [idField_length]
    simp only [idCount, wire, ite_not]
  have typeCount : wire.type.bytes.length = typeLength.toNat := slice_length ..
  have idFieldCount : wire.id.bytes.length = idLength := slice_length ..
  rw [lengthCount, idCountEq, typeCount, idFieldCount]
  exact ⟨lengthBytes, idBytes, stored_slice .., stored_slice .., stored_slice ..⟩

end WireRecord

/-- A 32-bit sum of sizes. -/
theorem toNat_sum (base : Nat) (small : base < 2 ^ 32) (typeLength idLength : UInt8)
    (payloadLength : UInt32) :
    (UInt32.ofNat base + (typeLength.toUInt32 + idLength.toUInt32 + payloadLength)).toNat =
      (base + typeLength.toNat + idLength.toNat + payloadLength.toNat) % 2 ^ 32 := by
  simp only [UInt32.toNat_add, UInt8.toNat_toUInt32, UInt32.toNat_ofNat_of_lt' small]
  omega

/-- **What the parser makes of a record on the wire.** The sizes it declares are summed in 32 bits. -/
theorem ndefRecordParser_wire {memory : Memory UInt8} {pNfcData : Nat} {wire : WireRecord}
    (holds : Stored memory pNfcData wire.bytes) (nfcDataLen : UInt32) :
    ndefRecordParser memory pNfcData nfcDataLen =
      if wire.headerSize ≤ nfcDataLen.toNat ∧ wire.bytes.length % 2 ^ 32 ≤ nfcDataLen.toNat then
        .ok (wire.parsedAt pNfcData, RecordLocation.ofFlags wire.flags, UInt32.ofNat wire.bytes.length)
      else .error .invalidLength := by
  obtain ⟨flags, rest⟩ := stored_cons_iff.mp holds
  obtain ⟨typeLength, rest⟩ := stored_cons_iff.mp rest
  obtain ⟨payloadField, rest⟩ := stored_append_iff.mp rest
  obtain ⟨idField, -⟩ := stored_append_iff.mp rest
  have payloadSmall := wire.payload_lt
  have payloadShort := wire.payloadFits
  have total := wire.bytes_length
  rw [wire.payloadLengthField_length] at idField
  have payloadLength : (if wire.flags &&& ndefRecordSrMask = 0 then uint32BigDecode memory (pNfcData + 2)
      else (memory (pNfcData + 2)).toUInt32) = UInt32.ofNat wire.payload.length := by
    apply UInt32.toNat_inj.mp
    rw [UInt32.toNat_ofNat_of_lt' payloadSmall]
    unfold WireRecord.payloadLengthField Stored at payloadField
    split
    · next long =>
      rw [if_pos long, toBigEndian_length] at payloadField
      rw [uint32BigDecode_toNat, payloadField, bigEndian_toBigEndian (by omega)]
    · next short =>
      rw [if_neg short, toBigEndian_length] at payloadField
      rw [if_neg short] at payloadShort
      have single : memory (pNfcData + 2) = UInt8.ofNat wire.payload.length :=
        (List.cons.inj payloadField).1
      rw [single, UInt8.toNat_toUInt32, UInt8.toNat_ofNat']
      omega
  have idLength : (if wire.flags &&& ndefRecordIlMask ≠ 0 then
      memory (if wire.flags &&& ndefRecordSrMask = 0 then pNfcData + 2 + 4 else pNfcData + 2 + 1)
      else 0) = wire.id.length := by
    unfold WireRecord.idField at idField
    split
    · next flagged =>
      rw [if_neg flagged] at idField
      have single := (stored_cons_iff.mp idField).1
      rw [← single]
      split <;> rfl
    · next unflagged =>
      have none := wire.idFlagged (Decidable.not_not.mp unflagged)
      rw [ShortBytes.length, none]
      rfl
  have header : (if wire.flags &&& ndefRecordIlMask ≠ 0 then
      (if wire.flags &&& ndefRecordSrMask = 0 then (2 : UInt32) + 1 + (4 - 1) else 2 + 1) + 1
      else if wire.flags &&& ndefRecordSrMask = 0 then 2 + 1 + (4 - 1) else 2 + 1) =
      UInt32.ofNat wire.headerSize := by
    unfold WireRecord.headerSize
    split <;> split <;> rfl
  have sum : UInt32.ofNat wire.headerSize + (wire.type.length.toUInt32 + wire.id.length.toUInt32 +
      UInt32.ofNat wire.payload.length) = UInt32.ofNat wire.bytes.length := by
    apply UInt32.toNat_inj.mp
    rw [toNat_sum _ wire.headerSize_lt, ShortBytes.length_toNat, ShortBytes.length_toNat,
      UInt32.toNat_ofNat_of_lt' payloadSmall, ← wire.bytes_length, UInt32.toNat_ofNat']
  have above : ∀ size : Nat, UInt32.ofNat size > nfcDataLen ↔ nfcDataLen.toNat < size % 2 ^ 32 := by
    intro size
    rw [gt_iff_lt, UInt32.lt_iff_toNat_lt, UInt32.toNat_ofNat']
  have shortest : (2 : UInt32) + 1 > nfcDataLen ↔ nfcDataLen.toNat < 3 := above 3
  have longer : (if wire.flags &&& ndefRecordSrMask = 0 then (2 : UInt32) + 1 + (4 - 1) else 2 + 1) >
      nfcDataLen ↔ nfcDataLen.toNat < if wire.flags &&& ndefRecordSrMask = 0 then 6 else 3 := by
    split
    · exact above 6
    · exact above 3
  have headers := above wire.headerSize
  rw [Nat.mod_eq_of_lt wire.headerSize_lt] at headers
  have parts : wire.headerSize = 2 + (if wire.flags &&& ndefRecordSrMask = 0 then 4 else 1) +
      (if wire.flags &&& ndefRecordIlMask ≠ 0 then 1 else 0) := rfl
  have fieldsAt : (if wire.flags &&& ndefRecordIlMask ≠ 0 then
      (if wire.flags &&& ndefRecordSrMask = 0 then pNfcData + 2 + 4 else pNfcData + 2 + 1) + 1
      else if wire.flags &&& ndefRecordSrMask = 0 then pNfcData + 2 + 4 else pNfcData + 2 + 1) =
      pNfcData + wire.headerSize := by
    rw [parts]
    split <;> split <;> omega
  have noPayload : UInt32.ofNat wire.payload.length = 0 ↔ wire.payload = [] := by
    rw [← UInt32.toNat_inj, UInt32.toNat_ofNat_of_lt' payloadSmall]
    exact List.length_eq_zero_iff
  unfold ndefRecordParser WireRecord.parsedAt
  simp only [flags, typeLength, payloadLength, idLength, header, sum, shortest, longer, headers, above,
    fieldsAt, noPayload, ShortBytes.length_pos_iff, ShortBytes.length_toNat]
  by_cases fits : wire.headerSize ≤ nfcDataLen.toNat ∧ wire.bytes.length % 2 ^ 32 ≤ nfcDataLen.toNat
  · have enough : ¬ nfcDataLen.toNat < 3 := by
      split at parts <;> split at parts <;> omega
    have enoughLong : ¬ (wire.flags &&& ndefRecordSrMask = 0 ∧
        nfcDataLen.toNat < if wire.flags &&& ndefRecordSrMask = 0 then 6 else 3) := by
      rintro ⟨long, less⟩
      rw [if_pos long] at less parts
      omega
    rw [if_neg enough, if_neg enoughLong, if_neg (by omega), if_neg (by omega), if_pos fits]
  · rw [if_neg fits]
    by_cases short : nfcDataLen.toNat < 3
    · exact if_pos short
    by_cases shortLong : wire.flags &&& ndefRecordSrMask = 0 ∧
        nfcDataLen.toNat < if wire.flags &&& ndefRecordSrMask = 0 then 6 else 3
    · rw [if_neg short, if_pos shortLong]
    by_cases shortFlagged : wire.flags &&& ndefRecordIlMask ≠ 0 ∧ nfcDataLen.toNat < wire.headerSize
    · rw [if_neg short, if_neg shortLong, if_pos shortFlagged]
    have header_le : wire.headerSize ≤ nfcDataLen.toNat := by
      by_cases flagged : wire.flags &&& ndefRecordIlMask ≠ 0
      · exact Nat.le_of_not_lt fun less => shortFlagged ⟨flagged, less⟩
      · rw [if_neg flagged] at parts
        by_cases long : wire.flags &&& ndefRecordSrMask = 0
        · rw [if_pos long] at parts shortLong
          have enough := Nat.le_of_not_lt fun less => shortLong ⟨long, less⟩
          omega
        · rw [if_neg long] at parts
          omega
    rw [if_neg short, if_neg shortLong, if_neg shortFlagged, if_pos (by omega)]

/-- **A record is accepted exactly when its header lies in the data and so does its size in 32 bits.**
-/
theorem ndefRecordParser_eq_ok_iff {memory : Memory UInt8} {pNfcData : Nat} {nfcDataLen : UInt32}
    {result : ParsedRecord × RecordLocation × UInt32} :
    ndefRecordParser memory pNfcData nfcDataLen = .ok result ↔
      ∃ wire : WireRecord, Stored memory pNfcData wire.bytes ∧
        (wire.headerSize ≤ nfcDataLen.toNat ∧ wire.bytes.length % 2 ^ 32 ≤ nfcDataLen.toNat) ∧
        result = (wire.parsedAt pNfcData, RecordLocation.ofFlags wire.flags,
          UInt32.ofNat wire.bytes.length) := by
  constructor
  · intro parsed
    obtain ⟨wire, holds⟩ := WireRecord.exists_at memory pNfcData
    rw [ndefRecordParser_wire holds] at parsed
    split at parsed
    · next fits => exact ⟨wire, holds, fits, (Except.ok.inj parsed).symm⟩
    · cases parsed
  · rintro ⟨wire, holds, fits, rfl⟩
    rw [ndefRecordParser_wire holds, if_pos fits]

/-! ### What was encoded -/

/-- What a descriptor of the parser leads to. -/
def ParsedRecord.content (memory : Memory UInt8) (parsed : ParsedRecord) :
    Tnf × List UInt8 × List UInt8 × List UInt8 :=
  (parsed.tnf, parsed.pId.read memory parsed.idLength.toNat,
    parsed.pType.read memory parsed.typeLength.toNat,
    parsed.pPayload.read memory parsed.payloadLength.toNat)

/-- What a program means by a record, as a reader of the record sees it. -/
def NdefRecord.content (record : NdefRecord) : Tnf × List UInt8 × List UInt8 × List UInt8 :=
  (record.tnf.received, record.id.bytes, record.type.bytes, record.payload)

theorem RecordPointer.read_at {memory : Memory UInt8} {address count : Nat} {bytes : List UInt8}
    (holds : Stored memory address bytes) (length : count = bytes.length) :
    (RecordPointer.at address).read memory count = bytes := by
  rw [length]
  exact holds

/-- The pointers of a record lead to its fields. -/
theorem WireRecord.content_parsedAt {memory : Memory UInt8} {address : Nat} {wire : WireRecord}
    (holds : Stored memory address wire.bytes) : (wire.parsedAt address).content memory =
      ((Tnf.ofFlags wire.flags).received, wire.id.bytes, wire.type.bytes, wire.payload) := by
  obtain ⟨-, rest⟩ := stored_cons_iff.mp holds
  obtain ⟨-, rest⟩ := stored_cons_iff.mp rest
  obtain ⟨-, rest⟩ := stored_append_iff.mp rest
  obtain ⟨-, rest⟩ := stored_append_iff.mp rest
  have fieldsAt : address + 1 + 1 + wire.payloadLengthField.length + wire.idField.length =
      address + wire.headerSize := by
    rw [wire.payloadLengthField_length, wire.idField_length]
    unfold WireRecord.headerSize
    omega
  rw [fieldsAt] at rest
  obtain ⟨type, rest⟩ := stored_append_iff.mp rest
  obtain ⟨id, payload⟩ := stored_append_iff.mp rest
  have readId : (wire.parsedAt address).pId.read memory (wire.parsedAt address).idLength.toNat =
      wire.id.bytes := by
    unfold WireRecord.parsedAt
    dsimp only
    split
    · exact RecordPointer.read_at id (ShortBytes.length_toNat _)
    · next none =>
      rw [Decidable.not_not.mp none]
      split <;> rfl
  have readType : (wire.parsedAt address).pType.read memory (wire.parsedAt address).typeLength.toNat =
      wire.type.bytes := by
    unfold WireRecord.parsedAt
    dsimp only
    split
    · exact RecordPointer.read_at type (ShortBytes.length_toNat _)
    · next none => exact (Decidable.not_not.mp none).symm
  have readPayload : (wire.parsedAt address).pPayload.read memory
      (wire.parsedAt address).payloadLength.toNat = wire.payload := by
    unfold WireRecord.parsedAt
    dsimp only
    split
    · next none => exact none.symm
    · exact RecordPointer.read_at payload (UInt32.toNat_ofNat_of_lt' wire.payload_lt)
  unfold ParsedRecord.content
  rw [readId, readType, readPayload]
  rfl

theorem Tnf.ofFlags_encodedFlags (location : RecordLocation) (tnf : Tnf) (id : ShortBytes) :
    Tnf.ofFlags (encodedFlags location.code tnf id) = tnf := by
  unfold encodedFlags
  split <;> cases location <;> cases tnf <;> rfl

theorem RecordLocation.ofFlags_encodedFlags (location : RecordLocation) (tnf : Tnf) (id : ShortBytes) :
    RecordLocation.ofFlags (encodedFlags location.code tnf id) = location := by
  unfold encodedFlags
  split <;> cases location <;> cases tnf <;> rfl

/-- **What the encoder wrote is read back.** -/
theorem NdefRecord.content_wire {memory : Memory UInt8} {address : Nat} {record : NdefRecord}
    {location : RecordLocation} (holds : Stored memory address (record.wire location).bytes) :
    ((record.wire location).parsedAt address).content memory = record.content := by
  rw [WireRecord.content_parsedAt holds]
  show ((Tnf.ofFlags (encodedFlags location.code record.tnf record.id)).received, _, _, _) = _
  rw [Tnf.ofFlags_encodedFlags]
  rfl

end PrimoCore.Nfc
