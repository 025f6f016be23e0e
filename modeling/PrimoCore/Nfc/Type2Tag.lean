/-
**Type 2 tags.**

`type_2_tag_parse` reads the memory of a tag: the serial number, the capability container and the TLV
blocks of the data area, each a tag, a length of one byte or three, and a value. NULL blocks are
skipped, a TERMINATOR block ends the area.

* `type2TagParse` — the parser. Its loop ends for every memory: **the offset grows and stays in the
  data area**.
* `TlvValue`, `TlvItem` — a block with its form, and the items of a data area.
* `tlvBlockExtract_eq_ok_iff` — what the parser takes for a block.
* `tlvLoop_success_iff` — what the loop accepts.
* `type2TagParse_success_iff` — **the parser accepts exactly the tags whose data area is a sequence of
  blocks** up to a terminator or its end, with room for them, and gives these blocks.
* `type2TagParse_congr` — **the parser reads nothing behind the data area**.
* `tag_message_round_trip` — **a message in a tag is found and read**, whatever blocks stand in front
  of it.
-/

import PrimoCore.Nfc.NdefMessage

namespace PrimoCore.Nfc

open PrimoCore.Lib

/-! ### Descriptors -/

/-- `tlv_block_t`. A pointer to a value is an offset in the tag, or null. -/
structure TlvBlock where
  tag : UInt8
  length : Nat
  pValue : Option Nat
  deriving DecidableEq

/-- `type_2_tag_serial_number_t`. -/
structure SerialNumber where
  manufacturerId : UInt8
  serialNumberPart1 : UInt16
  checkByte0 : UInt8
  serialNumberPart2 : UInt32
  checkByte1 : UInt8
  internal : UInt8
  deriving DecidableEq

/-- `type_2_tag_capability_container_t`. -/
structure CapabilityContainer where
  majorVersion : UInt8
  minorVersion : UInt8
  dataAreaSize : Nat
  readAccess : UInt8
  writeAccess : UInt8
  deriving DecidableEq

/-- `type_2_tag_t`, with the blocks stored so far. -/
structure Type2Tag where
  sn : SerialNumber
  lockBytes : UInt16
  cc : CapabilityContainer
  maxTlvBlocks : Nat
  blocks : List TlvBlock
  deriving DecidableEq

def tlvNull : UInt8 := 0x00
def tlvLockControl : UInt8 := 0x01
def tlvMemoryControl : UInt8 := 0x02
def tlvNdefMessage : UInt8 := 0x03
def tlvTerminator : UInt8 := 0xFE

/-- `TLV_L_FORMAT_FLAG`. -/
def tlvLFormatFlag : UInt8 := 0xFF

/-- `T2T_FIRST_DATA_BLOCK_OFFSET`. -/
def t2tFirstDataBlockOffset : Nat := 16

/-- `uint16_big_decode`. -/
def uint16BigDecode (memory : Memory UInt8) (pEncodedData : Nat) : UInt16 :=
  (memory pEncodedData).toUInt16 <<< 8 ||| (memory (pEncodedData + 1)).toUInt16

/-! ### Blocks -/

/-- The end of the data area. -/
def Type2Tag.finish (tag : Type2Tag) : Nat := tag.cc.dataAreaSize + t2tFirstDataBlockOffset

/-- `type_2_tag_is_field_within_data_range`. Offsets stay below 2^16: the data area ends before 2057. -/
def isFieldWithinDataRange (tag : Type2Tag) (offset fieldLength : Nat) : Bool :=
  if fieldLength = 0 then false
  else offset + fieldLength - 1 < tag.finish && offset ≥ t2tFirstDataBlockOffset

/-- `type_2_tag_type_extract`: the tag, and the offset behind it. -/
def typeExtract (tag : Type2Tag) (raw : Memory UInt8) (offset : Nat) : Except RetCode (UInt8 × Nat) :=
  if !isFieldWithinDataRange tag offset 1 then .error .invalidData
  else .ok (raw offset, offset + 1)

/-- `type_2_tag_length_extract`: the length, and the offset behind it. -/
def lengthExtract (tag : Type2Tag) (raw : Memory UInt8) (offset : Nat) : Except RetCode (Nat × Nat) :=
  if !isFieldWithinDataRange tag offset 1 then .error .invalidData
  else
    let length := raw offset
    if length = tlvLFormatFlag then
      if !isFieldWithinDataRange tag offset 3 then .error .invalidData
      else
        let length := (uint16BigDecode raw (offset + 1)).toNat
        if length < 0xFF then .error .invalidData
        else .ok (length, offset + 3)
    else .ok (length.toNat, offset + 1)

/-- `type_2_tag_value_ptr_extract`: the pointer, and the offset behind the value. -/
def valuePtrExtract (tag : Type2Tag) (length offset : Nat) : Except RetCode (Option Nat × Nat) :=
  if length = 0 then .ok (none, offset)
  else if !isFieldWithinDataRange tag offset length then .error .invalidData
  else .ok (some offset, offset + length)

/-- `type_2_tag_tlv_block_extract`: the block, and the offset of the next one, 0 if it was the last. -/
def tlvBlockExtract (tag : Type2Tag) (raw : Memory UInt8) (offset : Nat) :
    Except RetCode (TlvBlock × Nat) :=
  match typeExtract tag raw offset with
  | .error code => .error code
  | .ok (type, offset) =>
      if type = tlvNull then .ok (⟨type, 0, none⟩, offset)
      else if type = tlvTerminator then .ok (⟨type, 0, none⟩, 0)
      else
        match lengthExtract tag raw offset with
        | .error code => .error code
        | .ok (length, offset) =>
            if length > 0 then
              match valuePtrExtract tag length offset with
              | .error code => .error code
              | .ok (pValue, offset) => .ok (⟨type, length, pValue⟩, offset)
            else .ok (⟨type, length, none⟩, offset)

/-- `tlv_block_is_data_length_correct`. -/
def tlvBlockIsDataLengthCorrect (block : TlvBlock) : Bool :=
  if block.tag = tlvNull ∨ block.tag = tlvTerminator then block.length = 0
  else if block.tag = tlvLockControl ∨ block.tag = tlvMemoryControl then block.length = 3
  else true

/-- `type_2_tag_tlv_block_insert`. -/
def tlvBlockInsert (tag : Type2Tag) (block : TlvBlock) : Except RetCode Type2Tag :=
  if tag.blocks.length = tag.maxTlvBlocks then .error .noMem
  else .ok { tag with blocks := tag.blocks ++ [block] }

/-- `type_2_tag_tlv_parse`: the tag with the block, and the offset of the next one. -/
def tlvParse (tag : Type2Tag) (raw : Memory UInt8) (offset : Nat) : Except RetCode (Type2Tag × Nat) :=
  match tlvBlockExtract tag raw offset with
  | .error code => .error code
  | .ok (block, offset) =>
      if !tlvBlockIsDataLengthCorrect block then .error .invalidData
      else if block.tag = tlvNull ∨ block.tag = tlvTerminator then .ok (tag, offset)
      else
        match tlvBlockInsert tag block with
        | .error code => .error code
        | .ok tag => .ok (tag, offset)

/-! ### Blocks on the tag -/

/-- A length in one of its forms: one byte, or a flag and two bytes. -/
def tlvLengthField (long : Bool) (length : Nat) : List UInt8 :=
  if long then tlvLFormatFlag :: toBigEndian 2 length else toBigEndian 1 length

/-- The lengths of a form. -/
def TlvLengthFits (long : Bool) (length : Nat) : Prop :=
  if long then 0xFF ≤ length ∧ length < 2 ^ 16 else length < 0xFF

/-- A block with a value, and the form of its length. -/
structure TlvValue where
  tag : UInt8
  value : List UInt8
  long : Bool
  valued : tag ≠ tlvNull ∧ tag ≠ tlvTerminator
  control : tag = tlvLockControl ∨ tag = tlvMemoryControl → value.length = 3
  fits : TlvLengthFits long value.length

/-- An item of a data area. -/
inductive TlvItem where
  | null
  | block (block : TlvValue)

theorem tlvLengthField_length (long : Bool) (length : Nat) :
    (tlvLengthField long length).length = if long then 3 else 1 := by
  cases long
  · exact toBigEndian_length ..
  · exact congrArg Nat.succ (toBigEndian_length ..)

namespace TlvValue

/-- The bytes of a block. -/
def bytes (block : TlvValue) : List UInt8 :=
  block.tag :: (tlvLengthField block.long block.value.length ++ block.value)

/-- The descriptor of a block that stands at an offset. -/
def parsedAt (block : TlvValue) (offset : Nat) : TlvBlock where
  tag := block.tag
  length := block.value.length
  pValue :=
    if block.value = [] then none
    else some (offset + 1 + (tlvLengthField block.long block.value.length).length)

theorem bytes_length (block : TlvValue) : block.bytes.length =
    1 + (tlvLengthField block.long block.value.length).length + block.value.length := by
  unfold bytes
  rw [List.length_cons, List.length_append]
  omega

end TlvValue

theorem isFieldWithinDataRange_iff {tag : Type2Tag} {offset fieldLength : Nat}
    (some : 0 < fieldLength) (area : t2tFirstDataBlockOffset ≤ offset) :
    isFieldWithinDataRange tag offset fieldLength = true ↔ offset + fieldLength ≤ tag.finish := by
  unfold isFieldWithinDataRange
  rw [if_neg (by omega), Bool.and_eq_true, decide_eq_true_eq, decide_eq_true_eq]
  omega

theorem uint16BigDecode_toNat (memory : Memory UInt8) (pEncodedData : Nat) :
    (uint16BigDecode memory pEncodedData).toNat = bigEndian (slice memory pEncodedData 2) := by
  have first := (memory pEncodedData).toNat_lt
  have second := (memory (pEncodedData + 1)).toNat_lt
  have value : (uint16BigDecode memory pEncodedData).toNat =
      2 ^ 8 * (memory pEncodedData).toNat ||| (memory (pEncodedData + 1)).toNat := by
    unfold uint16BigDecode
    simp only [UInt16.toNat_or, UInt16.toNat_shiftLeft, UInt8.toNat_toUInt16, Nat.shiftLeft_eq]
    simp only [UInt16.reduceToNat, Nat.reduceMod]
    rw [Nat.mod_eq_of_lt (by omega)]
    simp only [Nat.mul_comm]
  rw [value, ← Nat.two_pow_add_eq_or_of_lt second]
  show _ = bigEndian [memory pEncodedData, memory (pEncodedData + 1)]
  simp only [bigEndian, List.foldl_cons, List.foldl_nil]
  omega

/-- **A length is read exactly when it stands in one of its forms.** -/
theorem lengthExtract_eq_ok_iff {tag : Type2Tag} {raw : Memory UInt8} {offset length next : Nat}
    (area : t2tFirstDataBlockOffset ≤ offset) :
    lengthExtract tag raw offset = .ok (length, next) ↔
      ∃ long, TlvLengthFits long length ∧ Stored raw offset (tlvLengthField long length) ∧
        next = offset + (tlvLengthField long length).length ∧ next ≤ tag.finish := by
  have one := @isFieldWithinDataRange_iff tag offset 1 Nat.one_pos area
  have three := @isFieldWithinDataRange_iff tag offset 3 (Nat.succ_pos 2) area
  have decoded := uint16BigDecode_toNat raw (offset + 1)
  have bound := (uint16BigDecode raw (offset + 1)).toNat_lt
  unfold lengthExtract
  constructor
  · intro read
    split at read
    · cases read
    · next within =>
      rw [Bool.not_eq_true', Bool.not_eq_false] at within
      dsimp only at read
      split at read
      · next flag =>
        split at read
        · cases read
        · next within3 =>
          rw [Bool.not_eq_true', Bool.not_eq_false] at within3
          split at read
          · cases read
          · next long =>
            cases read
            refine ⟨true, ⟨Nat.le_of_not_lt long, bound⟩, ?_, ?_, three.mp within3⟩
            · refine stored_cons_iff.mpr ⟨flag, ?_⟩
              have standing := toBigEndian_bigEndian (slice raw (offset + 1) 2)
              rw [slice_length, ← decoded] at standing
              rw [standing]
              exact stored_slice ..
            · rw [tlvLengthField_length]
              rfl
      · next short =>
        cases read
        have small := (raw offset).toNat_lt
        have different : (raw offset).toNat ≠ 0xFF := fun same => short (UInt8.toNat_inj.mp same)
        refine ⟨false, ?_, ?_, ?_, one.mp within⟩
        · show (raw offset).toNat < 0xFF
          omega
        · refine stored_cons_iff.mpr ⟨?_, stored_nil⟩
          exact (UInt8.ofNat_toNat).symm
        · rw [tlvLengthField_length]
          rfl
  · rintro ⟨long, fits, holds, rfl, below⟩
    rw [tlvLengthField_length] at below ⊢
    cases long with
    | false =>
      change length < 0xFF at fits
      change offset + 1 ≤ tag.finish at below
      have here : raw offset = UInt8.ofNat length := (stored_cons_iff.mp holds).1
      have value : (raw offset).toNat = length := by
        rw [here, UInt8.toNat_ofNat']
        omega
      have unflagged : raw offset ≠ tlvLFormatFlag := by
        intro same
        rw [same] at value
        change 255 = length at value
        omega
      rw [one.mpr below]
      dsimp only
      rw [if_neg unflagged, value]
      rfl
    | true =>
      obtain ⟨large, small⟩ : 0xFF ≤ length ∧ length < 2 ^ 16 := fits
      change offset + 3 ≤ tag.finish at below
      obtain ⟨flag, digits⟩ := stored_cons_iff.mp holds
      have value : (uint16BigDecode raw (offset + 1)).toNat = length := by
        unfold Stored at digits
        rw [toBigEndian_length] at digits
        rw [decoded, digits, bigEndian_toBigEndian (by omega)]
      rw [one.mpr (by omega), three.mpr below]
      dsimp only
      rw [if_pos flag, value, if_neg (Nat.not_lt_of_le large)]
      rfl

/-- **What the parser takes for a block with a value**: one whose bytes stand at the offset and end in
the data area, and whose length is that of its tag. -/
theorem tlvBlockExtract_eq_ok_iff {tag : Type2Tag} {raw : Memory UInt8} {offset : Nat}
    (area : t2tFirstDataBlockOffset ≤ offset)
    (valued : raw offset ≠ tlvNull ∧ raw offset ≠ tlvTerminator) {found : TlvBlock} {next : Nat} :
    (tlvBlockExtract tag raw offset = .ok (found, next) ∧ tlvBlockIsDataLengthCorrect found = true) ↔
      ∃ block : TlvValue, Stored raw offset block.bytes ∧ offset + block.bytes.length ≤ tag.finish ∧
        found = block.parsedAt offset ∧ next = offset + block.bytes.length := by
  have one := @isFieldWithinDataRange_iff tag offset 1 Nat.one_pos area
  constructor
  · rintro ⟨extracted, right⟩
    unfold tlvBlockExtract typeExtract at extracted
    split at extracted
    · cases extracted
    · next type afterType typed =>
      split at typed
      · cases typed
      · cases typed
        rw [if_neg valued.1, if_neg valued.2] at extracted
        split at extracted
        · cases extracted
        · next length afterLength read =>
          obtain ⟨long, fits, holds, rfl, below⟩ :=
            (lengthExtract_eq_ok_iff (Nat.le_succ_of_le area)).mp read
          have control : found.tag = raw offset → found.length = length →
              raw offset = tlvLockControl ∨ raw offset = tlvMemoryControl → length = 3 := by
            intro type same special
            unfold tlvBlockIsDataLengthCorrect at right
            rw [type, if_neg (not_or.mpr valued), if_pos special, same] at right
            exact of_decide_eq_true right
          let start := offset + 1 + (tlvLengthField long length).length
          have standing : (raw offset = tlvLockControl ∨ raw offset = tlvMemoryControl → length = 3) →
              ∃ block : TlvValue, Stored raw offset block.bytes ∧
                block.bytes.length = 1 + (tlvLengthField long length).length + length ∧
                block.parsedAt offset = ⟨raw offset, length, if length = 0 then none else some start⟩ := by
            intro lengthOk
            have size := slice_length raw start length
            refine ⟨⟨raw offset, slice raw start length, long, valued, by rwa [size], by rwa [size]⟩,
              ?_, ?_, ?_⟩
            · refine stored_cons_iff.mpr ⟨rfl, stored_append_iff.mpr ⟨?_, ?_⟩⟩ <;> dsimp only <;>
                rw [size]
              · exact holds
              · exact stored_slice ..
            · rw [TlvValue.bytes_length]
              dsimp only
              rw [size]
            · unfold TlvValue.parsedAt
              simp only [← List.length_eq_zero_iff, size, start]
          by_cases some : length > 0
          · rw [if_pos some] at extracted
            unfold valuePtrExtract at extracted
            rw [if_neg (by omega)] at extracted
            split at extracted
            · cases extracted
            · next pValue afterValue pointed =>
              split at pointed
              · cases pointed
              · next within =>
                cases pointed
                cases extracted
                rw [Bool.not_eq_true', Bool.not_eq_false,
                  isFieldWithinDataRange_iff some (by omega)] at within
                obtain ⟨block, stands, total, parsed⟩ := standing (control rfl rfl)
                rw [if_neg (by omega)] at parsed
                exact ⟨block, stands, by omega, parsed.symm, by omega⟩
          · rw [if_neg some] at extracted
            cases extracted
            obtain ⟨block, stands, total, parsed⟩ := standing (control rfl rfl)
            rw [if_pos (by omega)] at parsed
            exact ⟨block, stands, by omega, parsed.symm, by omega⟩
  · rintro ⟨block, holds, below, rfl, rfl⟩
    have total := block.bytes_length
    obtain ⟨here, rest⟩ := stored_cons_iff.mp holds
    obtain ⟨lengthField, -⟩ := stored_append_iff.mp rest
    have read := (@lengthExtract_eq_ok_iff tag raw (offset + 1) block.value.length _
      (Nat.le_succ_of_le area)).mpr ⟨block.long, block.fits, lengthField, rfl, by omega⟩
    have typed : typeExtract tag raw offset = .ok (block.tag, offset + 1) := by
      unfold typeExtract
      rw [one.mpr (by omega), here]
      rfl
    constructor
    · unfold tlvBlockExtract
      rw [typed]
      dsimp only
      rw [if_neg block.valued.1, if_neg block.valued.2, read]
      dsimp only
      unfold TlvValue.parsedAt
      by_cases empty : block.value = []
      · rw [if_pos empty, total, empty, List.length_nil, if_neg (Nat.lt_irrefl 0), Nat.add_assoc]
        rfl
      · have some := List.length_pos_iff.mpr empty
        rw [if_pos some, if_neg empty]
        unfold valuePtrExtract
        rw [if_neg (by omega), (isFieldWithinDataRange_iff some (by omega)).mpr (by omega), total,
          Bool.not_true, if_neg Bool.false_ne_true]
        dsimp only
        congr 2
        omega
    · unfold tlvBlockIsDataLengthCorrect TlvValue.parsedAt
      dsimp only
      rw [if_neg (not_or.mpr block.valued)]
      split
      · next special => exact decide_eq_true (block.control special)
      · rfl

/-! ### The loop -/

theorem typeExtract_eq {tag : Type2Tag} {raw : Memory UInt8} {offset : Nat}
    (area : t2tFirstDataBlockOffset ≤ offset) : typeExtract tag raw offset =
      if offset < tag.finish then .ok (raw offset, offset + 1) else .error .invalidData := by
  have one := @isFieldWithinDataRange_iff tag offset 1 Nat.one_pos area
  unfold typeExtract
  by_cases inside : offset < tag.finish
  · rw [if_pos inside, one.mpr inside]
    rfl
  · rw [if_neg inside, Bool.eq_false_iff.mpr (mt one.mp (by omega))]
    rfl

/-- **One turn of the loop** inside the data area: a NULL block, a TERMINATOR block, or a block that is
stored. -/
theorem tlvParse_eq_ok_iff {tag after : Type2Tag} {raw : Memory UInt8} {offset next : Nat}
    (area : t2tFirstDataBlockOffset ≤ offset) :
    tlvParse tag raw offset = .ok (after, next) ↔
      offset < tag.finish ∧
        ((raw offset = tlvNull ∧ after = tag ∧ next = offset + 1) ∨
          (raw offset = tlvTerminator ∧ after = tag ∧ next = 0) ∨
          (tag.blocks.length ≠ tag.maxTlvBlocks ∧ ∃ block : TlvValue, Stored raw offset block.bytes ∧
            offset + block.bytes.length ≤ tag.finish ∧
            after = { tag with blocks := tag.blocks ++ [block.parsedAt offset] } ∧
            next = offset + block.bytes.length)) := by
  have typed := @typeExtract_eq tag raw offset area
  by_cases inside : offset < tag.finish
  · rw [if_pos inside] at typed
    rw [and_iff_right inside]
    -- a block with a value does not start with another tag
    have tagged : ∀ block : TlvValue, Stored raw offset block.bytes → raw offset = block.tag :=
      fun block holds => (stored_cons_iff.mp holds).1
    by_cases null : raw offset = tlvNull
    · have parsed : tlvParse tag raw offset = .ok (tag, offset + 1) := by
        unfold tlvParse tlvBlockExtract
        rw [typed, null]
        rfl
      rw [parsed, Except.ok.injEq, Prod.mk.injEq]
      constructor
      · rintro ⟨rfl, rfl⟩
        exact .inl ⟨null, rfl, rfl⟩
      · rintro (⟨-, rfl, rfl⟩ | ⟨terminator, -⟩ | ⟨-, block, holds, -⟩)
        · exact ⟨rfl, rfl⟩
        · exact absurd (null.symm.trans terminator) (by decide)
        · exact absurd ((tagged block holds).symm.trans null) block.valued.1
    by_cases terminator : raw offset = tlvTerminator
    · have parsed : tlvParse tag raw offset = .ok (tag, 0) := by
        unfold tlvParse tlvBlockExtract
        rw [typed, terminator]
        rfl
      rw [parsed, Except.ok.injEq, Prod.mk.injEq]
      constructor
      · rintro ⟨rfl, rfl⟩
        exact .inr (.inl ⟨terminator, rfl, rfl⟩)
      · rintro (⟨isNull, -⟩ | ⟨-, rfl, rfl⟩ | ⟨-, block, holds, -⟩)
        · exact absurd isNull null
        · exact ⟨rfl, rfl⟩
        · exact absurd ((tagged block holds).symm.trans terminator) block.valued.2
    constructor
    · intro parsed
      refine .inr (.inr ?_)
      unfold tlvParse at parsed
      split at parsed
      · cases parsed
      · next found afterBlock extracted =>
        split at parsed
        · cases parsed
        · next right =>
          rw [Bool.not_eq_true', Bool.not_eq_false] at right
          obtain ⟨block, holds, below, rfl, rfl⟩ :=
            (tlvBlockExtract_eq_ok_iff area ⟨null, terminator⟩).mp ⟨extracted, right⟩
          have plain : ¬ ((block.parsedAt offset).tag = tlvNull ∨
              (block.parsedAt offset).tag = tlvTerminator) := not_or.mpr block.valued
          rw [if_neg plain] at parsed
          unfold tlvBlockInsert at parsed
          split at parsed
          · cases parsed
          · next tag' inserted =>
            split at inserted
            · cases inserted
            · next room =>
              cases inserted
              cases parsed
              exact ⟨room, block, holds, below, rfl, rfl⟩
    · rintro (⟨isNull, -⟩ | ⟨isTerminator, -⟩ | ⟨room, block, holds, below, rfl, rfl⟩)
      · exact absurd isNull null
      · exact absurd isTerminator terminator
      · obtain ⟨extracted, right⟩ := (tlvBlockExtract_eq_ok_iff area ⟨null, terminator⟩).mpr
          ⟨block, holds, below, rfl, rfl⟩
        have plain : ¬ ((block.parsedAt offset).tag = tlvNull ∨
            (block.parsedAt offset).tag = tlvTerminator) := not_or.mpr block.valued
        unfold tlvParse tlvBlockInsert
        rw [extracted]
        dsimp only
        rw [right, Bool.not_true, if_neg Bool.false_ne_true, if_neg plain, if_neg room]
  · rw [if_neg inside] at typed
    refine iff_of_false ?_ (fun both => inside both.1)
    unfold tlvParse tlvBlockExtract
    rw [typed]
    exact fun parsed => by cases parsed

/-- A turn that succeeds began in the data area. -/
theorem tlvParse_area {tag after : Type2Tag} {raw : Memory UInt8} {offset next : Nat}
    (parsed : tlvParse tag raw offset = .ok (after, next)) : t2tFirstDataBlockOffset ≤ offset := by
  by_contra outside
  have no : isFieldWithinDataRange tag offset 1 = false := by
    unfold isFieldWithinDataRange
    rw [if_neg Nat.one_ne_zero, Bool.and_eq_false_iff]
    exact .inr (decide_eq_false outside)
  unfold tlvParse tlvBlockExtract typeExtract at parsed
  rw [no] at parsed
  cases parsed

/-- **Every turn goes forward in the data area, or ends the loop.** -/
theorem tlvParse_advances {tag after : Type2Tag} {raw : Memory UInt8} {offset next : Nat}
    (parsed : tlvParse tag raw offset = .ok (after, next)) :
    after.finish = tag.finish ∧ offset < tag.finish ∧ (next = 0 ∨ offset < next) := by
  obtain ⟨inside, turn⟩ := (tlvParse_eq_ok_iff (tlvParse_area parsed)).mp parsed
  rcases turn with ⟨-, rfl, rfl⟩ | ⟨-, rfl, rfl⟩ | ⟨-, block, -, -, rfl, rfl⟩
  · exact ⟨rfl, inside, .inr (Nat.lt_succ_self _)⟩
  · exact ⟨rfl, inside, .inl rfl⟩
  · refine ⟨rfl, inside, .inr ?_⟩
    rw [block.bytes_length]
    omega

/-- The loop of `type_2_tag_parse`. -/
def tlvLoop (raw : Memory UInt8) (tag : Type2Tag) (offset : Nat) : RetCode × Type2Tag :=
  if offset = 0 then (.success, tag)
  -- `type_2_tag_is_end_reached`
  else if offset = tag.finish then (.success, tag)
  else
    match _ : tlvParse tag raw offset with
    | .error code => (code, tag)
    | .ok (after, next) => tlvLoop raw after next
termination_by if offset = 0 then 0 else tag.finish + 1 - offset
decreasing_by
  obtain ⟨finish, inside, forward⟩ := tlvParse_advances ‹tlvParse tag raw offset = .ok (after, next)›
  rw [finish, if_neg ‹¬ offset = 0›]
  split <;> omega

/-- The data area ends at a place, or a TERMINATOR block stands there. -/
def Stops (raw : Memory UInt8) (finish position : Nat) : Prop :=
  position = finish ∨ position < finish ∧ raw position = tlvTerminator

namespace TlvItem

def bytes : TlvItem → List UInt8
  | .null => [tlvNull]
  | .block value => value.bytes

/-- The bytes of a data area up to its end. -/
def areaBytes (items : List TlvItem) : List UInt8 := items.flatMap bytes

/-- The descriptors of the blocks in some items that stand at an offset. -/
def blocksFrom : Nat → List TlvItem → List TlvBlock
  | _, [] => []
  | offset, .null :: rest => blocksFrom (offset + 1) rest
  | offset, .block value :: rest => value.parsedAt offset :: blocksFrom (offset + value.bytes.length) rest

@[simp] theorem areaBytes_nil : areaBytes [] = [] := rfl

@[simp] theorem areaBytes_cons (item : TlvItem) (rest : List TlvItem) :
    areaBytes (item :: rest) = item.bytes ++ areaBytes rest := rfl

theorem bytes_pos (item : TlvItem) : 0 < item.bytes.length := by
  cases item with
  | null => exact Nat.one_pos
  | block value =>
    show 0 < value.bytes.length
    rw [value.bytes_length]
    omega

end TlvItem

theorem lengthExtract_error {tag : Type2Tag} {raw : Memory UInt8} {offset : Nat} {code : RetCode}
    (failed : lengthExtract tag raw offset = .error code) : code = .invalidData := by
  unfold lengthExtract at failed
  split at failed
  · exact (Except.error.inj failed).symm
  · dsimp only at failed
    split at failed
    · split at failed
      · exact (Except.error.inj failed).symm
      · split at failed
        · exact (Except.error.inj failed).symm
        · cases failed
    · cases failed

theorem tlvBlockExtract_error {tag : Type2Tag} {raw : Memory UInt8} {offset : Nat} {code : RetCode}
    (failed : tlvBlockExtract tag raw offset = .error code) : code = .invalidData := by
  unfold tlvBlockExtract at failed
  split at failed
  · next typed =>
    cases failed
    unfold typeExtract at typed
    split at typed
    · exact (Except.error.inj typed).symm
    · cases typed
  · split at failed
    · cases failed
    · split at failed
      · cases failed
      · split at failed
        · next read =>
          cases failed
          exact lengthExtract_error read
        · split at failed
          · split at failed
            · next pointed =>
              cases failed
              unfold valuePtrExtract at pointed
              split at pointed
              · cases pointed
              · split at pointed
                · exact (Except.error.inj pointed).symm
                · cases pointed
            · cases failed
          · cases failed

theorem tlvParse_error {tag : Type2Tag} {raw : Memory UInt8} {offset : Nat} {code : RetCode}
    (failed : tlvParse tag raw offset = .error code) : code = .invalidData ∨ code = .noMem := by
  unfold tlvParse at failed
  split at failed
  · next extracted =>
    cases failed
    exact .inl (tlvBlockExtract_error extracted)
  · split at failed
    · exact .inl (Except.error.inj failed).symm
    · split at failed
      · cases failed
      · split at failed
        · next inserted =>
          cases failed
          unfold tlvBlockInsert at inserted
          split at inserted
          · exact .inr (Except.error.inj inserted).symm
          · cases inserted
        · cases failed

open TlvItem in
/-- The turn that some items ask for. -/
theorem tlvParse_items {raw : Memory UInt8} {tag : Type2Tag} {offset : Nat}
    (area : t2tFirstDataBlockOffset ≤ offset) (going : offset ≠ tag.finish) {items : List TlvItem}
    (holds : Stored raw offset (areaBytes items))
    (stops : Stops raw tag.finish (offset + (areaBytes items).length))
    (room : tag.blocks.length + (blocksFrom offset items).length ≤ tag.maxTlvBlocks) :
    ∃ after next, tlvParse tag raw offset = .ok (after, next) ∧
      match items with
      | [] => after = tag ∧ next = 0
      | item :: _ => next = offset + item.bytes.length ∧
          after = { tag with blocks := tag.blocks ++ blocksFrom offset [item] } := by
  cases items with
  | nil =>
    rcases stops with ends | ⟨before, terminator⟩
    · exact absurd ends going
    · exact ⟨tag, 0, (tlvParse_eq_ok_iff area).mpr ⟨before, .inr (.inl ⟨terminator, rfl, rfl⟩)⟩, rfl, rfl⟩
  | cons item rest =>
    rw [areaBytes_cons] at holds stops
    rw [List.length_append] at stops
    have positive := item.bytes_pos
    have ends : offset + item.bytes.length ≤ tag.finish := by
      rcases stops with ends | ⟨before, -⟩ <;> omega
    obtain ⟨here, -⟩ := stored_append_iff.mp holds
    cases item with
    | null =>
      refine ⟨tag, offset + 1, (tlvParse_eq_ok_iff area).mpr
        ⟨ends, .inl ⟨(stored_cons_iff.mp here).1, rfl, rfl⟩⟩, rfl, ?_⟩
      rw [blocksFrom, blocksFrom, List.append_nil]
    | block value =>
      rw [blocksFrom, List.length_cons] at room
      exact ⟨_, _, (tlvParse_eq_ok_iff area).mpr ⟨by omega, .inr (.inr ⟨by omega, value, here, ends,
        rfl, rfl⟩)⟩, rfl, rfl⟩

open TlvItem in
/-- **What the loop accepts**: items that stand one behind the other up to a place where the area ends
or a terminator stands, with room for their blocks. -/
theorem tlvLoop_success_iff {raw : Memory UInt8} {tag after : Type2Tag} {offset : Nat}
    (area : t2tFirstDataBlockOffset ≤ offset) (inside : offset ≤ tag.finish)
    (counted : tag.blocks.length ≤ tag.maxTlvBlocks) :
    tlvLoop raw tag offset = (.success, after) ↔
      ∃ items : List TlvItem, Stored raw offset (areaBytes items) ∧
        Stops raw tag.finish (offset + (areaBytes items).length) ∧
        tag.blocks.length + (blocksFrom offset items).length ≤ tag.maxTlvBlocks ∧
        after = { tag with blocks := tag.blocks ++ blocksFrom offset items } := by
  fun_induction tlvLoop raw tag offset with
  | case1 tag => exact absurd area (by decide)
  | case2 tag _ =>
    rw [Prod.mk.injEq, and_iff_right rfl]
    constructor
    · rintro rfl
      refine ⟨[], stored_nil, .inl rfl, counted, ?_⟩
      rw [blocksFrom, List.append_nil]
    · rintro ⟨items, -, stops, -, rfl⟩
      cases items with
      | nil => rw [blocksFrom, List.append_nil]
      | cons item rest =>
        have positive := item.bytes_pos
        rw [areaBytes_cons, List.length_append] at stops
        rcases stops with ends | ⟨before, -⟩ <;> omega
  | case3 tag offset positive going code failed =>
    refine iff_of_false ?_ ?_
    · intro succeeded
      have success : code = .success := (Prod.mk.inj succeeded).1
      rcases tlvParse_error failed with rfl | rfl <;> cases success
    · rintro ⟨items, holds, stops, room, -⟩
      obtain ⟨after, next, parsed, -⟩ := tlvParse_items area going holds stops room
      cases failed.symm.trans parsed
  | case4 tag offset positive going turned next parsed ih =>
    obtain ⟨before, turn⟩ := (tlvParse_eq_ok_iff area).mp parsed
    constructor
    · intro looped
      rcases turn with ⟨null, rfl, rfl⟩ | ⟨terminator, rfl, rfl⟩ | ⟨room, value, here, below, rfl, rfl⟩
      · obtain ⟨items, holds, stops, fits, result⟩ :=
          (ih (Nat.le_succ_of_le area) before counted).mp looped
        refine ⟨.null :: items, ?_, ?_, fits, result⟩
        · exact stored_cons_iff.mpr ⟨null, holds⟩
        · rwa [areaBytes_cons, List.length_append, ← Nat.add_assoc]
      · rw [tlvLoop, if_pos rfl] at looped
        refine ⟨[], stored_nil, .inr ⟨before, terminator⟩, counted, ?_⟩
        rw [blocksFrom, List.append_nil, (Prod.mk.inj looped).2]
      · have stored : (tag.blocks ++ [value.parsedAt offset]).length = tag.blocks.length + 1 :=
          List.length_append
        obtain ⟨items, holds, stops, fits, result⟩ :=
          (ih (Nat.le_add_right_of_le area) below (by dsimp only; omega)).mp looped
        dsimp only at fits result
        refine ⟨.block value :: items, ?_, ?_, ?_, ?_⟩
        · exact stored_append_iff.mpr ⟨here, holds⟩
        · rwa [areaBytes_cons, List.length_append, ← Nat.add_assoc]
        · rw [blocksFrom, List.length_cons]
          omega
        · rw [result, List.append_assoc]
          rfl
    · rintro ⟨items, holds, stops, room, rfl⟩
      obtain ⟨_, _, expected, shape⟩ := tlvParse_items area going holds stops room
      obtain ⟨rfl, rfl⟩ := Prod.mk.inj (Except.ok.inj (parsed.symm.trans expected))
      cases items with
      | nil =>
        obtain ⟨rfl, rfl⟩ := shape
        rw [tlvLoop, if_pos rfl, blocksFrom, List.append_nil]
      | cons item rest =>
        obtain ⟨rfl, rfl⟩ := shape
        rw [areaBytes_cons] at holds stops
        rw [List.length_append, ← Nat.add_assoc] at stops
        have below : offset + item.bytes.length ≤ tag.finish := by
          rcases stops with ends | ⟨inside, -⟩ <;> omega
        have split : blocksFrom offset (item :: rest) =
            blocksFrom offset [item] ++ blocksFrom (offset + item.bytes.length) rest := by
          cases item <;> rfl
        rw [split, List.length_append] at room
        refine (ih (Nat.le_add_right_of_le area) below ?_).mpr
          ⟨rest, (stored_append_iff.mp holds).2, stops, ?_, ?_⟩
        · rw [List.length_append]
          dsimp only
          omega
        · rw [List.length_append]
          dsimp only
          omega
        · dsimp only
          rw [split, List.append_assoc]

/-! ### The parser -/

/-- `T2T_NFC_FORUM_DEFINED_DATA`. -/
def t2tNfcForumDefinedData : UInt8 := 0xE1

/-- `T2T_UID_BCC_CASCADE_BYTE`. -/
def t2tUidBccCascadeByte : UInt8 := 0x88

/-- `T2T_SUPPORTED_MAJOR_VERSION`. -/
def t2tSupportedMajorVersion : UInt8 := 1

/-- `T2T_CC_BLOCK_OFFSET`. -/
def t2tCcBlockOffset : Nat := 12

/-- `LSN_GET`. -/
def lsnGet (value : UInt8) : UInt8 := value &&& 0x0F

/-- `MSN_GET`. -/
def msnGet (value : UInt8) : UInt8 := value >>> 4 &&& 0x0F

/-- `type_2_tag_clear`. The lock bytes stay. -/
def type2TagClear (tag : Type2Tag) : Type2Tag :=
  { tag with sn := ⟨0, 0, 0, 0, 0, 0⟩, cc := ⟨0, 0, 0, 0, 0⟩, blocks := [] }

/-- `type_2_tag_is_bcc_correct`. -/
def type2TagIsBccCorrect (sn : SerialNumber) : Bool :=
  let bcc1 := t2tUidBccCascadeByte ^^^ sn.manufacturerId ^^^
    (sn.serialNumberPart1 >>> 8 &&& 0xFF).toUInt8 ^^^ (sn.serialNumberPart1 &&& 0xFF).toUInt8
  let bcc2 := (sn.serialNumberPart2 >>> 24 &&& 0xFF).toUInt8 ^^^
    (sn.serialNumberPart2 >>> 16 &&& 0xFF).toUInt8 ^^^ (sn.serialNumberPart2 >>> 8 &&& 0xFF).toUInt8 ^^^
    (sn.serialNumberPart2 &&& 0xFF).toUInt8
  bcc1 = sn.checkByte0 && bcc2 = sn.checkByte1

/-- `type_2_tag_internal_parse`. A wrong check byte only makes it print a warning. -/
def type2TagInternalParse (tag : Type2Tag) (raw : Memory UInt8) : Type2Tag :=
  { tag with
    sn :=
      { manufacturerId := raw 0
        serialNumberPart1 := uint16BigDecode raw 1
        checkByte0 := raw 3
        serialNumberPart2 := uint32BigDecode raw 4
        checkByte1 := raw 8
        internal := raw 9 }
    lockBytes := uint16BigDecode raw 10 }

/-- `type_2_tag_cc_parse`. -/
def type2TagCcParse (tag : Type2Tag) (raw : Memory UInt8) : Except RetCode Type2Tag :=
  if raw t2tCcBlockOffset ≠ t2tNfcForumDefinedData then .error .invalidData
  else
    .ok { tag with
      cc :=
        { majorVersion := msnGet (raw (t2tCcBlockOffset + 1))
          minorVersion := lsnGet (raw (t2tCcBlockOffset + 1))
          dataAreaSize := (raw (t2tCcBlockOffset + 2)).toNat * 8
          readAccess := msnGet (raw (t2tCcBlockOffset + 3))
          writeAccess := lsnGet (raw (t2tCcBlockOffset + 3)) } }

/-- `type_2_tag_parse`. -/
def type2TagParse (tag : Type2Tag) (raw : Memory UInt8) : RetCode × Type2Tag :=
  let tag := type2TagInternalParse (type2TagClear tag) raw
  match type2TagCcParse tag raw with
  | .error code => (code, tag)
  | .ok tag =>
      -- `type_2_tag_is_version_supported`
      if tag.cc.majorVersion ≠ t2tSupportedMajorVersion then (.notSupported, tag)
      else tlvLoop raw tag t2tFirstDataBlockOffset

/-- What the header of a tag says: the serial number, the lock bytes and the capability container. -/
def Type2Tag.header (tag : Type2Tag) (raw : Memory UInt8) : Type2Tag :=
  { type2TagInternalParse (type2TagClear tag) raw with
    cc :=
      { majorVersion := msnGet (raw 13)
        minorVersion := lsnGet (raw 13)
        dataAreaSize := (raw 14).toNat * 8
        readAccess := msnGet (raw 15)
        writeAccess := lsnGet (raw 15) } }

theorem type2TagParse_eq (tag : Type2Tag) {raw : Memory UInt8} (magic : raw 12 = t2tNfcForumDefinedData)
    (version : msnGet (raw 13) = t2tSupportedMajorVersion) :
    type2TagParse tag raw = tlvLoop raw (tag.header raw) t2tFirstDataBlockOffset := by
  have container : type2TagCcParse (type2TagInternalParse (type2TagClear tag) raw) raw =
      .ok (tag.header raw) := if_neg (not_not.mpr magic)
  have supported : ¬ (tag.header raw).cc.majorVersion ≠ t2tSupportedMajorVersion := not_not.mpr version
  unfold type2TagParse
  dsimp only
  rw [container]
  exact if_neg supported

/-- A tag without the header of a tag is refused. -/
theorem type2TagParse_refused (tag : Type2Tag) {raw : Memory UInt8}
    (other : ¬ (raw 12 = t2tNfcForumDefinedData ∧ msnGet (raw 13) = t2tSupportedMajorVersion)) :
    (type2TagParse tag raw).1 ≠ .success := by
  unfold type2TagParse
  dsimp only
  by_cases magic : raw 12 = t2tNfcForumDefinedData
  · have container : type2TagCcParse (type2TagInternalParse (type2TagClear tag) raw) raw =
        .ok (tag.header raw) := if_neg (not_not.mpr magic)
    have unsupported : (tag.header raw).cc.majorVersion ≠ t2tSupportedMajorVersion :=
      fun same => other ⟨magic, same⟩
    rw [container]
    dsimp only
    rw [if_pos unsupported]
    exact RetCode.noConfusion
  · have container : type2TagCcParse (type2TagInternalParse (type2TagClear tag) raw) raw =
        .error .invalidData := if_pos magic
    rw [container]
    exact RetCode.noConfusion

open TlvItem in
/-- What the parser makes of the data area of a tag whose header is right. -/
theorem type2TagParse_area {tag after : Type2Tag} {raw : Memory UInt8}
    (magic : raw 12 = t2tNfcForumDefinedData) (version : msnGet (raw 13) = t2tSupportedMajorVersion) :
    type2TagParse tag raw = (.success, after) ↔
      ∃ items : List TlvItem, Stored raw 16 (areaBytes items) ∧
        Stops raw ((raw 14).toNat * 8 + 16) (16 + (areaBytes items).length) ∧
        (blocksFrom 16 items).length ≤ tag.maxTlvBlocks ∧
        after = { tag.header raw with blocks := blocksFrom 16 items } := by
  have inside : t2tFirstDataBlockOffset ≤ (tag.header raw).finish := Nat.le_add_left ..
  rw [type2TagParse_eq tag magic version,
    tlvLoop_success_iff (Nat.le_refl _) inside (Nat.zero_le _)]
  refine exists_congr fun items => and_congr_right fun _ => and_congr_right fun _ => ?_
  have empty : (tag.header raw).blocks = [] := rfl
  rw [empty, List.length_nil, Nat.zero_add, List.nil_append]
  rfl

open TlvItem in
/-- **The parser accepts exactly the tags whose data area is a sequence of blocks**: the header has
the magic number and the supported version, the blocks stand one behind the other up to a TERMINATOR
block or the end of the area, and there is room for those with a value. It gives these blocks, in this
order. -/
theorem type2TagParse_success_iff {tag after : Type2Tag} {raw : Memory UInt8} :
    type2TagParse tag raw = (.success, after) ↔
      raw 12 = t2tNfcForumDefinedData ∧ msnGet (raw 13) = t2tSupportedMajorVersion ∧
        ∃ items : List TlvItem, Stored raw 16 (areaBytes items) ∧
          Stops raw ((raw 14).toNat * 8 + 16) (16 + (areaBytes items).length) ∧
          (blocksFrom 16 items).length ≤ tag.maxTlvBlocks ∧
          after = { tag.header raw with blocks := blocksFrom 16 items } := by
  by_cases right : raw 12 = t2tNfcForumDefinedData ∧ msnGet (raw 13) = t2tSupportedMajorVersion
  · rw [type2TagParse_area right.1 right.2, and_iff_right right.1, and_iff_right right.2]
  · refine iff_of_false (fun parsed => ?_) fun accepted => right ⟨accepted.1, accepted.2.1⟩
    exact type2TagParse_refused tag right (congrArg Prod.fst parsed)

/-! ### Nothing behind the data area -/

section Congr

variable {tag : Type2Tag} {raw raw' : Memory UInt8}

/-- A field in the data area is the same in two memories that agree there. -/
theorem field_congr (agree : ∀ position < tag.finish, raw position = raw' position) {offset length : Nat}
    (within : isFieldWithinDataRange tag offset length = true) {position : Nat}
    (field : position < offset + length) : raw position = raw' position := by
  unfold isFieldWithinDataRange at within
  split at within
  · cases within
  · have below := of_decide_eq_true (Bool.and_eq_true_iff.mp within).1
    exact agree position (by omega)

theorem lengthExtract_congr (agree : ∀ position < tag.finish, raw position = raw' position)
    (offset : Nat) : lengthExtract tag raw offset = lengthExtract tag raw' offset := by
  unfold lengthExtract
  by_cases one : isFieldWithinDataRange tag offset 1 = true
  · rw [field_congr agree one (Nat.lt_succ_self offset)]
    by_cases three : isFieldWithinDataRange tag offset 3 = true
    · have digits : uint16BigDecode raw (offset + 1) = uint16BigDecode raw' (offset + 1) := by
        unfold uint16BigDecode
        rw [field_congr agree three (by omega), field_congr agree three (by omega)]
      rw [digits]
    · rw [Bool.not_eq_true] at three
      rw [three]
      rfl
  · rw [Bool.not_eq_true] at one
    rw [one]
    rfl

theorem tlvBlockExtract_congr (agree : ∀ position < tag.finish, raw position = raw' position)
    (offset : Nat) : tlvBlockExtract tag raw offset = tlvBlockExtract tag raw' offset := by
  have typed : typeExtract tag raw offset = typeExtract tag raw' offset := by
    unfold typeExtract
    by_cases one : isFieldWithinDataRange tag offset 1 = true
    · rw [field_congr agree one (Nat.lt_succ_self offset)]
    · rw [Bool.not_eq_true] at one
      rw [one]
      rfl
  unfold tlvBlockExtract
  simp only [typed, lengthExtract_congr agree]

theorem tlvParse_congr (agree : ∀ position < tag.finish, raw position = raw' position) (offset : Nat) :
    tlvParse tag raw offset = tlvParse tag raw' offset := by
  unfold tlvParse
  rw [tlvBlockExtract_congr agree]

end Congr

theorem tlvLoop_congr {raw raw' : Memory UInt8} {tag : Type2Tag}
    (agree : ∀ position < tag.finish, raw position = raw' position) (offset : Nat) :
    tlvLoop raw tag offset = tlvLoop raw' tag offset := by
  fun_induction tlvLoop raw tag offset with
  | case1 tag => rw [tlvLoop, if_pos rfl]
  | case2 tag positive => rw [tlvLoop, if_neg positive, if_pos rfl]
  | case3 tag offset positive going code failed =>
    rw [tlvParse_congr agree] at failed
    rw [tlvLoop, if_neg positive, if_neg going]
    split
    · next failed' => rw [Except.error.inj (failed.symm.trans failed')]
    · next parsed => cases failed.symm.trans parsed
  | case4 tag offset positive going after next parsed ih =>
    have finish := (tlvParse_advances parsed).1
    rw [tlvParse_congr agree] at parsed
    rw [ih (by rwa [finish]), tlvLoop.eq_def raw' tag offset, if_neg positive, if_neg going]
    split
    · next failed => cases parsed.symm.trans failed
    · next parsed' =>
      obtain ⟨rfl, rfl⟩ := Prod.mk.inj (Except.ok.inj (parsed.symm.trans parsed'))
      rfl

/-- **The parser reads nothing behind the data area**: it does the same on two memories with the same
header and the same data area. -/
theorem type2TagParse_congr (tag : Type2Tag) {raw raw' : Memory UInt8}
    (agree : ∀ position < (raw 14).toNat * 8 + 16, raw position = raw' position) :
    type2TagParse tag raw = type2TagParse tag raw' := by
  have header : ∀ position < 16, raw position = raw' position := fun position below =>
    agree position (by omega)
  have internal : type2TagInternalParse (type2TagClear tag) raw =
      type2TagInternalParse (type2TagClear tag) raw' := by
    unfold type2TagInternalParse uint16BigDecode uint32BigDecode
    simp (disch := decide) only [header]
  have container : type2TagCcParse (type2TagInternalParse (type2TagClear tag) raw') raw =
      type2TagCcParse (type2TagInternalParse (type2TagClear tag) raw') raw' := by
    unfold type2TagCcParse t2tCcBlockOffset
    simp (disch := decide) only [header]
  unfold type2TagParse
  dsimp only
  rw [internal, container]
  split
  · rfl
  · next found parsed =>
    split
    · rfl
    · refine tlvLoop_congr ?_ _
      unfold type2TagCcParse at parsed
      split at parsed
      · cases parsed
      · cases parsed
        rw [header 14 (by decide)] at agree
        exact agree

/-- Two tags with a data area of eight bytes and something else behind it. -/
theorem type2TagParse_congr_behind :
    let bytes : List UInt8 := [4, 1, 2, 0x8F, 3, 4, 5, 6, 4, 0, 0, 0, 0xE1, 0x12, 1, 0] ++
      [3, 2, 7, 7, 0xFD, 1, 5, 0]
    let tag : Type2Tag := ⟨⟨0, 0, 0, 0, 0, 0⟩, 0, ⟨0, 0, 0, 0, 0⟩, 4, []⟩
    type2TagParse tag (overlay (fun _ => 0) 0 bytes) = type2TagParse tag (overlay (fun _ => 3) 0 bytes) :=
  type2TagParse_congr _ (by decide +kernel)

/-! ### Serial numbers -/

/-- A byte of a big endian number. -/
theorem shifted_byte (word shift : UInt32) (small : shift < 32) :
    (word >>> shift &&& 0xFF).toUInt8.toNat = word.toNat / 2 ^ shift.toNat % 2 ^ 8 := by
  have below : shift.toNat < 32 := small
  simp only [UInt32.toNat_toUInt8, UInt32.toNat_and, UInt32.toNat_shiftRight, Nat.shiftRight_eq_div_pow,
    UInt32.reduceToNat]
  rw [show (255 : Nat) = 2 ^ 8 - 1 from rfl, Nat.and_two_pow_sub_one_eq_mod, Nat.mod_mod,
    Nat.mod_eq_of_lt below]

theorem uint16BigDecode_bytes (memory : Memory UInt8) (start : Nat) :
    (uint16BigDecode memory start >>> 8 &&& 0xFF).toUInt8 = memory start ∧
      (uint16BigDecode memory start &&& 0xFF).toUInt8 = memory (start + 1) := by
  have value := uint16BigDecode_toNat memory start
  have first := (memory start).toNat_lt
  have second := (memory (start + 1)).toNat_lt
  change _ = bigEndian [memory start, memory (start + 1)] at value
  simp only [bigEndian, List.foldl_cons, List.foldl_nil] at value
  constructor <;> apply UInt8.toNat_inj.mp <;>
    simp only [UInt16.toNat_toUInt8, UInt16.toNat_and, UInt16.toNat_shiftRight,
      Nat.shiftRight_eq_div_pow, UInt16.reduceToNat, Nat.reduceMod] <;>
    rw [show (255 : Nat) = 2 ^ 8 - 1 from rfl, Nat.and_two_pow_sub_one_eq_mod] <;> omega

theorem uint32BigDecode_bytes (memory : Memory UInt8) (start : Nat) :
    let word := uint32BigDecode memory start
    (word >>> 24 &&& 0xFF).toUInt8 = memory start ∧
      (word >>> 16 &&& 0xFF).toUInt8 = memory (start + 1) ∧
      (word >>> 8 &&& 0xFF).toUInt8 = memory (start + 2) ∧
      (word &&& 0xFF).toUInt8 = memory (start + 3) := by
  have value := uint32BigDecode_toNat memory start
  have first := (memory start).toNat_lt
  have second := (memory (start + 1)).toNat_lt
  have third := (memory (start + 2)).toNat_lt
  have fourth := (memory (start + 3)).toNat_lt
  change _ = bigEndian [memory start, memory (start + 1), memory (start + 2), memory (start + 3)] at value
  simp only [bigEndian, List.foldl_cons, List.foldl_nil] at value
  generalize uint32BigDecode memory start = word at value ⊢
  have lowest := shifted_byte word 0 (by decide)
  rw [UInt32.shiftRight_zero] at lowest
  change (word &&& 0xFF).toUInt8.toNat = word.toNat / 1 % 2 ^ 8 at lowest
  refine ⟨?_, ?_, ?_, ?_⟩ <;> apply UInt8.toNat_inj.mp
  · rw [shifted_byte word 24 (by decide)]
    change word.toNat / 2 ^ 24 % 2 ^ 8 = _
    omega
  · rw [shifted_byte word 16 (by decide)]
    change word.toNat / 2 ^ 16 % 2 ^ 8 = _
    omega
  · rw [shifted_byte word 8 (by decide)]
    change word.toNat / 2 ^ 8 % 2 ^ 8 = _
    omega
  · omega
/-- **When the check bytes of a tag are right**: they are the exclusive or of the bytes of the serial
number. -/
theorem type2TagIsBccCorrect_iff (tag : Type2Tag) (raw : Memory UInt8) :
    type2TagIsBccCorrect (type2TagInternalParse tag raw).sn = true ↔
      raw 3 = t2tUidBccCascadeByte ^^^ raw 0 ^^^ raw 1 ^^^ raw 2 ∧
        raw 8 = raw 4 ^^^ raw 5 ^^^ raw 6 ^^^ raw 7 := by
  obtain ⟨high, low⟩ := uint16BigDecode_bytes raw 1
  obtain ⟨first, second, third, fourth⟩ := uint32BigDecode_bytes raw 4
  unfold type2TagIsBccCorrect type2TagInternalParse
  dsimp only
  rw [high, low, first, second, third, fourth, Bool.and_eq_true, decide_eq_true_eq, decide_eq_true_eq]
  exact and_congr eq_comm eq_comm

/-- `hal_nfc_common_hw_setup`: the internal bytes of the tag, from the tag header of the chip. -/
def halNfcCommonHwSetup (nfcTagHeader0 nfcTagHeader1 : UInt32) : List UInt8 :=
  let sn0 := nfcTagHeader0.toUInt8
  let sn1 := (nfcTagHeader0 >>> 8).toUInt8
  let sn2 := (nfcTagHeader0 >>> 16).toUInt8
  let sn3 := nfcTagHeader1.toUInt8
  let sn4 := (nfcTagHeader1 >>> 8).toUInt8
  let sn5 := (nfcTagHeader1 >>> 16).toUInt8
  let sn6 := (nfcTagHeader1 >>> 24).toUInt8
  [sn0, sn1, sn2, 0x88 ^^^ sn0 ^^^ sn1 ^^^ sn2, sn3, sn4, sn5, sn6, sn3 ^^^ sn4 ^^^ sn5 ^^^ sn6, 0x03]

/-- **The serial number of the board passes the check**, for every chip. -/
theorem halNfcCommonHwSetup_checks (nfcTagHeader0 nfcTagHeader1 : UInt32) (tag : Type2Tag)
    {raw : Memory UInt8} (holds : Stored raw 0 (halNfcCommonHwSetup nfcTagHeader0 nfcTagHeader1)) :
    type2TagIsBccCorrect (type2TagInternalParse tag raw).sn = true := by
  unfold halNfcCommonHwSetup at holds
  simp only [stored_cons_iff] at holds
  obtain ⟨sn0, sn1, sn2, bcc0, sn3, sn4, sn5, sn6, bcc1, -⟩ := holds
  change raw 1 = _ at sn1
  change raw 2 = _ at sn2
  change raw 3 = _ at bcc0
  change raw 4 = _ at sn3
  change raw 5 = _ at sn4
  change raw 6 = _ at sn5
  change raw 7 = _ at sn6
  change raw 8 = _ at bcc1
  rw [type2TagIsBccCorrect_iff, bcc0, bcc1, sn0, sn1, sn2, sn3, sn4, sn5, sn6]
  exact ⟨rfl, rfl⟩

/-! ### Messages in tags -/

namespace TlvItem

@[simp] theorem areaBytes_append (items rest : List TlvItem) :
    areaBytes (items ++ rest) = areaBytes items ++ areaBytes rest := List.flatMap_append

theorem blocksFrom_append (offset : Nat) (items rest : List TlvItem) :
    blocksFrom offset (items ++ rest) =
      blocksFrom offset items ++ blocksFrom (offset + (areaBytes items).length) rest := by
  induction items generalizing offset with
  | nil => rfl
  | cons item items ih =>
    rw [areaBytes_cons, List.length_append, ← Nat.add_assoc]
    cases item with
    | null => exact ih (offset + 1)
    | block value => exact congrArg (List.cons _) (ih (offset + value.bytes.length))

/-- A block among the items of a data area has its value in the tag. -/
theorem block_in_area {raw : Memory UInt8} {offset : Nat} {before behind : List TlvItem} {value : TlvValue}
    (area : Stored raw offset (areaBytes (before ++ .block value :: behind))) (filled : value.value ≠ []) :
    ∃ address, (blocksFrom offset (before ++ .block value :: behind))[(blocksFrom offset before).length]? =
        some ⟨value.tag, value.value.length, some address⟩ ∧ Stored raw address value.value := by
  rw [areaBytes_append] at area
  obtain ⟨-, following⟩ := stored_append_iff.mp area
  obtain ⟨here, -⟩ := stored_append_iff.mp following
  obtain ⟨-, inside⟩ := stored_cons_iff.mp here
  obtain ⟨-, stored⟩ := stored_append_iff.mp inside
  refine ⟨_, ?_, stored⟩
  rw [blocksFrom_append, List.getElem?_append_right (Nat.le_refl _), Nat.sub_self, blocksFrom,
    List.getElem?_cons_zero, TlvValue.parsedAt, if_neg filled]

end TlvItem

open TlvItem in
/-- **A message in a tag is found and read**: when the value of an NDEF block is a message that was
encoded, the tag parser gives this block, whatever blocks stand before and behind it, and the message
parser reads the records of the message there. -/
theorem tag_message_round_trip {msg : NdefMsgDesc NdefRecordDesc} {records : List NdefRecord}
    (describes : msg.Describes records) (nonempty : records ≠ []) {memory : Memory UInt8}
    {msgBuffer msgLen : Nat} (encoded : (nfcNdefMsgEncode msg memory msgBuffer msgLen).code = .success)
    {tag : Type2Tag} {raw : Memory UInt8} (magic : raw 12 = t2tNfcForumDefinedData)
    (version : msnGet (raw 13) = t2tSupportedMajorVersion) {before behind : List TlvItem} {ndef : TlvValue}
    (isMessage : ndef.tag = tlvNdefMessage)
    (value : ndef.value = slice (nfcNdefMsgEncode msg memory msgBuffer msgLen).memory msgBuffer
      (nfcNdefMsgEncode msg memory msgBuffer msgLen).length)
    (area : Stored raw 16 (areaBytes (before ++ .block ndef :: behind)))
    (stops : Stops raw ((raw 14).toNat * 8 + 16)
      (16 + (areaBytes (before ++ .block ndef :: behind)).length))
    (room : (blocksFrom 16 (before ++ .block ndef :: behind)).length ≤ tag.maxTlvBlocks)
    {maxRecordCount : Nat} (enough : records.length ≤ maxRecordCount) :
    ∃ found length address, type2TagParse tag raw = (.success, found) ∧
      found.blocks[(blocksFrom 16 before).length]? = some ⟨tlvNdefMessage, length, some address⟩ ∧
      let parsed := internalNdefMsgParser raw maxRecordCount address (UInt32.ofNat length)
      parsed.code = .success ∧
        parsed.records.map (ParsedRecord.content raw) = records.map NdefRecord.content := by
  have emits := msgWriter_emits describes
  have enoughRoom := (emits.success_iff RetCode.noConfusion memory msgBuffer msgLen).mp encoded
  have written := emits.emitted memory msgBuffer msgLen enoughRoom
  change nfcNdefMsgEncode msg memory msgBuffer msgLen = _ at written
  rw [written, slice_overlay] at value
  have filled : ndef.value ≠ [] := by
    rw [value]
    exact messageBytes_ne_nil nonempty
  obtain ⟨address, found, stored⟩ := block_in_area area filled
  have parsedTag := (type2TagParse_area magic version).mpr ⟨_, area, stops, room, rfl⟩
  refine ⟨_, ndef.value.length, address, parsedTag, isMessage ▸ found, ?_⟩
  have short : ndef.value.length < 2 ^ 16 := by
    have fits := ndef.fits
    unfold TlvLengthFits at fits
    split at fits
    · exact fits.2
    · omega
  have small : (UInt32.ofNat ndef.value.length).toNat = ndef.value.length :=
    UInt32.toNat_ofNat_of_lt' (Nat.lt_trans short (by decide))
  rw [value] at stored small ⊢
  rw [internalNdefMsgParser_message nonempty enough stored (Nat.le_of_eq small.symm)]
  exact ⟨rfl, content_parsedFrom stored⟩

open TlvItem in
/-- A text record in a tag, behind a NULL block and a lock control block, with a terminator. -/
theorem tag_message_round_trip_text :
    let desc : NdefRecordDesc := ⟨.wellKnown, ⟨[], by decide⟩, ⟨[0x54], by decide⟩, binWriter [0, 7]⟩
    let written := nfcNdefMsgEncode ⟨[desc], 1, by decide⟩ (fun _ => 0) 0 32
    let raw := overlay (fun _ => 0) 0 ([4, 1, 2, 0x8F, 3, 4, 5, 6, 4, 0, 0, 0, 0xE1, 0x12, 3, 0] ++
      [0, 1, 3, 9, 9, 9, 3, 9] ++ slice written.memory 0 9 ++ [0xFE])
    ∃ found length address,
      type2TagParse ⟨⟨0, 0, 0, 0, 0, 0⟩, 0, ⟨0, 0, 0, 0, 0⟩, 2, []⟩ raw = (.success, found) ∧
      found.blocks[1]? = some ⟨tlvNdefMessage, length, some address⟩ ∧
      let parsed := internalNdefMsgParser raw 1 address (UInt32.ofNat length)
      parsed.code = .success ∧
        parsed.records.map (ParsedRecord.content raw) = [(.wellKnown, [], [0x54], [0, 7])] := by
  intro desc written raw
  have describes : NdefMsgDesc.Describes ⟨[desc], 1, by decide⟩
      [⟨.wellKnown, ⟨[], by decide⟩, ⟨[0x54], by decide⟩, [0, 7], by decide⟩] :=
    .cons ⟨rfl, rfl, rfl, binWriter_emits _⟩ .nil
  let before : List TlvItem := [.null,
    .block ⟨tlvLockControl, [9, 9, 9], false, by decide, fun _ => rfl, (by decide : 3 < 0xFF)⟩]
  let ndef : TlvValue := ⟨tlvNdefMessage, slice written.memory 0 9, false, by decide,
    fun control => absurd control (by decide), by
      rw [slice_length]
      exact (by decide : 9 < 0xFF)⟩
  exact @tag_message_round_trip _ _ describes (List.cons_ne_nil _ _) (fun _ => 0) 0 32
    (by decide +kernel) _ raw (by decide +kernel) (by decide +kernel) before [] ndef rfl
    (by decide +kernel) (by decide +kernel) (.inr ⟨by decide +kernel, by decide +kernel⟩)
    (by decide +kernel) 1 (by decide)

end PrimoCore.Nfc
