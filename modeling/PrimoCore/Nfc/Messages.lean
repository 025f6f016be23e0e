/-
**The messages of the NFC class.**

`NFCClass` serves a text, a URI or an application from one buffer. Its message and record descriptors
are static: those of the URI and the application are cleared on every call, that of the text is not,
and keeps the record of the first call, whose payload descriptor is overwritten.

* `textWriter`, `uriWriter`, `winLaunchappWriter` — the payload constructors; `textWriter_emits` and
  its like say what they emit, `textWriter_failed` that a text that is refused is not written.
* `NfcState`, `nfcStep` — the static data, and the calls `setTXTmessage`, `setURImessage` and
  `setAPPmessage`; lengths are cut to 8 bits.
* `NfcState.Kept` — the messages hold no record but their own, on every run.
* `last_message_served` — **after a call that is accepted a reader gets its message**, whatever was
  called before.
* `last_text_served` — **a text that is refused leaves the last one accepted**, on every run of
  `setTXTmessage`.
-/

import Mathlib.Data.List.Induction
import PrimoCore.Lib.Run
import PrimoCore.Nfc.NdefMessage

namespace PrimoCore.Nfc

open PrimoCore.Lib

/-! ### Payload constructors -/

/-- `UTF`. -/
inductive Utf where
  | utf8
  | utf16
  deriving DecidableEq

def Utf.code : Utf → UInt8
  | .utf8 => 0
  | .utf16 => 1

/-- `nfc_text_rec_payload_desc_t`; `none` is a null pointer. The size of the payload is summed in 32
bits. -/
structure TextRecPayloadDesc where
  utf : Utf
  langCode : Option ShortBytes
  data : Option (List UInt8)
  dataFits : (data.getD []).length < 2 ^ 32 - 2 ^ 8

def TextRecPayloadDesc.lang (desc : TextRecPayloadDesc) : ShortBytes :=
  desc.langCode.getD ⟨[], by decide⟩

def TextRecPayloadDesc.text (desc : TextRecPayloadDesc) : List UInt8 := desc.data.getD []

/-- The first check of `nfc_text_rec_payload_constructor`. -/
def TextRecPayloadDesc.Refused (desc : TextRecPayloadDesc) : Prop :=
  desc.lang.length = 0 ∨ desc.lang.length &&& ((1 : UInt8) <<< 6) ≠ 0 ∨
    desc.lang.length &&& ((1 : UInt8) <<< 7) ≠ 0 ∨ desc.langCode = none ∨ desc.text.length = 0 ∨ desc.data = none

instance TextRecPayloadDesc.decidableRefused (desc : TextRecPayloadDesc) : Decidable desc.Refused :=
  inferInstanceAs (Decidable (_ ∨ _ ∨ _ ∨ _ ∨ _ ∨ _))

/-- The bytes of the payload of a text record. -/
def TextRecPayloadDesc.payload (desc : TextRecPayloadDesc) : List UInt8 :=
  (desc.lang.length + (desc.utf.code <<< 7)) :: (desc.lang.bytes ++ desc.text)

/-- `nfc_text_rec_payload_constructor`. -/
def nfcTextRecPayloadConstructor (desc : TextRecPayloadDesc) (memory : Memory UInt8)
    (start room : Nat) : Written RetCode :=
  let payloadSize := 1 + desc.lang.bytes.length + desc.text.length
  if desc.Refused then ⟨.invalidParam, memory, room⟩
  else if payloadSize > room then ⟨.noMem, memory, room⟩
  else ⟨.success, overlay memory start desc.payload, payloadSize⟩

/-- `uri_payload_desc_t`, with `nfc_uri_id_t` as its value. -/
structure UriPayloadDesc where
  uriIdCode : UInt8
  uriData : ShortBytes

/-- `nfc_uri_payload_constructor`. -/
def nfcUriPayloadConstructor (desc : UriPayloadDesc) (memory : Memory UInt8) (start room : Nat) :
    Written RetCode :=
  if desc.uriData.bytes.length ≥ room then ⟨.noMem, memory, room⟩
  else
    ⟨.success, overlay memory start (desc.uriIdCode :: desc.uriData.bytes),
      desc.uriData.bytes.length + 1⟩

/-- `win_launchapp_payload_desc_t`. -/
structure WinLaunchappPayloadDesc where
  platform : ShortBytes
  appId : ShortBytes

/-- The bytes of the payload: one platform, and one empty parameter. -/
def WinLaunchappPayloadDesc.payload (desc : WinLaunchappPayloadDesc) : List UInt8 :=
  [0x00, 0x01] ++ (desc.platform.length :: desc.platform.bytes) ++
    (desc.appId.length :: desc.appId.bytes) ++ [0x00, 0x01, 0x20]

/-- `nfc_win_launchapp_payload_constructor`. -/
def nfcWinLaunchappPayloadConstructor (desc : WinLaunchappPayloadDesc) (memory : Memory UInt8)
    (start room : Nat) : Written RetCode :=
  let tempLen := desc.platform.bytes.length + desc.appId.bytes.length + 7
  if tempLen > room then ⟨.noMem, memory, room⟩
  else ⟨.success, overlay memory start desc.payload, tempLen⟩

theorem TextRecPayloadDesc.payload_length (desc : TextRecPayloadDesc) :
    desc.payload.length = 1 + desc.lang.bytes.length + desc.text.length := by
  unfold payload
  rw [List.length_cons, List.length_append]
  omega

theorem WinLaunchappPayloadDesc.payload_length (desc : WinLaunchappPayloadDesc) :
    desc.payload.length = desc.platform.bytes.length + desc.appId.bytes.length + 7 := by
  unfold payload
  simp only [List.length_append, List.length_cons, List.length_nil]
  omega

/-- A text that is not refused is copied. -/
theorem nfcTextRecPayloadConstructor_eq (desc : TextRecPayloadDesc) :
    nfcTextRecPayloadConstructor desc =
      if desc.Refused then (Writer.failing RetCode.success .invalidParam).write
      else (Writer.copying RetCode.success .noMem desc.payload).write := by
  funext memory start room
  unfold nfcTextRecPayloadConstructor
  rw [← desc.payload_length]
  by_cases refused : desc.Refused
  · rw [if_pos refused, if_pos refused]
    rfl
  · rw [if_neg refused, if_neg refused]
    rfl

def textWriter (desc : TextRecPayloadDesc) : PayloadConstructor :=
  (if desc.Refused then Writer.failing RetCode.success .invalidParam
    else Writer.copying RetCode.success .noMem desc.payload).like (nfcTextRecPayloadConstructor desc) (by
      rw [nfcTextRecPayloadConstructor_eq]
      split <;> rfl)

theorem textWriter_emits {desc : TextRecPayloadDesc} (accepted : ¬ desc.Refused) :
    (textWriter desc).Emits .noMem desc.payload := by
  rw [textWriter, Writer.like_eq, if_neg accepted]
  exact Writer.copying_emits ..

/-- A text that is refused, or has no room, is not written. -/
theorem textWriter_failed {desc : TextRecPayloadDesc} {room : Nat}
    (bad : desc.Refused ∨ room < desc.payload.length) (memory : Memory UInt8) (start : Nat) :
    ∃ code, code ≠ RetCode.success ∧ (textWriter desc).write memory start room = ⟨code, memory, room⟩ := by
  rw [textWriter, Writer.like_eq]
  by_cases refused : desc.Refused
  · rw [if_pos refused]
    exact ⟨_, RetCode.noConfusion, rfl⟩
  · rw [if_neg refused]
    exact ⟨_, RetCode.noConfusion, if_pos (bad.resolve_left refused)⟩

theorem nfcUriPayloadConstructor_eq (desc : UriPayloadDesc) : nfcUriPayloadConstructor desc =
    (Writer.copying RetCode.success .noMem (desc.uriIdCode :: desc.uriData.bytes)).write := by
  funext memory start room
  unfold nfcUriPayloadConstructor Writer.copying
  dsimp only
  rw [List.length_cons]
  congr 1
  exact propext (by omega)

def uriWriter (desc : UriPayloadDesc) : PayloadConstructor :=
  Writer.like _ (nfcUriPayloadConstructor desc) (nfcUriPayloadConstructor_eq desc)

theorem uriWriter_emits (desc : UriPayloadDesc) :
    (uriWriter desc).Emits .noMem (desc.uriIdCode :: desc.uriData.bytes) := by
  rw [uriWriter, Writer.like_eq]
  exact Writer.copying_emits ..

theorem nfcWinLaunchappPayloadConstructor_eq (desc : WinLaunchappPayloadDesc) :
    nfcWinLaunchappPayloadConstructor desc =
      (Writer.copying RetCode.success .noMem desc.payload).write := by
  funext memory start room
  unfold nfcWinLaunchappPayloadConstructor
  rw [← desc.payload_length]
  rfl

def winLaunchappWriter (desc : WinLaunchappPayloadDesc) : PayloadConstructor :=
  Writer.like _ (nfcWinLaunchappPayloadConstructor desc) (nfcWinLaunchappPayloadConstructor_eq desc)

theorem winLaunchappWriter_emits (desc : WinLaunchappPayloadDesc) :
    (winLaunchappWriter desc).Emits .noMem desc.payload := by
  rw [winLaunchappWriter, Writer.like_eq]
  exact Writer.copying_emits ..

/-- The two highest bits of a length. -/
theorem high_bits_iff (length : UInt8) :
    (length &&& ((1 : UInt8) <<< 6) ≠ 0 ∨ length &&& ((1 : UInt8) <<< 7) ≠ 0) ↔ 64 ≤ length.toNat := by
  have each : ∀ value : Fin 256, (UInt8.ofNat value &&& ((1 : UInt8) <<< 6) ≠ 0 ∨
      UInt8.ofNat value &&& ((1 : UInt8) <<< 7) ≠ 0) ↔ 64 ≤ (UInt8.ofNat value).toNat := by
    decide +kernel
  have this := each ⟨length.toNat, length.toNat_lt⟩
  rwa [UInt8.ofNat_toNat] at this

/-- A language code is accepted when it has 1 to 63 characters, and a text when it has one. -/
theorem TextRecPayloadDesc.refused_iff (desc : TextRecPayloadDesc) : desc.Refused ↔
    ¬ (1 ≤ desc.lang.bytes.length ∧ desc.lang.bytes.length < 64 ∧ desc.text ≠ []) := by
  have zero : desc.lang.length = 0 ↔ desc.lang.bytes.length = 0 := by
    rw [← UInt8.toNat_inj, ShortBytes.length_toNat]
    rfl
  have high := high_bits_iff desc.lang.length
  rw [ShortBytes.length_toNat] at high
  have noLang : desc.langCode = none → desc.lang.bytes.length = 0 := by
    intro none
    rw [lang, none]
    rfl
  have noText : desc.data = none → desc.text.length = 0 := by
    intro none
    rw [text, none]
    rfl
  have empty : desc.text ≠ [] ↔ desc.text.length ≠ 0 := not_congr List.length_eq_zero_iff.symm
  rw [empty]
  constructor
  · rintro (first | seventh | eighth | null | none | null)
    · have := zero.mp first
      omega
    · have := high.mp (.inl seventh)
      omega
    · have := high.mp (.inr eighth)
      omega
    · have := noLang null
      omega
    · omega
    · have := noText null
      omega
  · intro bad
    by_cases first : desc.lang.bytes.length = 0
    · exact .inl (zero.mpr first)
    by_cases long : 64 ≤ desc.lang.bytes.length
    · rcases high.mpr long with seventh | eighth
      · exact .inr (.inl seventh)
      · exact .inr (.inr (.inl eighth))
    · exact .inr (.inr (.inr (.inr (.inl (by omega)))))

/-! ### The static data -/

/-- The static record descriptors. -/
inductive StaticRecord where
  | enTextRec
  | uriRec
  | winLaunchapp
  | androidAppRec
  deriving DecidableEq

/-- The buffer of the class, and the static descriptors of the messages. The messages hold pointers to
records, the records pointers to payload descriptors. -/
structure NfcState where
  ndefMsgBuf : Memory UInt8
  welcomeMsg : NdefMsgDesc StaticRecord
  textPayload : TextRecPayloadDesc
  nfcUriMsg : NdefMsgDesc StaticRecord
  uriPayload : UriPayloadDesc
  nfcLaunchappMsg : NdefMsgDesc StaticRecord
  winPayload : WinLaunchappPayloadDesc
  androidPayload : ShortBytes
  /-- The length that was last given to `nfcSetPayload`, with the buffer. -/
  payload : Option Nat

def ShortBytes.empty : ShortBytes := ⟨[], by decide⟩

/-- Characters as bytes. -/
def charBytes (chars : List Char) : List UInt8 := chars.map fun char => UInt8.ofNat char.toNat

/-- `nfc_text_rec_type_field`. -/
def textRecType : ShortBytes := ⟨charBytes ['T'], by decide⟩

/-- `static_uri_type`. -/
def uriType : ShortBytes := ⟨charBytes ['U'], by decide⟩

/-- `launchapp_type_str`. -/
def launchappTypeStr : ShortBytes :=
  ⟨charBytes ['a', 'n', 'd', 'r', 'o', 'i', 'd', '.', 'c', 'o', 'm', ':', 'p', 'k', 'g'], by decide⟩

/-- `win_launchapp_type_str`. -/
def winLaunchappTypeStr : ShortBytes :=
  ⟨charBytes ['w', 'i', 'n', 'd', 'o', 'w', 's', '.', 'c', 'o', 'm', '/', 'L', 'a', 'u', 'n', 'c', 'h',
    'A', 'p', 'p'], by decide⟩

/-- `win_phone_str`. -/
def winPhoneStr : ShortBytes :=
  ⟨charBytes ['W', 'i', 'n', 'd', 'o', 'w', 's', 'P', 'h', 'o', 'n', 'e'], by decide⟩

namespace NfcState

/-- The static data at the start. -/
def initial : NfcState where
  ndefMsgBuf := fun _ => 0
  welcomeMsg := nfcNdefMsgDef 1
  textPayload := ⟨.utf8, none, none, by decide⟩
  nfcUriMsg := nfcNdefMsgDef 1
  uriPayload := ⟨0, .empty⟩
  nfcLaunchappMsg := nfcNdefMsgDef 2
  winPayload := ⟨.empty, .empty⟩
  androidPayload := .empty
  payload := none

/-- A record descriptor. -/
def desc (state : NfcState) : StaticRecord → NdefRecordDesc
  | .enTextRec => ⟨.wellKnown, .empty, textRecType, textWriter state.textPayload⟩
  | .uriRec => ⟨.wellKnown, .empty, uriType, uriWriter state.uriPayload⟩
  | .winLaunchapp =>
      ⟨.absoluteUri, .empty, winLaunchappTypeStr, winLaunchappWriter state.winPayload⟩
  | .androidAppRec => ⟨.externalType, .empty, launchappTypeStr, binWriter state.androidPayload.bytes⟩

/-- `nfc_ndef_msg_encode` of a message into the buffer: the code, and the length it leaves. -/
def encodeMsg (state : NfcState) (msg : NdefMsgDesc StaticRecord) (len : Nat) :
    RetCode × Nat × NfcState :=
  let encoded := nfcNdefMsgEncode (msg.resolve state.desc) state.ndefMsgBuf 0 len
  (encoded.code, encoded.length, { state with ndefMsgBuf := encoded.memory })

/-- `nfcSetPayload` of the buffer. -/
def setPayload (state : NfcState) (len : Nat) : NfcState := { state with payload := some len }

/-- `nfc_uri_msg_declare`. -/
def nfcUriMsgDeclare (state : NfcState) (uriIdCode : UInt8) (uriData : Option ShortBytes) :
    RetCode × NfcState :=
  let state := { state with nfcUriMsg := nfcNdefMsgClear state.nfcUriMsg }
  match uriData with
  | some uriData =>
      -- `nfc_uri_rec_declare`
      let state := { state with uriPayload := ⟨uriIdCode, uriData⟩ }
      let added := nfcNdefMsgRecordAdd state.nfcUriMsg .uriRec
      (added.1, { state with nfcUriMsg := added.2 })
  | none => (.invalidParam, state)

/-- `nfc_uri_msg_encode`. -/
def nfcUriMsgEncode (state : NfcState) (uriIdCode : UInt8) (uriData : Option ShortBytes) (len : Nat) :
    RetCode × Nat × NfcState :=
  let declared := state.nfcUriMsgDeclare uriIdCode uriData
  if declared.1 ≠ .success then (declared.1, len, declared.2)
  else declared.2.encodeMsg declared.2.nfcUriMsg len

/-- A record is added when it is given. -/
def addLaunchapp (state : NfcState) (given : Bool) (record : StaticRecord) : RetCode × NfcState :=
  if given then
    let added := nfcNdefMsgRecordAdd state.nfcLaunchappMsg record
    (added.1, { state with nfcLaunchappMsg := added.2 })
  else (.success, state)

/-- `nfc_launchapp_msg_declare`; `none` is a null pointer. -/
def nfcLaunchappMsgDeclare (state : NfcState) (android win : Option ShortBytes) : RetCode × NfcState :=
  let state := { state with nfcLaunchappMsg := nfcNdefMsgClear state.nfcLaunchappMsg }
  -- `nfc_windows_launchapp_rec_declare`
  let state :=
    match win with
    | some appId => { state with winPayload := ⟨winPhoneStr, appId⟩ }
    | none => state
  let first := state.addLaunchapp win.isSome .winLaunchapp
  if first.1 ≠ .success then first
  else
    -- `nfc_android_application_rec_declare`
    let state :=
      match android with
      | some packageName => { first.2 with androidPayload := packageName }
      | none => first.2
    let second := state.addLaunchapp android.isSome .androidAppRec
    if second.1 ≠ .success then second
    else if second.2.nfcLaunchappMsg.records.length = 0 then (.invalidParam, second.2)
    else (.success, second.2)

/-- `nfc_launchapp_msg_encode`. -/
def nfcLaunchappMsgEncode (state : NfcState) (android win : Option ShortBytes) (len : Nat) :
    RetCode × Nat × NfcState :=
  let declared := state.nfcLaunchappMsgDeclare android win
  if declared.1 ≠ .success then (declared.1, len, declared.2)
  else declared.2.encodeMsg declared.2.nfcLaunchappMsg len

/-! ### The calls -/

/-- The characters of a string that its length in 8 bits leaves. -/
def cut (string : List UInt8) : ShortBytes :=
  ⟨string.take (string.length % 256), by
    rw [List.length_take]
    omega⟩

/-- `sizeof(ndef_msg_buf)`. -/
def bufSize : Nat := 256

/-- The payload descriptor of a text. -/
def textDesc (txtMessage language : List UInt8) : TextRecPayloadDesc :=
  ⟨.utf8, some (cut language), some (cut txtMessage).bytes, by
    have short := (cut txtMessage).short
    rw [Option.getD_some]
    omega⟩

/-- `NFCClass::setTXTmessage`. The result of the encoder is not looked at. -/
def setTXTmessage (state : NfcState) (txtMessage language : List UInt8) : NfcState :=
  let state := { state with textPayload := textDesc txtMessage language }
  let state := { state with welcomeMsg := (nfcNdefMsgRecordAdd state.welcomeMsg .enTextRec).2 }
  let encoded := state.encodeMsg state.welcomeMsg bufSize
  encoded.2.2.setPayload encoded.2.1

/-- `NFCClass::setURImessage`. -/
def setURImessage (state : NfcState) (url : List UInt8) (type : UInt8) : NfcState :=
  let state := { state with ndefMsgBuf := overlay state.ndefMsgBuf 0 (List.replicate 256 0) }
  let encoded := state.nfcUriMsgEncode type (some (cut url)) bufSize
  encoded.2.2.setPayload encoded.2.1

/-- `NFCClass::setAPPmessage`. -/
def setAPPmessage (state : NfcState) (androidApp windowsApp : List UInt8) : NfcState :=
  let encoded := state.nfcLaunchappMsgEncode (some (cut androidApp)) (some (cut windowsApp)) bufSize
  encoded.2.2.setPayload encoded.2.1

end NfcState

/-- A call of the class. -/
inductive NfcCall where
  | setTXTmessage (txtMessage language : List UInt8)
  | setURImessage (url : List UInt8) (type : UInt8)
  | setAPPmessage (androidApp windowsApp : List UInt8)

/-- What a call does to the static data. -/
def nfcStep (state : NfcState) : NfcCall → NfcState
  | .setTXTmessage txtMessage language => state.setTXTmessage txtMessage language
  | .setURImessage url type => state.setURImessage url type
  | .setAPPmessage androidApp windowsApp => state.setAPPmessage androidApp windowsApp

/-! ### What a call asks for -/

@[simp] theorem NfcState.cut_length (string : List UInt8) :
    (NfcState.cut string).bytes.length = string.length % 256 := by
  show (string.take (string.length % 256)).length = _
  rw [List.length_take]
  exact Nat.min_eq_left (Nat.mod_le ..)

/-- A text record. -/
def textRecord (payload : List UInt8) (fits : payload.length < 2 ^ 32) : NdefRecord :=
  ⟨.wellKnown, .empty, textRecType, payload, fits⟩

theorem textDesc_payload_length (txtMessage language : List UInt8) :
    (NfcState.textDesc txtMessage language).payload.length =
      1 + language.length % 256 + txtMessage.length % 256 := by
  rw [TextRecPayloadDesc.payload_length]
  show 1 + (NfcState.cut language).bytes.length + (NfcState.cut txtMessage).bytes.length = _
  rw [NfcState.cut_length, NfcState.cut_length]

theorem textDesc_payload_lt (txtMessage language : List UInt8) :
    (NfcState.textDesc txtMessage language).payload.length < 2 ^ 32 := by
  rw [textDesc_payload_length]
  omega

/-- The bytes of a message of one record without an ID. -/
theorem wireBytes_single (record : NdefRecord) (noId : record.id = .empty) :
    (wireBytes (messageWires [record])).length =
      6 + record.type.bytes.length + record.payload.length := by
  show (wireBytes [record.wire _]).length = _
  rw [wireBytes_cons, wireBytes_nil, List.append_nil, record.wire_length, noId]
  rfl

/-- The records a call asks for, with its strings cut. -/
def NfcCall.message : NfcCall → List NdefRecord
  | .setTXTmessage txtMessage language =>
      [textRecord (NfcState.textDesc txtMessage language).payload (textDesc_payload_lt ..)]
  | .setURImessage url type =>
      [⟨.wellKnown, .empty, uriType, type :: (NfcState.cut url).bytes, by
        rw [List.length_cons, NfcState.cut_length]
        omega⟩]
  | .setAPPmessage androidApp windowsApp =>
      [⟨.absoluteUri, .empty, winLaunchappTypeStr,
          WinLaunchappPayloadDesc.payload ⟨winPhoneStr, NfcState.cut windowsApp⟩, by
          have platform := winPhoneStr.short
          rw [WinLaunchappPayloadDesc.payload_length, NfcState.cut_length]
          dsimp only
          omega⟩,
        ⟨.externalType, .empty, launchappTypeStr, (NfcState.cut androidApp).bytes, by
          rw [NfcState.cut_length]
          omega⟩]

/-- The calls whose message fits: its strings as their lengths in 8 bits leave them. -/
def NfcCall.Accepted : NfcCall → Prop
  | .setTXTmessage txtMessage language =>
      1 ≤ language.length % 256 ∧ language.length % 256 < 64 ∧ 1 ≤ txtMessage.length % 256 ∧
        8 + language.length % 256 + txtMessage.length % 256 ≤ 256
  | .setURImessage url _ => 8 + url.length % 256 ≤ 256
  | .setAPPmessage androidApp windowsApp => 67 + windowsApp.length % 256 + androidApp.length % 256 ≤ 256

instance NfcCall.decidableAccepted : (call : NfcCall) → Decidable call.Accepted
  | .setTXTmessage _ _ => inferInstanceAs (Decidable (_ ∧ _ ∧ _ ∧ _))
  | .setURImessage _ _ => inferInstanceAs (Decidable (_ ≤ _))
  | .setAPPmessage _ _ => inferInstanceAs (Decidable (_ ≤ _))

/-! ### The messages hold their own records -/

/-- What is kept of the static messages. -/
structure NfcState.Kept (state : NfcState) : Prop where
  welcomeRecords : state.welcomeMsg.records = [] ∨ state.welcomeMsg.records = [.enTextRec]
  welcomeMax : state.welcomeMsg.maxRecordCount = 1
  uriMax : state.nfcUriMsg.maxRecordCount = 1
  launchappMax : state.nfcLaunchappMsg.maxRecordCount = 2

theorem nfcNdefMsgRecordAdd_records {Record : Type} {msg : NdefMsgDesc Record}
    (room : msg.records.length < msg.maxRecordCount) (record : Record) :
    (nfcNdefMsgRecordAdd msg record).1 = .success ∧
      (nfcNdefMsgRecordAdd msg record).2.records = msg.records ++ [record] ∧
      (nfcNdefMsgRecordAdd msg record).2.maxRecordCount = msg.maxRecordCount := by
  unfold nfcNdefMsgRecordAdd
  rw [dif_neg (Nat.not_le_of_lt room)]
  exact ⟨rfl, rfl, rfl⟩

namespace NfcState

variable {state : NfcState}

/-- The text message holds the text record, whether it was added now or before. -/
theorem Kept.welcome (kept : state.Kept) :
    (nfcNdefMsgRecordAdd state.welcomeMsg .enTextRec).2.records = [.enTextRec] ∧
      (nfcNdefMsgRecordAdd state.welcomeMsg .enTextRec).2.maxRecordCount = 1 := by
  rcases kept.welcomeRecords with none | one
  · obtain ⟨-, records, max⟩ := nfcNdefMsgRecordAdd_records (by
      rw [none, kept.welcomeMax]
      exact Nat.one_pos) StaticRecord.enTextRec
    rw [records, none, max, kept.welcomeMax]
    exact ⟨rfl, rfl⟩
  · unfold nfcNdefMsgRecordAdd
    rw [dif_pos (by rw [one, kept.welcomeMax]; exact Nat.le_refl _)]
    exact ⟨one, kept.welcomeMax⟩

/-- A message whose records are described, and fit, is stored at the start of the buffer. -/
theorem encodeMsg_emitted {msg : NdefMsgDesc StaticRecord} {records : List NdefRecord}
    (describes : List.Forall₂ NdefRecordDesc.Describes (msg.records.map state.desc) records)
    (fits : (wireBytes (messageWires records)).length ≤ bufSize) :
    state.encodeMsg msg bufSize = (.success, (wireBytes (messageWires records)).length,
      { state with ndefMsgBuf := overlay state.ndefMsgBuf 0 (wireBytes (messageWires records)) }) := by
  have emits := @msgWriter_emits (msg.resolve state.desc) records describes
  have emitted := emits.emitted state.ndefMsgBuf 0 bufSize fits
  change nfcNdefMsgEncode .. = _ at emitted
  unfold encodeMsg
  rw [emitted]

/-- The record of the static text descriptor. -/
theorem desc_enTextRec {txtMessage language : List UInt8}
    (text : state.textPayload = textDesc txtMessage language)
    (accepted : ¬ (textDesc txtMessage language).Refused)
    (fits : (textDesc txtMessage language).payload.length < 2 ^ 32) :
    (state.desc .enTextRec).Describes (textRecord (textDesc txtMessage language).payload fits) := by
  refine ⟨rfl, rfl, rfl, ?_⟩
  show (textWriter state.textPayload).Emits .noMem _
  rw [text]
  exact textWriter_emits accepted

/-- **What serving some records means**: the buffer starts with them, and what was given to
`nfcSetPayload` covers them. -/
structure Serves (state : NfcState) (records : List NdefRecord) : Prop where
  holds : Stored state.ndefMsgBuf 0 (wireBytes (messageWires records))
  covered : ∃ len, state.payload = some len ∧ (wireBytes (messageWires records)).length ≤ len ∧
    len ≤ bufSize

/-- A message that is stored is served. -/
theorem serves_of_encodeMsg {msg : NdefMsgDesc StaticRecord} {records : List NdefRecord}
    (describes : List.Forall₂ NdefRecordDesc.Describes (msg.records.map state.desc) records)
    (fits : (wireBytes (messageWires records)).length ≤ bufSize) :
    let encoded := state.encodeMsg msg bufSize
    (encoded.2.2.setPayload encoded.2.1).Serves records ∧
      (encoded.2.2.setPayload encoded.2.1).payload =
        some (wireBytes (messageWires records)).length := by
  rw [encodeMsg_emitted describes fits]
  exact ⟨⟨stored_overlay .., _, rfl, Nat.le_refl _, fits⟩, rfl⟩

/-- **A text that is accepted is served.** -/
theorem setTXTmessage_accepted (kept : state.Kept) {txtMessage language : List UInt8}
    (accepted : (NfcCall.setTXTmessage txtMessage language).Accepted) :
    (state.setTXTmessage txtMessage language).Serves
        (NfcCall.setTXTmessage txtMessage language).message ∧
      (state.setTXTmessage txtMessage language).payload = some (wireBytes
        (messageWires (NfcCall.setTXTmessage txtMessage language).message)).length := by
  obtain ⟨someLang, shortLang, someText, fits⟩ := accepted
  have taken : ¬ (textDesc txtMessage language).Refused := by
    rw [TextRecPayloadDesc.refused_iff, not_not]
    show 1 ≤ (cut language).bytes.length ∧ (cut language).bytes.length < 64 ∧
      (cut txtMessage).bytes ≠ []
    rw [cut_length, ← List.length_pos_iff, cut_length]
    exact ⟨someLang, shortLang, someText⟩
  refine serves_of_encodeMsg ?_ ?_
  · dsimp only
    rw [kept.welcome.1]
    exact .cons (desc_enTextRec rfl taken _) .nil
  · rw [NfcCall.message, wireBytes_single _ rfl]
    show 6 + 1 + (textDesc txtMessage language).payload.length ≤ 256
    rw [textDesc_payload_length]
    omega

/-- **A URI that fits is served.** -/
theorem setURImessage_accepted (kept : state.Kept) {url : List UInt8} {type : UInt8}
    (accepted : (NfcCall.setURImessage url type).Accepted) :
    (state.setURImessage url type).Serves (NfcCall.setURImessage url type).message ∧
      (state.setURImessage url type).payload = some (wireBytes
        (messageWires (NfcCall.setURImessage url type).message)).length := by
  obtain ⟨succeeded, records, -⟩ := nfcNdefMsgRecordAdd_records (by
    show 0 < state.nfcUriMsg.maxRecordCount
    rw [kept.uriMax]
    exact Nat.one_pos : (nfcNdefMsgClear state.nfcUriMsg).records.length < _) StaticRecord.uriRec
  unfold setURImessage nfcUriMsgEncode nfcUriMsgDeclare
  dsimp only
  rw [if_neg (not_not.mpr succeeded)]
  refine serves_of_encodeMsg ?_ ?_
  · rw [records]
    exact .cons ⟨rfl, rfl, rfl, uriWriter_emits _⟩ .nil
  · change 8 + url.length % 256 ≤ 256 at accepted
    rw [NfcCall.message, wireBytes_single _ rfl]
    show 6 + 1 + (type :: (cut url).bytes).length ≤ 256
    rw [List.length_cons, cut_length]
    omega

/-- `nfc_launchapp_msg_declare` with both applications. -/
theorem nfcLaunchappMsgDeclare_both (kept : state.Kept) (androidApp windowsApp : ShortBytes) :
    let declared := state.nfcLaunchappMsgDeclare (some androidApp) (some windowsApp)
    declared.1 = .success ∧
      declared.2.nfcLaunchappMsg.records = [.winLaunchapp, .androidAppRec] ∧
      declared.2.Kept ∧ declared.2.winPayload = ⟨winPhoneStr, windowsApp⟩ ∧
      declared.2.androidPayload = androidApp := by
  obtain ⟨firstOk, firstRecords, firstMax⟩ := nfcNdefMsgRecordAdd_records (by
    show 0 < state.nfcLaunchappMsg.maxRecordCount
    rw [kept.launchappMax]
    decide : (nfcNdefMsgClear state.nfcLaunchappMsg).records.length < _) StaticRecord.winLaunchapp
  change _ = state.nfcLaunchappMsg.maxRecordCount at firstMax
  rw [kept.launchappMax] at firstMax
  obtain ⟨secondOk, secondRecords, secondMax⟩ := nfcNdefMsgRecordAdd_records (by
    rw [firstRecords, firstMax]
    exact Nat.one_lt_two :
      (nfcNdefMsgRecordAdd (nfcNdefMsgClear state.nfcLaunchappMsg) .winLaunchapp).2.records.length < _)
      StaticRecord.androidAppRec
  rw [firstRecords] at secondRecords
  rw [firstMax] at secondMax
  have some_ : ¬ (nfcNdefMsgRecordAdd (nfcNdefMsgRecordAdd (nfcNdefMsgClear state.nfcLaunchappMsg)
      StaticRecord.winLaunchapp).2 .androidAppRec).2.records.length = 0 := by
    rw [secondRecords]
    exact Nat.succ_ne_zero 1
  unfold nfcLaunchappMsgDeclare addLaunchapp
  simp only [Option.isSome_some, if_true]
  rw [if_neg (not_not.mpr firstOk), if_neg (not_not.mpr secondOk), if_neg some_]
  exact ⟨rfl, secondRecords,
    ⟨kept.welcomeRecords, kept.welcomeMax, kept.uriMax, secondMax⟩, rfl, rfl⟩

/-- **Applications that fit are served.** -/
theorem setAPPmessage_accepted (kept : state.Kept) {androidApp windowsApp : List UInt8}
    (accepted : (NfcCall.setAPPmessage androidApp windowsApp).Accepted) :
    (state.setAPPmessage androidApp windowsApp).Serves
        (NfcCall.setAPPmessage androidApp windowsApp).message ∧
      (state.setAPPmessage androidApp windowsApp).payload = some (wireBytes
        (messageWires (NfcCall.setAPPmessage androidApp windowsApp).message)).length := by
  obtain ⟨succeeded, records, -, win, android⟩ :=
    nfcLaunchappMsgDeclare_both kept (cut androidApp) (cut windowsApp)
  unfold setAPPmessage nfcLaunchappMsgEncode
  dsimp only
  rw [if_neg (not_not.mpr succeeded)]
  refine serves_of_encodeMsg ?_ ?_
  · rw [records]
    refine .cons ⟨rfl, rfl, rfl, ?_⟩ (.cons ⟨rfl, rfl, rfl, ?_⟩ .nil)
    · show (winLaunchappWriter (NfcState.winPayload _)).Emits .noMem _
      rw [win]
      exact winLaunchappWriter_emits _
    · show (binWriter (NfcState.androidPayload _).bytes).Emits .noMem _
      rw [android]
      exact binWriter_emits _
  · change 67 + windowsApp.length % 256 + androidApp.length % 256 ≤ 256 at accepted
    show (wireBytes [NdefRecord.wire _ _, NdefRecord.wire _ _]).length ≤ 256
    rw [wireBytes_cons, wireBytes_cons, wireBytes_nil, List.append_nil, List.length_append,
      NdefRecord.wire_length, NdefRecord.wire_length]
    dsimp only
    rw [WinLaunchappPayloadDesc.payload_length, cut_length, cut_length]
    show 6 + 0 + 21 + 0 + (12 + windowsApp.length % 256 + 7) +
      (6 + 0 + 15 + 0 + androidApp.length % 256) ≤ 256
    omega

/-- **The messages hold their own records after every call.** -/
theorem Kept.step (kept : state.Kept) (call : NfcCall) : (nfcStep state call).Kept := by
  cases call with
  | setTXTmessage txtMessage language =>
    exact ⟨.inr kept.welcome.1, kept.welcome.2, kept.uriMax, kept.launchappMax⟩
  | setURImessage url type =>
    obtain ⟨succeeded, -, max⟩ := nfcNdefMsgRecordAdd_records (by
      show 0 < state.nfcUriMsg.maxRecordCount
      rw [kept.uriMax]
      exact Nat.one_pos : (nfcNdefMsgClear state.nfcUriMsg).records.length < _) StaticRecord.uriRec
    show (state.setURImessage url type).Kept
    unfold setURImessage nfcUriMsgEncode nfcUriMsgDeclare
    dsimp only
    rw [if_neg (not_not.mpr succeeded)]
    exact ⟨kept.welcomeRecords, kept.welcomeMax, max.trans kept.uriMax, kept.launchappMax⟩
  | setAPPmessage androidApp windowsApp =>
    obtain ⟨succeeded, -, declared, -⟩ :=
      nfcLaunchappMsgDeclare_both kept (cut androidApp) (cut windowsApp)
    show (state.setAPPmessage androidApp windowsApp).Kept
    unfold setAPPmessage nfcLaunchappMsgEncode
    dsimp only
    rw [if_neg (not_not.mpr succeeded)]
    exact ⟨declared.welcomeRecords, declared.welcomeMax, declared.uriMax, declared.launchappMax⟩

theorem initial_kept : initial.Kept := ⟨.inl rfl, rfl, rfl, rfl⟩

/-- The messages hold their own records on every run. -/
theorem kept_run (calls : List NfcCall) : (run nfcStep initial calls).Kept :=
  (always_of_eachStep (fun _ call kept _ => Kept.step kept call) initial_kept
    (eachStep_of_forall (fun _ _ => trivial) _ _) : Always nfcStep Kept initial calls).last

/-! ### What a reader gets -/

/-- What a reader makes of the buffer and the length that `nfcSetPayload` was given. -/
def reader (state : NfcState) (maxRecordCount : Nat) : Option ParsedMessage :=
  state.payload.map fun len =>
    internalNdefMsgParser state.ndefMsgBuf maxRecordCount 0 (UInt32.ofNat len)

/-- A reader gets some records. -/
def Reads (state : NfcState) (maxRecordCount : Nat) (records : List NdefRecord) : Prop :=
  ∃ parsed, state.reader maxRecordCount = some parsed ∧ parsed.code = .success ∧
    parsed.records.map (ParsedRecord.content state.ndefMsgBuf) = records.map NdefRecord.content

/-- A reader gets the records that are served. -/
theorem Serves.reads {records : List NdefRecord} (serves : state.Serves records) (some_ : records ≠ [])
    {maxRecordCount : Nat} (room : records.length ≤ maxRecordCount) :
    state.Reads maxRecordCount records := by
  obtain ⟨len, payload, covers, bound⟩ := serves.covered
  change len ≤ 256 at bound
  have length : (UInt32.ofNat len).toNat = len :=
    UInt32.toNat_ofNat_of_lt' (Nat.lt_of_le_of_lt bound (by decide))
  have parsed := internalNdefMsgParser_message some_ room serves.holds
    (by rwa [length] : _ ≤ (UInt32.ofNat len).toNat)
  refine ⟨_, ?_, congrArg ParsedMessage.code parsed, ?_⟩
  · rw [reader, payload]
    rfl
  · rw [parsed]
    exact content_parsedFrom serves.holds

theorem message_ne_nil (call : NfcCall) : call.message ≠ [] := by
  cases call <;> exact List.cons_ne_nil _ _

/-- **After a call that is accepted a reader gets its message**, and nothing else is given to
`nfcSetPayload`, whatever was called before. -/
theorem last_message_served (calls : List NfcCall) {call : NfcCall} (accepted : call.Accepted)
    {maxRecordCount : Nat} (room : call.message.length ≤ maxRecordCount) :
    (run nfcStep initial (calls ++ [call])).Reads maxRecordCount call.message ∧
      (run nfcStep initial (calls ++ [call])).payload =
        some (wireBytes (messageWires call.message)).length := by
  have kept := kept_run calls
  rw [show run nfcStep initial (calls ++ [call]) = nfcStep (run nfcStep initial calls) call from
    List.foldl_append]
  cases call with
  | setTXTmessage txtMessage language =>
    obtain ⟨serves, payload⟩ := setTXTmessage_accepted kept accepted
    exact ⟨serves.reads (message_ne_nil _) room, payload⟩
  | setURImessage url type =>
    obtain ⟨serves, payload⟩ := setURImessage_accepted kept accepted
    exact ⟨serves.reads (message_ne_nil _) room, payload⟩
  | setAPPmessage androidApp windowsApp =>
    obtain ⟨serves, payload⟩ := setAPPmessage_accepted kept accepted
    exact ⟨serves.reads (message_ne_nil _) room, payload⟩

/-- A text after a URI that does not fit: "Hi" in "en". -/
theorem last_message_served_text :
    (run nfcStep initial ([.setURImessage (List.replicate 255 0x61) 1] ++
      [.setTXTmessage [0x48, 0x69] [0x65, 0x6E]])).Reads 1
      (NfcCall.setTXTmessage [0x48, 0x69] [0x65, 0x6E]).message ∧
    (run nfcStep initial ([.setURImessage (List.replicate 255 0x61) 1] ++
      [.setTXTmessage [0x48, 0x69] [0x65, 0x6E]])).payload = some 12 :=
  last_message_served [.setURImessage (List.replicate 255 0x61) 1] (by decide) (Nat.le_refl 1)

/-! ### Texts that are refused -/

/-- The record of the last text that was accepted; an empty one when there was none. -/
def lastText (texts : List (List UInt8 × List UInt8)) : List NdefRecord :=
  match texts.reverse.find? fun text => (NfcCall.setTXTmessage text.1 text.2).Accepted with
  | some text => (NfcCall.setTXTmessage text.1 text.2).message
  | none => [textRecord [] (by decide)]

theorem textRecord_flags : encodedFlags RecordLocation.lone.code .wellKnown .empty = 0xC1 := by decide

theorem textRecType_length : textRecType.length = 0x01 := by decide

/-- **A text that is refused stores the header of its record and nothing else**: the length of the
payload and the payload stay. -/
theorem setTXTmessage_refused (kept : state.Kept) {txtMessage language : List UInt8}
    (refused : ¬ (NfcCall.setTXTmessage txtMessage language).Accepted) :
    (state.setTXTmessage txtMessage language).ndefMsgBuf =
        overlay (overlay state.ndefMsgBuf 0 [0xC1, 0x01]) 6 textRecType.bytes ∧
      (state.setTXTmessage txtMessage language).payload = some bufSize := by
  let desc : NdefRecordDesc :=
    ⟨.wellKnown, .empty, textRecType, textWriter (textDesc txtMessage language)⟩
  let header := overlay (overlay state.ndefMsgBuf 0 [0xC1, 0x01]) 6 textRecType.bytes
  have bad : (textDesc txtMessage language).Refused ∨
      249 < (textDesc txtMessage language).payload.length := by
    rw [TextRecPayloadDesc.refused_iff, textDesc_payload_length]
    show ¬ (1 ≤ (cut language).bytes.length ∧ (cut language).bytes.length < 64 ∧
      (cut txtMessage).bytes ≠ []) ∨ _
    rw [cut_length, ← List.length_pos_iff, cut_length]
    by_contra good
    obtain ⟨parts, fits⟩ := not_or.mp good
    have ⟨someLang, shortLang, someText⟩ := not_not.mp parts
    exact refused ⟨someLang, shortLang, someText, by omega⟩
  obtain ⟨code, failed, written⟩ := textWriter_failed bad header 7
  have encoded : nfcNdefRecordEncode desc RecordLocation.lone.code state.ndefMsgBuf 0 256 =
      ⟨code, header, 256⟩ := by
    have size : recordHeaderSizeCalc desc = 7 := rfl
    have flags : encodedFlags RecordLocation.lone.code desc.tnf desc.id = 0xC1 := textRecord_flags
    have length : desc.type.length = 0x01 := textRecType_length
    have fields : idLengthField desc.id ++ desc.type.bytes ++ desc.id.bytes = textRecType.bytes := rfl
    refine @nfcNdefRecordEncode_failed desc _ header 0 256 249 .lone code (by rw [size]; decide) failed ?_
    rw [size, flags, length, fields]
    exact written
  have whole : nfcNdefMsgEncode (NdefMsgDesc.resolve (nfcNdefMsgRecordAdd state.welcomeMsg .enTextRec).2
      (NfcState.desc { state with
        textPayload := textDesc txtMessage language
        welcomeMsg := (nfcNdefMsgRecordAdd state.welcomeMsg .enTextRec).2 })) state.ndefMsgBuf 0 256 =
      ⟨code, header, 256⟩ := by
    unfold nfcNdefMsgEncode NdefMsgDesc.resolve
    dsimp only
    rw [kept.welcome.1]
    exact encodeRecords_failed failed encoded
  unfold setTXTmessage encodeMsg
  dsimp only
  rw [show bufSize = 256 from rfl, whole]
  exact ⟨rfl, rfl⟩

/-- The bytes of a text record are those of its header, its length and its payload. -/
theorem wireBytes_textRecord (payload : List UInt8) (fits : payload.length < 2 ^ 32) :
    wireBytes (messageWires [textRecord payload fits]) =
      [0xC1, 0x01] ++ (toBigEndian 4 payload.length ++ (textRecType.bytes ++ payload)) := by
  show wireBytes [(textRecord payload fits).wire .lone] = _
  rw [wireBytes_cons, wireBytes_nil, List.append_nil, NdefRecord.wire_bytes]
  show [encodedFlags RecordLocation.lone.code .wellKnown .empty, textRecType.length] ++ _ ++
    (([] ++ textRecType.bytes ++ []) ++ payload) = _
  rw [List.nil_append, List.append_nil, List.append_assoc, textRecord_flags, textRecType_length]
  rfl

/-- The text of some calls: a text record stands in the buffer, whatever was refused. -/
theorem lastText_append_accepted {texts : List (List UInt8 × List UInt8)} {text : List UInt8 × List UInt8}
    (accepted : (NfcCall.setTXTmessage text.1 text.2).Accepted) :
    lastText (texts ++ [text]) = (NfcCall.setTXTmessage text.1 text.2).message := by
  unfold lastText
  rw [List.reverse_append, List.reverse_singleton, List.singleton_append, List.find?_cons_of_pos]
  exact decide_eq_true accepted

theorem lastText_append_refused {texts : List (List UInt8 × List UInt8)} {text : List UInt8 × List UInt8}
    (refused : ¬ (NfcCall.setTXTmessage text.1 text.2).Accepted) :
    lastText (texts ++ [text]) = lastText texts := by
  unfold lastText
  rw [List.reverse_append, List.reverse_singleton, List.singleton_append, List.find?_cons_of_neg]
  exact fun accepted => refused (of_decide_eq_true accepted)

/-- The calls for some texts. -/
def textCalls (texts : List (List UInt8 × List UInt8)) : List NfcCall :=
  texts.map fun text => .setTXTmessage text.1 text.2

/-- The last text is a text record. -/
theorem lastText_eq (texts : List (List UInt8 × List UInt8)) :
    ∃ payload fits, lastText texts = [textRecord payload fits] := by
  unfold lastText
  split
  · exact ⟨_, textDesc_payload_lt .., rfl⟩
  · exact ⟨[], by decide, rfl⟩

/-- **A text that is refused changes nothing in a buffer with a text record.** -/
theorem Serves.refused (kept : state.Kept) {payload : List UInt8} {fits : payload.length < 2 ^ 32}
    (serves : state.Serves [textRecord payload fits]) {txtMessage language : List UInt8}
    (refused : ¬ (NfcCall.setTXTmessage txtMessage language).Accepted) :
    (state.setTXTmessage txtMessage language).Serves [textRecord payload fits] := by
  obtain ⟨buffer, served⟩ := setTXTmessage_refused kept refused
  obtain ⟨len, -, covers, bound⟩ := serves.covered
  have holds := serves.holds
  rw [wireBytes_textRecord] at holds
  obtain ⟨header, rest⟩ := stored_append_iff.mp holds
  obtain ⟨-, rest⟩ := stored_append_iff.mp rest
  rw [toBigEndian_length] at rest
  obtain ⟨type, -⟩ := stored_append_iff.mp rest
  have same : (state.setTXTmessage txtMessage language).ndefMsgBuf = state.ndefMsgBuf := by
    rw [buffer, header.overlay_eq]
    exact type.overlay_eq
  refine ⟨?_, _, served, Nat.le_trans covers bound, Nat.le_refl _⟩
  rw [same]
  exact serves.holds

/-- After some texts the last one that was accepted is served. -/
theorem serves_lastText (texts : List (List UInt8 × List UInt8)) (called : texts ≠ []) :
    (run nfcStep initial (textCalls texts)).Serves (lastText texts) := by
  induction texts using List.reverseRecOn with
  | nil => exact absurd rfl called
  | append_singleton front text ih =>
    have kept := kept_run (textCalls front)
    have step : run nfcStep initial (textCalls (front ++ [text])) =
        (run nfcStep initial (textCalls front)).setTXTmessage text.1 text.2 := by
      rw [textCalls, List.map_append]
      exact List.foldl_append
    rw [step]
    by_cases accepted : (NfcCall.setTXTmessage text.1 text.2).Accepted
    · rw [lastText_append_accepted accepted]
      exact (setTXTmessage_accepted kept accepted).1
    · rw [lastText_append_refused accepted]
      by_cases first : front = []
      · subst first
        obtain ⟨buffer, served⟩ := setTXTmessage_refused initial_kept accepted
        have zero : Stored (overlay (overlay (fun _ => 0) 0 [0xC1, 0x01]) 6 textRecType.bytes) 0
            (wireBytes (messageWires [textRecord [] (by decide)])) := by decide +kernel
        refine ⟨?_, _, served, by decide +kernel, Nat.le_refl _⟩
        show Stored (initial.setTXTmessage text.1 text.2).ndefMsgBuf 0 _
        rw [buffer]
        exact zero
      · have before := ih first
        obtain ⟨payload, fits, last⟩ := lastText_eq front
        rw [last] at before ⊢
        exact before.refused kept accepted

/-- **A text that is refused leaves the last one accepted.** On a run of `setTXTmessage` a reader gets
the last text that was accepted, and an empty record when there was none. -/
theorem last_text_served (texts : List (List UInt8 × List UInt8)) (called : texts ≠ [])
    {maxRecordCount : Nat} (room : 1 ≤ maxRecordCount) :
    (run nfcStep initial (textCalls texts)).Reads maxRecordCount (lastText texts) := by
  have serves := serves_lastText texts called
  obtain ⟨payload, fits, last⟩ := lastText_eq texts
  rw [last] at serves ⊢
  exact serves.reads (List.cons_ne_nil _ _) room

/-- An empty text after "Hi" in "en" is not seen. -/
theorem last_text_served_empty :
    (run nfcStep initial (textCalls [([0x48, 0x69], [0x65, 0x6E]), ([], [0x65, 0x6E])])).Reads 1
      (NfcCall.setTXTmessage [0x48, 0x69] [0x65, 0x6E]).message :=
  last_text_served [([0x48, 0x69], [0x65, 0x6E]), ([], [0x65, 0x6E])] (List.cons_ne_nil _ _)
    (Nat.le_refl 1)

end NfcState

end PrimoCore.Nfc
