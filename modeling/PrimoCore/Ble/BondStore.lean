/-
**The bond store, `BLEBondStore`.**

Bond data is kept in a page of flash, from its first word on. Whether there is any is read off that word: an
erased page has all its bits set.

* `BLEBondStore.hasData`, `clearData`, `putData`, `getData` — the code, where an erased page reads as ones.
* `Stored` — the store, and what the calls have put into it since it was last cleared.
* `getData_putData`, `hasData_putData_iff` — what is put is returned, and it is seen unless its first word is all ones.
* `bond_store_right_iff` — **the store tells and returns what was put exactly when** no data that is put begins with
  four bytes `0xff`.
-/

import PrimoCore.Lib.Buffer
import PrimoCore.Lib.Bytes
import PrimoCore.Lib.Run

namespace PrimoCore.Ble

open PrimoCore.Lib

/-- `BLEBondStore`: the flash, from `_flashPageStartAddress` on. -/
structure BLEBondStore where
  flash : Memory UInt8

/-- `NRF_FICR->CODEPAGESIZE`. -/
def codePageSize : Nat := 4096

/-- **Data that can be put**: whole words, which fit in a page. -/
structure BondData where
  bytes : List UInt8
  nonempty : bytes ≠ []
  whole : bytes.length % 4 = 0
  fits : bytes.length ≤ codePageSize

/-- A word of the flash has bytes. -/
theorem word_pos : 0 < 4 := by decide

namespace BLEBondStore

/-- `hasData`: the first word of the page is not all ones. -/
def hasData (store : BLEBondStore) : Bool :=
  (ByteType.unsigned 4 word_pos).ofBytes (slice store.flash 0 4) != 0xFFFFFFFF

/-- `clearData`: the page is erased. -/
def clearData (store : BLEBondStore) : BLEBondStore where
  flash := fun index => if index < codePageSize then 0xFF else store.flash index

/-- `sd_flash_write` of some words to an erased page. -/
def flashWrite (store : BLEBondStore) (data : Memory UInt8) (words : Nat) : BLEBondStore where
  flash := fun index => if index < 4 * words then data index else store.flash index

/-- `putData`. -/
def putData (store : BLEBondStore) (data : Memory UInt8) (length : Nat) : BLEBondStore :=
  store.clearData.flashWrite data (length / 4)

/-- `getData`: the words that it copies, as long as the index is below the length. -/
def getData (store : BLEBondStore) (length : Nat) : List UInt8 :=
  (List.range ((length + 3) / 4)).flatMap fun word => slice store.flash (4 * word) 4

/-- Copied words are the bytes they consist of. -/
theorem getData_eq (store : BLEBondStore) {length : Nat} (whole : length % 4 = 0) :
    store.getData length = slice store.flash 0 length := by
  have words : ∀ count, (List.range count).flatMap (fun word => slice store.flash (4 * word) 4) =
      slice store.flash 0 (4 * count) := by
    intro count
    induction count with
    | zero => rfl
    | succ count ih =>
      rw [List.range_succ, List.flatMap_append, ih, Nat.mul_succ, slice_add, Nat.zero_add]
      simp
  unfold getData
  rw [words, show 4 * ((length + 3) / 4) = length by omega]

/-- A word is all ones exactly when its bytes are. -/
theorem ones_iff (bytes : List UInt8) (four : bytes.length = 4) :
    (ByteType.unsigned 4 word_pos).ofBytes bytes = 0xFFFFFFFF ↔ ∀ byte ∈ bytes, byte = 0xFF := by
  obtain ⟨a, b, c, d, rfl⟩ : ∃ a b c d, bytes = [a, b, c, d] := by
    match bytes, four with
    | [a, b, c, d], _ => exact ⟨a, b, c, d, rfl⟩
  have first := a.toNat_lt
  have second := b.toNat_lt
  have third := c.toNat_lt
  have fourth := d.toNat_lt
  simp only [ByteType.unsigned, List.map_cons, List.map_nil, Nat.ofDigits_cons, Nat.ofDigits_nil,
    List.forall_mem_cons, ← UInt8.toNat_inj, show (0xFF : UInt8).toNat = 255 from rfl]
  constructor
  · intro ones
    exact ⟨by omega, by omega, by omega, by omega, by simp⟩
  · rintro ⟨one, two, three, four, -⟩
    omega

/-- An erased page has no data. -/
theorem hasData_clearData (store : BLEBondStore) : store.clearData.hasData = false := by
  have ones : slice store.clearData.flash 0 4 = List.replicate 4 0xFF := by
    simp [slice, clearData, codePageSize, List.range_succ]
  unfold hasData
  rw [ones, bne_eq_false_iff_eq, ones_iff _ rfl]
  exact fun byte member => List.eq_of_mem_replicate member

/-- What a page reads after a write of whole words. -/
theorem slice_putData (store : BLEBondStore) (data : BondData) :
    slice (store.putData (fun index => data.bytes.getD index 0) data.bytes.length).flash 0
        data.bytes.length =
      data.bytes := by
  refine List.ext_getElem (slice_length _ _ _) fun index inside below => ?_
  have whole := data.whole
  have written : index < 4 * (data.bytes.length / 4) := by omega
  rw [getElem_slice, Nat.zero_add]
  simp [putData, flashWrite, written, below]

/-- What is put is returned. -/
theorem getData_putData (store : BLEBondStore) (data : BondData) :
    (store.putData (fun index => data.bytes.getD index 0) data.bytes.length).getData data.bytes.length =
      data.bytes := by
  rw [getData_eq _ data.whole, slice_putData]

/-- **What is put is seen exactly when** its first word is not all ones. -/
theorem hasData_putData_iff (store : BLEBondStore) (data : BondData) :
    (store.putData (fun index => data.bytes.getD index 0) data.bytes.length).hasData = true ↔
      data.bytes.take 4 ≠ List.replicate 4 0xFF := by
  have four : 4 ≤ data.bytes.length := by
    have whole := data.whole
    have positive := List.length_pos_iff.mpr data.nonempty
    omega
  have length : (data.bytes.take 4).length = 4 := List.length_take_of_le four
  have front : slice (store.putData (fun index => data.bytes.getD index 0) data.bytes.length).flash 0 4 =
      data.bytes.take 4 := by
    have split := slice_putData store data
    conv at split => rhs; rw [← List.take_append_drop 4 data.bytes]
    simpa only [length] using (slice_split split).1
  unfold hasData
  rw [front, bne_iff_ne, ne_eq, ones_iff _ length, ne_eq, List.eq_replicate_iff]
  simp [length]

end BLEBondStore

/-! ### Histories -/

/-- The calls that change the store. -/
inductive BondCall where
  | clearData
  | putData (data : BondData)

/-- A store, and the data put into it since it was last cleared. -/
structure Stored where
  store : BLEBondStore
  data : Option BondData

/-- One call. -/
def Stored.step (stored : Stored) : BondCall → Stored
  | .clearData => ⟨stored.store.clearData, none⟩
  | .putData data =>
      ⟨stored.store.putData (fun index => data.bytes.getD index 0) data.bytes.length, some data⟩

/-- A store whose page has been erased. -/
def Stored.erased (store : BLEBondStore) : Stored := ⟨store.clearData, none⟩

/-- **The store tells whether there is data, and returns it.** -/
def Stored.Right (stored : Stored) : Prop :=
  stored.store.hasData = stored.data.isSome ∧
    ∀ data ∈ stored.data, stored.store.getData data.bytes.length = data.bytes

/-- Data that is put does not begin with four bytes of ones. -/
def BondCall.Visible : BondCall → Prop
  | .clearData => True
  | .putData data => data.bytes.take 4 ≠ List.replicate 4 0xFF

/-- **One call**: the store is right after it exactly when what it puts is visible. -/
theorem Stored.step_right_iff (stored : Stored) (call : BondCall) :
    (stored.step call).Right ↔ call.Visible := by
  cases call with
  | clearData =>
    exact iff_of_true ⟨BLEBondStore.hasData_clearData _, fun _ absent => nomatch absent⟩ trivial
  | putData data =>
    refine Iff.trans ?_ (BLEBondStore.hasData_putData_iff stored.store data)
    refine ⟨fun right => right.1, fun seen => ⟨seen, ?_⟩⟩
    intro other same
    obtain rfl : data = other := Option.some.inj same
    exact BLEBondStore.getData_putData stored.store data

/-- **The store tells and returns what was put, in every state of a history, exactly when** all that is put is
visible. -/
theorem bond_store_right_iff (store : BLEBondStore) (calls : List BondCall) :
    Always Stored.step Stored.Right (.erased store) calls ↔ ∀ call ∈ calls, call.Visible := by
  have erased : (Stored.erased store).Right :=
    ⟨BLEBondStore.hasData_clearData _, fun _ absent => nomatch absent⟩
  rw [always_iff_eachStep (fun stored call _ (_ : True) => stored.step_right_iff call) erased
    (eachStep_of_forall (fun _ _ => trivial) _ _), eachStep_iff_forall]

/-- Eight bytes, of which the first four are ones. -/
def onesData : BondData := ⟨[0xFF, 0xFF, 0xFF, 0xFF, 1, 2, 3, 4], by decide, by decide, by decide⟩

/-- Data that begins with a word of ones is put, and the store has none. -/
theorem onesData_unseen : ¬ Always Stored.step Stored.Right (.erased ⟨fun _ => 0⟩)
    [.putData onesData] := by
  rintro ⟨-, right⟩
  exact ((Stored.erased ⟨fun _ => 0⟩).step_right_iff (.putData onesData)).mp right rfl

end PrimoCore.Ble
