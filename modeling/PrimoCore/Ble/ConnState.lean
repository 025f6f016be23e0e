/-
**The connection table, `ble_conn_state`.**

Eight slots hold connection handles. For each flag of a connection there is a byte with a bit for
every slot; the first slot whose handle is the one looked for is the one that counts, in use or not. A
link that ends keeps its slot until the next one comes up.

* `updateByKey`, `bulkUpdateByKey`, `getByKey`, `keyListGet` — the mapped flags.
* `ConnState` — the table; `onBleEvt`, the user flags, and what can be asked.
* `LinkTable` — what the table is for: the links that are known, each with its flags.
* `Refines` — **the slots in use hold the links**, none has the handle of one before it, and the bits
  of the others are clear.
* `refines_step` — **every event of a legal run keeps the table in step with the links**.
* `conn_state_right` — **whatever is asked after a legal run is answered from the links**.
-/

import Mathlib.Data.List.Nodup
import Mathlib.Data.List.Perm.Basic
import Mathlib.Logic.Function.Basic
import PrimoCore.Core.EventDispatch
import PrimoCore.Lib.Run

namespace PrimoCore.Ble

open PrimoCore.Lib PrimoCore.Core

/-! ### Mapped flags -/

/-- `SDK_MAPPED_FLAGS_N_KEYS`. -/
def nKeys : Nat := 8

/-- `sdk_mapped_flags_set_by_index`, and `sdk_mapped_flags_clear_by_index`. -/
def updateByIndex (flags : BitVec 8) (index : Nat) (value : Bool) : BitVec 8 :=
  if value then flags ||| 1#8 <<< index else flags &&& ~~~ (1#8 <<< index)

/-- `sdk_mapped_flags_get_by_index`. -/
def getByIndex (flags : BitVec 8) (index : Nat) : Bool := flags &&& 1#8 <<< index ≠ 0#8

/-- `sdk_mapped_flags_first_key_index_get`; nothing for `SDK_MAPPED_FLAGS_INVALID_INDEX`. -/
def firstKeyIndexGet (flags : BitVec 8) : Option Nat := (List.range nKeys).find? (getByIndex flags)

/-- The loop over the keys, up to the first one that is the key. -/
def keyIndex (keys : Memory UInt16) (key : UInt16) : Option Nat :=
  (List.range nKeys).find? fun index => keys index = key

/-- `sdk_mapped_flags_bulk_update_by_key`. -/
def bulkUpdateByKey (keys : Memory UInt16) (flags : Memory (BitVec 8)) (nFlagCollections : Nat)
    (key : UInt16) (value : Bool) : Memory (BitVec 8) :=
  match keyIndex keys key with
  | some index => fun collection =>
      if collection < nFlagCollections then updateByIndex (flags collection) index value
      else flags collection
  | none => flags

/-- `sdk_mapped_flags_update_by_key`. -/
def updateByKey (keys : Memory UInt16) (flags : BitVec 8) (key : UInt16) (value : Bool) : BitVec 8 :=
  bulkUpdateByKey keys (fun _ => flags) 1 key value 0

/-- `sdk_mapped_flags_get_by_key`. -/
def getByKey (keys : Memory UInt16) (flags : BitVec 8) (key : UInt16) : Bool :=
  match keyIndex keys key with
  | some index => getByIndex flags index
  | none => false

/-- `sdk_mapped_flags_key_list_get`. -/
def keyListGet (keys : Memory UInt16) (flags : BitVec 8) : List UInt16 :=
  ((List.range nKeys).filter (getByIndex flags)).map keys

/-- `sdk_mapped_flags_n_flags_set`. -/
def nFlagsSet (flags : BitVec 8) : Nat := (List.range nKeys).countP (getByIndex flags)

/-! ### The table -/

/-- `BLE_CONN_STATE_N_DEFAULT_FLAGS`. -/
def nDefaultFlags : Nat := 5

/-- `BLE_CONN_STATE_N_USER_FLAGS`. -/
def nUserFlags : Nat := 24

/-- `BLE_CONN_STATE_N_FLAGS`. -/
def nFlags : Nat := nDefaultFlags + nUserFlags

/-! The places of `ble_conn_state_flag_collections_t` in `flag_array`. -/

def validFlags : Nat := 0
def connectedFlags : Nat := 1
def centralFlags : Nat := 2
def encryptedFlags : Nat := 3
def mitmProtectedFlags : Nat := 4
def userFlags (flagId : Nat) : Nat := nDefaultFlags + flagId

/-- `ble_conn_state_t`. -/
structure ConnState where
  acquiredFlags : BitVec 32
  validConnHandles : Memory UInt16
  flagArray : Memory (BitVec 8)

/-- `BLE_GAP_EVT_CONN_SEC_UPDATE`. -/
def gapEvtConnSecUpdate : UInt16 := 0x1A

/-- `evt.gap_evt.params.conn_sec_update.conn_sec.sec_mode.lv`: the upper half of the first byte. -/
def secModeLv (event : BleEvt) : UInt8 := event.evt 4 >>> 4

/-- `ble_conn_state_status_t`. -/
inductive ConnStatus where
  | invalid
  | disconnected
  | connected
  deriving DecidableEq

/-- `BLE_GAP_ROLE_INVALID`. -/
def gapRoleInvalid : UInt8 := 0

namespace ConnState

/-- `bcs_internal_state_reset`. -/
def reset : ConnState := ⟨0#32, fun _ => 0, fun _ => 0#8⟩

/-- `sdk_mapped_flags_update_by_key` for one of the flags. -/
def update (state : ConnState) (flag : Nat) (connHandle : UInt16) (value : Bool) : ConnState :=
  { state with
    flagArray := Function.update state.flagArray flag
      (updateByKey state.validConnHandles (state.flagArray flag) connHandle value) }

/-- `sdk_mapped_flags_get_by_key` for one of the flags. -/
def get (state : ConnState) (flag : Nat) (connHandle : UInt16) : Bool :=
  getByKey state.validConnHandles (state.flagArray flag) connHandle

/-- `record_activate`, where nothing stands for `false`. -/
def recordActivate (state : ConnState) (connHandle : UInt16) : Option ConnState :=
  match firstKeyIndexGet (~~~ state.flagArray validFlags) with
  | none => none
  | some availableIndex =>
      let state := { state with
        validConnHandles := Function.update state.validConnHandles availableIndex connHandle }
      let state := state.update connectedFlags connHandle true
      some (state.update validFlags connHandle true)

/-- `record_invalidate`. -/
def recordInvalidate (state : ConnState) (connHandle : UInt16) : ConnState :=
  { state with
    flagArray := bulkUpdateByKey state.validConnHandles state.flagArray nFlags connHandle false }

/-- `record_set_disconnected`. -/
def recordSetDisconnected (state : ConnState) (connHandle : UInt16) : ConnState :=
  state.update connectedFlags connHandle false

/-- `record_purge_disconnected`. -/
def recordPurgeDisconnected (state : ConnState) : ConnState :=
  let disconnectedList := keyListGet state.validConnHandles
    (~~~ state.flagArray connectedFlags &&& state.flagArray validFlags)
  disconnectedList.foldl recordInvalidate state

/-- `ble_conn_state_on_ble_evt`, and whether it calls `APP_ERROR_HANDLER`. -/
def onBleEvt (state : ConnState) (event : BleEvt) : ConnState × Bool :=
  if event.evtId = gapEvtConnected then
    let state := state.recordPurgeDisconnected
    match state.recordActivate event.connHandle with
    | none => (state, true)
    | some state =>
        (state.update centralFlags event.connHandle (event.connectedRole = gapRoleCentral), false)
  else if event.evtId = gapEvtDisconnected then (state.recordSetDisconnected event.connHandle, false)
  else if event.evtId = gapEvtConnSecUpdate then
    let state := state.update encryptedFlags event.connHandle (secModeLv event > 1)
    (state.update mitmProtectedFlags event.connHandle (secModeLv event > 2), false)
  else (state, false)

/-- `ble_conn_state_valid`. -/
def valid (state : ConnState) (connHandle : UInt16) : Bool := state.get validFlags connHandle

/-- `ble_conn_state_role`. -/
def role (state : ConnState) (connHandle : UInt16) : UInt8 :=
  if state.get validFlags connHandle then
    if state.get centralFlags connHandle then gapRoleCentral else gapRolePeriph
  else gapRoleInvalid

/-- `ble_conn_state_status`. -/
def status (state : ConnState) (connHandle : UInt16) : ConnStatus :=
  if state.get validFlags connHandle then
    if state.get connectedFlags connHandle then .connected else .disconnected
  else .invalid

/-- `ble_conn_state_encrypted`. -/
def encrypted (state : ConnState) (connHandle : UInt16) : Bool := state.get encryptedFlags connHandle

/-- `ble_conn_state_mitm_protected`. -/
def mitmProtected (state : ConnState) (connHandle : UInt16) : Bool :=
  state.get mitmProtectedFlags connHandle

/-- `ble_conn_state_n_connections`. -/
def nConnections (state : ConnState) : Nat := nFlagsSet (state.flagArray connectedFlags)

/-- `ble_conn_state_n_centrals`. -/
def nCentrals (state : ConnState) : Nat :=
  nFlagsSet (state.flagArray centralFlags &&& state.flagArray connectedFlags)

/-- `ble_conn_state_n_peripherals`. -/
def nPeripherals (state : ConnState) : Nat :=
  nFlagsSet (~~~ state.flagArray centralFlags &&& state.flagArray connectedFlags)

/-- `ble_conn_state_conn_handles`. -/
def connHandles (state : ConnState) : List UInt16 :=
  keyListGet state.validConnHandles (state.flagArray validFlags)

/-- `ble_conn_state_central_handles`. -/
def centralHandles (state : ConnState) : List UInt16 :=
  keyListGet state.validConnHandles (state.flagArray centralFlags &&& state.flagArray connectedFlags)

/-- `ble_conn_state_periph_handles`. -/
def periphHandles (state : ConnState) : List UInt16 :=
  keyListGet state.validConnHandles
    (~~~ state.flagArray centralFlags &&& state.flagArray connectedFlags)

/-- `user_flag_is_acquired`. -/
def userFlagIsAcquired (state : ConnState) (flagId : Nat) : Bool :=
  state.acquiredFlags &&& 1#32 <<< flagId ≠ 0#32

/-- `ble_conn_state_user_flag_acquire`; nothing for `BLE_CONN_STATE_USER_FLAG_INVALID`. -/
def userFlagAcquire (state : ConnState) : ConnState × Option Nat :=
  match (List.range nUserFlags).find? fun flagId => !state.userFlagIsAcquired flagId with
  | some flagId => ({ state with acquiredFlags := state.acquiredFlags ||| 1#32 <<< flagId }, some flagId)
  | none => (state, none)

/-- `ble_conn_state_user_flag_get`. -/
def userFlagGet (state : ConnState) (connHandle : UInt16) (flagId : Nat) : Bool :=
  if state.userFlagIsAcquired flagId then state.get (userFlags flagId) connHandle else false

/-- `ble_conn_state_user_flag_set`. -/
def userFlagSet (state : ConnState) (connHandle : UInt16) (flagId : Nat) (value : Bool) : ConnState :=
  if state.userFlagIsAcquired flagId then state.update (userFlags flagId) connHandle value else state

end ConnState

/-- What happens to the table. -/
inductive ConnCall where
  | bleEvt (event : BleEvt)
  | userFlagAcquire
  | userFlagSet (connHandle : UInt16) (flagId : Nat) (value : Bool)

def ConnState.step (state : ConnState) : ConnCall → ConnState
  | .bleEvt event => (state.onBleEvt event).1
  | .userFlagAcquire => state.userFlagAcquire.1
  | .userFlagSet connHandle flagId value => state.userFlagSet connHandle flagId value

/-! ### The links -/

/-- A link and its flags. -/
structure Link where
  connHandle : UInt16
  flags : Nat → Bool

namespace Link

def connected (link : Link) : Bool := link.flags connectedFlags
def central (link : Link) : Bool := link.flags centralFlags
def encrypted (link : Link) : Bool := link.flags encryptedFlags
def mitmProtected (link : Link) : Bool := link.flags mitmProtectedFlags
def user (link : Link) (flagId : Nat) : Bool := link.flags (userFlags flagId)

/-- A link that has come up: not encrypted, and with no user flag. -/
def new (connHandle : UInt16) (central : Bool) : Link where
  connHandle := connHandle
  flags flag := flag = validFlags || flag = connectedFlags || (flag = centralFlags && central)

/-- The link with a flag of a connection set. -/
def set (connHandle : UInt16) (flag : Nat) (value : Bool) (link : Link) : Link :=
  if link.connHandle = connHandle then { link with flags := Function.update link.flags flag value }
  else link

end Link

/-- The links that are known, and how many user flags are in use. -/
structure LinkTable where
  links : List Link
  acquired : Nat

namespace LinkTable

def initial : LinkTable := ⟨[], 0⟩

/-- The link of a handle. -/
def find (table : LinkTable) (connHandle : UInt16) : Option Link :=
  table.links.find? fun link => link.connHandle = connHandle

/-- A flag of the link of a handle. -/
def flag (table : LinkTable) (flag : Nat) (connHandle : UInt16) : Bool :=
  (table.find connHandle).any fun link => link.flags flag

def set (table : LinkTable) (flag : Nat) (connHandle : UInt16) (value : Bool) : LinkTable :=
  { table with links := table.links.map (Link.set connHandle flag value) }

/-- A link that comes up is known, and those that have ended are forgotten. -/
def connect (table : LinkTable) (connHandle : UInt16) (central : Bool) : LinkTable :=
  { table with links := .new connHandle central :: table.links.filter Link.connected }

def onBleEvt (table : LinkTable) (event : BleEvt) : LinkTable :=
  if event.evtId = gapEvtConnected then
    table.connect event.connHandle (event.connectedRole = gapRoleCentral)
  else if event.evtId = gapEvtDisconnected then table.set connectedFlags event.connHandle false
  else if event.evtId = gapEvtConnSecUpdate then
    (table.set encryptedFlags event.connHandle (secModeLv event > 1)).set mitmProtectedFlags
      event.connHandle (secModeLv event > 2)
  else table

def step (table : LinkTable) : ConnCall → LinkTable
  | .bleEvt event => table.onBleEvt event
  | .userFlagAcquire => { table with acquired := min (table.acquired + 1) nUserFlags }
  | .userFlagSet connHandle flagId value =>
      if flagId < table.acquired then table.set (userFlags flagId) connHandle value else table

/-- The handle is one of a link that is known. -/
def Knows (table : LinkTable) (connHandle : UInt16) : Prop :=
  connHandle ∈ table.links.map Link.connHandle

/-- What the stack does: a link comes up with a handle that no link has that is up, there are no more
than eight, and a change of the security concerns a link that is known. A user flag is set for such a
link. -/
def Legal (table : LinkTable) : ConnCall → Prop
  | .bleEvt event =>
      (event.evtId = gapEvtConnected →
        event.connHandle ∉ (table.links.filter Link.connected).map Link.connHandle ∧
          (table.links.filter Link.connected).length < nKeys) ∧
      (event.evtId = gapEvtConnSecUpdate → table.Knows event.connHandle)
  | .userFlagAcquire => True
  | .userFlagSet connHandle _ _ => table.Knows connHandle

instance (table : LinkTable) (connHandle : UInt16) : Decidable (table.Knows connHandle) :=
  inferInstanceAs (Decidable (_ ∈ _))

instance decidableLegal (table : LinkTable) (call : ConnCall) : Decidable (table.Legal call) :=
  match call with
  | .bleEvt _ => inferInstanceAs (Decidable ((_ → _ ∧ _) ∧ (_ → _)))
  | .userFlagAcquire => isTrue trivial
  | .userFlagSet connHandle _ _ => inferInstanceAs (Decidable (table.Knows connHandle))

end LinkTable

/-! ### Bits -/

section Bits

variable {width : Nat}

theorem getLsbD_mask (index other : Nat) :
    (BitVec.ofNat width 1 <<< index).getLsbD other = (decide (index < width) && decide (index = other)) := by
  rw [← BitVec.twoPow_eq, BitVec.getLsbD_twoPow]

/-- A mask of one bit tells what the bit is. -/
theorem mask_ne_zero (flags : BitVec width) (index : Nat) :
    decide (flags &&& BitVec.ofNat width 1 <<< index ≠ BitVec.ofNat width 0) = flags.getLsbD index := by
  cases bit : flags.getLsbD index with
  | false =>
    rw [decide_eq_false_iff_not, not_not]
    apply BitVec.eq_of_getLsbD_eq
    intro other inside
    rw [BitVec.getLsbD_and, getLsbD_mask, BitVec.getLsbD_zero]
    by_cases here : index = other
    · rw [← here, bit, Bool.false_and]
    · rw [decide_eq_false here, Bool.and_false, Bool.and_false]
  | true =>
    rw [decide_eq_true_eq]
    intro zero
    have none := congrArg (fun bits => BitVec.getLsbD bits index) zero
    have inside : index < width := by
      by_contra outside
      rw [BitVec.getLsbD_of_ge flags index (Nat.le_of_not_lt outside)] at bit
      cases bit
    rw [BitVec.getLsbD_and, bit, getLsbD_mask, decide_eq_true inside, decide_eq_true rfl,
      BitVec.getLsbD_zero] at none
    cases none

end Bits

theorem getByIndex_eq (flags : BitVec 8) (index : Nat) : getByIndex flags index = flags.getLsbD index :=
  mask_ne_zero flags index

theorem getByIndex_update (flags : BitVec 8) {index other : Nat} (value : Bool) (inside : other < nKeys) :
    getByIndex (updateByIndex flags index value) other =
      if index = other then value else getByIndex flags other := by
  have width : other < 8 := inside
  unfold updateByIndex
  cases value with
  | false =>
    rw [if_neg Bool.false_ne_true, getByIndex_eq, getByIndex_eq, BitVec.getLsbD_and, BitVec.getLsbD_not,
      getLsbD_mask, decide_eq_true width, Bool.true_and]
    by_cases here : index = other
    · rw [if_pos here, here, decide_eq_true width, decide_eq_true rfl]
      exact Bool.and_false _
    · rw [if_neg here, decide_eq_false here, Bool.and_false]
      exact Bool.and_true _
  | true =>
    rw [if_pos rfl, getByIndex_eq, getByIndex_eq, BitVec.getLsbD_or, getLsbD_mask]
    by_cases here : index = other
    · rw [if_pos here, here, decide_eq_true width, decide_eq_true rfl]
      exact Bool.or_true _
    · rw [if_neg here, decide_eq_false here, Bool.and_false]
      exact Bool.or_false _

theorem getByIndex_not (flags : BitVec 8) {index : Nat} (inside : index < nKeys) :
    getByIndex (~~~ flags) index = !getByIndex flags index := by
  have width : index < 8 := inside
  rw [getByIndex_eq, getByIndex_eq, BitVec.getLsbD_not, decide_eq_true width, Bool.true_and]

theorem getByIndex_and (flags others : BitVec 8) (index : Nat) :
    getByIndex (flags &&& others) index = (getByIndex flags index && getByIndex others index) := by
  rw [getByIndex_eq, getByIndex_eq, getByIndex_eq, BitVec.getLsbD_and]

theorem keyIndex_eq_some_iff {keys : Memory UInt16} {key : UInt16} {index : Nat} :
    keyIndex keys key = some index ↔
      index < nKeys ∧ keys index = key ∧ ∀ before < index, keys before ≠ key := by
  unfold keyIndex
  rw [List.find?_range_eq_some, decide_eq_true_eq, List.mem_range]
  constructor
  · rintro ⟨here, inside, first⟩
    refine ⟨inside, here, fun before less => ?_⟩
    have other := first before less
    rwa [Bool.not_eq_true', decide_eq_false_iff_not] at other
  · rintro ⟨inside, here, first⟩
    refine ⟨here, inside, fun before less => ?_⟩
    rw [Bool.not_eq_true', decide_eq_false_iff_not]
    exact first before less

theorem keyIndex_eq_none_iff {keys : Memory UInt16} {key : UInt16} :
    keyIndex keys key = none ↔ ∀ index < nKeys, keys index ≠ key := by
  unfold keyIndex
  rw [List.find?_range_eq_none]
  refine forall_congr' fun index => imp_congr_right fun _ => ?_
  rw [Bool.not_eq_true', decide_eq_false_iff_not]

/-! ### The slots -/

namespace ConnState

/-- The bit of a flag for a slot. -/
def bit (state : ConnState) (flag slot : Nat) : Bool := getByIndex (state.flagArray flag) slot

/-- The slots in use. -/
def usedSlots (state : ConnState) : List Nat := (List.range nKeys).filter (state.bit validFlags)

/-- The link in a slot. -/
def linkAt (state : ConnState) (slot : Nat) : Link :=
  ⟨state.validConnHandles slot, fun flag => decide (flag < nFlags) && state.bit flag slot⟩

variable {state : ConnState}

theorem mem_usedSlots {slot : Nat} :
    slot ∈ state.usedSlots ↔ slot < nKeys ∧ state.bit validFlags slot = true := by
  rw [usedSlots, List.mem_filter, List.mem_range]

theorem bit_update (state : ConnState) (flag other : Nat) (connHandle : UInt16) (value : Bool) {slot : Nat}
    (inside : slot < nKeys) : (state.update flag connHandle value).bit other slot =
      if other = flag ∧ keyIndex state.validConnHandles connHandle = some slot then value
      else state.bit other slot := by
  unfold bit update
  dsimp only
  by_cases same : other = flag
  · subst same
    rw [Function.update_self]
    unfold updateByKey bulkUpdateByKey
    cases found : keyIndex state.validConnHandles connHandle with
    | none => rw [if_neg (fun both => nomatch both.2)]
    | some index =>
      dsimp only
      rw [if_pos Nat.one_pos, getByIndex_update _ _ inside]
      simp only [true_and, Option.some.injEq]
  · rw [Function.update_of_ne same, if_neg (fun both => same both.1)]

theorem bit_update_found {connHandle : UInt16} {index : Nat}
    (found : keyIndex state.validConnHandles connHandle = some index) (flag other : Nat) (value : Bool)
    {slot : Nat} (inside : slot < nKeys) : (state.update flag connHandle value).bit other slot =
      if other = flag ∧ slot = index then value else state.bit other slot := by
  rw [bit_update _ _ _ _ _ inside]
  simp only [found, Option.some.injEq, eq_comm]

theorem bit_recordInvalidate (state : ConnState) {flag : Nat} (connHandle : UInt16) {slot : Nat}
    (inside : slot < nKeys) (kept : flag < nFlags) : (state.recordInvalidate connHandle).bit flag slot =
      if keyIndex state.validConnHandles connHandle = some slot then false else state.bit flag slot := by
  unfold bit recordInvalidate bulkUpdateByKey
  cases found : keyIndex state.validConnHandles connHandle with
  | none => rw [if_neg (fun same => nomatch same)]
  | some index =>
    dsimp only
    rw [if_pos kept, getByIndex_update _ _ inside]
    simp only [Option.some.injEq]

end ConnState

/-! ### The table holds the links -/

/-- **The slots in use hold the links.** No slot has the handle of one in use that comes later, and
the bits of a slot that is not in use are clear. -/
structure Refines (state : ConnState) (table : LinkTable) : Prop where
  slots : (state.usedSlots.map state.linkAt).Perm table.links
  distinct : (table.links.map Link.connHandle).Nodup
  first : ∀ slot ∈ state.usedSlots, ∀ before < slot,
    state.validConnHandles before ≠ state.validConnHandles slot
  clear : ∀ slot < nKeys, slot ∉ state.usedSlots → ∀ flag < nFlags, state.bit flag slot = false
  acquired : ∀ flagId, state.acquiredFlags.getLsbD flagId = decide (flagId < table.acquired)
  acquiredLe : table.acquired ≤ nUserFlags

namespace LinkTable

variable {table : LinkTable}

/-- The link of a handle is the one with it. -/
theorem find_eq_some (distinct : (table.links.map Link.connHandle).Nodup) {link : Link}
    (member : link ∈ table.links) : table.find link.connHandle = some link := by
  cases found : table.find link.connHandle with
  | none =>
    have other := List.find?_eq_none.mp found link member
    exact absurd (decide_eq_true rfl) other
  | some here =>
    change table.links.find? (fun other => decide (other.connHandle = link.connHandle)) = _ at found
    have same := List.find?_some found
    rw [decide_eq_true_eq] at same
    rw [List.inj_on_of_nodup_map distinct (List.mem_of_find?_eq_some found) member same]

theorem find_eq_none {connHandle : UInt16} (unknown : ¬ table.Knows connHandle) :
    table.find connHandle = none := by
  refine List.find?_eq_none.mpr fun link member same => unknown ?_
  exact List.mem_map.mpr ⟨link, member, of_decide_eq_true same⟩

theorem knows_iff {connHandle : UInt16} :
    table.Knows connHandle ↔ ∃ link ∈ table.links, link.connHandle = connHandle := List.mem_map

@[simp] theorem set_connHandle (connHandle : UInt16) (flag : Nat) (value : Bool) (link : Link) :
    (Link.set connHandle flag value link).connHandle = link.connHandle := by
  unfold Link.set
  split <;> rfl

theorem set_handles (table : LinkTable) (flag : Nat) (connHandle : UInt16) (value : Bool) :
    (table.set flag connHandle value).links.map Link.connHandle = table.links.map Link.connHandle := by
  show (table.links.map _).map _ = _
  rw [List.map_map]
  exact List.map_congr_left fun link _ => set_connHandle connHandle flag value link

end LinkTable

namespace Refines

variable {state : ConnState} {table : LinkTable} (refines : Refines state table)

include refines

/-- The slot in use is the one that is found. -/
theorem keyIndex_used {slot : Nat} (used : slot ∈ state.usedSlots) :
    keyIndex state.validConnHandles (state.validConnHandles slot) = some slot :=
  keyIndex_eq_some_iff.mpr ⟨(ConnState.mem_usedSlots.mp used).1, rfl, refines.first slot used⟩

theorem keyIndex_iff {slot : Nat} (used : slot ∈ state.usedSlots) (connHandle : UInt16) :
    keyIndex state.validConnHandles connHandle = some slot ↔ state.validConnHandles slot = connHandle := by
  constructor
  · exact fun found => (keyIndex_eq_some_iff.mp found).2.1
  · rintro rfl
    exact refines.keyIndex_used used

theorem link_of_slot {slot : Nat} (used : slot ∈ state.usedSlots) : state.linkAt slot ∈ table.links :=
  refines.slots.mem_iff.mp (List.mem_map_of_mem used)

theorem slot_of_link {link : Link} (member : link ∈ table.links) :
    ∃ slot ∈ state.usedSlots, state.linkAt slot = link :=
  List.mem_map.mp (refines.slots.mem_iff.mpr member)

/-- A handle that is known is found in a slot in use. -/
theorem keyIndex_known {connHandle : UInt16} (known : table.Knows connHandle) :
    ∃ slot ∈ state.usedSlots, keyIndex state.validConnHandles connHandle = some slot := by
  obtain ⟨link, member, rfl⟩ := LinkTable.knows_iff.mp known
  obtain ⟨slot, used, rfl⟩ := refines.slot_of_link member
  exact ⟨slot, used, refines.keyIndex_used used⟩

/-- **What a flag of a handle is**, known or not. -/
theorem get_eq {flag : Nat} (kept : flag < nFlags) (connHandle : UInt16) :
    state.get flag connHandle = table.flag flag connHandle := by
  unfold ConnState.get getByKey LinkTable.flag
  by_cases known : table.Knows connHandle
  · obtain ⟨link, member, rfl⟩ := LinkTable.knows_iff.mp known
    obtain ⟨slot, used, rfl⟩ := refines.slot_of_link member
    rw [table.find_eq_some refines.distinct member]
    change (match keyIndex _ (state.validConnHandles slot) with | some index => _ | none => _) = _
    rw [refines.keyIndex_used used]
    show state.bit flag slot = (decide (flag < nFlags) && state.bit flag slot)
    rw [decide_eq_true kept, Bool.true_and]
  · rw [LinkTable.find_eq_none known]
    split
    · next index found =>
      obtain ⟨inside, here, -⟩ := keyIndex_eq_some_iff.mp found
      refine refines.clear index inside (fun used => known ?_) flag kept
      exact LinkTable.knows_iff.mpr ⟨_, refines.link_of_slot used, here⟩
    · rfl

/-- **A flag is set for a link that is known**, or cleared. -/
theorem update {flag : Nat} (other : flag ≠ validFlags) (kept : flag < nFlags) {connHandle : UInt16}
    {value : Bool} (known : table.Knows connHandle ∨ value = false) :
    Refines (state.update flag connHandle value) (table.set flag connHandle value) := by
  have used : (state.update flag connHandle value).usedSlots = state.usedSlots := by
    refine List.filter_congr fun slot inside => ?_
    rw [state.bit_update _ _ _ _ (List.mem_range.mp inside), if_neg fun both => other both.1.symm]
  have link : ∀ slot ∈ state.usedSlots, (state.update flag connHandle value).linkAt slot =
      Link.set connHandle flag value (state.linkAt slot) := by
    intro slot member
    have inside := (ConnState.mem_usedSlots.mp member).1
    have found := refines.keyIndex_iff member connHandle
    have handle : (state.update flag connHandle value).validConnHandles slot =
        state.validConnHandles slot := rfl
    unfold Link.set ConnState.linkAt
    simp only [state.bit_update _ _ _ _ inside, found, handle]
    by_cases here : state.validConnHandles slot = connHandle
    · simp only [here, and_true, if_true]
      refine congrArg (Link.mk _) (funext fun place => ?_)
      by_cases same : place = flag
      · rw [if_pos same, same, Function.update_self, decide_eq_true kept, Bool.true_and]
      · rw [if_neg same, Function.update_of_ne same]
    · simp only [here, and_false, if_false]
  have mapped : state.usedSlots.map (state.update flag connHandle value).linkAt =
      (state.usedSlots.map state.linkAt).map (Link.set connHandle flag value) := by
    rw [List.map_map]
    exact List.map_congr_left link
  constructor
  · rw [used, mapped]
    exact refines.slots.map _
  · rw [table.set_handles]
    exact refines.distinct
  · rw [used]
    exact refines.first
  · rw [used]
    intro slot inside unused place bound
    rw [state.bit_update _ _ _ _ inside]
    split
    · next both =>
      rcases known with known | rfl
      · obtain ⟨holder, member, found⟩ := refines.keyIndex_known known
        rw [both.2, Option.some.injEq] at found
        exact absurd (found ▸ member) unused
      · rfl
    · exact refines.clear slot inside unused place bound
  · exact refines.acquired
  · exact refines.acquiredLe

/-- **A link is forgotten.** -/
theorem recordInvalidate (connHandle : UInt16) : Refines (state.recordInvalidate connHandle)
    { table with links := table.links.filter fun link => link.connHandle ≠ connHandle } := by
  have keeps : ∀ slot ∈ state.usedSlots, (decide ((state.linkAt slot).connHandle ≠ connHandle) = true ↔
      keyIndex state.validConnHandles connHandle ≠ some slot) := by
    intro slot used
    rw [decide_eq_true_eq, Ne, Ne, refines.keyIndex_iff used]
    rfl
  have used : (state.recordInvalidate connHandle).usedSlots = state.usedSlots.filter
      ((fun link => decide (link.connHandle ≠ connHandle)) ∘ state.linkAt) := by
    unfold ConnState.usedSlots
    rw [List.filter_filter]
    refine List.filter_congr fun slot member => ?_
    have inside := List.mem_range.mp member
    rw [state.bit_recordInvalidate _ inside (by decide)]
    cases standing : state.bit validFlags slot with
    | false => rw [ite_self, Bool.and_false]
    | true =>
      have iff := keeps slot (ConnState.mem_usedSlots.mpr ⟨inside, standing⟩)
      rw [Bool.and_true, Function.comp_apply]
      split
      · next found => exact (Bool.eq_false_iff.mpr fun keep => iff.mp keep found).symm
      · next missing => exact (iff.mpr missing).symm
  have link : ∀ slot ∈ (state.recordInvalidate connHandle).usedSlots,
      (state.recordInvalidate connHandle).linkAt slot = state.linkAt slot := by
    intro slot member
    rw [used, List.mem_filter] at member
    have inside := (ConnState.mem_usedSlots.mp member.1).1
    have missing := (keeps slot member.1).mp member.2
    refine congrArg (Link.mk _) (funext fun flag => ?_)
    by_cases kept : flag < nFlags
    · rw [state.bit_recordInvalidate _ inside kept, if_neg missing]
    · rw [decide_eq_false kept, Bool.false_and, Bool.false_and]
  constructor
  · rw [List.map_congr_left link, used, ← List.filter_map]
    exact refines.slots.filter _
  · exact refines.distinct.sublist (List.filter_sublist.map _)
  · intro slot member
    rw [used, List.mem_filter] at member
    exact refines.first slot member.1
  · intro slot inside unused flag kept
    rw [state.bit_recordInvalidate _ inside kept]
    split
    · rfl
    · next missing =>
      refine refines.clear slot inside (fun member => unused ?_) flag kept
      rw [used]
      exact List.mem_filter.mpr ⟨member, (keeps slot member).mpr missing⟩
  · exact refines.acquired
  · exact refines.acquiredLe

omit refines in
theorem filter_fold (handles : List UInt16) (refines : Refines state table) :
    Refines (handles.foldl ConnState.recordInvalidate state)
      { table with links := table.links.filter fun link => link.connHandle ∉ handles } := by
  induction handles generalizing state table with
  | nil =>
    have all : (table.links.filter fun link => decide (link.connHandle ∉ ([] : List UInt16))) =
        table.links := List.filter_eq_self.mpr fun _ _ => decide_eq_true List.not_mem_nil
    rw [all]
    exact refines
  | cons connHandle rest ih =>
    have both := ih (refines.recordInvalidate connHandle)
    dsimp only at both
    rw [List.filter_filter] at both
    have same : ∀ link ∈ table.links,
        (decide (link.connHandle ∉ rest) && decide (link.connHandle ≠ connHandle)) =
          decide (link.connHandle ∉ connHandle :: rest) := by
      intro link _
      rw [← Bool.decide_and]
      exact decide_eq_decide.mpr (by rw [List.mem_cons, not_or, and_comm])
    rw [List.filter_congr same] at both
    exact both

/-- **The links that have ended are forgotten.** -/
theorem recordPurgeDisconnected : Refines state.recordPurgeDisconnected
    { table with links := table.links.filter Link.connected } := by
  unfold ConnState.recordPurgeDisconnected
  have folded := refines.filter_fold (keyListGet state.validConnHandles
    (~~~ state.flagArray connectedFlags &&& state.flagArray validFlags))
  have same : ∀ link ∈ table.links, decide (link.connHandle ∉ keyListGet state.validConnHandles
      (~~~ state.flagArray connectedFlags &&& state.flagArray validFlags)) = link.connected := by
    intro link member
    obtain ⟨slot, used, rfl⟩ := refines.slot_of_link member
    obtain ⟨inside, standing⟩ := ConnState.mem_usedSlots.mp used
    have connected : (state.linkAt slot).connected = state.bit connectedFlags slot := Bool.true_and _
    have listed : (state.linkAt slot).connHandle ∈ keyListGet state.validConnHandles
        (~~~ state.flagArray connectedFlags &&& state.flagArray validFlags) ↔
          state.bit connectedFlags slot = false := by
      unfold keyListGet
      rw [List.mem_map]
      constructor
      · rintro ⟨other, found, same⟩
        rw [List.mem_filter, List.mem_range, getByIndex_and, Bool.and_eq_true] at found
        obtain ⟨otherInside, ended, otherValid⟩ := found
        have otherUsed := ConnState.mem_usedSlots.mpr ⟨otherInside, otherValid⟩
        have place := refines.keyIndex_used otherUsed
        change state.validConnHandles other = state.validConnHandles slot at same
        rw [same, refines.keyIndex_used used, Option.some.injEq] at place
        rw [getByIndex_not _ otherInside, Bool.not_eq_true', ← place] at ended
        exact ended
      · intro ended
        refine ⟨slot, List.mem_filter.mpr ⟨List.mem_range.mpr inside, ?_⟩, rfl⟩
        rw [getByIndex_and, getByIndex_not _ inside, Bool.and_eq_true, Bool.not_eq_true']
        exact ⟨ended, standing⟩
    rw [connected]
    cases up : state.bit connectedFlags slot with
    | false => exact decide_eq_false fun missing => missing (listed.mpr up)
    | true => exact decide_eq_true fun member => absurd ((listed.mp member).symm.trans up) Bool.false_ne_true
  rw [List.filter_congr same] at folded
  exact folded

/-- There is a slot for a link when there are fewer than eight. -/
theorem slot_free (room : table.links.length < nKeys) :
    ∃ slot < nKeys, firstKeyIndexGet (~~~ state.flagArray validFlags) = some slot ∧
      slot ∉ state.usedSlots ∧ ∀ before < slot, before ∈ state.usedSlots := by
  have length := refines.slots.length_eq
  rw [List.length_map] at length
  cases found : firstKeyIndexGet (~~~ state.flagArray validFlags) with
  | none =>
    have all : state.usedSlots = List.range nKeys := by
      refine List.filter_eq_self.mpr fun slot inside => ?_
      have busy := List.find?_range_eq_none.mp found slot (List.mem_range.mp inside)
      rwa [getByIndex_not _ (List.mem_range.mp inside), Bool.not_not] at busy
    rw [all, List.length_range] at length
    omega
  | some slot =>
    obtain ⟨free, inside, first⟩ := List.find?_range_eq_some.mp found
    rw [List.mem_range] at inside
    rw [getByIndex_not _ inside, Bool.not_eq_true'] at free
    refine ⟨slot, inside, rfl, fun used => ?_, fun before less => ?_⟩
    · have standing := (ConnState.mem_usedSlots.mp used).2
      exact Bool.false_ne_true (free.symm.trans standing)
    · have below := Nat.lt_trans less inside
      have busy := first before less
      rw [getByIndex_not _ below, Bool.not_not] at busy
      exact ConnState.mem_usedSlots.mpr ⟨below, busy⟩

/-- **A link that comes up gets a slot**, and it is the one that is found from then on. -/
theorem recordActivate {connHandle : UInt16} (fresh : ¬ table.Knows connHandle)
    (room : table.links.length < nKeys) : ∃ after, state.recordActivate connHandle = some after ∧
      Refines after { table with links := .new connHandle false :: table.links } := by
  obtain ⟨place, inside, found, free, earlier⟩ := refines.slot_free room
  have differs : ∀ slot ∈ state.usedSlots, state.validConnHandles slot ≠ connHandle := fun slot used same =>
    fresh (LinkTable.knows_iff.mpr ⟨_, refines.link_of_slot used, same⟩)
  let placed : ConnState := { state with
    validConnHandles := Function.update state.validConnHandles place connHandle }
  have other : ∀ slot ≠ place, placed.validConnHandles slot = state.validConnHandles slot :=
    fun slot elsewhere => Function.update_of_ne elsewhere ..
  have here : placed.validConnHandles place = connHandle := Function.update_self ..
  have index : keyIndex placed.validConnHandles connHandle = some place := by
    refine keyIndex_eq_some_iff.mpr ⟨inside, here, fun before less => ?_⟩
    rw [other before (Nat.ne_of_lt less)]
    exact differs before (earlier before less)
  refine ⟨(placed.update connectedFlags connHandle true).update validFlags connHandle true, ?_, ?_⟩
  · unfold ConnState.recordActivate
    rw [found]
  generalize same : (placed.update connectedFlags connHandle true).update validFlags connHandle true = after
  have handles : after.validConnHandles = placed.validConnHandles := by
    rw [← same]
    rfl
  have bits : ∀ flag, ∀ slot < nKeys, after.bit flag slot =
      if slot = place ∧ (flag = validFlags ∨ flag = connectedFlags) then true
      else state.bit flag slot := by
    intro flag slot below
    have first := placed.bit_update_found index connectedFlags flag true below
    have second := (placed.update connectedFlags connHandle true).bit_update_found index validFlags flag
      true below
    rw [same, first] at second
    rw [second]
    by_cases isPlace : slot = place
    · by_cases isValid : flag = validFlags
      · rw [if_pos ⟨isValid, isPlace⟩, if_pos ⟨isPlace, .inl isValid⟩]
      · rw [if_neg fun both => isValid both.1]
        by_cases isConnected : flag = connectedFlags
        · rw [if_pos ⟨isConnected, isPlace⟩, if_pos ⟨isPlace, .inr isConnected⟩]
        · rw [if_neg fun both => isConnected both.1, if_neg fun both => both.2.elim isValid isConnected]
          rfl
    · rw [if_neg fun both => isPlace both.2, if_neg fun both => isPlace both.2,
        if_neg fun both => isPlace both.1]
      rfl
  have used : ∀ slot, slot ∈ after.usedSlots ↔ slot ∈ place :: state.usedSlots := by
    intro slot
    rw [ConnState.mem_usedSlots, List.mem_cons, ConnState.mem_usedSlots]
    constructor
    · rintro ⟨below, standing⟩
      rw [bits _ _ below] at standing
      split at standing
      · next both => exact .inl both.1
      · exact .inr ⟨below, standing⟩
    · rintro (rfl | ⟨below, standing⟩)
      · exact ⟨inside, by rw [bits _ _ inside, if_pos ⟨rfl, .inl rfl⟩]⟩
      · refine ⟨below, ?_⟩
        rw [bits _ _ below, standing, ite_self]
  have nodup : state.usedSlots.Nodup := List.nodup_range.filter _
  have more : after.usedSlots.Perm (place :: state.usedSlots) :=
    (List.perm_ext_iff_of_nodup (List.nodup_range.filter _) (List.nodup_cons.mpr ⟨free, nodup⟩)).mpr used
  have kept : ∀ slot ∈ state.usedSlots, after.linkAt slot = state.linkAt slot := by
    intro slot member
    have elsewhere : slot ≠ place := fun is => free (is ▸ member)
    unfold ConnState.linkAt
    rw [handles, other slot elsewhere]
    refine congrArg (Link.mk _) (funext fun flag => ?_)
    rw [bits _ _ (ConnState.mem_usedSlots.mp member).1, if_neg fun both => elsewhere both.1]
  have new : after.linkAt place = .new connHandle false := by
    unfold ConnState.linkAt Link.new
    rw [handles, here]
    refine congrArg (Link.mk _) (funext fun flag => ?_)
    rw [bits _ _ inside, Bool.and_false, Bool.or_false, ← Bool.decide_or]
    by_cases first : flag = validFlags ∨ flag = connectedFlags
    · have bound : flag < nFlags := by
        rcases first with rfl | rfl <;> decide
      rw [if_pos ⟨rfl, first⟩, decide_eq_true first, decide_eq_true bound]
      rfl
    · rw [if_neg fun both => first both.2, decide_eq_false first]
      by_cases bound : flag < nFlags
      · rw [refines.clear place inside free flag bound, Bool.and_false]
      · rw [decide_eq_false bound, Bool.false_and]
  constructor
  · refine (more.map _).trans ?_
    rw [List.map_cons, new, List.map_congr_left kept]
    exact refines.slots.cons _
  · exact List.nodup_cons.mpr ⟨fresh, refines.distinct⟩
  · intro slot member before less
    rw [handles]
    rcases List.mem_cons.mp ((used slot).mp member) with rfl | old
    · rw [other before (Nat.ne_of_lt less), here]
      exact differs before (earlier before less)
    · rw [other slot fun is => free (is ▸ old)]
      by_cases isPlace : before = place
      · rw [isPlace, here]
        exact (differs slot old).symm
      · rw [other before isPlace]
        exact refines.first slot old before less
  · intro slot below unused flag bound
    rw [used, List.mem_cons, not_or] at unused
    rw [bits _ _ below, if_neg fun both => unused.1 both.1]
    exact refines.clear slot below unused.2 flag bound
  · intro flagId
    rw [← same]
    exact refines.acquired flagId
  · exact refines.acquiredLe

/-! ### A step -/

/-- **A connection** is a link that is known from then on, with the role it came with. -/
theorem connected {connHandle : UInt16} (central : Bool)
    (fresh : connHandle ∉ (table.links.filter Link.connected).map Link.connHandle)
    (room : (table.links.filter Link.connected).length < nKeys) :
    ∃ after, state.recordPurgeDisconnected.recordActivate connHandle = some after ∧
      Refines (after.update centralFlags connHandle central) (table.connect connHandle central) := by
  obtain ⟨after, activated, refined⟩ := refines.recordPurgeDisconnected.recordActivate fresh room
  refine ⟨after, activated, ?_⟩
  have known : LinkTable.Knows ⟨Link.new connHandle false :: table.links.filter Link.connected,
      table.acquired⟩ connHandle := List.mem_cons_self ..
  have updated := @update _ _ refined centralFlags (by decide) (by decide) connHandle central (.inl known)
  have first : Link.set connHandle centralFlags central (.new connHandle false) =
      .new connHandle central := by
    unfold Link.set Link.new
    rw [if_pos rfl]
    refine congrArg (Link.mk _) (funext fun flag => ?_)
    by_cases isCentral : flag = centralFlags
    · subst isCentral
      rw [Function.update_self]
      cases central <;> rfl
    · rw [Function.update_of_ne isCentral]
      dsimp only
      rw [decide_eq_false isCentral, Bool.false_and, Bool.false_and]
  have others : ∀ link ∈ table.links.filter Link.connected,
      Link.set connHandle centralFlags central link = link := by
    intro link member
    exact if_neg fun same => fresh (List.mem_map.mpr ⟨link, member, same⟩)
  unfold LinkTable.set at updated
  rw [List.map_cons, first, List.map_congr_left others, List.map_id'] at updated
  exact updated

/-- An event of the stack, which is never one without a slot. -/
theorem onBleEvt {event : BleEvt} (legal : table.Legal (.bleEvt event)) :
    Refines (state.onBleEvt event).1 (table.onBleEvt event) ∧ (state.onBleEvt event).2 = false := by
  unfold ConnState.onBleEvt LinkTable.onBleEvt
  by_cases connects : event.evtId = gapEvtConnected
  · obtain ⟨fresh, room⟩ := legal.1 connects
    obtain ⟨after, activated, refined⟩ :=
      refines.connected (event.connectedRole = gapRoleCentral) fresh room
    rw [if_pos connects, if_pos connects]
    dsimp only
    rw [activated]
    exact ⟨refined, rfl⟩
  rw [if_neg connects, if_neg connects]
  by_cases ends : event.evtId = gapEvtDisconnected
  · rw [if_pos ends, if_pos ends]
    exact ⟨refines.update (by decide) (by decide) (.inr rfl), rfl⟩
  rw [if_neg ends, if_neg ends]
  by_cases secures : event.evtId = gapEvtConnSecUpdate
  · have known := legal.2 secures
    rw [if_pos secures, if_pos secures]
    have encrypted := @update _ _ refines encryptedFlags (by decide) (by decide) event.connHandle
      (secModeLv event > 1) (.inl known)
    refine ⟨encrypted.update (by decide) (by decide) (.inl ?_), rfl⟩
    unfold LinkTable.Knows
    rwa [table.set_handles]
  · rw [if_neg secures, if_neg secures]
    exact ⟨refines, rfl⟩

theorem userFlagIsAcquired (flagId : Nat) :
    state.userFlagIsAcquired flagId = decide (flagId < table.acquired) :=
  (mask_ne_zero ..).trans (refines.acquired flagId)

/-- **The user flags are handed out in order**, each once. -/
theorem userFlagAcquire : Refines state.userFlagAcquire.1
      { table with acquired := min (table.acquired + 1) nUserFlags } ∧
    state.userFlagAcquire.2 = if table.acquired < nUserFlags then some table.acquired else none := by
  have bound := refines.acquiredLe
  unfold ConnState.userFlagAcquire
  by_cases room : table.acquired < nUserFlags
  · have found : (List.range nUserFlags).find? (fun flagId => !state.userFlagIsAcquired flagId) =
        some table.acquired := by
      refine List.find?_range_eq_some.mpr ⟨?_, List.mem_range.mpr room, fun before less => ?_⟩
      · rw [refines.userFlagIsAcquired, decide_eq_false (Nat.lt_irrefl _)]
        rfl
      · rw [refines.userFlagIsAcquired, decide_eq_true less]
        rfl
    rw [found, if_pos room, Nat.min_eq_left room]
    refine ⟨⟨refines.slots, refines.distinct, refines.first, refines.clear, fun flagId => ?_, room⟩, rfl⟩
    have width : table.acquired < 32 := Nat.lt_trans room (by decide)
    rw [BitVec.getLsbD_or, refines.acquired, getLsbD_mask, decide_eq_true width, Bool.true_and,
      ← Bool.decide_or]
    exact decide_eq_decide.mpr (by dsimp only; omega)
  · have found : (List.range nUserFlags).find? (fun flagId => !state.userFlagIsAcquired flagId) = none := by
      refine List.find?_range_eq_none.mpr fun flagId inside => ?_
      rw [refines.userFlagIsAcquired, decide_eq_true (Nat.lt_of_lt_of_le inside (Nat.le_of_not_lt room))]
      rfl
    rw [found, if_neg room, Nat.min_eq_right (by omega), show nUserFlags = table.acquired by omega]
    exact ⟨refines, rfl⟩

/-- **What happens to the table happens to the links.** -/
theorem step {call : ConnCall} (legal : table.Legal call) :
    Refines (state.step call) (table.step call) := by
  cases call with
  | bleEvt event => exact (refines.onBleEvt legal).1
  | userFlagAcquire => exact refines.userFlagAcquire.1
  | userFlagSet connHandle flagId value =>
    show Refines (state.userFlagSet connHandle flagId value)
      (if flagId < table.acquired then table.set (userFlags flagId) connHandle value else table)
    unfold ConnState.userFlagSet
    rw [refines.userFlagIsAcquired]
    by_cases acquired : flagId < table.acquired
    · have bound := Nat.lt_of_lt_of_le acquired refines.acquiredLe
      rw [if_pos acquired, if_pos (decide_eq_true acquired)]
      exact refines.update (Nat.ne_of_gt (Nat.lt_add_right flagId (by decide : validFlags < nDefaultFlags)))
        (Nat.add_lt_add_left bound nDefaultFlags) (.inl legal)
    · rw [if_neg acquired, decide_eq_false acquired]
      exact refines

/-! ### What is asked -/

/-- The handles with a flag, and their number. -/
theorem listed {flags : BitVec 8} (has : Link → Bool)
    (used : ∀ slot ∈ state.usedSlots, getByIndex flags slot = has (state.linkAt slot))
    (unused : ∀ slot < nKeys, slot ∉ state.usedSlots → getByIndex flags slot = false) :
    (keyListGet state.validConnHandles flags).Perm ((table.links.filter has).map Link.connHandle) ∧
      nFlagsSet flags = table.links.countP has := by
  have slots : (List.range nKeys).filter (getByIndex flags) =
      state.usedSlots.filter (has ∘ state.linkAt) := by
    unfold ConnState.usedSlots
    rw [List.filter_filter]
    refine List.filter_congr fun slot member => ?_
    have inside := List.mem_range.mp member
    cases standing : state.bit validFlags slot with
    | false =>
      rw [Bool.and_false]
      refine unused slot inside fun isUsed => ?_
      exact Bool.false_ne_true (standing.symm.trans (ConnState.mem_usedSlots.mp isUsed).2)
    | true =>
      rw [Bool.and_true]
      exact used slot (ConnState.mem_usedSlots.mpr ⟨inside, standing⟩)
  have perm := refines.slots.filter has
  rw [List.filter_map] at perm
  constructor
  · unfold keyListGet
    rw [slots]
    have handles := perm.map Link.connHandle
    rwa [List.map_map] at handles
  · unfold nFlagsSet
    rw [List.countP_eq_length_filter, List.countP_eq_length_filter, slots, ← perm.length_eq,
      List.length_map]

theorem find_isSome (connHandle : UInt16) :
    table.flag validFlags connHandle = (table.find connHandle).isSome := by
  unfold LinkTable.flag
  cases found : table.find connHandle with
  | none => rfl
  | some link =>
    obtain ⟨slot, used, rfl⟩ := refines.slot_of_link (List.mem_of_find?_eq_some found)
    show (decide (validFlags < nFlags) && state.bit validFlags slot) = true
    rw [(ConnState.mem_usedSlots.mp used).2]
    rfl

end Refines

/-- **What is asked is answered from the links.** -/
structure ConnRight (state : ConnState) (table : LinkTable) : Prop where
  valid : ∀ connHandle, state.valid connHandle = (table.find connHandle).isSome
  role : ∀ connHandle, state.role connHandle =
    match table.find connHandle with
    | none => gapRoleInvalid
    | some link => if link.central then gapRoleCentral else gapRolePeriph
  status : ∀ connHandle, state.status connHandle =
    match table.find connHandle with
    | none => .invalid
    | some link => if link.connected then .connected else .disconnected
  encrypted : ∀ connHandle, state.encrypted connHandle = (table.find connHandle).any Link.encrypted
  mitmProtected : ∀ connHandle,
    state.mitmProtected connHandle = (table.find connHandle).any Link.mitmProtected
  user : ∀ connHandle flagId, state.userFlagGet connHandle flagId =
    (decide (flagId < table.acquired) && (table.find connHandle).any fun link => link.user flagId)
  handles : state.connHandles.Perm (table.links.map Link.connHandle)
  centrals : state.centralHandles.Perm
    ((table.links.filter fun link => link.central && link.connected).map Link.connHandle)
  periphs : state.periphHandles.Perm
    ((table.links.filter fun link => !link.central && link.connected).map Link.connHandle)
  nConnections : state.nConnections = table.links.countP Link.connected
  nCentrals : state.nCentrals = table.links.countP fun link => link.central && link.connected
  nPeripherals : state.nPeripherals = table.links.countP fun link => !link.central && link.connected

namespace Refines

variable {state : ConnState} {table : LinkTable} (refines : Refines state table)

include refines

theorem role_eq (connHandle : UInt16) : state.role connHandle =
    match table.find connHandle with
    | none => gapRoleInvalid
    | some link => if link.central then gapRoleCentral else gapRolePeriph := by
  unfold ConnState.role
  rw [refines.get_eq (by decide), refines.get_eq (by decide), refines.find_isSome]
  unfold LinkTable.flag
  cases table.find connHandle <;> rfl

theorem right : ConnRight state table := by
  have valid : ∀ slot < nKeys, slot ∉ state.usedSlots → state.bit validFlags slot = false :=
    fun slot inside unused => refines.clear slot inside unused validFlags (by decide)
  have connected : ∀ slot < nKeys, slot ∉ state.usedSlots → state.bit connectedFlags slot = false :=
    fun slot inside unused => refines.clear slot inside unused connectedFlags (by decide)
  have bit : ∀ slot, ∀ flag < nFlags, (state.linkAt slot).flags flag = state.bit flag slot := by
    intro slot flag bound
    show (decide (flag < nFlags) && _) = _
    rw [decide_eq_true bound, Bool.true_and]
  have all := refines.listed (fun _ => true)
    (fun slot used => (ConnState.mem_usedSlots.mp used).2) valid
  have up := refines.listed Link.connected
    (fun slot _ => (bit slot connectedFlags (by decide)).symm) connected
  have central : ∀ slot ∈ state.usedSlots,
      getByIndex (state.flagArray centralFlags &&& state.flagArray connectedFlags) slot =
        ((state.linkAt slot).central && (state.linkAt slot).connected) := by
    intro slot _
    rw [getByIndex_and]
    exact congrArg₂ and (bit slot centralFlags (by decide)).symm (bit slot connectedFlags (by decide)).symm
  have centrals := refines.listed (fun link => link.central && link.connected) central
    (fun slot inside unused => by
      rw [getByIndex_and]
      exact (congrArg (and _) (connected slot inside unused)).trans (Bool.and_false _))
  have periph : ∀ slot ∈ state.usedSlots,
      getByIndex (~~~ state.flagArray centralFlags &&& state.flagArray connectedFlags) slot =
        (!(state.linkAt slot).central && (state.linkAt slot).connected) := by
    intro slot used
    rw [getByIndex_and, getByIndex_not _ (ConnState.mem_usedSlots.mp used).1]
    exact congrArg₂ (fun central up => !central && up) (bit slot centralFlags (by decide)).symm
      (bit slot connectedFlags (by decide)).symm
  have periphs := refines.listed (fun link => !link.central && link.connected) periph
    (fun slot inside unused => by
      rw [getByIndex_and]
      exact (congrArg (and _) (connected slot inside unused)).trans (Bool.and_false _))
  refine ⟨?_, refines.role_eq, ?_, ?_, ?_, ?_, ?_, centrals.1, periphs.1, up.2, centrals.2, periphs.2⟩
  · intro connHandle
    exact (refines.get_eq (by decide) connHandle).trans (refines.find_isSome connHandle)
  · intro connHandle
    unfold ConnState.status
    rw [refines.get_eq (by decide), refines.get_eq (by decide), refines.find_isSome]
    unfold LinkTable.flag
    cases table.find connHandle <;> rfl
  · exact fun connHandle => refines.get_eq (by decide) connHandle
  · exact fun connHandle => refines.get_eq (by decide) connHandle
  · intro connHandle flagId
    unfold ConnState.userFlagGet
    rw [refines.userFlagIsAcquired]
    by_cases acquired : flagId < table.acquired
    · have bound := Nat.lt_of_lt_of_le acquired refines.acquiredLe
      rw [if_pos (decide_eq_true acquired), decide_eq_true acquired, Bool.true_and]
      exact refines.get_eq (Nat.add_lt_add_left bound nDefaultFlags) connHandle
    · rw [decide_eq_false acquired]
      rfl
  · have handles := all.1
    rwa [List.filter_true] at handles

end Refines

theorem reset_refines : Refines .reset .initial := by
  have clear : ∀ slot, slot ∉ ConnState.reset.usedSlots := by
    intro slot used
    have standing := (ConnState.mem_usedSlots.mp used).2
    rw [ConnState.bit, getByIndex_eq] at standing
    exact Bool.false_ne_true ((BitVec.getLsbD_zero).symm.trans standing)
  have none : ConnState.reset.usedSlots = [] := List.eq_nil_iff_forall_not_mem.mpr clear
  constructor
  · rw [none]
    exact .nil
  · exact List.nodup_nil
  · exact fun slot used => absurd used (clear slot)
  · intro slot _ _ flag _
    rw [ConnState.bit, getByIndex_eq]
    exact BitVec.getLsbD_zero
  · intro flagId
    exact BitVec.getLsbD_zero
  · exact Nat.zero_le _

/-- The table and the links after a run. -/
theorem run_refines {calls : List ConnCall}
    (legal : EachStep LinkTable.step LinkTable.Legal .initial calls) :
    Refines (run ConnState.step .reset calls) (run LinkTable.step .initial calls) :=
  run_simulates (fun _ _ _ refines legal => refines.step legal) reset_refines legal

/-- **Over every legal run the table knows the links**: which handles are known, the role and the
state of each link, whether it is encrypted, its user flags, and the lists and the numbers of the
links, whatever links have come and gone before. -/
theorem conn_state_right {calls : List ConnCall}
    (legal : EachStep LinkTable.step LinkTable.Legal .initial calls) :
    ConnRight (run ConnState.step .reset calls) (run LinkTable.step .initial calls) :=
  (run_refines legal).right

/-- An event of a handle, with a byte of its parameters for the role or the security. -/
def linkEvent (evtId connHandle : UInt16) (byte : UInt8) : BleEvt where
  evtId := evtId
  evt position :=
    if position = 0 then connHandle.toUInt8 else if position = 1 then (connHandle >>> 8).toUInt8 else byte

/-- A link ends, and its handle is given to one in the other role: it is neither encrypted nor
flagged. -/
theorem conn_state_right_again :
    let calls : List ConnCall := [.bleEvt (linkEvent gapEvtConnected 3 gapRoleCentral), .userFlagAcquire,
      .userFlagSet 3 0 true, .bleEvt (linkEvent gapEvtConnSecUpdate 3 0x21),
      .bleEvt (linkEvent gapEvtConnected 0 gapRolePeriph), .bleEvt (linkEvent gapEvtDisconnected 3 0x13),
      .bleEvt (linkEvent gapEvtConnected 3 gapRolePeriph)]
    ConnRight (run ConnState.step .reset calls) (run LinkTable.step .initial calls) :=
  conn_state_right (by decide +kernel)

end PrimoCore.Ble
