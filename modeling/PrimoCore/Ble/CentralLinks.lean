/-
**The slots of the central role.**

A link that comes up goes into the first free slot below `_allowedPeripherals`, and into the slot behind
them when none is free; a link that ends frees the slot the same loop finds. The stack may have seven
links up, however many the program allows.

* `LinkState` — the role, and the links of the stack.
* `step_links`, `step_tables` — what an input leaves alone that is no connection and no disconnection,
  and no discovery.
* `LinksRight`, `Spares` — **what the slots are to satisfy**, in a state and in a step.
* `Tracks` — the invariant: the slots hold exactly the links that are up.
* `links_right_iff` — **over every run**, the slots are right exactly when every connection finds fewer
  links up than are allowed.
* `slot_writes_inside` — the arrays are written inside their bounds in every run.
* `SlotsOwned` — the invariant of the slots also when more links come up than are allowed: a link keeps its
  slot as long as it is up.
-/

import PrimoCore.Ble.Central
import PrimoCore.Lib.Run

namespace PrimoCore.Ble

open PrimoCore.Lib

/-- The central role, and the links that are up. -/
structure LinkState where
  central : CentralRole
  live : List UInt16

/-! ### What a step does to the slots -/

/-- The slots and what belongs to them are the same. -/
structure SameLinks (before after : CentralRole) : Prop where
  connectionHandle : after.connectionHandle = before.connectionHandle
  node : after.node = before.node
  allowedPeripherals : after.allowedPeripherals = before.allowedPeripherals
  peripheralConnected : after.peripheralConnected = before.peripheralConnected

/-- So are the tables of what has been discovered. -/
structure SameTables (before after : CentralRole) : Prop extends SameLinks before after where
  remoteServiceInfo : after.remoteServiceInfo = before.remoteServiceInfo
  remoteServiceDiscoveryIndex :
    after.remoteServiceDiscoveryIndex = before.remoteServiceDiscoveryIndex
  remoteCharacteristicInfo : after.remoteCharacteristicInfo = before.remoteCharacteristicInfo

theorem SameTables.refl (central : CentralRole) : SameTables central central :=
  ⟨⟨rfl, rfl, rfl, rfl⟩, rfl, rfl, rfl⟩

/-- The input is a connection or a disconnection. -/
def CentralInput.isLinkEvent : CentralInput → Bool
  | .event ⟨_, .connected _ _⟩ | .event ⟨_, .disconnected _⟩ => true
  | _ => false

/-- The input is a response of the discovery. -/
def CentralInput.isDiscovery : CentralInput → Bool
  | .event ⟨_, .primSrvcDiscRsp _ _ _⟩ | .event ⟨_, .charDiscRsp _ _⟩ => true
  | _ => false

/-- The input is a connection. -/
def CentralInput.connects : CentralInput → Bool
  | .event ⟨_, .connected _ _⟩ => true
  | _ => false

theorem linksAfter_of_noLinkEvent {input : CentralInput} (other : input.isLinkEvent = false)
    (live : List UInt16) : input.linksAfter live = live := by
  cases input with
  | event event =>
    obtain ⟨connHandle, params⟩ := event
    cases params <;> first | rfl | cases other
  | _ => rfl

theorem request_tables (central : CentralRole) (characteristic : Nat)
    (allowed : CentralCharacteristicInfo → Bool)
    (call : CentralCharacteristicInfo → UInt16 → StackCall) (codes : Nat → UInt32) :
    SameTables central (central.request characteristic allowed call codes).1 := by
  obtain ⟨_, after⟩ := central.request_changes characteristic allowed call codes
  rw [after]
  exact ⟨⟨rfl, rfl, rfl, rfl⟩, rfl, rfl, rfl⟩

/-- **An input that is no link event and no discovery leaves the slots and the tables alone.** -/
theorem step_tables (central : CentralRole) {input : CentralInput}
    (noLink : input.isLinkEvent = false) (noDiscovery : input.isDiscovery = false) :
    SameTables central (central.step input).1 := by
  cases input with
  | event event =>
    obtain ⟨connHandle, params⟩ := event
    cases params with
    | advReport report => exact ⟨⟨rfl, rfl, rfl, rfl⟩, rfl, rfl, rfl⟩
    | txComplete count => exact ⟨⟨rfl, rfl, rfl, rfl⟩, rfl, rfl, rfl⟩
    | connected peerAddr txPacketCount => cases noLink
    | disconnected reason => cases noLink
    | gattsWrite handle data =>
      obtain ⟨_, _, _, after⟩ := central.writeLocal_changes
        (central.nodeAt (central.slot connHandle)) handle data [] central.localCharacteristicInfo
      simp only [CentralRole.step, CentralRole.poll, after]
      exact ⟨⟨rfl, rfl, rfl, rfl⟩, rfl, rfl, rfl⟩
    | sysAttrMissing => exact .refl central
    | primSrvcDiscRsp gattStatus services last => cases noDiscovery
    | charDiscRsp gattStatus chars => cases noDiscovery
    | readRsp gattStatus handle data =>
      obtain ⟨_, after⟩ := central.onReadRsp_changes connHandle gattStatus handle data
      simp only [CentralRole.step, CentralRole.poll, after]
      exact ⟨⟨rfl, rfl, rfl, rfl⟩, rfl, rfl, rfl⟩
    | writeRsp gattStatus =>
      simp only [CentralRole.step, CentralRole.poll, CentralRole.onWriteRsp_changes]
      exact ⟨⟨rfl, rfl, rfl, rfl⟩, rfl, rfl, rfl⟩
    | hvx type handle data =>
      obtain ⟨_, after⟩ := central.onHvx_changes connHandle type handle data
      simp only [CentralRole.step, CentralRole.poll, after]
      exact ⟨⟨rfl, rfl, rfl, rfl⟩, rfl, rfl, rfl⟩
  | updateCharacteristicValue characteristic codes =>
    obtain ⟨_, after⟩ := central.updateEntries_changes characteristic central.localCharacteristicInfo
    simp only [CentralRole.step, CentralRole.updateCharacteristicValue, after]
    exact ⟨⟨rfl, rfl, rfl, rfl⟩, rfl, rfl, rfl⟩
  | readRemoteCharacteristic characteristic codes => exact request_tables central _ _ _ _
  | writeRemoteCharacteristic characteristic value codes => exact request_tables central _ _ _ _
  | subscribeRemoteCharacteristic characteristic codes => exact request_tables central _ _ _ _
  | unsubcribeRemoteCharacteristic characteristic codes => exact request_tables central _ _ _ _

/-- **An input that is no link event leaves the slots alone.** -/
theorem step_links (central : CentralRole) {input : CentralInput}
    (noLink : input.isLinkEvent = false) : SameLinks central (central.step input).1 := by
  cases discovery : input.isDiscovery with
  | false => exact (step_tables central noLink discovery).toSameLinks
  | true =>
    match input, discovery with
    | .event ⟨connHandle, .primSrvcDiscRsp gattStatus services last⟩, _ =>
      obtain ⟨_, _, after⟩ := central.onServices_changes connHandle gattStatus services last
      simp only [CentralRole.step, CentralRole.poll, after]
      exact ⟨rfl, rfl, rfl, rfl⟩
    | .event ⟨connHandle, .charDiscRsp gattStatus chars⟩, _ =>
      obtain ⟨_, _, after⟩ := central.onChars_changes connHandle gattStatus chars
      simp only [CentralRole.step, CentralRole.poll, after]
      exact ⟨rfl, rfl, rfl, rfl⟩

/-! ### What the slots are to satisfy -/

namespace LinkState

/-- The role as it is constructed, and `allowMultilink` called. -/
def initial (central : CentralRole) (linksNo : UInt8) : LinkState where
  central := CentralRole.allowMultilink
    { central with
      connectionHandle := ⟨fun slot => if slot < maxPeripheral.toNat then connHandleInvalid
        else central.connectionHandle.bytes slot, []⟩
      node := ⟨central.node.bytes, []⟩
      peripheralConnected := 0 } linksNo
  live := []

def step (state : LinkState) (input : CentralInput) : LinkState where
  central := (state.central.step input).1
  live := input.linksAfter state.live

/-- What the stack does. -/
def Legal (state : LinkState) (input : CentralInput) : Prop := input.linkExpected state.live

/-- The number of links `allowMultilink` allows. -/
def allowed (state : LinkState) : Nat := state.central.allowedPeripherals.toNat

/-- A connection overwrites the slot of no link. -/
def Spares (state : LinkState) (input : CentralInput) : Prop :=
  input.connects → ∀ handle ∈ state.live, ∀ slot < maxPeripheral.toNat,
    state.central.handleAt slot = handle → (state.step input).central.handleAt slot = handle

/-- A connection finds fewer links up than are allowed. -/
def HasRoom (state : LinkState) (input : CentralInput) : Prop :=
  input.connects → state.live.length < state.allowed

instance (state : LinkState) (input : CentralInput) : Decidable (state.Legal input) :=
  inferInstanceAs (Decidable (_ = true))

instance (state : LinkState) (input : CentralInput) : Decidable (state.HasRoom input) :=
  inferInstanceAs (Decidable (_ → _))

end LinkState

/-- **What the slots are to satisfy.** The two arrays are written inside their bounds; a link that is in
a slot is in one only, among the allowed; the counter counts the slots in use; `connected` says whether
some link is up. -/
structure LinksRight (state : LinkState) : Prop where
  handlesInside : state.central.connectionHandle.WritesBelow maxPeripheral.toNat
  nodesInside : state.central.node.WritesBelow maxPeripheral.toNat
  placed : ∀ handle ∈ state.live, ∀ slot < maxPeripheral.toNat,
    state.central.handleAt slot = handle → slot < state.allowed ∧
      ∀ other < maxPeripheral.toNat, state.central.handleAt other = handle → other = slot
  counted : state.central.peripheralConnected.toNat =
    (occupied state.central.connectionHandle.bytes connHandleInvalid maxPeripheral.toNat).length
  connected : state.central.connected = true ↔ state.live ≠ []

/-- **The invariant**: the allowed slots hold exactly the links that are up, the others are free. -/
structure Tracks (state : LinkState) : Prop where
  holds : Holds state.central.connectionHandle.bytes connHandleInvalid state.allowed state.live
  few : state.allowed ≤ maxPeripheral.toNat
  free : ∀ slot, state.allowed ≤ slot → slot < maxPeripheral.toNat →
    state.central.handleAt slot = connHandleInvalid
  counted : state.central.peripheralConnected.toNat = state.live.length
  handlesInside : state.central.connectionHandle.WritesBelow maxPeripheral.toNat
  nodesInside : state.central.node.WritesBelow maxPeripheral.toNat

theorem allowed_le (linksNo : UInt8) (central : CentralRole) :
    (central.allowMultilink linksNo).allowedPeripherals.toNat ≤ maxPeripheral.toNat := by
  simp only [CentralRole.allowMultilink]
  split_ifs with many
  · exact Nat.le_refl _
  · exact UInt8.le_iff_toNat_le.mp (UInt8.not_lt.mp many)

theorem initial_tracks (central : CentralRole) (linksNo : UInt8) :
    Tracks (.initial central linksNo) := by
  have few := allowed_le linksNo { central with
    connectionHandle := ⟨fun slot => if slot < maxPeripheral.toNat then connHandleInvalid
      else central.connectionHandle.bytes slot, []⟩
    node := ⟨central.node.bytes, []⟩
    peripheralConnected := 0 }
  have clear : ∀ slot < maxPeripheral.toNat,
      (LinkState.initial central linksNo).central.connectionHandle.bytes slot = connHandleInvalid :=
    fun slot inside => if_pos inside
  exact {
    holds := holds_nil fun slot inside => clear slot (Nat.lt_of_lt_of_le inside few)
    few := few
    free := fun slot _ inside => clear slot inside
    counted := rfl
    handlesInside := fun _ member => absurd member List.not_mem_nil
    nodesInside := fun _ member => absurd member List.not_mem_nil }

/-- Where the slots hold exactly the links, they are right. -/
theorem Tracks.right {state : LinkState} (tracks : Tracks state) : LinksRight state where
  handlesInside := tracks.handlesInside
  nodesInside := tracks.nodesInside
  placed := by
    intro handle member slot inside here
    have wide := tracks.holds.widen tracks.few tracks.free
    have notFree : state.central.handleAt slot ≠ connHandleInvalid := by
      rw [here]
      exact tracks.holds.ne_empty member
    refine ⟨Nat.lt_of_not_le fun behind => notFree (tracks.free slot behind inside), ?_⟩
    intro other otherInside there
    exact (wide.once slot inside other otherInside notFree (here.trans there.symm)).symm
  counted := by
    rw [tracks.counted, (tracks.holds.widen tracks.few tracks.free).occupied_length]
  connected := by
    simp only [CentralRole.connected, List.any_eq_true, List.mem_range, decide_eq_true_eq]
    constructor
    · rintro ⟨slot, inside, used⟩
      exact List.ne_nil_of_mem (tracks.holds.owned slot inside used)
    · intro some
      obtain ⟨handle, member⟩ := List.exists_mem_of_ne_nil _ some
      obtain ⟨slot, inside, here⟩ := tracks.holds.placed handle member
      refine ⟨slot, inside, ?_⟩
      rw [show state.central.handleAt slot = handle from here]
      exact tracks.holds.ne_empty member

/-! ### Runs -/

theorem set_bytes {α : Type*} (buffer : Buffer α) (index : Nat) (value : α) :
    (buffer.set index value).bytes = Function.update buffer.bytes index value := by
  funext position
  simp [Function.update_apply]

theorem legal_connected {state : LinkState} {connHandle : UInt16} {peerAddr : Vector UInt8 6}
    {txPacketCount : UInt8}
    (legal : state.Legal (.event ⟨connHandle, .connected peerAddr txPacketCount⟩)) :
    connHandle ∉ state.live ∧ connHandle ≠ connHandleInvalid ∧
      state.live.length < centralLinkCount := by
  simpa [LinkState.Legal, CentralInput.linkExpected, and_assoc] using legal

theorem legal_disconnected {state : LinkState} {connHandle : UInt16} {reason : UInt8}
    (legal : state.Legal (.event ⟨connHandle, .disconnected reason⟩)) : connHandle ∈ state.live := by
  simpa [LinkState.Legal, CentralInput.linkExpected] using legal

theorem hasRoom_of_noLinkEvent {input : CentralInput} (other : input.isLinkEvent = false)
    (state : LinkState) : state.HasRoom input := by
  intro connects
  match input, connects with
  | .event ⟨_, .connected _ _⟩, _ => cases other

section Step

variable {state : LinkState} (tracks : Tracks state)

include tracks

/-- A connection that finds room is tracked. -/
theorem connected_tracks {connHandle : UInt16} {peerAddr : Vector UInt8 6} {txPacketCount : UInt8}
    (legal : state.Legal (.event ⟨connHandle, .connected peerAddr txPacketCount⟩))
    (room : state.live.length < state.allowed) :
    Tracks (state.step (.event ⟨connHandle, .connected peerAddr txPacketCount⟩)) := by
  have found := tracks.holds.find_empty_lt_iff.mpr room
  have inside : state.central.slot connHandleInvalid < maxPeripheral.toNat :=
    Nat.lt_of_lt_of_le found tracks.few
  obtain ⟨fresh, valid, few⟩ := legal_connected legal
  exact {
    holds := by
      have inserted := tracks.holds.insert found fresh valid
      rw [← set_bytes] at inserted
      exact inserted
    few := tracks.few
    free := by
      intro slot behind below
      have elsewhere : slot ≠ state.central.slot connHandleInvalid := by
        intro same
        rw [same] at behind
        exact Nat.not_lt_of_le behind found
      show (state.central.connectionHandle.set _ connHandle).bytes slot = _
      rw [set_bytes, Function.update_of_ne elsewhere]
      exact tracks.free slot behind below
    counted := by
      show (state.central.peripheralConnected + 1).toNat = state.live.length + 1
      rw [UInt8.toNat_add, tracks.counted, UInt8.toNat_one]
      simp only [centralLinkCount] at few
      omega
    handlesInside := tracks.handlesInside.set inside _
    nodesInside := tracks.nodesInside.set inside _ }

/-- A connection that finds no room goes behind the allowed slots. -/
theorem connected_misplaced {connHandle : UInt16} {peerAddr : Vector UInt8 6} {txPacketCount : UInt8}
    (legal : state.Legal (.event ⟨connHandle, .connected peerAddr txPacketCount⟩))
    (full : ¬ state.live.length < state.allowed) :
    ¬ LinksRight (state.step (.event ⟨connHandle, .connected peerAddr txPacketCount⟩)) := by
  intro right
  have atMost := tracks.holds.length_le
  have behind : state.central.slot connHandleInvalid = state.allowed :=
    tracks.holds.full_iff.mpr (by omega)
  have few := (legal_connected legal).2.2
  have inside : state.allowed < maxPeripheral.toNat := by
    have same : maxPeripheral.toNat = centralLinkCount := rfl
    omega
  have here : (state.step (.event ⟨connHandle, .connected peerAddr txPacketCount⟩)).central.handleAt
      state.allowed = connHandle := by
    show (state.central.connectionHandle.set (state.central.slot connHandleInvalid) connHandle).bytes
      state.allowed = connHandle
    rw [set_bytes, behind, Function.update_self]
  have placed := right.placed connHandle (List.mem_cons_self ..) state.allowed inside here
  exact Nat.lt_irrefl _ placed.1

/-- A disconnection frees the slot of its link. -/
theorem disconnected_tracks {connHandle : UInt16} {reason : UInt8}
    (legal : state.Legal (.event ⟨connHandle, .disconnected reason⟩)) :
    Tracks (state.step (.event ⟨connHandle, .disconnected reason⟩)) := by
  have member := legal_disconnected legal
  have found := tracks.holds.find_lt member
  exact {
    holds := by
      have removed := tracks.holds.remove member
      rw [← set_bytes] at removed
      exact removed
    few := tracks.few
    free := by
      intro slot behind below
      show (state.central.connectionHandle.set _ connHandleInvalid).bytes slot = _
      rw [set_bytes]
      by_cases here : slot = state.central.slot connHandle
      · rw [here, Function.update_self]
      · rw [Function.update_of_ne here]
        exact tracks.free slot behind below
    counted := by
      show (state.central.peripheralConnected - 1).toNat =
        (state.live.filter (· ≠ connHandle)).length
      have positive : 1 ≤ state.central.peripheralConnected.toNat := by
        rw [tracks.counted]
        exact List.length_pos_of_mem member
      have erased : state.live.filter (· ≠ connHandle) = state.live.erase connHandle := by
        rw [tracks.holds.nodup.erase_eq_filter]
        congr 1
        funext handle
        rw [Bool.eq_iff_iff]
        simp
      have shrunk := UInt8.toNat_sub_of_le state.central.peripheralConnected 1
        (UInt8.le_iff_toNat_le.mpr positive)
      rw [shrunk, tracks.counted, erased, List.length_erase_of_mem member]
      rfl
    handlesInside := tracks.handlesInside.set (Nat.lt_of_lt_of_le found tracks.few) _
    nodesInside := tracks.nodesInside }

/-- **The step lemma.** A legal step that finds room keeps the invariant. -/
theorem step_tracks {input : CentralInput} (legal : state.Legal input) (room : state.HasRoom input) :
    Tracks (state.step input) := by
  cases other : input.isLinkEvent with
  | false =>
    have same := step_links state.central other
    have live : (state.step input).live = state.live := linksAfter_of_noLinkEvent other state.live
    have allowed : (state.step input).allowed = state.allowed :=
      congrArg UInt8.toNat same.allowedPeripherals
    exact {
      holds := by rw [allowed, live]; exact same.connectionHandle ▸ tracks.holds
      few := by rw [allowed]; exact tracks.few
      free := by
        rw [allowed]
        intro slot behind below
        show (state.central.step input).1.connectionHandle.bytes slot = _
        rw [same.connectionHandle]
        exact tracks.free slot behind below
      counted := by
        rw [live, ← tracks.counted]
        exact congrArg UInt8.toNat same.peripheralConnected
      handlesInside := by
        show (state.central.step input).1.connectionHandle.WritesBelow _
        rw [same.connectionHandle]
        exact tracks.handlesInside
      nodesInside := by
        show (state.central.step input).1.node.WritesBelow _
        rw [same.node]
        exact tracks.nodesInside }
  | true =>
    match input, other with
    | .event ⟨_, .connected _ _⟩, _ => exact connected_tracks tracks legal (room rfl)
    | .event ⟨_, .disconnected _⟩, _ => exact disconnected_tracks tracks legal

/-- A connection that finds room overwrites no link. -/
theorem spares_of_room {input : CentralInput} (room : state.HasRoom input) : state.Spares input := by
  intro connects handle member slot _ here
  have found := findSlot_holds (tracks.holds.find_empty_lt_iff.mpr (room connects))
  have elsewhere : slot ≠ state.central.slot connHandleInvalid := by
    intro same
    have empty : state.central.handleAt slot = connHandleInvalid := by
      rw [same]
      exact found
    exact tracks.holds.ne_empty member (here.symm.trans empty)
  match input, connects with
  | .event ⟨connHandle, .connected _ _⟩, _ =>
    show (state.central.connectionHandle.set _ connHandle).bytes slot = handle
    rw [set_bytes, Function.update_of_ne elsewhere]
    exact here

/-- **A step leaves the slots right exactly when it finds room.** -/
theorem right_and_spares_iff {input : CentralInput} (legal : state.Legal input) :
    LinksRight (state.step input) ∧ state.Spares input ↔ state.HasRoom input := by
  constructor
  · rintro ⟨right, _⟩
    cases other : input.isLinkEvent with
    | false => exact hasRoom_of_noLinkEvent other state
    | true =>
      match input, other with
      | .event ⟨_, .connected _ _⟩, _ =>
        intro _
        by_contra full
        exact connected_misplaced tracks legal full right
      | .event ⟨_, .disconnected _⟩, _ => exact fun connects => by cases connects
  · exact fun room => ⟨(step_tracks tracks legal room).right, spares_of_room tracks room⟩

end Step

/-- **In every run, the slots are right in every state and every connection spares the links exactly
when every connection finds fewer links up than are allowed.** -/
theorem links_right_iff (central : CentralRole) (linksNo : UInt8) (inputs : List CentralInput)
    (legal : EachStep LinkState.step LinkState.Legal (.initial central linksNo) inputs) :
    Always LinkState.step LinksRight (.initial central linksNo) inputs ∧
        EachStep LinkState.step LinkState.Spares (.initial central linksNo) inputs ↔
      EachStep LinkState.step LinkState.HasRoom (.initial central linksNo) inputs := by
  have base := initial_tracks central linksNo
  apply always_and_iff_of_invariant _ _ base.right base legal
  · intro state input tracks expected good
    exact step_tracks tracks expected ((right_and_spares_iff tracks expected).mp good)
  · intro state input tracks expected
    exact right_and_spares_iff tracks expected

/-- A node that has not been seen. -/
def unseenNode : BLENode where
  address := .replicate 6 0
  advPck := .replicate 31 0
  dlen := ⟨0, by decide⟩
  type := ⟨0, by decide⟩
  sRsp := false
  rssi := 0
  advReport := ⟨.replicate 6 0, 0, false, ⟨0, by decide⟩, ⟨0, by decide⟩, .replicate 31 0⟩

/-- A central role with nothing registered. -/
def emptyCentral : CentralRole where
  connectionHandle := ⟨fun _ => connHandleInvalid, []⟩
  node := ⟨fun _ => unseenNode, []⟩
  tempNode := unseenNode
  allowedPeripherals := 1
  peripheralConnected := 0
  txBufferCount := 0
  minimumConnectionInterval := 0
  maximumConnectionInterval := 0
  bond := false
  bonded := false
  localCharacteristicInfo := []
  subscribed := fun _ => false
  remoteServiceInfo := []
  remoteServiceDiscoveryIndex := 0
  remoteCharacteristicInfo := []
  remoteValue := fun _ => ⟨[], false⟩
  remoteRequestInProgress := false

/-- A connection on a handle. -/
def connection (connHandle : UInt16) : CentralInput :=
  .event ⟨connHandle, .connected (.replicate 6 1) 6⟩

/-- Two links are allowed, two come up, and the first one ends. -/
theorem links_right_iff_two :
    Always LinkState.step LinksRight (.initial emptyCentral 2)
        [connection 0, connection 1, .event ⟨0, .disconnected 0x13⟩] ∧
      EachStep LinkState.step LinkState.Spares (.initial emptyCentral 2)
        [connection 0, connection 1, .event ⟨0, .disconnected 0x13⟩] :=
  (links_right_iff emptyCentral 2 [connection 0, connection 1, .event ⟨0, .disconnected 0x13⟩]
    (by decide)).mpr (by decide)

/-- **One link is allowed and two come up**: the second one is put behind the allowed slot. -/
theorem second_link_misplaced :
    ¬ ∀ (central : CentralRole) (linksNo : UInt8) (inputs : List CentralInput),
      EachStep LinkState.step LinkState.Legal (.initial central linksNo) inputs →
      Always LinkState.step LinksRight (.initial central linksNo) inputs ∧
        EachStep LinkState.step LinkState.Spares (.initial central linksNo) inputs := by
  intro always
  obtain ⟨right, _⟩ := always emptyCentral 1 [connection 0, connection 1] (by decide)
  have placed := right.last.placed 1 (by decide) 1 (by decide) rfl
  exact absurd placed.1 (by decide)

/-! ### Writes to the slots -/

/-- The writes to the slots are inside; where as many links are allowed as the stack has, the slots
track them. -/
structure WritesInside (state : LinkState) : Prop where
  few : state.allowed ≤ maxPeripheral.toNat
  handles : state.central.connectionHandle.WritesBelow maxPeripheral.toNat
  nodes : state.central.node.WritesBelow maxPeripheral.toNat
  tracks : state.allowed = maxPeripheral.toNat → Tracks state

theorem step_writesInside {state : LinkState} {input : CentralInput} (inside : WritesInside state)
    (legal : state.Legal input) : WritesInside (state.step input) := by
  by_cases all : state.allowed = maxPeripheral.toNat
  · -- Every connection finds room, since the stack has no more links than are allowed.
    have room : state.HasRoom input := by
      cases other : input.isLinkEvent with
      | false => exact hasRoom_of_noLinkEvent other state
      | true =>
        match input, other with
        | .event ⟨_, .connected _ _⟩, _ =>
          intro _
          rw [all]
          exact (legal_connected legal).2.2
        | .event ⟨_, .disconnected _⟩, _ => exact fun connects => by cases connects
    have next := step_tracks (inside.tracks all) legal room
    exact ⟨next.few, next.handlesInside, next.nodesInside, fun _ => next⟩
  · -- The slot behind the allowed ones is a slot.
    have fewer : state.allowed < maxPeripheral.toNat := Nat.lt_of_le_of_ne inside.few all
    have slotInside : ∀ handle, state.central.slot handle < maxPeripheral.toNat := fun handle =>
      Nat.lt_of_le_of_lt findSlot_le fewer
    cases other : input.isLinkEvent with
    | false =>
      have same := step_links state.central other
      have allowed : (state.step input).allowed = state.allowed :=
        congrArg UInt8.toNat same.allowedPeripherals
      refine ⟨by rw [allowed]; exact inside.few, ?_, ?_, fun now => absurd (allowed ▸ now) all⟩
      · show (state.central.step input).1.connectionHandle.WritesBelow _
        rw [same.connectionHandle]
        exact inside.handles
      · show (state.central.step input).1.node.WritesBelow _
        rw [same.node]
        exact inside.nodes
    | true =>
      match input, other with
      | .event ⟨_, .connected _ _⟩, _ =>
        exact ⟨inside.few, inside.handles.set (slotInside _) _, inside.nodes.set (slotInside _) _,
          fun now => absurd now all⟩
      | .event ⟨_, .disconnected _⟩, _ =>
        exact ⟨inside.few, inside.handles.set (slotInside _) _, inside.nodes,
          fun now => absurd now all⟩

/-- **In every run, the two arrays are written inside their bounds only**, however many connections
find no room. -/
theorem slot_writes_inside (central : CentralRole) (linksNo : UInt8) (inputs : List CentralInput)
    (legal : EachStep LinkState.step LinkState.Legal (.initial central linksNo) inputs) :
    Always LinkState.step WritesInside (.initial central linksNo) inputs := by
  have base := initial_tracks central linksNo
  exact always_of_eachStep (fun _ _ inside expected => step_writesInside inside expected)
    ⟨base.few, base.handlesInside, base.nodesInside, fun _ => base⟩ legal

/-! ### Slots in runs where more links come up than are allowed -/

/-- **The invariant of the slots**: a slot in use has a link that is up, and no two have the same. -/
structure SlotsOwned (state : LinkState) : Prop where
  proper : connHandleInvalid ∉ state.live
  owned : ∀ slot < state.allowed, state.central.handleAt slot ≠ connHandleInvalid →
    state.central.handleAt slot ∈ state.live
  once : ∀ slot < state.allowed, ∀ other < state.allowed,
    state.central.handleAt slot ≠ connHandleInvalid →
      state.central.handleAt slot = state.central.handleAt other → slot = other

section Slots

variable {state : LinkState} (slots : SlotsOwned state)

include slots

theorem SlotsOwned.ne_invalid {connHandle : UInt16} (up : connHandle ∈ state.live) :
    connHandle ≠ connHandleInvalid :=
  fun same => slots.proper (same ▸ up)

/-- No slot has the handle of a link that is not up. -/
theorem SlotsOwned.absent {connHandle : UInt16} (fresh : connHandle ∉ state.live)
    (valid : connHandle ≠ connHandleInvalid) :
    ∀ slot < state.allowed, state.central.handleAt slot ≠ connHandle := by
  intro slot inside here
  have owned := slots.owned slot inside (by rw [here]; exact valid)
  rw [here] at owned
  exact fresh owned

/-- A link that comes up is found where the search for a free slot ended. -/
theorem SlotsOwned.slot_new {connHandle : UInt16} {peerAddr : Vector UInt8 6} {count : UInt8}
    (legal : state.Legal (.event ⟨connHandle, .connected peerAddr count⟩)) :
    (state.step (.event ⟨connHandle, .connected peerAddr count⟩)).central.slot connHandle =
      state.central.slot connHandleInvalid := by
  obtain ⟨fresh, valid, -⟩ := legal_connected legal
  show findSlot (state.central.connectionHandle.set (state.central.slot connHandleInvalid)
    connHandle).bytes connHandle state.allowed = _
  rw [set_bytes]
  by_cases free : state.central.slot connHandleInvalid < state.allowed
  · refine findSlot_eq free (Function.update_self ..) fun before first here => ?_
    rw [Function.update_of_ne (Nat.ne_of_lt first)] at here
    exact slots.absent fresh valid before (Nat.lt_trans first free) here
  · have none_free : state.central.slot connHandleInvalid = state.allowed :=
      Nat.le_antisymm findSlot_le (Nat.le_of_not_lt free)
    rw [none_free]
    refine findSlot_eq_size fun slot inside here => ?_
    rw [Function.update_of_ne (Nat.ne_of_lt inside)] at here
    exact slots.absent fresh valid slot inside here

/-- The other links stay where they are found. -/
theorem SlotsOwned.slot_old {connHandle : UInt16} {peerAddr : Vector UInt8 6} {count : UInt8}
    (legal : state.Legal (.event ⟨connHandle, .connected peerAddr count⟩)) {other : UInt16}
    (up : other ∈ state.live) :
    (state.step (.event ⟨connHandle, .connected peerAddr count⟩)).central.slot other =
      state.central.slot other := by
  obtain ⟨fresh, -, -⟩ := legal_connected legal
  show findSlot (state.central.connectionHandle.set (state.central.slot connHandleInvalid)
    connHandle).bytes other state.allowed = _
  rw [set_bytes]
  refine findSlot_congr fun slot inside => ?_
  by_cases here : slot = state.central.slot connHandleInvalid
  · subst here
    rw [Function.update_self]
    have free : state.central.connectionHandle.bytes (state.central.slot connHandleInvalid) =
        connHandleInvalid := findSlot_holds inside
    rw [free]
    exact iff_of_false (fun same => fresh (same ▸ up)) (Ne.symm (slots.ne_invalid up))
  · rw [Function.update_of_ne here]

/-- A link that ends leaves the others where they are found. -/
theorem SlotsOwned.slot_left {connHandle : UInt16} {reason : UInt8} {other : UInt16}
    (up : other ∈ state.live) (different : other ≠ connHandle) :
    (state.step (.event ⟨connHandle, .disconnected reason⟩)).central.slot other =
      state.central.slot other := by
  show findSlot (state.central.connectionHandle.set (state.central.slot connHandle)
    connHandleInvalid).bytes other state.allowed = _
  rw [set_bytes]
  refine findSlot_congr fun slot inside => ?_
  by_cases here : slot = state.central.slot connHandle
  · subst here
    rw [Function.update_self]
    have held : state.central.connectionHandle.bytes (state.central.slot connHandle) = connHandle :=
      findSlot_holds inside
    rw [held]
    exact iff_of_false (Ne.symm (slots.ne_invalid up)) (Ne.symm different)
  · rw [Function.update_of_ne here]

/-- **A link that was up and is up has kept its slot.** -/
theorem SlotsOwned.slot_kept {input : CentralInput} (legal : state.Legal input) {other : UInt16}
    (before : other ∈ state.live) (after : other ∈ (state.step input).live) :
    (state.step input).central.slot other = state.central.slot other := by
  cases noLink : input.isLinkEvent with
  | false =>
    have same := step_links state.central noLink
    simp only [LinkState.step, CentralRole.slot, same.connectionHandle, same.allowedPeripherals]
  | true =>
    match input, noLink with
    | .event ⟨_, .connected _ _⟩, _ => exact slots.slot_old legal before
    | .event ⟨_, .disconnected _⟩, _ =>
      exact slots.slot_left before (of_decide_eq_true (List.mem_filter.mp after).2)

/-- The slots stay owned when a link comes up, whether it finds a free slot or not. -/
theorem SlotsOwned.connected {connHandle : UInt16} {peerAddr : Vector UInt8 6} {count : UInt8}
    (legal : state.Legal (.event ⟨connHandle, .connected peerAddr count⟩)) :
    SlotsOwned (state.step (.event ⟨connHandle, .connected peerAddr count⟩)) := by
  obtain ⟨fresh, valid, -⟩ := legal_connected legal
  have handles : ∀ slot,
      (state.step (.event ⟨connHandle, .connected peerAddr count⟩)).central.handleAt slot =
        Function.update state.central.handleAt (state.central.slot connHandleInvalid) connHandle slot :=
    fun slot => congrFun (set_bytes ..) slot
  refine ⟨?_, ?_, ?_⟩
  · intro member
    rcases List.mem_cons.mp member with same | member
    · exact valid same.symm
    · exact slots.proper member
  · intro slot inside used
    rw [handles] at used ⊢
    by_cases here : slot = state.central.slot connHandleInvalid
    · rw [here, Function.update_self]
      exact List.mem_cons_self ..
    · rw [Function.update_of_ne here] at used ⊢
      exact List.mem_cons_of_mem _ (slots.owned slot inside used)
  · intro slot inside other otherInside used same
    rw [handles] at used
    rw [handles, handles] at same
    by_cases here : slot = state.central.slot connHandleInvalid
    · by_cases there : other = state.central.slot connHandleInvalid
      · rw [here, there]
      · rw [here, Function.update_self, Function.update_of_ne there] at same
        exact absurd same.symm (slots.absent fresh valid other otherInside)
    · rw [Function.update_of_ne here] at used same
      by_cases there : other = state.central.slot connHandleInvalid
      · rw [there, Function.update_self] at same
        exact absurd same (slots.absent fresh valid slot inside)
      · rw [Function.update_of_ne there] at same
        exact slots.once slot inside other otherInside used same

/-- The slots stay owned when a link ends. -/
theorem SlotsOwned.disconnected {connHandle : UInt16} {reason : UInt8} :
    SlotsOwned (state.step (.event ⟨connHandle, .disconnected reason⟩)) := by
  have handles : ∀ slot,
      (state.step (.event ⟨connHandle, .disconnected reason⟩)).central.handleAt slot =
        Function.update state.central.handleAt (state.central.slot connHandle) connHandleInvalid
          slot := fun slot => congrFun (set_bytes ..) slot
  have elsewhere : ∀ slot, (state.step (.event ⟨connHandle, .disconnected reason⟩)).central.handleAt
      slot ≠ connHandleInvalid → slot ≠ state.central.slot connHandle := by
    intro slot used here
    rw [handles, here, Function.update_self] at used
    exact used rfl
  refine ⟨fun member => slots.proper (List.mem_filter.mp member).1, ?_, ?_⟩
  · intro slot inside used
    have away := elsewhere slot used
    rw [handles, Function.update_of_ne away] at used ⊢
    refine List.mem_filter.mpr ⟨slots.owned slot inside used, decide_eq_true fun same => away ?_⟩
    have found : state.central.slot connHandle < state.allowed :=
      findSlot_lt_iff.mpr ⟨slot, inside, same⟩
    exact slots.once slot inside _ found used (same.trans (findSlot_holds found).symm)
  · intro slot inside other otherInside used same
    have away := elsewhere slot used
    have otherAway := elsewhere other (same ▸ used)
    rw [handles, Function.update_of_ne away] at used
    rw [handles, handles, Function.update_of_ne away, Function.update_of_ne otherAway] at same
    exact slots.once slot inside other otherInside used same

/-- **The slots stay owned.** -/
theorem SlotsOwned.step {input : CentralInput} (legal : state.Legal input) :
    SlotsOwned (state.step input) := by
  cases other : input.isLinkEvent with
  | false =>
    have same := step_links state.central other
    have live : (state.step input).live = state.live := linksAfter_of_noLinkEvent other state.live
    have allowed : (state.step input).allowed = state.allowed :=
      congrArg UInt8.toNat same.allowedPeripherals
    have handles : ∀ slot, (state.step input).central.handleAt slot = state.central.handleAt slot :=
      fun slot => congrArg (fun buffer : Buffer UInt16 => buffer.bytes slot) same.connectionHandle
    refine ⟨live ▸ slots.proper, ?_, ?_⟩
    · simp only [handles, live, allowed]
      exact slots.owned
    · simp only [handles, allowed]
      exact slots.once
  | true =>
    match input, other with
    | .event ⟨_, .connected _ _⟩, _ => exact slots.connected legal
    | .event ⟨_, .disconnected _⟩, _ => exact slots.disconnected

end Slots

/-- Slots that track the links are owned. -/
theorem Tracks.owned {state : LinkState} (tracks : Tracks state) : SlotsOwned state :=
  ⟨tracks.holds.proper, tracks.holds.owned, tracks.holds.once⟩

theorem initial_owned (central : CentralRole) (linksNo : UInt8) :
    SlotsOwned (.initial central linksNo) :=
  (initial_tracks central linksNo).owned

end PrimoCore.Ble
