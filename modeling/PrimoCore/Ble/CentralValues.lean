/-
**Values from the peripherals.**

A read response and a notification carry a handle. The central role gives the value to the first
registered characteristic with that handle in the table that all links share, and tells the program the
node in the link's slot.

* `ValueRight` — **what is to happen to a value**: it reaches the characteristic for which its
  peripheral has reported the handle, and no other, and comes with the peripheral's node.
* `KeepsValues` — the condition on a step: links find room and nodes are their own, the table stores
  what agrees with all links that are up, and a value has a handle its peripheral has reported, or one
  that is not in the table.
* `Agrees` — the invariant: the table agrees with the reports of all links that are up.
* `values_right` — **in every run** whose steps meet `KeepsValues`, every value is handed over rightly.
-/

import PrimoCore.Ble.CentralReports

namespace PrimoCore.Ble

open PrimoCore.Lib

/-- The value an input carries: its link, its handle and its bytes. -/
def CentralInput.value : CentralInput → Option (UInt16 × UInt16 × List UInt8)
  | .event ⟨connHandle, .readRsp gattStatus handle data⟩ =>
      if gattStatus = statusSuccess then some (connHandle, handle, data) else none
  | .event ⟨connHandle, .hvx _ handle data⟩ => some (connHandle, handle, data)
  | _ => none

/-- The peripheral that connects. -/
def CentralInput.newPeer : CentralInput → Option (Vector UInt8 6)
  | .event ⟨_, .connected peerAddr _⟩ => some peerAddr
  | _ => none

/-- The characteristics a successful scan finds, with its link. -/
def CentralInput.foundChars : CentralInput → Option (UInt16 × List FoundChar)
  | .event ⟨connHandle, .charDiscRsp gattStatus chars⟩ =>
      if gattStatus = statusSuccess then some (connHandle, chars) else none
  | _ => none

namespace ReportState

/-- A peripheral has reported a handle for a remote characteristic. -/
def ReportedFor (state : ReportState) (connHandle : UInt16) (characteristic : Nat)
    (handle : UInt16) : Prop :=
  ∃ info ∈ state.central.remoteCharacteristicInfo, info.characteristic = characteristic ∧
    state.Reported connHandle info.toRemoteCharacteristicInfo handle

instance (state : ReportState) (connHandle : UInt16) (characteristic : Nat) (handle : UInt16) :
    Decidable (state.ReportedFor connHandle characteristic handle) :=
  inferInstanceAs (Decidable (∃ info ∈ _, _))

end ReportState

/-- **What is to happen to a value.** The characteristics its peripheral has reported the handle for
store it, the others stay as they are; the program is told of the former and of no other, with the node
of the peripheral. -/
structure HandedOver (state : ReportState) (connHandle handle : UInt16) (data : List UInt8)
    (values : Nat → RemoteValue) (outputs : List (Output CentralNotice)) : Prop where
  stored : ∀ characteristic, values characteristic =
    if state.ReportedFor connHandle characteristic handle then ⟨data, true⟩
    else state.central.remoteValue characteristic
  told : ∀ characteristic, state.ReportedFor connHandle characteristic handle →
    ∃ node, .notice (.remoteValueChanged characteristic node data) ∈ outputs
  toldOnly : ∀ characteristic node value,
    .notice (.remoteValueChanged characteristic node value) ∈ outputs →
    state.ReportedFor connHandle characteristic handle ∧ value = data ∧
      node.address = state.peerAddr connHandle

/-- The value a step carries is handed over rightly. -/
def ValueRight (state : ReportState) (input : CentralInput) : Prop :=
  ∀ connHandle handle data, input.value = some (connHandle, handle, data) →
    HandedOver state connHandle handle data (state.step input).central.remoteValue
      (state.central.step input).2

/-! ### The condition on a step -/

namespace ReportState

/-- A characteristic that is found belongs to a registered one: the UUIDs agree, and its value handle
is in a range the peripheral has reported for the service. -/
def BelongsTo (state : ReportState) (connHandle : UInt16) (info : RemoteCharacteristicInfo)
    (found : FoundChar) : Prop :=
  found.uuid = info.uuid ∧ ∃ service ∈ (state.reports connHandle).services,
    (info.service, service.uuid) ∈ registered state.central.remoteServiceInfo ∧
      service.handleRange.has found.handleValue

/-- A link has reported no other handle for a characteristic. -/
def ReportedOnly (state : ReportState) (connHandle : UInt16) (info : RemoteCharacteristicInfo)
    (handle : UInt16) : Prop :=
  ∀ report ∈ (state.reports connHandle).chars,
    (info.service, report.1) ∈ registered state.central.remoteServiceInfo →
      report.2.uuid = info.uuid → report.2.handleValue = handle

/-- What a response stores for a characteristic agrees with all links that are up: none of them has
reported another handle for it, nor does the response, and no other characteristic has the handle. -/
def StoreAgrees (state : ReportState) (chars : List FoundChar) (info : CentralCharacteristicInfo)
    (found : FoundChar) : Prop :=
  found.handleValue ≠ 0 ∧
    (∀ other ∈ state.live,
      state.ReportedOnly other info.toRemoteCharacteristicInfo found.handleValue) ∧
    (∀ again ∈ chars, info.isFound (state.scannedService.map RemoteServiceInfo.service) again →
      again.handleValue = found.handleValue) ∧
    ∀ other ∈ state.central.remoteCharacteristicInfo, other.characteristic ≠ info.characteristic →
      other.valueHandle ≠ found.handleValue ∧
        ∀ again ∈ chars, other.isFound (state.scannedService.map RemoteServiceInfo.service) again →
          again.handleValue ≠ found.handleValue

/-- What a response stores, it stores exactly where it belongs, and it agrees with all links. -/
def StoresAgree (state : ReportState) (connHandle : UInt16) (chars : List FoundChar) : Prop :=
  ∀ found ∈ chars, ∀ info ∈ state.central.remoteCharacteristicInfo,
    (info.isFound (state.scannedService.map RemoteServiceInfo.service) found ↔
      state.BelongsTo connHandle info.toRemoteCharacteristicInfo found) ∧
    (info.isFound (state.scannedService.map RemoteServiceInfo.service) found →
      state.StoreAgrees chars info found)

/-- **What a step must meet.** A connection finds a free slot, and the last advertisement seen is of the
peripheral that connects. What a discovery stores agrees with all links that are up. A value has a
handle its peripheral has reported for some registered characteristic, or one that is not in the
table. -/
structure KeepsValues (state : ReportState) (input : CentralInput) : Prop where
  room : state.toLinkState.HasRoom input
  seen : ∀ peerAddr ∈ input.newPeer, state.central.tempNode.address = peerAddr
  agree : ∀ scan ∈ input.foundChars, state.StoresAgree scan.1 scan.2
  value : ∀ value ∈ input.value,
    (∃ info ∈ state.central.remoteCharacteristicInfo,
      state.Reported value.1 info.toRemoteCharacteristicInfo value.2.1) ∨
    ∀ info ∈ state.central.remoteCharacteristicInfo, info.valueHandle ≠ value.2.1

instance (state : ReportState) (connHandle : UInt16) (info : RemoteCharacteristicInfo)
    (found : FoundChar) : Decidable (state.BelongsTo connHandle info found) :=
  inferInstanceAs (Decidable (_ ∧ ∃ service ∈ _, _))

instance (state : ReportState) (connHandle : UInt16) (info : RemoteCharacteristicInfo)
    (handle : UInt16) : Decidable (state.ReportedOnly connHandle info handle) :=
  inferInstanceAs (Decidable (∀ report ∈ _, _))

instance (state : ReportState) (chars : List FoundChar) (info : CentralCharacteristicInfo)
    (found : FoundChar) : Decidable (state.StoreAgrees chars info found) :=
  have : Decidable (∀ other ∈ state.live,
      state.ReportedOnly other info.toRemoteCharacteristicInfo found.handleValue) :=
    List.decidableBAll _ _
  inferInstanceAs (Decidable (_ ∧ (∀ other ∈ _, _) ∧ (∀ again ∈ _, _) ∧ ∀ other ∈ _, _))

instance (state : ReportState) (connHandle : UInt16) (chars : List FoundChar) :
    Decidable (state.StoresAgree connHandle chars) :=
  inferInstanceAs (Decidable (∀ found ∈ _, ∀ info ∈ _, _))

instance (state : ReportState) (input : CentralInput) : Decidable (state.KeepsValues input) :=
  have : Decidable (∀ peerAddr ∈ input.newPeer, state.central.tempNode.address = peerAddr) :=
    Option.decidableForallMem _
  decidable_of_iff (state.toLinkState.HasRoom input ∧
      (∀ peerAddr ∈ input.newPeer, state.central.tempNode.address = peerAddr) ∧
      (∀ scan ∈ input.foundChars, state.StoresAgree scan.1 scan.2) ∧
      ∀ value ∈ input.value,
        (∃ info ∈ state.central.remoteCharacteristicInfo,
          state.Reported value.1 info.toRemoteCharacteristicInfo value.2.1) ∨
        ∀ info ∈ state.central.remoteCharacteristicInfo, info.valueHandle ≠ value.2.1)
    ⟨fun ⟨room, seen, agree, value⟩ => ⟨room, seen, agree, value⟩,
      fun ⟨room, seen, agree, value⟩ => ⟨room, seen, agree, value⟩⟩

end ReportState

/-! ### The invariant -/

/-- **The invariant**: the slots track the links and hold their nodes, the table has the handles the
links that are up have reported, and no two characteristics have one handle. -/
structure Agrees (state : ReportState) : Prop where
  tracks : Tracks state.toLinkState
  nodes : ∀ connHandle ∈ state.live,
    (state.central.nodeAt (state.central.slot connHandle)).address = state.peerAddr connHandle
  stored : ∀ connHandle ∈ state.live, ∀ info ∈ state.central.remoteCharacteristicInfo, ∀ handle,
    state.Reported connHandle info.toRemoteCharacteristicInfo handle →
      info.valueHandle = handle ∧ handle ≠ 0
  apart : ∀ info ∈ state.central.remoteCharacteristicInfo,
    ∀ other ∈ state.central.remoteCharacteristicInfo, info.valueHandle ≠ 0 →
      other.valueHandle = info.valueHandle → other.characteristic = info.characteristic

theorem initial_agrees (central : CentralRole) (linksNo : UInt8) :
    Agrees (.initial central linksNo) where
  tracks := initial_tracks central.clearTables linksNo
  nodes := fun _ member => absurd member List.not_mem_nil
  stored := fun _ member => absurd member List.not_mem_nil
  apart := by
    intro info member other _ discovered
    obtain ⟨cleared, _, rfl⟩ := List.mem_map.mp member
    exact absurd rfl discovered

/-! ### What is done with a value -/

/-- What the lookup finds has the handle. -/
theorem of_characteristicOf {central : CentralRole} {handle : UInt16}
    {info : CentralCharacteristicInfo} (found : central.characteristicOf handle = some info) :
    info ∈ central.remoteCharacteristicInfo ∧ info.valueHandle = handle := by
  have matched := List.find?_some found
  exact ⟨List.mem_of_find?_eq_some found, of_decide_eq_true matched⟩

section Value

variable {state : ReportState} (agrees : Agrees state)

include agrees

/-- **The lookup is right** where the table agrees with the reports: it finds the characteristic the
peripheral has reported the handle for, or none where it has reported the handle for none. -/
theorem characteristicOf_right {connHandle handle : UInt16} (up : connHandle ∈ state.live)
    (known : (∃ info ∈ state.central.remoteCharacteristicInfo,
        state.Reported connHandle info.toRemoteCharacteristicInfo handle) ∨
      ∀ info ∈ state.central.remoteCharacteristicInfo, info.valueHandle ≠ handle)
    (characteristic : Nat) :
    state.ReportedFor connHandle characteristic handle ↔
      ∃ info, state.central.characteristicOf handle = some info ∧
        info.characteristic = characteristic := by
  constructor
  · rintro ⟨info, member, rfl, reported⟩
    obtain ⟨here, proper⟩ := agrees.stored connHandle up info member handle reported
    have some : (state.central.characteristicOf handle).isSome := by
      rw [CentralRole.characteristicOf, List.find?_isSome]
      exact ⟨info, member, decide_eq_true here⟩
    obtain ⟨first, found⟩ := Option.isSome_iff_exists.mp some
    obtain ⟨entry, there⟩ := of_characteristicOf found
    refine ⟨first, found, agrees.apart info member first entry ?_ ?_⟩
    · rw [here]
      exact proper
    · rw [here, there]
  · rintro ⟨first, found, rfl⟩
    obtain ⟨entry, there⟩ := of_characteristicOf found
    rcases known with ⟨info, member, reported⟩ | absent
    · obtain ⟨here, proper⟩ := agrees.stored connHandle up info member handle reported
      refine ⟨info, member, (agrees.apart info member first entry ?_ ?_).symm, reported⟩
      · rw [here]
        exact proper
      · rw [here, there]
    · exact absurd there (absent first entry)

/-- **A value is handed over rightly.** The role is the one that stores it: after a read response the
flag of the outstanding request has been cleared. -/
theorem storeRemoteValue_right {central : CentralRole} {connHandle handle : UInt16}
    {data : List UInt8} (up : connHandle ∈ state.live)
    (same : central.remoteCharacteristicInfo = state.central.remoteCharacteristicInfo ∧
      central.remoteValue = state.central.remoteValue ∧
      central.nodeAt (central.slot connHandle) =
        state.central.nodeAt (state.central.slot connHandle))
    (known : (∃ info ∈ state.central.remoteCharacteristicInfo,
        state.Reported connHandle info.toRemoteCharacteristicInfo handle) ∨
      ∀ info ∈ state.central.remoteCharacteristicInfo, info.valueHandle ≠ handle) :
    HandedOver state connHandle handle data
      (central.storeRemoteValue connHandle handle data).1.remoteValue
      (central.storeRemoteValue connHandle handle data).2 := by
  obtain ⟨table, values, node⟩ := same
  have lookup : central.characteristicOf handle = state.central.characteristicOf handle := by
    rw [CentralRole.characteristicOf, CentralRole.characteristicOf, table]
  have right := characteristicOf_right agrees up known
  unfold CentralRole.storeRemoteValue
  rw [lookup]
  cases found : state.central.characteristicOf handle with
  | none =>
    have none : ∀ characteristic, ¬ state.ReportedFor connHandle characteristic handle := by
      intro characteristic reported
      obtain ⟨info, here, _⟩ := (right characteristic).mp reported
      rw [found] at here
      cases here
    refine ⟨fun characteristic => ?_, fun characteristic reported => absurd reported (none _),
      fun _ _ _ member => absurd member List.not_mem_nil⟩
    rw [if_neg (none characteristic)]
    exact congrFun values characteristic
  | some info =>
    have only : ∀ characteristic, state.ReportedFor connHandle characteristic handle ↔
        info.characteristic = characteristic := by
      intro characteristic
      rw [right, found]
      simp
    refine ⟨fun characteristic => ?_, ?_, ?_⟩
    · show Function.update central.remoteValue info.characteristic ⟨data, true⟩ characteristic = _
      rw [Function.update_apply, values]
      simp only [only, eq_comm]
    · intro characteristic reported
      rw [only] at reported
      exact ⟨_, by rw [← reported]; exact List.mem_singleton_self _⟩
    · intro characteristic given value member
      simp only [CentralRole.setRemoteValue, List.mem_singleton, Output.notice.injEq,
        CentralNotice.remoteValueChanged.injEq] at member
      obtain ⟨rfl, rfl, rfl⟩ := member
      refine ⟨(only _).mpr rfl, rfl, ?_⟩
      rw [node]
      exact agrees.nodes connHandle up

/-- **The value of a step is handed over rightly.** -/
theorem step_valueRight {input : CentralInput} (expected : state.Expected input)
    (keeps : state.KeepsValues input) : ValueRight state input := by
  intro connHandle handle data carries
  have known := keeps.value (connHandle, handle, data) carries
  match input, carries with
  | .event ⟨link, .readRsp gattStatus valueHandle bytes⟩, carries =>
    simp only [CentralInput.value] at carries
    split at carries
    · rename_i success
      cases carries
      have up : connHandle ∈ state.live := expected.client connHandle rfl
      subst success
      exact storeRemoteValue_right agrees up ⟨rfl, rfl, rfl⟩ known
    · cases carries
  | .event ⟨link, .hvx type valueHandle bytes⟩, carries =>
    cases carries
    have up : connHandle ∈ state.live := expected.client connHandle rfl
    have handed : HandedOver state connHandle handle data _ _ :=
      storeRemoteValue_right agrees up ⟨rfl, rfl, rfl⟩ known
    obtain ⟨stored, told, toldOnly⟩ := handed
    refine ⟨stored, fun characteristic reported => ?_, fun characteristic node value member => ?_⟩
    · obtain ⟨node, member⟩ := told characteristic reported
      exact ⟨node, List.mem_append_right _ member⟩
    · rcases List.mem_append.mp member with confirm | member
      · split_ifs at confirm
        · cases List.mem_singleton.mp confirm
        · cases confirm
      · exact toldOnly characteristic node value member

end Value

/-! ### What a step does to the reports -/

/-- A step that is no connection and no successful scan adds no report of a characteristic. -/
theorem reported_before {state : ReportState} {input : CentralInput} {connHandle handle : UInt16}
    {info : RemoteCharacteristicInfo}
    (noScan : ∀ chars, input ≠ .event ⟨connHandle, .charDiscRsp statusSuccess chars⟩)
    (reported : (state.step input).Reported connHandle info handle) :
    state.Reported connHandle info handle := by
  obtain ⟨report, member, service, same⟩ := reported
  rw [show registered (state.step input).central.remoteServiceInfo = _ from
    step_registered state.central input] at service
  refine ⟨report, ?_, service, same⟩
  replace member : report ∈ (state.reportsAfter input connHandle).chars := member
  unfold ReportState.reportsAfter at member
  split at member
  · rename_i other _ _
    by_cases here : connHandle = other
    · subst here
      rw [Function.update_self] at member
      cases member
    · rwa [Function.update_of_ne here] at member
  · split at member
    · rename_i other _ _ _ _
      by_cases here : connHandle = other
      · subst here
        rwa [Function.update_self] at member
      · rwa [Function.update_of_ne here] at member
    · exact member
  · split at member
    · rename_i other gattStatus chars success
      have here : connHandle ≠ other := by
        rintro rfl
        exact noScan chars (by rw [success])
      rwa [Function.update_of_ne here] at member
    · exact member
  · exact member

/-- A new link has reported nothing. -/
theorem not_reported_connected {state : ReportState} {connHandle handle : UInt16}
    {peerAddr : Vector UInt8 6} {count : UInt8} {info : RemoteCharacteristicInfo} :
    ¬ (state.step (.event ⟨connHandle, .connected peerAddr count⟩)).Reported connHandle info
      handle := by
  rintro ⟨report, member, _⟩
  replace member : report ∈ (Function.update state.reports connHandle ⟨[], []⟩ connHandle).chars :=
    member
  rw [Function.update_self] at member
  cases member

/-- **What a scan adds**: a characteristic that belongs to the registered one. -/
theorem reported_of_scan {state : ReportState} {connHandle handle : UInt16} {chars : List FoundChar}
    {info : RemoteCharacteristicInfo}
    (reported : (state.step (.event ⟨connHandle, .charDiscRsp statusSuccess chars⟩)).Reported
      connHandle info handle) :
    state.Reported connHandle info handle ∨
      ∃ found ∈ chars, state.BelongsTo connHandle info found ∧ found.handleValue = handle := by
  obtain ⟨report, member, service, uuid, value⟩ := reported
  rw [show registered (state.step _).central.remoteServiceInfo = _ from
    step_registered state.central _] at service
  replace member : report ∈ (Function.update state.reports connHandle
    ((state.reports connHandle).addChars chars) connHandle).chars := member
  rw [Function.update_self] at member
  rcases List.mem_append.mp member with old | new
  · exact .inl ⟨report, old, service, uuid, value⟩
  · obtain ⟨found, inside, attributed⟩ := List.mem_flatMap.mp new
    obtain ⟨foundService, known, rfl⟩ := List.mem_map.mp attributed
    rw [List.mem_filter] at known
    exact .inr ⟨found, inside, ⟨uuid, foundService, known.1, service, known.2⟩, value⟩

/-! ### The invariant is kept -/

section Step

variable {state : ReportState} (agrees : Agrees state)

include agrees

/-- The node of a link that stays. -/
theorem node_kept {input : CentralInput} (expected : state.Expected input)
    {connHandle : UInt16} (before : connHandle ∈ state.live)
    (after : connHandle ∈ (state.step input).live)
    (same : (state.step input).central.nodeAt (state.central.slot connHandle) =
      state.central.nodeAt (state.central.slot connHandle))
    (peer : (state.step input).peerAddr connHandle = state.peerAddr connHandle) :
    ((state.step input).central.nodeAt ((state.step input).central.slot connHandle)).address =
      (state.step input).peerAddr connHandle := by
  have kept : (state.step input).central.slot connHandle = state.central.slot connHandle :=
    agrees.tracks.owned.slot_kept expected.links before after
  rw [kept, same, peer]
  exact agrees.nodes connHandle before

theorem connected_agrees {connHandle : UInt16} {peerAddr : Vector UInt8 6} {count : UInt8}
    (expected : state.Expected (.event ⟨connHandle, .connected peerAddr count⟩))
    (keeps : state.KeepsValues (.event ⟨connHandle, .connected peerAddr count⟩)) :
    Agrees (state.step (.event ⟨connHandle, .connected peerAddr count⟩)) := by
  obtain ⟨fresh, _, _⟩ := legal_connected expected.links
  have next := step_tracks agrees.tracks expected.links keeps.room
  have found := agrees.tracks.holds.find_empty_lt_iff.mpr (keeps.room rfl)
  refine ⟨next, ?_, ?_, agrees.apart⟩
  · intro other up
    rcases List.mem_cons.mp up with rfl | before
    · have slot : (state.step (.event ⟨other, .connected peerAddr count⟩)).central.slot other =
          state.central.slot connHandleInvalid :=
        agrees.tracks.owned.slot_new expected.links
      rw [slot]
      show ((state.central.node.set (state.central.slot connHandleInvalid)
          state.central.tempNode).bytes (state.central.slot connHandleInvalid)).address =
        Function.update state.peerAddr other peerAddr other
      rw [set_bytes, Function.update_self, Function.update_self]
      exact keeps.seen peerAddr rfl
    · have different : other ≠ connHandle := fun same => fresh (same ▸ before)
      apply node_kept agrees expected before up
      · have elsewhere : state.central.slot other ≠ state.central.slot connHandleInvalid := by
          intro same
          apply agrees.tracks.holds.ne_empty before
          rw [← handleAt_slot agrees.tracks before, same]
          exact findSlot_holds found
        show (state.central.node.set (state.central.slot connHandleInvalid) _).bytes _ = _
        rw [set_bytes, Function.update_of_ne elsewhere]
        rfl
      · exact Function.update_of_ne different ..
  · intro other up info member handle reported
    rcases List.mem_cons.mp up with rfl | before
    · exact absurd reported not_reported_connected
    · exact agrees.stored other before info member handle
        (reported_before (fun _ same => by cases same) reported)

theorem disconnected_agrees {connHandle : UInt16} {reason : UInt8}
    (expected : state.Expected (.event ⟨connHandle, .disconnected reason⟩))
    (keeps : state.KeepsValues (.event ⟨connHandle, .disconnected reason⟩)) :
    Agrees (state.step (.event ⟨connHandle, .disconnected reason⟩)) := by
  have next := step_tracks agrees.tracks expected.links keeps.room
  have before : ∀ other ∈ (state.step (.event ⟨connHandle, .disconnected reason⟩)).live,
      other ∈ state.live := fun other up => (List.mem_filter.mp up).1
  have table : (state.central.onDisconnected connHandle reason).1.remoteCharacteristicInfo =
      if state.central.peripheralConnected - 1 = 0 then
        CentralRole.clearCharacteristics state.central.remoteCharacteristicInfo
      else state.central.remoteCharacteristicInfo := rfl
  have counted : (state.central.peripheralConnected - 1).toNat =
    (state.step (.event ⟨connHandle, .disconnected reason⟩)).live.length := next.counted
  refine ⟨next, fun other up => node_kept agrees expected (before other up) up rfl rfl,
    ?_, ?_⟩
  · intro other up info member handle reported
    replace member : info ∈ (state.central.onDisconnected connHandle
      reason).1.remoteCharacteristicInfo := member
    rw [table] at member
    split_ifs at member with last
    · rw [last] at counted
      rw [List.length_eq_zero_iff.mp counted.symm] at up
      cases up
    · exact agrees.stored other (before other up) info member handle
        (reported_before (fun _ same => by cases same) reported)
  · intro info member other otherMember discovered
    replace member : info ∈ (state.central.onDisconnected connHandle
      reason).1.remoteCharacteristicInfo := member
    replace otherMember : other ∈ (state.central.onDisconnected connHandle
      reason).1.remoteCharacteristicInfo := otherMember
    rw [table] at member otherMember
    split_ifs at member otherMember
    · obtain ⟨cleared, _, rfl⟩ := List.mem_map.mp member
      exact absurd rfl discovered
    · exact agrees.apart info member other otherMember discovered

/-- An input that leaves the characteristics alone, and is no link event, keeps the invariant. -/
theorem other_agrees {input : CentralInput} (expected : state.Expected input)
    (keeps : state.KeepsValues input) (noLink : input.isLinkEvent = false)
    (noScan : ∀ connHandle chars, input ≠ .event ⟨connHandle, .charDiscRsp statusSuccess chars⟩)
    (same : (state.step input).central.remoteCharacteristicInfo =
      state.central.remoteCharacteristicInfo) : Agrees (state.step input) := by
  have before : ∀ connHandle ∈ (state.step input).live, connHandle ∈ state.live := fun _ up =>
    linksAfter_of_noLinkEvent noLink state.live ▸ up
  refine ⟨step_tracks agrees.tracks expected.links keeps.room, fun connHandle up => ?_, ?_, ?_⟩
  · apply node_kept agrees expected (before connHandle up) up
    · show (state.central.step input).1.node.bytes _ = _
      rw [(step_links state.central noLink).node]
      rfl
    · show state.peerAddrAfter input connHandle = _
      unfold ReportState.peerAddrAfter
      split
      · cases noLink
      · rfl
  · rw [same]
    intro connHandle up info member handle reported
    exact agrees.stored connHandle (before connHandle up) info member handle
      (reported_before (noScan connHandle) reported)
  · rw [same]
    exact agrees.apart

/-- **A scan that agrees with all links keeps the invariant.** -/
theorem scan_agrees {connHandle : UInt16} {chars : List FoundChar}
    (expected : state.Expected (.event ⟨connHandle, .charDiscRsp statusSuccess chars⟩))
    (keeps : state.KeepsValues (.event ⟨connHandle, .charDiscRsp statusSuccess chars⟩)) :
    Agrees (state.step (.event ⟨connHandle, .charDiscRsp statusSuccess chars⟩)) := by
  have stores : state.StoresAgree connHandle chars := keeps.agree (connHandle, chars) rfl
  have entries : ∀ info ∈ (state.step
      (.event ⟨connHandle, .charDiscRsp statusSuccess chars⟩)).central.remoteCharacteristicInfo,
      ∃ old ∈ state.central.remoteCharacteristicInfo, chars.foldl (CentralRole.storeChar
        (state.scannedService.map RemoteServiceInfo.service) (state.central.slot connHandle)) old =
          info := fun _ member => List.mem_map.mp member
  refine ⟨step_tracks agrees.tracks expected.links keeps.room,
    fun other up => node_kept agrees expected up up rfl rfl, ?_, ?_⟩
  · intro other up info member handle reported
    obtain ⟨old, oldMember, rfl⟩ := entries info member
    -- What has been reported before, or by this response.
    have origin : state.Reported other old.toRemoteCharacteristicInfo handle ∨ ∃ found ∈ chars,
        old.isFound (state.scannedService.map RemoteServiceInfo.service) found ∧
          found.handleValue = handle := by
      obtain ⟨_, service, uuid⟩ := storeChars_registered
        (state.scannedService.map RemoteServiceInfo.service) (state.central.slot connHandle) chars old
      replace reported : (state.step (.event ⟨connHandle, .charDiscRsp statusSuccess chars⟩)).Reported
          other old.toRemoteCharacteristicInfo handle := by
        obtain ⟨report, known, of_service, of_uuid, value⟩ := reported
        exact ⟨report, known, service ▸ of_service, of_uuid.trans uuid, value⟩
      by_cases own : other = connHandle
      · subst own
        rcases reported_of_scan reported with before | ⟨found, foundMember, belongs, value⟩
        · exact .inl before
        · exact .inr ⟨found, foundMember, (stores found foundMember old oldMember).1.mpr belongs, value⟩
      · exact .inl (reported_before (fun _ same => own (by cases same; rfl)) reported)
    rcases storeChars_cases (state.scannedService.map RemoteServiceInfo.service)
      (state.central.slot connHandle) chars old with ⟨none, same⟩ | ⟨found, foundMember, isFound, same⟩
    · rw [same]
      rcases origin with reported | ⟨found, foundMember, isFound, _⟩
      · exact agrees.stored other up old oldMember handle reported
      · exact absurd isFound (none found foundMember)
    · rw [same]
      obtain ⟨proper, others, only, _⟩ := (stores found foundMember old oldMember).2 isFound
      have stored : found.handleValue = handle := by
        rcases origin with ⟨report, known, service, uuid, value⟩ | ⟨again, againMember, isAgain, value⟩
        · rw [← value]
          exact (others other up report known service uuid).symm
        · rw [← value]
          exact (only again againMember isAgain).symm
      exact ⟨stored, stored ▸ proper⟩
  · intro info member other otherMember discovered same
    obtain ⟨old, oldMember, rfl⟩ := entries info member
    obtain ⟨older, olderMember, rfl⟩ := entries other otherMember
    rw [(storeChars_registered _ _ chars older).1, (storeChars_registered _ _ chars old).1]
    by_contra different
    have oldCases := storeChars_cases (state.scannedService.map RemoteServiceInfo.service)
      (state.central.slot connHandle) chars old
    have olderCases := storeChars_cases (state.scannedService.map RemoteServiceInfo.service)
      (state.central.slot connHandle) chars older
    rcases oldCases with ⟨_, oldSame⟩ | ⟨found, member, isFound, oldSame⟩
    · rw [oldSame] at same discovered
      rcases olderCases with ⟨_, olderSame⟩ | ⟨again, againMember, isAgain, olderSame⟩
      · rw [olderSame] at same
        exact different (agrees.apart old oldMember older olderMember discovered same)
      · rw [olderSame] at same
        obtain ⟨_, _, _, apart⟩ := (stores again againMember older olderMember).2 isAgain
        exact (apart old oldMember (Ne.symm different)).1 same.symm
    · rw [oldSame] at same
      obtain ⟨_, _, _, apart⟩ := (stores found member old oldMember).2 isFound
      rcases olderCases with ⟨_, olderSame⟩ | ⟨again, againMember, isAgain, olderSame⟩
      · rw [olderSame] at same
        exact (apart older olderMember different).1 same
      · rw [olderSame] at same
        exact (apart older olderMember different).2 again againMember isAgain same

/-- **The step lemma.** -/
theorem step_agrees {input : CentralInput} (expected : state.Expected input)
    (keeps : state.KeepsValues input) : Agrees (state.step input) := by
  cases noLink : input.isLinkEvent with
  | true =>
    match input, noLink with
    | .event ⟨_, .connected _ _⟩, _ => exact connected_agrees agrees expected keeps
    | .event ⟨_, .disconnected _⟩, _ => exact disconnected_agrees agrees expected keeps
  | false =>
    cases discovery : input.isDiscovery with
    | false =>
      refine other_agrees agrees expected keeps noLink ?_
        (step_tables state.central noLink discovery).remoteCharacteristicInfo
      rintro connHandle chars rfl
      cases discovery
    | true =>
      match input, discovery with
      | .event ⟨connHandle, .primSrvcDiscRsp gattStatus services last⟩, _ =>
        exact other_agrees agrees expected keeps rfl (fun _ _ same => by cases same)
          (onServices_characteristics state.central connHandle gattStatus services last)
      | .event ⟨connHandle, .charDiscRsp gattStatus chars⟩, _ =>
        by_cases success : gattStatus = statusSuccess
        · subst success
          exact scan_agrees agrees expected keeps
        · exact other_agrees agrees expected keeps rfl (fun _ _ same => success (by cases same; rfl))
            (onChars_characteristics state.central connHandle chars success)

end Step

/-- **In every run whose steps meet `KeepsValues`, every value reaches the characteristic its
peripheral has reported the handle for, and no other, and the program is told the peripheral's
node.** -/
theorem values_right (central : CentralRole) (linksNo : UInt8) (inputs : List CentralInput)
    (expected : EachStep ReportState.step ReportState.Expected (.initial central linksNo) inputs)
    (keeps : EachStep ReportState.step ReportState.KeepsValues (.initial central linksNo) inputs) :
    EachStep ReportState.step ValueRight (.initial central linksNo) inputs :=
  eachStep_of_invariant (fun _ _ agrees meets => step_agrees agrees meets.1 meets.2)
    (fun _ _ agrees meets => step_valueRight agrees meets.1 meets.2)
    (initial_agrees central linksNo) (eachStep_and.mpr ⟨expected, keeps⟩)

/-- An advertisement of the peripheral that connects. -/
def advertisement : CentralInput :=
  .event ⟨connHandleInvalid, .advReport { unseenNode.advReport with peerAddr := .replicate 6 1 }⟩

/-- A notification. -/
def notification (connHandle handle : UInt16) : CentralInput :=
  .event ⟨connHandle, .hvx .notification handle [42]⟩

/-- Two peripherals have the characteristic at one handle, and each sends a value. -/
theorem values_right_two : EachStep ReportState.step ValueRight (.initial oneRemoteCentral 2)
    (advertisement :: connection 0 :: discoveryOf 0 3 ++ connection 1 :: discoveryOf 1 3 ++
      [notification 0 3, notification 1 3]) :=
  values_right oneRemoteCentral 2
    (advertisement :: connection 0 :: discoveryOf 0 3 ++ connection 1 :: discoveryOf 1 3 ++
      [notification 0 3, notification 1 3])
    (by decide) (by decide)

/-- **Two peripherals have the characteristic at different handles**: the value of the first one is
lost. -/
theorem value_lost :
    ¬ ∀ (central : CentralRole) (linksNo : UInt8) (inputs : List CentralInput),
      EachStep ReportState.step ReportState.Expected (.initial central linksNo) inputs →
      EachStep ReportState.step ValueRight (.initial central linksNo) inputs := by
  intro always
  have each := always oneRemoteCentral 2 (connection 0 :: discoveryOf 0 3 ++
    connection 1 :: discoveryOf 1 5 ++ [notification 0 3]) (by decide)
  have right := each.2.2.2.2.2.2.2.2.2.2.1
  exact absurd ((right 0 3 [42] rfl).stored 1) (by decide)

end PrimoCore.Ble
