/-
**The transmission credit of the central role.**

The stack has an account of packets for each link, the central role one byte for all its links: a
connection overwrites it, a disconnection clears it, an update takes one however many links it goes to,
and a write takes none.

* `CentralCredit.call` — the role with the accounts of its links, by the rule. A step is a call or event
  and the update of a value that a peer has written in it.
* `Conserved`, `Fair` — **what the byte is to satisfy**, in a state and in a step.
* `CentralSends` — what an update does to the byte, and what it sends; `central_update_sends`.
* `KeepsPackets` — what a step must meet.
* `central_credit_iff` — **over every run**, the byte is the number of free packets, notifications go to
  links with a free packet and none is refused while there is one, exactly when every step meets it.
-/

import Mathlib.Tactic.SplitIfs
import PrimoCore.Ble.CentralLinks
import PrimoCore.Ble.CentralPackets
import PrimoCore.Ble.RequestFlag

namespace PrimoCore.Ble

open PrimoCore.Lib

/-! ### The role and its accounts -/

/-- The links an update goes to. -/
def CentralRole.linkedHandles (central : CentralRole) : List UInt16 :=
  central.linkedSlots.map central.handleAt

/-- The role, and the accounts of the links that are up. -/
structure CentralCredit where
  central : CentralRole
  links : List LinkCredit

namespace CentralCredit

/-- The role as it is constructed, and `allowMultilink` called. -/
def initial (central : CentralRole) (linksNo : UInt8) : CentralCredit where
  central := { (LinkState.initial central linksNo).central with txBufferCount := 0 }
  links := []

/-- The transfers of a step. -/
def calls (state : CentralCredit) (input : CentralInput) : List StackCall :=
  transfers (state.central.step input).2

/-- The accounts after an input, by the rule of `ble.h`. -/
def linksAfter (state : CentralCredit) : CentralInput → List LinkCredit
  | .event ⟨connHandle, .connected _ txPacketCount⟩ => ⟨connHandle, txPacketCount, 0⟩ :: state.links
  | .event ⟨connHandle, .disconnected _⟩ => state.links.filter (·.connHandle ≠ connHandle)
  | .event ⟨connHandle, .txComplete count⟩ => state.links.map (LinkCredit.complete connHandle count)
  | input => state.links.map (LinkCredit.charge (state.calls input) input.codes)

/-- One call or event, by itself. -/
def call (state : CentralCredit) (input : CentralInput) : CentralCredit where
  central := (state.central.step input).1
  links := state.linksAfter input

/-- A call or event, and the update of the value a peer has written in it. -/
def step (state : CentralCredit) (turn : CentralTurn) : CentralCredit :=
  match turn.reply state.central with
  | some update => (state.call turn.input).call update
  | none => state.call turn.input

/-- What the stack does: links come and go as expected, and no more packets of a link complete than are
in flight on it. -/
def Expected (state : CentralCredit) (input : CentralInput) : Prop :=
  input.linkExpected (handlesOf state.links) ∧ match input with
    | .event ⟨connHandle, .txComplete count⟩ =>
        ∃ link ∈ state.links, link.connHandle = connHandle ∧ count.toNat ≤ link.inFlight
    | _ => True

def Legal (state : CentralCredit) (turn : CentralTurn) : Prop := state.Expected turn.input

/-- **The byte is the number of free packets** of the links that are up; so it has never wrapped. -/
def Conserved (state : CentralCredit) : Prop :=
  (state.central.txBufferCount.toNat : Int) = freePackets state.links

/-- An update that is refused leaves no link with a free packet. -/
def RefusedFair (state : CentralCredit) : CentralInput → Prop
  | .updateCharacteristicValue characteristic codes =>
      (state.central.updateCharacteristicValue characteristic).2.2 = false →
        ∀ link ∈ (state.call (.updateCharacteristicValue characteristic codes)).links, link.free ≤ 0
  | _ => True

/-- No notification goes to a link without a free packet, and none is refused while there is one. -/
def CallFair (state : CentralCredit) (input : CentralInput) : Prop :=
  NotifiesFree state.links (state.calls input) input.codes ∧ state.RefusedFair input

/-- **What a step is to satisfy**: its call or event is fair, and so is the update of a value that a peer
has written. -/
def Fair (state : CentralCredit) (turn : CentralTurn) : Prop :=
  state.CallFair turn.input ∧
    ∀ update ∈ turn.reply state.central, (state.call turn.input).CallFair update

/-- The values an update sends, as far as the byte lasts. -/
def sendable (state : CentralCredit) (characteristic : Nat) : List (UInt16 × HvxType) :=
  (attempts characteristic state.central.localCharacteristicInfo).take
    state.central.txBufferCount.toNat

/-- The calls an update makes: each value goes to each link in a slot. -/
def sent (state : CentralCredit) (characteristic : Nat) : List StackCall :=
  hvxCalls state.central.linkedHandles (state.sendable characteristic)

/-- A connection finds no free packets, and a disconnection leaves none; the completed packets fit the byte;
an update has as many packets accepted, on all links, as it sends values, and leaves each link room for
its last notification; no write without response is accepted. -/
def CallKeeps (state : CentralCredit) : CentralInput → Prop
  | .event ⟨_, .connected _ _⟩ => freePackets state.links = 0
  | .event ⟨connHandle, .disconnected _⟩ =>
      freePackets (state.links.filter (·.connHandle ≠ connHandle)) = 0
  | .event ⟨_, .txComplete count⟩ => freePackets state.links + count.toNat < 256
  | .updateCharacteristicValue characteristic codes =>
      packets (state.sent characteristic.id) codes = (state.sendable characteristic.id).length ∧
        RoomForLast state.links state.central.linkedHandles (state.sendable characteristic.id) codes
  | .writeRemoteCharacteristic characteristic _ codes =>
      ∀ info ∈ state.central.remoteInfo characteristic,
        info.valueHandle ≠ 0 → info.properties.writeWoResp → info.properties.write = false →
          ∀ index < (state.central.targets info).length, codes index ≠ nrfSuccess
  | _ => True

/-- **What a step must meet**: its call or event does, and so does the update of a value that a peer has
written. -/
def KeepsPackets (state : CentralCredit) (turn : CentralTurn) : Prop :=
  state.CallKeeps turn.input ∧
    ∀ update ∈ turn.reply state.central, (state.call turn.input).CallKeeps update

instance (state : CentralCredit) : Decidable state.Conserved := inferInstanceAs (Decidable (_ = _))

instance (state : CentralCredit) (input : CentralInput) : Decidable (state.Expected input) :=
  match input with
  | .event ⟨_, .txComplete _⟩ => inferInstanceAs (Decidable (_ = true ∧ ∃ link ∈ _, _ ∧ _))
  | .event ⟨_, .connected _ _⟩ | .event ⟨_, .disconnected _⟩ | .event ⟨_, .advReport _⟩
  | .event ⟨_, .gattsWrite _ _⟩ | .event ⟨_, .sysAttrMissing⟩ | .event ⟨_, .primSrvcDiscRsp _ _ _⟩
  | .event ⟨_, .charDiscRsp _ _⟩ | .event ⟨_, .readRsp _ _ _⟩ | .event ⟨_, .writeRsp _⟩
  | .event ⟨_, .hvx _ _ _⟩ | .updateCharacteristicValue _ _ | .readRemoteCharacteristic _ _
  | .writeRemoteCharacteristic _ _ _ | .subscribeRemoteCharacteristic _ _
  | .unsubcribeRemoteCharacteristic _ _ => inferInstanceAs (Decidable (_ = true ∧ True))

instance (state : CentralCredit) (input : CentralInput) : Decidable (state.CallKeeps input) :=
  match input with
  | .event ⟨_, .connected _ _⟩ | .event ⟨_, .disconnected _⟩ => inferInstanceAs (Decidable (_ = _))
  | .event ⟨_, .txComplete _⟩ => inferInstanceAs (Decidable (_ < _))
  | .updateCharacteristicValue _ _ => inferInstanceAs (Decidable (_ = _ ∧ RoomForLast _ _ _ _))
  | .writeRemoteCharacteristic characteristic _ codes =>
      decidable_of_iff ((state.central.remoteInfo characteristic).all fun info =>
          decide (info.valueHandle ≠ 0 → info.properties.writeWoResp → info.properties.write = false →
            ∀ index < (state.central.targets info).length, codes index ≠ nrfSuccess)) (by
        simp only [CallKeeps, Option.all_eq_true, decide_eq_true_eq]
        rfl)
  | .event ⟨_, .advReport _⟩ | .event ⟨_, .gattsWrite _ _⟩ | .event ⟨_, .sysAttrMissing⟩
  | .event ⟨_, .primSrvcDiscRsp _ _ _⟩ | .event ⟨_, .charDiscRsp _ _⟩ | .event ⟨_, .readRsp _ _ _⟩
  | .event ⟨_, .writeRsp _⟩ | .event ⟨_, .hvx _ _ _⟩ | .readRemoteCharacteristic _ _
  | .subscribeRemoteCharacteristic _ _ | .unsubcribeRemoteCharacteristic _ _ =>
      inferInstanceAs (Decidable True)

instance (state : CentralCredit) (turn : CentralTurn) : Decidable (state.Legal turn) :=
  inferInstanceAs (Decidable (state.Expected turn.input))

instance (state : CentralCredit) (turn : CentralTurn) : Decidable (state.KeepsPackets turn) :=
  have : Decidable (∀ update ∈ turn.reply state.central, (state.call turn.input).CallKeeps update) :=
    Option.decidableForallMem _
  inferInstanceAs (Decidable (_ ∧ _))

end CentralCredit

/-- Where the byte is the number of free packets, the role allows a notification exactly when one is
free. -/
theorem canNotify_iff {state : CentralCredit} (conserved : state.Conserved) :
    state.central.canNotifyCharacteristic = true ↔ 0 < freePackets state.links := by
  rw [← show (_ : Int) = _ from conserved, CentralRole.canNotifyCharacteristic, decide_eq_true_iff,
    UInt8.lt_iff_toNat_lt]
  simp

/-! ### What an update sends -/

/-- **Sending some values to every link**: the first ones go out, as far as the byte lasts, and each
costs one. -/
structure CentralSends (before after : CentralRole) (outputs : List (Output CentralNotice))
    (success : Bool) (values : List (UInt16 × HvxType)) : Prop where
  credit : after.txBufferCount.toNat = before.txBufferCount.toNat - values.length
  links : after.linkedHandles = before.linkedHandles
  sent : transfers outputs =
    hvxCalls before.linkedHandles (values.take before.txBufferCount.toNat)
  success : success = decide (values.length ≤ before.txBufferCount.toNat)

theorem CentralSends.trans {first middle last : CentralRole}
    {outputs outputs' : List (Output CentralNotice)} {success success' : Bool}
    {values values' : List (UInt16 × HvxType)} (one : CentralSends first middle outputs success values)
    (two : CentralSends middle last outputs' success' values') :
    CentralSends first last (outputs ++ outputs') (success && success') (values ++ values') where
  credit := by
    rw [two.credit, one.credit, List.length_append]
    omega
  links := two.links.trans one.links
  sent := by
    rw [transfers_append, one.sent, two.sent, one.credit, one.links, List.take_append, hvxCalls,
      hvxCalls, hvxCalls, List.flatMap_append]
  success := by
    rw [one.success, two.success, one.credit, List.length_append, ← Bool.decide_and]
    refine decide_eq_decide.mpr ?_
    omega

theorem centralSends_nothing (central : CentralRole) {outputs : List (Output CentralNotice)}
    (quiet : transfers outputs = []) : CentralSends central central outputs true [] :=
  ⟨rfl, rfl, by rw [quiet, List.take_nil]; rfl, rfl⟩

theorem central_sendValue_sends (central : CentralRole) (subscribed : Bool) (handle : UInt16)
    (type : HvxType) : CentralSends central (central.sendValue subscribed handle type).1
      (central.sendValue subscribed handle type).2.1 (central.sendValue subscribed handle type).2.2
      (if subscribed then [(handle, type)] else []) := by
  unfold CentralRole.sendValue
  split_ifs with wanted credit
  · have positive : 0 < central.txBufferCount.toNat := UInt8.lt_iff_toNat_lt.mp credit
    have calls : transfers (central.linkedSlots.map fun slot =>
        (Output.call (.gattsHvx (central.handleAt slot) handle type) : Output CentralNotice)) =
          hvxCalls central.linkedHandles [(handle, type)] := by
      have each : central.linkedSlots.map (fun slot =>
          (Output.call (.gattsHvx (central.handleAt slot) handle type) : Output CentralNotice)) =
            (hvxCalls central.linkedHandles [(handle, type)]).map .call := by
        simp [hvxCalls, hvxCall, CentralRole.linkedHandles, Function.comp_def]
      rw [each]
      refine transfers_calls fun call member => ?_
      simp only [hvxCalls, List.flatMap_cons, List.flatMap_nil, List.append_nil, List.mem_map]
        at member
      obtain ⟨connHandle, _, rfl⟩ := member
      rfl
    refine ⟨?_, rfl, ?_, ?_⟩
    · show (central.txBufferCount - 1).toNat = central.txBufferCount.toNat - 1
      exact UInt8.toNat_sub_of_le _ _ (UInt8.le_iff_toNat_le.mpr positive)
    · rw [List.take_of_length_le positive]
      exact calls
    · exact (decide_eq_true positive).symm
  · have none_left : central.txBufferCount.toNat = 0 := by
      have notPositive : ¬ 0 < central.txBufferCount.toNat := fun positive =>
        credit (UInt8.lt_iff_toNat_lt.mpr positive)
      omega
    refine ⟨?_, rfl, ?_, ?_⟩
    · rw [none_left]
      rfl
    · rw [none_left]
      rfl
    · rw [none_left]
      rfl
  · exact centralSends_nothing central rfl

/-- **An update sends its attempts to every link**, as far as the byte lasts, and succeeds when it does. -/
theorem central_update_sends (central : CentralRole) (characteristic : LocalCharacteristic)
    (infos : List LocalCharacteristicInfo) :
    CentralSends central (central.updateEntries characteristic infos).1
      (central.updateEntries characteristic infos).2.1
      (central.updateEntries characteristic infos).2.2 (attempts characteristic.id infos) := by
  induction infos generalizing central with
  | nil => exact centralSends_nothing central rfl
  | cons info rest ih =>
    by_cases isEntry : info.characteristic = characteristic.id
    · rw [CentralRole.updateEntries, attempts, if_pos isEntry, if_pos isEntry]
      have stored : CentralSends central central
          [.call (.gattsValueSet info.valueHandle characteristic.value)] true [] :=
        centralSends_nothing central rfl
      have notified := central_sendValue_sends central info.notifySubscribed info.valueHandle
        .notification
      have indicated := central_sendValue_sends
        (central.sendValue info.notifySubscribed info.valueHandle .notification).1
        info.indicateSubscribed info.valueHandle .indication
      exact stored.trans ((notified.trans indicated).trans (ih _))
    · rw [CentralRole.updateEntries, attempts, if_neg isEntry, if_neg isEntry]
      exact ih central

/-! ### What the other inputs do -/

/-- The input is an event that is to change the byte. -/
def StackEvent.changesCredit : StackEvent → Bool
  | ⟨_, .connected _ _⟩ | ⟨_, .disconnected _⟩ | ⟨_, .txComplete _⟩ => true
  | _ => false

theorem central_poll_credit (central : CentralRole) {event : StackEvent}
    (other : event.changesCredit = false) :
    (central.poll event).1.txBufferCount = central.txBufferCount := by
  obtain ⟨connHandle, params⟩ := event
  cases params with
  | connected peerAddr txPacketCount => cases other
  | disconnected reason => cases other
  | txComplete count => cases other
  | gattsWrite handle data =>
    obtain ⟨_, _, _, after⟩ := central.writeLocal_changes (central.nodeAt (central.slot connHandle))
      handle data [] central.localCharacteristicInfo
    simp only [CentralRole.poll, after]
  | primSrvcDiscRsp gattStatus services last =>
    obtain ⟨_, _, after⟩ := central.onServices_changes connHandle gattStatus services last
    simp only [CentralRole.poll, after]
  | charDiscRsp gattStatus chars =>
    obtain ⟨_, _, after⟩ := central.onChars_changes connHandle gattStatus chars
    simp only [CentralRole.poll, after]
  | readRsp gattStatus handle data =>
    obtain ⟨_, after⟩ := central.onReadRsp_changes connHandle gattStatus handle data
    simp only [CentralRole.poll, after]
  | writeRsp gattStatus => simp only [CentralRole.poll, CentralRole.onWriteRsp_changes]
  | hvx type handle data =>
    obtain ⟨_, after⟩ := central.onHvx_changes connHandle type handle data
    simp only [CentralRole.poll, after]
  | _ => rfl

section Request

variable (central : CentralRole) (characteristic : Nat) (allowed : CentralCharacteristicInfo → Bool)
  (call : CentralCharacteristicInfo → UInt16 → StackCall) (codes : Nat → UInt32)

theorem request_credit :
    (central.request characteristic allowed call codes).1.txBufferCount = central.txBufferCount := by
  obtain ⟨_, after⟩ := central.request_changes characteristic allowed call codes
  rw [after]

end Request

/-! ### The slots -/

/-- **The allowed slots hold links that are up**, each in one slot. A link that found no slot is in
none. -/
structure Slotted (central : CentralRole) (live : List UInt16) : Prop where
  owned : ∀ slot < central.allowedPeripherals.toNat, central.handleAt slot ≠ connHandleInvalid →
    central.handleAt slot ∈ live
  once : ∀ slot < central.allowedPeripherals.toNat, ∀ other < central.allowedPeripherals.toNat,
    central.handleAt slot ≠ connHandleInvalid → central.handleAt slot = central.handleAt other →
      slot = other

/-- A slot after a write to one of them. -/
theorem handleAt_set (central : CentralRole) (index : Nat) (connHandle : UInt16) (slot : Nat) :
    (central.connectionHandle.set index connHandle).bytes slot =
      if slot = index then connHandle else central.handleAt slot := by
  rw [set_bytes, Function.update_apply]
  rfl

theorem slotted_connected {central : CentralRole} {live : List UInt16} (slotted : Slotted central live)
    {connHandle : UInt16} (fresh : connHandle ∉ live) (txPacketCount : UInt8) :
    Slotted (central.onConnected connHandle txPacketCount).1 (connHandle :: live) := by
  have slotAfter := handleAt_set central (central.slot connHandleInvalid) connHandle
  refine ⟨?_, ?_⟩
  · intro slot inside used
    simp only [CentralRole.handleAt, CentralRole.onConnected, slotAfter] at inside used ⊢
    split_ifs at used ⊢
    · exact List.mem_cons_self ..
    · exact List.mem_cons_of_mem _ (slotted.owned slot inside used)
  · intro slot inside other otherInside used same
    simp only [CentralRole.handleAt, CentralRole.onConnected, slotAfter] at inside otherInside used same
    split_ifs at used same with here there there
    · rw [here, there]
    · have taken : central.handleAt other = connHandle := same.symm
      have member := slotted.owned other otherInside (by rw [taken]; exact used)
      exact absurd (taken ▸ member) fresh
    · have taken : central.handleAt slot = connHandle := same
      have member := slotted.owned slot inside used
      exact absurd (taken ▸ member) fresh
    · exact slotted.once slot inside other otherInside used same

theorem slotted_disconnected {central : CentralRole} {live : List UInt16}
    (slotted : Slotted central live) (connHandle : UInt16) (reason : UInt8) :
    Slotted (central.onDisconnected connHandle reason).1 (live.filter (· ≠ connHandle)) := by
  have slotAfter := handleAt_set central (central.slot connHandle) connHandleInvalid
  refine ⟨?_, ?_⟩
  · intro slot inside used
    simp only [CentralRole.handleAt, CentralRole.onDisconnected, CentralRole.dropLink,
      CentralRole.forgetRemote, slotAfter] at inside used ⊢
    split_ifs at used ⊢ with here
    · exact absurd rfl used
    · refine List.mem_filter.mpr ⟨slotted.owned slot inside used, decide_eq_true fun same => here ?_⟩
      -- The loop finds the slot of the link, which is the only one.
      have found : central.slot connHandle < central.allowedPeripherals.toNat :=
        findSlot_lt_iff.mpr ⟨slot, inside, same⟩
      have held : central.handleAt (central.slot connHandle) = connHandle := findSlot_holds found
      exact slotted.once slot inside _ found used (same.trans held.symm)
  · intro slot inside other otherInside used same
    simp only [CentralRole.handleAt, CentralRole.onDisconnected, CentralRole.dropLink,
      CentralRole.forgetRemote, slotAfter] at inside otherInside used same
    split_ifs at used same with here there there
    · exact absurd rfl used
    · exact absurd rfl used
    · exact absurd same used
    · exact slotted.once slot inside other otherInside used same

theorem slotted_step {central : CentralRole} {live : List UInt16} (slotted : Slotted central live)
    {input : CentralInput} (expected : input.linkExpected live) :
    Slotted (central.step input).1 (input.linksAfter live) := by
  cases link : input.isLinkEvent with
  | false =>
    have same := step_links central link
    rw [linksAfter_of_noLinkEvent link]
    have slots : ∀ slot, (central.step input).1.handleAt slot = central.handleAt slot := by
      intro slot
      rw [CentralRole.handleAt, same.connectionHandle]
      rfl
    refine ⟨?_, ?_⟩
    · intro slot
      rw [slots, same.allowedPeripherals]
      exact slotted.owned slot
    · intro slot inside other
      rw [slots, slots]
      rw [same.allowedPeripherals] at inside ⊢
      exact slotted.once slot inside other
  | true =>
    match input, link with
    | .event ⟨connHandle, .connected peerAddr txPacketCount⟩, _ =>
      have fresh : (connHandle ∉ live ∧ connHandle ≠ connHandleInvalid) ∧
          live.length < centralLinkCount := by simpa [CentralInput.linkExpected] using expected
      exact slotted_connected slotted fresh.1.1 txPacketCount
    | .event ⟨connHandle, .disconnected reason⟩, _ =>
      exact slotted_disconnected slotted connHandle reason

theorem linkedHandles_live {central : CentralRole} {live : List UInt16}
    (slotted : Slotted central live) {connHandle : UInt16}
    (member : connHandle ∈ central.linkedHandles) : connHandle ∈ live := by
  obtain ⟨slot, used, rfl⟩ := List.mem_map.mp member
  obtain ⟨inside, nonempty⟩ := List.mem_filter.mp used
  exact slotted.owned slot (List.mem_range.mp inside) (of_decide_eq_true nonempty)

theorem targets_live {central : CentralRole} {live : List UInt16} (slotted : Slotted central live)
    {info : CentralCharacteristicInfo} {connHandle : UInt16}
    (member : connHandle ∈ central.targets info) : connHandle ∈ live := by
  obtain ⟨slot, used, rfl⟩ := List.mem_map.mp member
  obtain ⟨inside, nonempty⟩ := List.mem_filter.mp used
  exact slotted.owned slot (List.mem_range.mp inside) (of_decide_eq_true nonempty).1

/-- The links an update goes to are distinct. -/
theorem linkedHandles_nodup {central : CentralRole} {live : List UInt16}
    (slotted : Slotted central live) : central.linkedHandles.Nodup := by
  refine List.Nodup.map_on ?_ (List.Nodup.filter _ List.nodup_range)
  intro slot here other there same
  obtain ⟨inside, used⟩ := List.mem_filter.mp here
  obtain ⟨otherInside, _⟩ := List.mem_filter.mp there
  exact slotted.once slot (List.mem_range.mp inside) other (List.mem_range.mp otherInside)
    (of_decide_eq_true used) same

/-! ### Steps -/

namespace CentralCredit

/-- **The invariant**: the byte is the number of free packets, no link has more packets in flight than it
was granted, and the slots hold links that are up. -/
structure Accounted (state : CentralCredit) : Prop where
  conserved : state.Conserved
  distinct : (handlesOf state.links).Nodup
  covered : ∀ link ∈ state.links, link.inFlight ≤ link.granted.toNat
  slotted : Slotted state.central (handlesOf state.links)

theorem initial_accounted (central : CentralRole) (linksNo : UInt8) :
    Accounted (.initial central linksNo) := by
  have tracks := initial_tracks central linksNo
  refine ⟨rfl, List.nodup_nil, fun _ member => absurd member List.not_mem_nil, ?_, ?_⟩
  · intro slot inside used
    exact absurd (tracks.holds.owned slot inside used) List.not_mem_nil
  · exact tracks.holds.once

/-- The accounts are those of the links that are up. -/
theorem handles_step (state : CentralCredit) (input : CentralInput) :
    handlesOf (state.call input).links = input.linksAfter (handlesOf state.links) := by
  have charged : ∀ calls codes, handlesOf (state.links.map (LinkCredit.charge calls codes)) =
      handlesOf state.links := fun calls codes =>
      handlesOf_map (LinkCredit.charge_connHandle calls codes) state.links
  cases input with
  | event event =>
    obtain ⟨connHandle, params⟩ := event
    cases params with
    | connected peerAddr txPacketCount => rfl
    | disconnected reason =>
      show handlesOf (state.links.filter _) = (handlesOf state.links).filter _
      rw [handlesOf, handlesOf, List.filter_map]
      rfl
    | txComplete count =>
      exact handlesOf_map (LinkCredit.complete_connHandle connHandle count) state.links
    | _ => exact charged _ _
  | _ => exact charged _ _

variable {state : CentralCredit}

/-- The accounts are in order after a legal step, the byte and the packets apart. -/
theorem step_slotted {input : CentralInput} (accounted : state.Accounted) (legal : state.Expected input) :
    (handlesOf (state.call input).links).Nodup ∧
      Slotted (state.call input).central (handlesOf (state.call input).links) := by
  rw [handles_step]
  refine ⟨?_, slotted_step accounted.slotted legal.1⟩
  cases link : input.isLinkEvent with
  | false =>
    rw [linksAfter_of_noLinkEvent link]
    exact accounted.distinct
  | true =>
    match input, link with
    | .event ⟨connHandle, .connected peerAddr txPacketCount⟩, _ =>
      have fresh : (connHandle ∉ handlesOf state.links ∧ connHandle ≠ connHandleInvalid) ∧
          (handlesOf state.links).length < centralLinkCount := by
        simpa [CentralInput.linkExpected] using legal.1
      exact List.nodup_cons.mpr ⟨fresh.1.1, accounted.distinct⟩
    | .event ⟨connHandle, .disconnected reason⟩, _ => exact accounted.distinct.filter _

/-- What the step lemma says of an input: the step is right exactly when it meets the condition, and then
no link has more packets in flight than it was granted. -/
structure StepRight (state : CentralCredit) (input : CentralInput) : Prop where
  iff : (state.call input).Conserved ∧ state.CallFair input ↔ state.CallKeeps input
  covered : (state.call input).Conserved → state.CallFair input →
    ∀ link ∈ (state.call input).links, link.inFlight ≤ link.granted.toNat

/-- A step that makes no calls notifies nobody. -/
theorem fair_of_silent {input : CentralInput} (silent : state.calls input = [])
    (refused : state.RefusedFair input) : state.CallFair input := by
  refine ⟨?_, refused⟩
  rw [silent]
  exact fun _ inside => absurd inside (Nat.not_lt_zero _)

theorem event_silent (state : CentralCredit) (event : StackEvent) :
    state.calls (.event event) = [] :=
  central_poll_transfers state.central event

theorem connected_right (accounted : state.Accounted) (connHandle : UInt16)
    (peerAddr : Vector UInt8 6) (txPacketCount : UInt8) :
    StepRight state (.event ⟨connHandle, .connected peerAddr txPacketCount⟩) := by
  have fair : state.CallFair (.event ⟨connHandle, .connected peerAddr txPacketCount⟩) :=
    fair_of_silent (event_silent state _) trivial
  refine ⟨?_, ?_⟩
  · rw [and_iff_left fair]
    show ((txPacketCount.toNat : Int) =
      (⟨connHandle, txPacketCount, 0⟩ : LinkCredit).free + freePackets state.links) ↔
        freePackets state.links = 0
    simp only [LinkCredit.free]
    omega
  · intro _ _ link member
    rcases List.mem_cons.mp member with rfl | before
    · exact Nat.zero_le _
    · exact accounted.covered link before

theorem disconnected_right (accounted : state.Accounted) (connHandle : UInt16) (reason : UInt8) :
    StepRight state (.event ⟨connHandle, .disconnected reason⟩) := by
  have fair : state.CallFair (.event ⟨connHandle, .disconnected reason⟩) :=
    fair_of_silent (event_silent state _) trivial
  refine ⟨?_, ?_⟩
  · rw [and_iff_left fair]
    exact eq_comm
  · intro _ _ link member
    exact accounted.covered link (List.mem_of_mem_filter member)

theorem txComplete_right (accounted : state.Accounted) {connHandle : UInt16} {count : UInt8}
    (legal : state.Expected (.event ⟨connHandle, .txComplete count⟩)) :
    StepRight state (.event ⟨connHandle, .txComplete count⟩) := by
  have fair : state.CallFair (.event ⟨connHandle, .txComplete count⟩) :=
    fair_of_silent (event_silent state _) trivial
  obtain ⟨link, member, rfl, enough⟩ := legal.2
  have conserved : (state.central.txBufferCount.toNat : Int) = freePackets state.links :=
    accounted.conserved
  refine ⟨?_, ?_⟩
  · rw [and_iff_left fair]
    show (((state.central.txBufferCount + count).toNat : Int) =
      freePackets (state.links.map (LinkCredit.complete link.connHandle count))) ↔
        freePackets state.links + count.toNat < 256
    rw [freePackets_complete accounted.distinct member enough, UInt8.toNat_add]
    omega
  · intro _ _ completed completedMember
    obtain ⟨before, beforeMember, rfl⟩ := List.mem_map.mp completedMember
    have covered := accounted.covered before beforeMember
    unfold LinkCredit.complete
    split_ifs
    · exact Nat.le_trans (Nat.sub_le _ _) covered
    · exact covered

/-- **A step that leaves the byte alone** and takes no packets is right. -/
theorem quiet_right {input : CentralInput} (accounted : state.Accounted)
    (byte : (state.call input).central.txBufferCount = state.central.txBufferCount)
    (links : (state.call input).links =
      state.links.map (LinkCredit.charge (state.calls input) input.codes))
    (none : packets (state.calls input) input.codes = 0)
    (known : ∀ call ∈ state.calls input,
      call.transferHandle ∈ handlesOf state.links ∧ call.isNotification = false)
    (refused : state.RefusedFair input) (meets : state.CallKeeps input) :
    StepRight state input := by
  have conserved : (state.central.txBufferCount.toNat : Int) = freePackets state.links :=
    accounted.conserved
  refine ⟨iff_of_true ⟨?_, ?_, refused⟩ meets, ?_⟩
  · show ((state.call input).central.txBufferCount.toNat : Int) = freePackets (state.call input).links
    rw [byte, links,
      freePackets_charge_eq accounted.distinct (fun call member => (known call member).1), none]
    omega
  · intro index inside isNotification
    rw [(known _ (List.getElem_mem inside)).2] at isNotification
    cases isNotification
  · intro _ _ link member
    rw [links] at member
    obtain ⟨before, beforeMember, rfl⟩ := List.mem_map.mp member
    have taken := packetsOn_le (state.calls input) input.codes before.connHandle
    have covered := accounted.covered before beforeMember
    simp only [LinkCredit.charge]
    omega

theorem otherEvent_right (accounted : state.Accounted) {event : StackEvent}
    (other : event.changesCredit = false) : StepRight state (.event event) := by
  have byte := central_poll_credit state.central other
  have silent := event_silent state event
  refine quiet_right accounted byte ?_ ?_ ?_ trivial ?_
  · obtain ⟨connHandle, params⟩ := event
    cases params <;> first | rfl | cases other
  · rw [silent]
    rfl
  · rw [silent]
    exact fun _ member => absurd member List.not_mem_nil
  · obtain ⟨connHandle, params⟩ := event
    cases params <;> trivial

/-- **An update** is right exactly when as many packets are accepted as values sent, and each link has room
for the last notification. -/
theorem update_right (accounted : state.Accounted) (characteristic : LocalCharacteristic)
    (codes : Nat → UInt32) :
    StepRight state (.updateCharacteristicValue characteristic codes) := by
  have sends := central_update_sends state.central characteristic
    state.central.localCharacteristicInfo
  have calls : state.calls (.updateCharacteristicValue characteristic codes) =
      state.sent characteristic.id := sends.sent
  have spent : (state.sendable characteristic.id).length =
      min state.central.txBufferCount.toNat
        (attempts characteristic.id state.central.localCharacteristicInfo).length := List.length_take
  have conserved : (state.central.txBufferCount.toNat : Int) = freePackets state.links :=
    accounted.conserved
  have known : ∀ call ∈ state.sent characteristic.id,
      call.transferHandle ∈ handlesOf state.links := fun call member =>
    linkedHandles_live accounted.slotted (hvxCalls_notifications call member).1
  have links : (state.call (.updateCharacteristicValue characteristic codes)).links =
      state.links.map (LinkCredit.charge (state.sent characteristic.id) codes) := by
    rw [← calls]
    rfl
  have credit : (state.call (.updateCharacteristicValue characteristic
      codes)).central.txBufferCount.toNat = state.central.txBufferCount.toNat -
        (attempts characteristic.id state.central.localCharacteristicInfo).length := sends.credit
  have balance : (state.call (.updateCharacteristicValue characteristic codes)).Conserved ↔
      packets (state.sent characteristic.id) codes = (state.sendable characteristic.id).length := by
    rw [Conserved, links, credit, freePackets_charge_eq accounted.distinct known codes]
    omega
  have coveredAfter : NotifiesFree state.links (state.sent characteristic.id) codes →
      ∀ link ∈ (state.call (.updateCharacteristicValue characteristic codes)).links,
        link.inFlight ≤ link.granted.toNat := by
    intro notifiesFree link member
    rw [links] at member
    obtain ⟨before, beforeMember, rfl⟩ := List.mem_map.mp member
    exact covered_charge accounted.distinct accounted.covered
      (fun call inside => (hvxCalls_notifications call inside).2) notifiesFree before beforeMember
  have room : NotifiesFree state.links (state.sent characteristic.id) codes ↔
      RoomForLast state.links state.central.linkedHandles (state.sendable characteristic.id) codes :=
    notifiesFree_iff_room accounted.distinct (linkedHandles_nodup accounted.slotted)
      (fun _ linked => linkedHandles_live accounted.slotted linked) _ codes
  refine ⟨⟨?_, ?_⟩, ?_⟩
  · rintro ⟨after, notifiesFree, _⟩
    rw [calls] at notifiesFree
    exact ⟨balance.mp after, room.mp notifiesFree⟩
  · rintro ⟨balanced, roomForLast⟩
    have notifiesFree := room.mpr roomForLast
    have after := balance.mpr balanced
    refine ⟨after, ?_, ?_⟩
    · rw [calls]
      exact notifiesFree
    · -- What is refused has used up the byte, and with it all free packets.
      intro refused link member
      have success := sends.success
      rw [show (state.central.updateEntries characteristic
        state.central.localCharacteristicInfo).2.2 = false from refused] at success
      have more := of_decide_eq_false success.symm
      have empty : freePackets (state.call (.updateCharacteristicValue characteristic
          codes)).links = 0 := by
        rw [← show (_ : Int) = _ from after, credit]
        omega
      exact free_nonpos_of_sum (coveredAfter notifiesFree) empty link member
  · rintro _ ⟨notifiesFree, _⟩
    rw [calls] at notifiesFree
    exact coveredAfter notifiesFree

section Request

variable {input : CentralInput} {characteristic : Nat} {allowed : CentralCharacteristicInfo → Bool}
  {call : CentralCharacteristicInfo → UInt16 → StackCall} {codes : Nat → UInt32}

/-- The calls of a request go to links that are up. -/
theorem request_known (accounted : state.Accounted)
    (transfer : ∀ info connHandle, (call info connHandle).isTransfer)
    (linked : ∀ info connHandle, (call info connHandle).transferHandle = connHandle)
    (noNotification : ∀ info connHandle, (call info connHandle).isNotification = false) :
    ∀ made ∈ transfers (state.central.request characteristic allowed call codes).2.1,
      made.transferHandle ∈ handlesOf state.links ∧ made.isNotification = false := by
  by_cases sends : ∃ info, state.central.remoteInfo characteristic = some info ∧
      info.valueHandle ≠ 0 ∧ allowed info
  · obtain ⟨info, found, allows⟩ := sends
    rw [request_sends codes transfer found allows]
    intro made member
    obtain ⟨connHandle, target, rfl⟩ := List.mem_map.mp member
    rw [linked]
    exact ⟨targets_live accounted.slotted target, noNotification info connHandle⟩
  · rw [request_idle codes sends]
    exact fun _ member => absurd member List.not_mem_nil

/-- Requests that are no writes without response take no packets. -/
theorem request_packets (transfer : ∀ info connHandle, (call info connHandle).isTransfer)
    (noPacket : ∀ info connHandle, (call info connHandle).consumesPacket = false) :
    packets (transfers (state.central.request characteristic allowed call codes).2.1) codes = 0 := by
  rw [packets, List.length_eq_zero_iff, List.filter_eq_nil_iff]
  intro made acceptedCall
  have member := mem_of_accepted acceptedCall
  by_cases sends : ∃ info, state.central.remoteInfo characteristic = some info ∧
      info.valueHandle ≠ 0 ∧ allowed info
  · obtain ⟨info, found, allows⟩ := sends
    rw [request_sends codes transfer found allows] at member
    obtain ⟨connHandle, _, rfl⟩ := List.mem_map.mp member
    rw [noPacket]
    exact Bool.false_ne_true
  · rw [request_idle codes sends] at member
    exact absurd member List.not_mem_nil

end Request

/-- The stack accepts no packet of a write exactly when the write meets the condition. -/
theorem write_packets_iff (state : CentralCredit) (characteristic : Nat) (value : List UInt8)
    (codes : Nat → UInt32) :
    packets (transfers (state.central.writeRemoteCharacteristic characteristic value codes).2.1)
        codes = 0 ↔
      state.CallKeeps (.writeRemoteCharacteristic characteristic value codes) := by
  have transfer : ∀ (info : CentralCharacteristicInfo) (connHandle : UInt16), (StackCall.gattcWrite
      connHandle (Nrf51822.writeOp info.properties) info.valueHandle value).isTransfer :=
    fun _ _ => rfl
  unfold CentralRole.writeRemoteCharacteristic
  by_cases sends : ∃ info, state.central.remoteInfo characteristic = some info ∧
      info.valueHandle ≠ 0 ∧ (info.properties.writeWoResp || info.properties.write)
  · obtain ⟨info, found, allows⟩ := sends
    rw [request_sends codes transfer found allows]
    have only : state.CallKeeps (.writeRemoteCharacteristic characteristic value codes) ↔
        (info.properties.writeWoResp → info.properties.write = false →
          ∀ index < (state.central.targets info).length, codes index ≠ nrfSuccess) := by
      simp [CallKeeps, found, allows.1]
    rw [only, packets, List.length_eq_zero_iff, List.filter_eq_nil_iff]
    cases request : info.properties.write with
    | true =>
      refine iff_of_true (fun made acceptedCall => ?_) fun _ impossible => by cases impossible
      obtain ⟨connHandle, _, rfl⟩ := List.mem_map.mp (mem_of_accepted acceptedCall)
      simp [Nrf51822.writeOp, request]
    | false =>
      have without : info.properties.writeWoResp = true := by simpa [request] using allows.2
      have all : ∀ made ∈ (state.central.targets info).map (fun connHandle => StackCall.gattcWrite
          connHandle (Nrf51822.writeOp info.properties) info.valueHandle value),
          made.consumesPacket = true := by
        intro made member
        obtain ⟨connHandle, _, rfl⟩ := List.mem_map.mp member
        simp [Nrf51822.writeOp, request]
      have none : (∀ made ∈ accepted ((state.central.targets info).map fun connHandle =>
          StackCall.gattcWrite connHandle (Nrf51822.writeOp info.properties) info.valueHandle value)
          codes, ¬ made.consumesPacket = true) ↔
            accepted ((state.central.targets info).map fun connHandle => StackCall.gattcWrite
              connHandle (Nrf51822.writeOp info.properties) info.valueHandle value) codes = [] := by
        rw [List.eq_nil_iff_forall_not_mem]
        refine forall_congr' fun made => ⟨fun notPacket member => ?_, fun notMade member => ?_⟩
        · exact notPacket member (all made (mem_of_accepted member))
        · exact absurd member notMade
      rw [none, accepted_eq_nil_iff, List.length_map]
      simp [without]
  · rw [request_idle codes sends]
    refine iff_of_true rfl fun info found proper without => ?_
    exact absurd ⟨info, found, proper, by rw [without]; rfl⟩ sends

/-- **A write** is right exactly when the stack accepts no packet of it, for it is not charged. -/
theorem write_right (accounted : state.Accounted) (characteristic : Nat) (value : List UInt8)
    (codes : Nat → UInt32) :
    StepRight state (.writeRemoteCharacteristic characteristic value codes) := by
  have iff_none := write_packets_iff state characteristic value codes
  have known : ∀ made ∈ state.calls (.writeRemoteCharacteristic characteristic value codes),
      made.transferHandle ∈ handlesOf state.links ∧ made.isNotification = false :=
    request_known accounted (fun _ _ => rfl) (fun _ _ => rfl) (fun _ _ => rfl)
  have byte : (state.call (.writeRemoteCharacteristic characteristic value
      codes)).central.txBufferCount = state.central.txBufferCount := request_credit ..
  by_cases none : packets (state.calls (.writeRemoteCharacteristic characteristic value codes))
      codes = 0
  · exact quiet_right accounted byte rfl none known trivial (iff_none.mp none)
  · have unbalanced : ¬ (state.call (.writeRemoteCharacteristic characteristic value
        codes)).Conserved := by
      intro after
      have conserved : (state.central.txBufferCount.toNat : Int) = freePackets state.links :=
        accounted.conserved
      have charged : (state.central.txBufferCount.toNat : Int) = freePackets state.links -
          packets (state.calls (.writeRemoteCharacteristic characteristic value codes)) codes := by
        rw [← freePackets_charge_eq accounted.distinct (fun made member => (known made member).1),
          ← byte]
        exact after
      omega
    refine ⟨iff_of_false (fun both => unbalanced both.1) fun meets => none (iff_none.mpr meets), ?_⟩
    exact fun after => absurd after unbalanced

/-- A call or event is right exactly when it meets the condition. -/
theorem call_right {input : CentralInput} (accounted : state.Accounted) (legal : state.Expected input) :
    StepRight state input := by
  cases input with
  | event event =>
    cases changes : event.changesCredit with
    | false => exact otherEvent_right accounted changes
    | true =>
      match event, changes with
      | ⟨connHandle, .connected peerAddr txPacketCount⟩, _ =>
        exact connected_right accounted connHandle peerAddr txPacketCount
      | ⟨connHandle, .disconnected reason⟩, _ => exact disconnected_right accounted connHandle reason
      | ⟨connHandle, .txComplete count⟩, _ => exact txComplete_right accounted legal
  | updateCharacteristicValue characteristic codes =>
    exact update_right accounted characteristic codes
  | writeRemoteCharacteristic characteristic value codes =>
    exact write_right accounted characteristic value codes
  | readRemoteCharacteristic characteristic codes =>
    exact quiet_right accounted (request_credit ..) rfl
      (request_packets (fun _ _ => rfl) (fun _ _ => rfl))
      (request_known accounted (fun _ _ => rfl) (fun _ _ => rfl) (fun _ _ => rfl)) trivial trivial
  | subscribeRemoteCharacteristic characteristic codes =>
    exact quiet_right accounted (request_credit ..) rfl
      (request_packets (fun _ _ => rfl) (fun _ _ => rfl))
      (request_known accounted (fun _ _ => rfl) (fun _ _ => rfl) (fun _ _ => rfl)) trivial trivial
  | unsubcribeRemoteCharacteristic characteristic codes =>
    exact quiet_right accounted (request_credit ..) rfl
      (request_packets (fun _ _ => rfl) (fun _ _ => rfl))
      (request_known accounted (fun _ _ => rfl) (fun _ _ => rfl) (fun _ _ => rfl)) trivial trivial

/-- A right call or event keeps the invariant. -/
theorem accounted_call {input : CentralInput} (accounted : state.Accounted)
    (legal : state.Expected input) (conserved : (state.call input).Conserved)
    (fair : state.CallFair input) : (state.call input).Accounted where
  conserved := conserved
  distinct := (step_slotted accounted legal).1
  covered := (call_right accounted legal).covered conserved fair
  slotted := (step_slotted accounted legal).2

/-- Only an event is answered with an update, and one that leaves the byte alone. -/
theorem reply_update {turn : CentralTurn} {central : CentralRole} {update : CentralInput}
    (replied : turn.reply central = some update) :
    (∃ event, turn.input = .event event ∧ event.changesCredit = false) ∧
      ∃ characteristic codes, update = .updateCharacteristicValue characteristic codes := by
  unfold CentralTurn.reply at replied
  split at replied
  · rename_i event isEvent
    obtain ⟨written, told, rfl⟩ := Option.map_eq_some_iff.mp replied
    refine ⟨⟨event, isEvent, ?_⟩, _, _, rfl⟩
    by_contra changes
    rw [Bool.not_eq_false] at changes
    match event, changes with
    | ⟨connHandle, .connected peerAddr txPacketCount⟩, _ =>
      simp only [CentralRole.poll, CentralRole.onConnected] at told
      split_ifs at told <;> cases told
    | ⟨connHandle, .disconnected reason⟩, _ => cases told
    | ⟨connHandle, .txComplete count⟩, _ => cases told
  · cases replied

/-- **The step lemma.** A legal step is right exactly when it meets `KeepsPackets`, and a right step keeps
the invariant. -/
theorem step_right {turn : CentralTurn} (accounted : state.Accounted) (legal : state.Legal turn) :
    ((state.step turn).Conserved ∧ state.Fair turn ↔ state.KeepsPackets turn) ∧
      ((state.step turn).Conserved → state.Fair turn → (state.step turn).Accounted) := by
  have called := call_right accounted legal
  unfold step Fair KeepsPackets
  cases replied : turn.reply state.central with
  | none =>
    simp only [Option.mem_def, reduceCtorEq, false_implies, implies_true, and_true]
    exact ⟨called.iff, accounted_call accounted legal⟩
  | some update =>
    obtain ⟨⟨event, isEvent, same⟩, characteristic, codes, rfl⟩ := reply_update replied
    -- The event is right by itself, so all depends on the update.
    obtain ⟨conserved, fair⟩ := called.iff.mpr (by
      rw [isEvent]
      obtain ⟨connHandle, params⟩ := event
      cases params <;> trivial)
    have keeps := called.iff.mp ⟨conserved, fair⟩
    have between := accounted_call accounted legal conserved fair
    have updated := update_right between characteristic codes
    simp only [Option.mem_def, Option.some_inj, forall_eq', fair, keeps, true_and]
    exact ⟨updated.iff, fun after => accounted_call between ⟨rfl, trivial⟩ after⟩

/-- **In every run, the byte is the number of free packets in every state and every step is fair,
exactly when every step meets `KeepsPackets`.** -/
theorem central_credit_iff (central : CentralRole) (linksNo : UInt8) (turns : List CentralTurn)
    (legal : EachStep step Legal (.initial central linksNo) turns) :
    Always step Conserved (.initial central linksNo) turns ∧
        EachStep step Fair (.initial central linksNo) turns ↔
      EachStep step KeepsPackets (.initial central linksNo) turns := by
  have base := initial_accounted central linksNo
  have keep : ∀ (state : CentralCredit) (turn : CentralTurn), state.Accounted → state.Legal turn →
      (state.step turn).Conserved ∧ state.Fair turn → (state.step turn).Accounted :=
    fun _ _ accounted expected right => (step_right accounted expected).2 right.1 right.2
  have same : ∀ (state : CentralCredit) (turn : CentralTurn), state.Accounted → state.Legal turn →
      ((state.step turn).Conserved ∧ state.Fair turn ↔ state.KeepsPackets turn) :=
    fun _ _ accounted expected => (step_right accounted expected).1
  exact always_and_iff_of_invariant keep same base.conserved base legal

/-- A central role with one local characteristic, to whose notifications the peers have subscribed. -/
def oneNotified : CentralRole :=
  { emptyCentral with localCharacteristicInfo := [⟨1, none, 10, 11, true, false⟩] }

/-- A call or event; the characteristics have room for 20 bytes. -/
def turnWith (codes : Nat → UInt32) (input : CentralInput) : CentralTurn :=
  ⟨input, fun _ => twentyBytes, codes⟩

/-- The answers of the stack when it refuses the first transfer. -/
def firstRefused : Nat → UInt32
  | 0 => 8
  | _ => nrfSuccess

/-- A link comes up with two packets, and both are sent in notifications: one of a value the program sets,
one of a value the peer writes. A second link comes up, and the packets of the first complete. The value is
written again: the stack refuses the notification on the first link and accepts it on the second. -/
def twoLinks : List CentralTurn :=
  [turnWith (fun _ => nrfSuccess) (.event ⟨0, .connected (.replicate 6 1) 2⟩),
    turnWith (fun _ => nrfSuccess)
      (.updateCharacteristicValue ⟨1, 0x1A, [7], by decide⟩ fun _ => nrfSuccess),
    turnWith (fun _ => nrfSuccess) (.event ⟨0, .gattsWrite 10 [8]⟩),
    turnWith (fun _ => nrfSuccess) (.event ⟨1, .connected (.replicate 6 2) 2⟩),
    turnWith (fun _ => nrfSuccess) (.event ⟨0, .txComplete 2⟩),
    turnWith firstRefused (.event ⟨1, .gattsWrite 10 [9]⟩)]

theorem central_credit_iff_twoLinks :
    Always step Conserved (.initial oneNotified 2) twoLinks ∧
      EachStep step Fair (.initial oneNotified 2) twoLinks :=
  (central_credit_iff oneNotified 2 twoLinks (by decide)).mpr (by decide)

/-- **A second link overwrites the byte**: two links come up with six packets each. -/
theorem second_link_overwrites :
    ¬ ∀ (central : CentralRole) (linksNo : UInt8) (turns : List CentralTurn),
      EachStep step Legal (.initial central linksNo) turns →
      Always step Conserved (.initial central linksNo) turns ∧
        EachStep step Fair (.initial central linksNo) turns := by
  intro always
  have conserved := (always emptyCentral 2
    [turnWith (fun _ => nrfSuccess) (connection 0), turnWith (fun _ => nrfSuccess) (connection 1)]
    (by decide)).1.last
  exact absurd conserved (by decide)

end CentralCredit

end PrimoCore.Ble
