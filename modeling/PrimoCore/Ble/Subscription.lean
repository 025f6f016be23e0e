/-
**The subscriptions of the local characteristics.**

A peer subscribes by a write of the CCCD. Both roles keep two flags of it in the entry of the
characteristic and a third, `subscribed()`, in the characteristic, which is told of changes only. The
peripheral role clears all three when its peer goes, the central role none.

* `SubscriptionTable` — what a role keeps; `write` is what a CCCD write is to make of it.
* `writeLoop`, `writeLoop_eq` — the loop of both roles, and that it makes that of it.
* `Peers` — the links that are up and what their peers have written; `Peers.flags` is the last write of
  a CCCD.
* `SubscriptionsRight` — **what the table is to satisfy**, and what each event makes of it.
* `KeepsSubscriptions` — what a step must meet: a link that ends leaves no last write that differs.
* `subscriptions_right_iff` — **over every run of both roles**, the subscriptions are right in every
  state exactly when every step of the central role meets `KeepsSubscriptions`.
-/

import Mathlib.Data.List.Nodup
import Mathlib.Logic.Function.Basic
import PrimoCore.Ble.CentralLinks
import PrimoCore.Ble.Credit

namespace PrimoCore.Ble

open PrimoCore.Lib

/-! ### What a role keeps -/

/-- The two bits of a CCCD: notifications and indications. -/
def cccdFlags (data : List UInt8) : Bool × Bool :=
  (data.getD 0 0 &&& 0x01 ≠ 0, data.getD 0 0 &&& 0x02 ≠ 0)

namespace LocalCharacteristicInfo

/-- The two flags. -/
def flags (info : LocalCharacteristicInfo) : Bool × Bool :=
  (info.notifySubscribed, info.indicateSubscribed)

/-- The entry after a write of its CCCD. -/
def subscribe (info : LocalCharacteristicInfo) (data : List UInt8) : LocalCharacteristicInfo :=
  { info with notifySubscribed := (cccdFlags data).1, indicateSubscribed := (cccdFlags data).2 }

@[simp] theorem subscribe_characteristic (info : LocalCharacteristicInfo) (data : List UInt8) :
    (info.subscribe data).characteristic = info.characteristic := rfl

@[simp] theorem subscribe_valueHandle (info : LocalCharacteristicInfo) (data : List UInt8) :
    (info.subscribe data).valueHandle = info.valueHandle := rfl

@[simp] theorem subscribe_cccdHandle (info : LocalCharacteristicInfo) (data : List UInt8) :
    (info.subscribe data).cccdHandle = info.cccdHandle := rfl

@[simp] theorem subscribe_flags (info : LocalCharacteristicInfo) (data : List UInt8) :
    (info.subscribe data).flags = cccdFlags data := rfl

end LocalCharacteristicInfo

/-- What a role keeps of the subscriptions: the entries of the local characteristics, and `subscribed()`
of each. -/
structure SubscriptionTable where
  infos : List LocalCharacteristicInfo
  subscribed : Nat → Bool

def Nrf51822.table (device : Nrf51822) : SubscriptionTable :=
  ⟨device.localCharacteristicInfo, device.subscribed⟩

def CentralRole.table (central : CentralRole) : SubscriptionTable :=
  ⟨central.localCharacteristicInfo, central.subscribed⟩

namespace SubscriptionTable

/-- The table after a write of the CCCD with a handle. -/
def write (table : SubscriptionTable) (handle : UInt16) (data : List UInt8) : SubscriptionTable where
  infos := table.infos.map fun info => if info.cccdHandle = handle then info.subscribe data else info
  subscribed := fun characteristic =>
    if table.infos.any fun info => info.cccdHandle = handle ∧ info.characteristic = characteristic then
      (cccdFlags data).1 || (cccdFlags data).2
    else table.subscribed characteristic

/-- The table with nobody subscribed. -/
def cleared (table : SubscriptionTable) : SubscriptionTable where
  infos := table.infos.map fun info =>
    { info with notifySubscribed := false, indicateSubscribed := false }
  subscribed := fun characteristic =>
    if table.infos.any fun info => info.characteristic = characteristic then false
    else table.subscribed characteristic

/-- Each characteristic has one entry, and the stack gives each attribute a handle of its own; a
characteristic without CCCD has the handle zero there. -/
structure Distinct (table : SubscriptionTable) : Prop where
  characteristics : (table.infos.map LocalCharacteristicInfo.characteristic).Nodup
  cccds : ((table.infos.map LocalCharacteristicInfo.cccdHandle).filter (· ≠ 0)).Nodup
  values : ∀ info ∈ table.infos, ∀ other ∈ table.infos, info.valueHandle ≠ other.cccdHandle

/-- The table as `begin` leaves it. -/
structure Begun (table : SubscriptionTable) : Prop extends Distinct table where
  clear : ∀ info ∈ table.infos,
    info.notifySubscribed = false ∧ info.indicateSubscribed = false ∧
      table.subscribed info.characteristic = false

instance (table : SubscriptionTable) : Decidable table.Distinct :=
  decidable_of_iff (_ ∧ _ ∧ _) ⟨fun ⟨a, b, c⟩ => ⟨a, b, c⟩, fun ⟨a, b, c⟩ => ⟨a, b, c⟩⟩

instance (table : SubscriptionTable) : Decidable table.Begun :=
  decidable_of_iff (table.Distinct ∧ _) ⟨fun ⟨a, b⟩ => ⟨a, b⟩, fun ⟨a, b⟩ => ⟨a, b⟩⟩

/-- What a write and a disconnection leave alone. -/
def layout (table : SubscriptionTable) : List (Nat × UInt16 × UInt16) :=
  table.infos.map fun info => (info.characteristic, info.valueHandle, info.cccdHandle)

theorem Distinct.congr {table other : SubscriptionTable} (distinct : table.Distinct)
    (same : other.layout = table.layout) : other.Distinct := by
  have characteristics := congrArg (List.map fun entry => entry.1) same
  have cccds := congrArg (List.map fun entry => entry.2.2) same
  simp only [layout, List.map_map] at characteristics cccds
  -- Each entry of the other table has the handles of an entry of this one.
  have original : ∀ entry ∈ other.infos, ∃ info ∈ table.infos,
      info.valueHandle = entry.valueHandle ∧ info.cccdHandle = entry.cccdHandle := by
    intro entry member
    have inside : (entry.characteristic, entry.valueHandle, entry.cccdHandle) ∈ table.layout :=
      same ▸ List.mem_map_of_mem member
    obtain ⟨info, was, handles⟩ := List.mem_map.mp inside
    simp only [Prod.mk.injEq] at handles
    exact ⟨info, was, handles.2⟩
  refine ⟨?_, ?_, ?_⟩
  · exact characteristics ▸ distinct.characteristics
  · exact cccds ▸ distinct.cccds
  · intro first firstMember second secondMember
    obtain ⟨info, infoMember, value, -⟩ := original first firstMember
    obtain ⟨entry, entryMember, -, cccd⟩ := original second secondMember
    rw [← value, ← cccd]
    exact distinct.values info infoMember entry entryMember

theorem write_layout (table : SubscriptionTable) (handle : UInt16) (data : List UInt8) :
    (table.write handle data).layout = table.layout := by
  simp only [layout, write, List.map_map]
  refine List.map_congr_left fun info _ => ?_
  simp only [Function.comp_apply]
  split_ifs <;> rfl

theorem cleared_layout (table : SubscriptionTable) : table.cleared.layout = table.layout := by
  simp only [layout, cleared, List.map_map]
  rfl

/-- Entries with one characteristic are one entry. -/
theorem Distinct.eq_of_characteristic {table : SubscriptionTable} (distinct : table.Distinct)
    {info other : LocalCharacteristicInfo} (first : info ∈ table.infos)
    (second : other ∈ table.infos) (same : info.characteristic = other.characteristic) :
    info = other :=
  List.inj_on_of_nodup_map distinct.characteristics first second same

/-! ### The loop of a write -/

/-- The loop of `BLE_GATTS_EVT_WRITE` on what it reads and changes, from some entries on: the same in
both roles. -/
def writeLoop (subscribed : Nat → Bool) (handle : UInt16) (data : List UInt8)
    (passed : List LocalCharacteristicInfo) : List LocalCharacteristicInfo → SubscriptionTable
  | [] => ⟨passed, subscribed⟩
  | info :: rest =>
      if info.valueHandle = handle then ⟨passed ++ info :: rest, subscribed⟩
      else if info.cccdHandle = handle then
        let notify := data.getD 0 0 &&& 0x01 ≠ 0
        let indicate := data.getD 0 0 &&& 0x02 ≠ 0
        let info := { info with notifySubscribed := notify, indicateSubscribed := indicate }
        let now := decide notify || decide indicate
        if now ≠ subscribed info.characteristic then
          ⟨passed ++ info :: rest, Function.update subscribed info.characteristic now⟩
        else writeLoop subscribed handle data (passed ++ [info]) rest
      else writeLoop subscribed handle data (passed ++ [info]) rest

end SubscriptionTable

theorem Nrf51822.writeLocal_table (device : Nrf51822) (handle : UInt16) (data : List UInt8)
    (passed infos : List LocalCharacteristicInfo) :
    (device.writeLocal handle data passed infos).1.table =
      SubscriptionTable.writeLoop device.subscribed handle data passed infos := by
  induction infos generalizing passed with
  | nil => rfl
  | cons info rest ih =>
    simp only [Nrf51822.writeLocal, SubscriptionTable.writeLoop]
    split_ifs
    · rfl
    · rfl
    · exact ih _
    · exact ih _

theorem CentralRole.writeLocal_table (central : CentralRole) (node : BLENode) (handle : UInt16)
    (data : List UInt8) (passed infos : List LocalCharacteristicInfo) :
    (central.writeLocal node handle data passed infos).1.table =
      SubscriptionTable.writeLoop central.subscribed handle data passed infos := by
  induction infos generalizing passed with
  | nil => rfl
  | cons info rest ih =>
    simp only [CentralRole.writeLocal, SubscriptionTable.writeLoop]
    split_ifs
    · rfl
    · rfl
    · exact ih _
    · exact ih _

namespace SubscriptionTable

/-- Entries of which none has the CCCD handle are left alone. -/
theorem write_none {infos : List LocalCharacteristicInfo} {handle : UInt16}
    (none : ∀ info ∈ infos, info.cccdHandle ≠ handle) (subscribed : Nat → Bool) (data : List UInt8) :
    write ⟨infos, subscribed⟩ handle data = ⟨infos, subscribed⟩ := by
  have same : infos.map (fun info => if info.cccdHandle = handle then info.subscribe data else info) =
      infos := by
    refine (List.map_congr_left fun info member => if_neg (none info member)).trans ?_
    exact List.map_id' infos
  have absent : ∀ characteristic, (infos.any fun info =>
      decide (info.cccdHandle = handle ∧ info.characteristic = characteristic)) = false := by
    intro characteristic
    rw [List.any_eq_false]
    intro info member
    simp [none info member]
  simp only [write, same, absent]
  rfl

/-- An entry without the CCCD handle is passed by. -/
theorem write_cons_of_ne {info : LocalCharacteristicInfo} {handle : UInt16}
    (other : info.cccdHandle ≠ handle) (rest : List LocalCharacteristicInfo)
    (subscribed : Nat → Bool) (data : List UInt8) :
    write ⟨info :: rest, subscribed⟩ handle data =
      ⟨info :: (write ⟨rest, subscribed⟩ handle data).infos,
        (write ⟨rest, subscribed⟩ handle data).subscribed⟩ := by
  simp [write, other]

/-- The first entry with the CCCD handle is the only one. -/
theorem write_cons_of_eq {info : LocalCharacteristicInfo} {rest : List LocalCharacteristicInfo}
    {handle : UInt16} (here : info.cccdHandle = handle)
    (none : ∀ later ∈ rest, later.cccdHandle ≠ handle) (subscribed : Nat → Bool)
    (data : List UInt8) :
    write ⟨info :: rest, subscribed⟩ handle data =
      ⟨info.subscribe data :: rest, Function.update subscribed info.characteristic
        ((cccdFlags data).1 || (cccdFlags data).2)⟩ := by
  have later := write_none none subscribed data
  simp only [write, mk.injEq] at later
  simp only [write, mk.injEq, List.map_cons, if_pos here, later.1, true_and]
  funext characteristic
  have absent := congrFun later.2 characteristic
  by_cases same : characteristic = info.characteristic
  · subst same
    simp [here]
  · rw [Function.update_of_ne same]
    simpa [here, Ne.symm same] using absent

/-- **The loop does what the write is to do**, where the handles are distinct. -/
theorem writeLoop_eq {subscribed : Nat → Bool} {handle : UInt16} (data : List UInt8)
    {infos : List LocalCharacteristicInfo} (proper : handle ≠ 0) (distinct : Distinct ⟨infos, subscribed⟩)
    (passed : List LocalCharacteristicInfo) :
    writeLoop subscribed handle data passed infos =
      ⟨passed ++ (write ⟨infos, subscribed⟩ handle data).infos,
        (write ⟨infos, subscribed⟩ handle data).subscribed⟩ := by
  induction infos generalizing passed with
  | nil => simp [writeLoop, write]
  | cons info rest ih =>
    have tail : Distinct ⟨rest, subscribed⟩ := by
      refine ⟨(List.nodup_cons.mp distinct.characteristics).2, ?_, ?_⟩
      · exact distinct.cccds.sublist ((List.sublist_cons_self _ _).filter _)
      · intro value member cccd inside
        exact distinct.values value (List.mem_cons_of_mem _ member) cccd
          (List.mem_cons_of_mem _ inside)
    simp only [writeLoop]
    by_cases isValue : info.valueHandle = handle
    · have none : ∀ entry ∈ info :: rest, entry.cccdHandle ≠ handle := by
        intro entry member same
        exact distinct.values info (List.mem_cons_self ..) entry member (isValue.trans same.symm)
      rw [if_pos isValue, write_none none]
    · rw [if_neg isValue]
      by_cases isCccd : info.cccdHandle = handle
      · have none : ∀ later ∈ rest, later.cccdHandle ≠ handle := by
          intro later member same
          have nodup := distinct.cccds
          rw [List.map_cons, List.filter_cons_of_pos (by simp [isCccd, proper]), List.nodup_cons,
            isCccd] at nodup
          refine nodup.1 (List.mem_filter.mpr ⟨same ▸ List.mem_map_of_mem member, ?_⟩)
          simp [proper]
        rw [if_pos isCccd, write_cons_of_eq isCccd none]
        split_ifs with changed
        · rfl
        · -- The loop goes on over entries the handle is none of.
          have unchanged : ((cccdFlags data).1 || (cccdFlags data).2) = subscribed info.characteristic :=
            not_not.mp changed
          rw [ih tail, write_none none, unchanged, Function.update_eq_self, List.append_assoc,
            List.singleton_append]
          rfl
      · rw [if_neg isCccd, ih tail, write_cons_of_ne isCccd, List.append_assoc,
          List.singleton_append]

end SubscriptionTable

/-! ### What the peers have written -/

/-- A write of a local attribute by a peer. -/
structure PeerWrite where
  connHandle : UInt16
  handle : UInt16
  data : List UInt8
  deriving DecidableEq, Repr

/-- The links that are up, and what their peers have written over them, the last write first. -/
structure Peers where
  live : List UInt16
  writes : List PeerWrite
  deriving DecidableEq, Repr

namespace Peers

/-- No link has been up. -/
def nobody : Peers := ⟨[], []⟩

/-- The peers after an event. What is written over a link ends with it. -/
def after (peers : Peers) : StackEvent → Peers
  | ⟨connHandle, .connected _ _⟩ => { peers with live := connHandle :: peers.live }
  | ⟨connHandle, .disconnected _⟩ =>
      ⟨peers.live.filter (· ≠ connHandle), peers.writes.filter (·.connHandle ≠ connHandle)⟩
  | ⟨connHandle, .gattsWrite handle data⟩ =>
      { peers with writes := ⟨connHandle, handle, data⟩ :: peers.writes }
  | _ => peers

/-- The flags the last write of a CCCD asks for; none, when there is no write. -/
def flags (peers : Peers) (cccdHandle : UInt16) : Bool × Bool :=
  match peers.writes.find? fun write => write.handle = cccdHandle with
  | some write => cccdFlags write.data
  | none => (false, false)

/-- The stack reports a new link under a handle of its own, as long as it has links left, and the end of
a link and a write over a link when the link is up. No attribute has the handle zero. -/
def expects (peers : Peers) (links : Nat) : StackEvent → Bool
  | ⟨connHandle, .connected _ _⟩ =>
      connHandle ∉ peers.live && connHandle ≠ connHandleInvalid && peers.live.length < links
  | ⟨connHandle, .disconnected _⟩ => connHandle ∈ peers.live
  | ⟨connHandle, .gattsWrite handle _⟩ => connHandle ∈ peers.live && handle ≠ 0
  | _ => true

/-- What has been written has been written over links that are up. -/
def Owned (peers : Peers) : Prop := ∀ write ∈ peers.writes, write.connHandle ∈ peers.live

theorem flags_wrote (peers : Peers) (connHandle handle cccdHandle : UInt16) (data : List UInt8) :
    (peers.after ⟨connHandle, .gattsWrite handle data⟩).flags cccdHandle =
      if cccdHandle = handle then cccdFlags data else peers.flags cccdHandle := by
  by_cases same : handle = cccdHandle
  · simp [after, flags, same]
  · simp [after, flags, same, Ne.symm same]

theorem flags_of_alone {peers : Peers} (owned : peers.Owned) (alone : peers.live = [])
    (cccdHandle : UInt16) : peers.flags cccdHandle = (false, false) := by
  have unwritten : peers.writes = [] := by
    rw [List.eq_nil_iff_forall_not_mem]
    intro write member
    have up := owned write member
    rw [alone] at up
    exact absurd up List.not_mem_nil
  simp [flags, unwritten]

theorem owned_after {peers : Peers} {links : Nat} {event : StackEvent} (owned : peers.Owned)
    (expected : peers.expects links event) : (peers.after event).Owned := by
  obtain ⟨connHandle, params⟩ := event
  cases params with
  | connected peerAddr txPacketCount =>
    exact fun write member => List.mem_cons_of_mem _ (owned write member)
  | disconnected reason =>
    intro write member
    obtain ⟨was, other⟩ := List.mem_filter.mp member
    exact List.mem_filter.mpr ⟨owned write was, other⟩
  | gattsWrite handle data =>
    intro write member
    have up : connHandle ∈ peers.live ∧ handle ≠ 0 := by simpa [expects] using expected
    rcases List.mem_cons.mp member with rfl | before
    · exact up.1
    · exact owned write before
  | _ => exact owned

end Peers

/-! ### What the table is to satisfy -/

/-- **What the subscriptions are to satisfy.** `subscribed()` is the disjunction of the flags, the flags
are those of the last CCCD write of the current connections, and without a connection all three are
clear. -/
structure SubscriptionsRight (table : SubscriptionTable) (peers : Peers) : Prop where
  agrees : ∀ info ∈ table.infos,
    table.subscribed info.characteristic = (info.notifySubscribed || info.indicateSubscribed)
  last : ∀ info ∈ table.infos, info.flags = peers.flags info.cccdHandle
  alone : peers.live = [] → ∀ info ∈ table.infos,
    info.notifySubscribed = false ∧ info.indicateSubscribed = false ∧
      table.subscribed info.characteristic = false

instance (table : SubscriptionTable) (peers : Peers) : Decidable (SubscriptionsRight table peers) :=
  decidable_of_iff (_ ∧ _ ∧ (_ → _)) ⟨fun ⟨a, b, c⟩ => ⟨a, b, c⟩, fun ⟨a, b, c⟩ => ⟨a, b, c⟩⟩

section Right

variable {table : SubscriptionTable} {peers : Peers}

theorem right_of_begun (begun : table.Begun) : SubscriptionsRight table .nobody where
  agrees := by
    intro info member
    obtain ⟨notify, indicate, none⟩ := begun.clear info member
    rw [notify, indicate, none]
    rfl
  last := by
    intro info member
    obtain ⟨notify, indicate, _⟩ := begun.clear info member
    exact Prod.ext notify indicate
  alone := fun _ => begun.clear

theorem right_connected (right : SubscriptionsRight table peers) (connHandle : UInt16)
    (peerAddr : Vector UInt8 6) (txPacketCount : UInt8) :
    SubscriptionsRight table (peers.after ⟨connHandle, .connected peerAddr txPacketCount⟩) where
  agrees := right.agrees
  last := right.last
  alone := fun none => absurd none (List.cons_ne_nil _ _)

/-- **A write is right**: the table and the last writes change alike. -/
theorem right_wrote (right : SubscriptionsRight table peers) (distinct : table.Distinct)
    {connHandle : UInt16} (up : connHandle ∈ peers.live) (handle : UInt16) (data : List UInt8) :
    SubscriptionsRight (table.write handle data)
      (peers.after ⟨connHandle, .gattsWrite handle data⟩) where
  agrees := by
    intro written member
    obtain ⟨info, was, rfl⟩ := List.mem_map.mp member
    by_cases here : info.cccdHandle = handle
    · have any : (table.infos.any fun entry =>
          decide (entry.cccdHandle = handle ∧ entry.characteristic = info.characteristic)) = true :=
        List.any_eq_true.mpr ⟨info, was, by simp [here]⟩
      rw [if_pos here]
      simp only [SubscriptionTable.write, LocalCharacteristicInfo.subscribe, any, if_true]
    · have none : (table.infos.any fun entry =>
          decide (entry.cccdHandle = handle ∧ entry.characteristic = info.characteristic)) = false := by
        rw [List.any_eq_false]
        intro entry other matched
        obtain ⟨cccd, same⟩ := of_decide_eq_true matched
        exact here (distinct.eq_of_characteristic other was same ▸ cccd)
      rw [if_neg here]
      simp only [SubscriptionTable.write, none, Bool.false_eq_true, if_false]
      exact right.agrees info was
  last := by
    intro written member
    obtain ⟨info, was, rfl⟩ := List.mem_map.mp member
    by_cases here : info.cccdHandle = handle
    · rw [if_pos here, Peers.flags_wrote, info.subscribe_cccdHandle, if_pos here]
      rfl
    · rw [if_neg here, Peers.flags_wrote, if_neg here]
      exact right.last info was
  alone := by
    intro none
    rw [show peers.live = [] from none] at up
    exact absurd up List.not_mem_nil

/-- A cleared table is right when no peer is connected. -/
theorem right_cleared (owned : peers.Owned) (alone : peers.live = []) :
    SubscriptionsRight table.cleared peers := by
  have clear : ∀ info ∈ table.cleared.infos, info.notifySubscribed = false ∧
      info.indicateSubscribed = false ∧ table.cleared.subscribed info.characteristic = false := by
    intro cleared member
    obtain ⟨info, was, rfl⟩ := List.mem_map.mp member
    have any : (table.infos.any fun entry =>
        decide (entry.characteristic = info.characteristic)) = true :=
      List.any_eq_true.mpr ⟨info, was, decide_eq_true rfl⟩
    exact ⟨rfl, rfl, if_pos any⟩
  refine ⟨?_, ?_, fun _ => clear⟩
  · intro info member
    obtain ⟨notify, indicate, none⟩ := clear info member
    rw [notify, indicate, none]
    rfl
  · intro info member
    obtain ⟨notify, indicate, _⟩ := clear info member
    rw [Peers.flags_of_alone owned alone]
    exact Prod.ext notify indicate

/-- **A table that is left alone** stays right exactly when the last writes stay the same. -/
theorem right_left_iff {remaining : Peers} (right : SubscriptionsRight table peers)
    (owned : remaining.Owned) : SubscriptionsRight table remaining ↔
      ∀ info ∈ table.infos, remaining.flags info.cccdHandle = peers.flags info.cccdHandle := by
  constructor
  · intro after info member
    rw [← after.last info member, ← right.last info member]
  · intro same
    have last : ∀ info ∈ table.infos, info.flags = remaining.flags info.cccdHandle :=
      fun info member => (right.last info member).trans (same info member).symm
    refine ⟨right.agrees, last, ?_⟩
    intro alone info member
    have clear : info.flags = (false, false) :=
      (last info member).trans (Peers.flags_of_alone owned alone _)
    have notify : info.notifySubscribed = false := congrArg Prod.fst clear
    have indicate : info.indicateSubscribed = false := congrArg Prod.snd clear
    refine ⟨notify, indicate, ?_⟩
    rw [right.agrees info member, notify, indicate]
    rfl

end Right

/-- No current connection has subscribed to the characteristic. -/
def NoneSubscribed (table : SubscriptionTable) (peers : Peers) (characteristic : Nat) : Prop :=
  ∀ info ∈ table.infos, info.characteristic = characteristic →
    peers.flags info.cccdHandle = (false, false)

/-! ### What the roles make of the table -/

/-- The input is a disconnection, or a write of a local attribute. -/
def StackEvent.touchesTable : StackEvent → Bool
  | ⟨_, .disconnected _⟩ | ⟨_, .gattsWrite _ _⟩ => true
  | _ => false

namespace Nrf51822

/-- The loop of a disconnection takes `subscribed()` from each characteristic. -/
theorem unsubscribe_fold (infos : List LocalCharacteristicInfo)
    (done : Nrf51822 × List (Output Notice)) :
    (infos.foldl unsubscribe done).1.localCharacteristicInfo = done.1.localCharacteristicInfo ∧
      (infos.foldl unsubscribe done).1.subscribed = fun characteristic =>
        if infos.any fun info => info.characteristic = characteristic then false
        else done.1.subscribed characteristic := by
  induction infos generalizing done with
  | nil => exact ⟨rfl, rfl⟩
  | cons info rest ih =>
    obtain ⟨infosSame, subscribedAfter⟩ := ih (unsubscribe done info)
    rw [List.foldl_cons]
    constructor
    · rw [infosSame, unsubscribe]
      split_ifs <;> rfl
    · rw [subscribedAfter]
      funext characteristic
      have told : (unsubscribe done info).1.subscribed characteristic =
          if info.characteristic = characteristic then false
          else done.1.subscribed characteristic := by
        unfold unsubscribe
        split_ifs with was same same
        · simp [setSubscribed, same]
        · simp [setSubscribed, Function.update_of_ne (Ne.symm same)]
        · rw [← same]
          exact Bool.eq_false_iff.mpr was
        · rfl
      rw [told, List.any_cons]
      by_cases same : info.characteristic = characteristic
      · simp [same]
      · simp [same]

theorem onDisconnected_table (device : Nrf51822) (reason : UInt8) :
    (device.onDisconnected reason).1.table = device.table.cleared := by
  obtain ⟨infos, subscribed⟩ := unsubscribe_fold device.localCharacteristicInfo
    ({ device with
        connectionHandle := connHandleInvalid, txBufferCount := 0
        localCharacteristicInfo := device.localCharacteristicInfo.map fun info =>
          { info with notifySubscribed := false, indicateSubscribed := false } }, [])
  exact congrArg₂ SubscriptionTable.mk infos subscribed

theorem broadcast_table (device : Nrf51822) (uninit : Memory UInt8)
    (characteristic : LocalCharacteristic) :
    (device.broadcast uninit characteristic).1.table = device.table := by
  unfold broadcast
  split
  · rfl
  · split
    · split
      · split <;> rfl
      · rfl
    · rfl

theorem sendValue_table (device : Nrf51822) (subscribed : Bool) (handle : UInt16) (type : HvxType) :
    (device.sendValue subscribed handle type).1.table = device.table := by
  unfold sendValue
  split_ifs <;> rfl

theorem updateEntries_table (device : Nrf51822) (uninit : Memory UInt8)
    (characteristic : LocalCharacteristic) (infos : List LocalCharacteristicInfo) :
    (device.updateEntries uninit characteristic infos).1.table = device.table := by
  induction infos generalizing device with
  | nil => rfl
  | cons info rest ih =>
    have advertised : (if device.broadcastCharacteristic = some characteristic.id then
        device.broadcast uninit characteristic else (device, [], false)).1.table = device.table := by
      split_ifs
      · exact broadcast_table device uninit characteristic
      · rfl
    rw [updateEntries]
    split_ifs
    · exact (ih _).trans
        ((sendValue_table _ _ _ _).trans ((sendValue_table _ _ _ _).trans advertised))
    · exact ih device

/-- **An event that is no disconnection and no write leaves the table alone.** -/
theorem poll_table (device : Nrf51822) {event : StackEvent} (other : event.touchesTable = false) :
    (device.poll event).1.table = device.table := by
  obtain ⟨connHandle, params⟩ := event
  cases params with
  | disconnected reason => cases other
  | gattsWrite handle data => cases other
  | primSrvcDiscRsp gattStatus services last =>
    obtain ⟨_, _, after⟩ := device.onServices_changes gattStatus services last
    simp only [poll, table, after]
  | charDiscRsp gattStatus chars =>
    obtain ⟨_, _, after⟩ := device.onChars_changes gattStatus chars
    simp only [poll, table, after]
  | _ => rfl

/-- **A call leaves the table alone.** -/
theorem call_table (device : Nrf51822) {input : DeviceInput} (call : ∀ event, input ≠ .event event) :
    (device.step input).1.table = device.table := by
  cases input with
  | event event => exact absurd rfl (call event)
  | updateCharacteristicValue uninit characteristic codes =>
    exact updateEntries_table device uninit characteristic _
  | broadcastCharacteristic uninit characteristic =>
    exact broadcast_table device uninit characteristic
  | readRemoteCharacteristic characteristic code =>
    simp only [step, readRemoteCharacteristic]
    split
    · split_ifs <;> rfl
    · rfl
  | writeRemoteCharacteristic characteristic value code =>
    simp only [step, writeRemoteCharacteristic]
    split
    · split_ifs <;> rfl
    · rfl
  | subscribeRemoteCharacteristic characteristic code =>
    simp only [step, subscribeRemoteCharacteristic, writeCccd]
    split
    · split_ifs <;> rfl
    · rfl
  | unsubcribeRemoteCharacteristic characteristic code =>
    simp only [step, unsubcribeRemoteCharacteristic, writeCccd]
    split
    · split_ifs <;> rfl
    · rfl

/-- **An update nobody has subscribed to** sends nothing and costs nothing. -/
theorem update_silent (device : Nrf51822) (uninit : Memory UInt8)
    (characteristic : LocalCharacteristic)
    (none : ∀ info ∈ device.localCharacteristicInfo, info.characteristic = characteristic.id →
      info.flags = (false, false)) :
    transfers (device.updateCharacteristicValue uninit characteristic).2.1 = [] ∧
      (device.updateCharacteristicValue uninit characteristic).1.txBufferCount =
        device.txBufferCount := by
  have nothing : ∀ infos : List LocalCharacteristicInfo, (∀ info ∈ infos,
      info.characteristic = characteristic.id → info.flags = (false, false)) →
      attempts characteristic.id infos = [] := by
    intro infos clear
    induction infos with
    | nil => rfl
    | cons info rest ih =>
      have later := ih fun info member => clear info (List.mem_cons_of_mem _ member)
      rw [attempts, later]
      split_ifs with isEntry
      · have flags := clear info (List.mem_cons_self ..) isEntry
        have notify : info.notifySubscribed = false := congrArg Prod.fst flags
        have indicate : info.indicateSubscribed = false := congrArg Prod.snd flags
        simp [LocalCharacteristicInfo.values, notify, indicate]
      · rfl
  have sends := updateEntries_sends device uninit characteristic device.localCharacteristicInfo
  rw [nothing _ none] at sends
  constructor
  · exact sends.sent.trans (by rw [List.take_nil, List.map_nil])
  · exact UInt8.toNat_inj.mp sends.credit

end Nrf51822

namespace CentralRole

theorem request_table (central : CentralRole) (characteristic : Nat)
    (allowed : CentralCharacteristicInfo → Bool)
    (call : CentralCharacteristicInfo → UInt16 → StackCall) (codes : Nat → UInt32) :
    (central.request characteristic allowed call codes).1.table = central.table := by
  obtain ⟨_, after⟩ := central.request_changes characteristic allowed call codes
  rw [after]
  rfl

/-- **Only a write changes the table**: a disconnection does not. -/
theorem poll_table (central : CentralRole) (event : StackEvent)
    (other : ∀ connHandle handle data, event ≠ ⟨connHandle, .gattsWrite handle data⟩) :
    (central.poll event).1.table = central.table := by
  obtain ⟨connHandle, params⟩ := event
  cases params with
  | gattsWrite handle data => exact absurd rfl (other connHandle handle data)
  | primSrvcDiscRsp gattStatus services last =>
    obtain ⟨_, _, after⟩ := central.onServices_changes connHandle gattStatus services last
    simp only [poll, table, after]
  | charDiscRsp gattStatus chars =>
    obtain ⟨_, _, after⟩ := central.onChars_changes connHandle gattStatus chars
    simp only [poll, table, after]
  | readRsp gattStatus handle data =>
    obtain ⟨_, after⟩ := central.onReadRsp_changes connHandle gattStatus handle data
    simp only [poll, table, after]
  | writeRsp gattStatus => simp only [poll, table, onWriteRsp_changes]
  | hvx type handle data =>
    obtain ⟨_, after⟩ := central.onHvx_changes connHandle type handle data
    simp only [poll, table, after]
  | _ => rfl

/-- **A call leaves the table alone.** -/
theorem call_table (central : CentralRole) {input : CentralInput}
    (call : ∀ event, input ≠ .event event) : (central.step input).1.table = central.table := by
  cases input with
  | event event => exact absurd rfl (call event)
  | updateCharacteristicValue characteristic codes =>
    obtain ⟨_, after⟩ := central.updateEntries_changes characteristic central.localCharacteristicInfo
    simp only [step, updateCharacteristicValue, table, after]
  | readRemoteCharacteristic characteristic codes => exact request_table central _ _ _ _
  | writeRemoteCharacteristic characteristic value codes => exact request_table central _ _ _ _
  | subscribeRemoteCharacteristic characteristic codes => exact request_table central _ _ _ _
  | unsubcribeRemoteCharacteristic characteristic codes => exact request_table central _ _ _ _

/-- **An update nobody has subscribed to** sends nothing and costs nothing. -/
theorem update_silent (central : CentralRole) (characteristic : LocalCharacteristic)
    (none : ∀ info ∈ central.localCharacteristicInfo, info.characteristic = characteristic.id →
      info.flags = (false, false)) :
    transfers (central.updateCharacteristicValue characteristic).2.1 = [] ∧
      (central.updateCharacteristicValue characteristic).1.txBufferCount = central.txBufferCount := by
  have silent : ∀ infos : List LocalCharacteristicInfo, (∀ info ∈ infos,
      info.characteristic = characteristic.id → info.flags = (false, false)) →
      transfers (central.updateEntries characteristic infos).2.1 = [] ∧
        (central.updateEntries characteristic infos).1.txBufferCount = central.txBufferCount := by
    intro infos clear
    induction infos with
    | nil => exact ⟨rfl, rfl⟩
    | cons info rest ih =>
      have later := ih fun info member => clear info (List.mem_cons_of_mem _ member)
      rw [updateEntries]
      split_ifs with isEntry
      · have flags := clear info (List.mem_cons_self ..) isEntry
        have notify : info.notifySubscribed = false := congrArg Prod.fst flags
        have indicate : info.indicateSubscribed = false := congrArg Prod.snd flags
        simpa [sendValue, notify, indicate, transfers, StackCall.isTransfer] using later
      · exact later
  exact silent _ none

end CentralRole

/-! ### Runs -/

/-- A role, and the peers that are or were connected to it. -/
structure Served (Role : Type) where
  role : Role
  peers : Peers

/-- The number of links the stack has for the peripheral role. -/
def peripheralLinkCount : Nat := 1

/-- The peers after an input. -/
def DeviceInput.peersAfter (peers : Peers) : DeviceInput → Peers
  | .event ⟨connHandle, params⟩ => peers.after ⟨connHandle, params⟩
  | _ => peers

def DeviceInput.expectedBy (peers : Peers) : DeviceInput → Bool
  | .event ⟨connHandle, params⟩ => peers.expects peripheralLinkCount ⟨connHandle, params⟩
  | _ => true

/-- The peers after an input. -/
def CentralInput.peersAfter (peers : Peers) : CentralInput → Peers
  | .event ⟨connHandle, params⟩ => peers.after ⟨connHandle, params⟩
  | _ => peers

def CentralInput.expectedBy (peers : Peers) : CentralInput → Bool
  | .event ⟨connHandle, params⟩ => peers.expects centralLinkCount ⟨connHandle, params⟩
  | _ => true

namespace Served

def deviceStep (state : Served Nrf51822) (input : DeviceInput) : Served Nrf51822 where
  role := (state.role.step input).1
  peers := input.peersAfter state.peers

def centralStep (state : Served CentralRole) (input : CentralInput) : Served CentralRole where
  role := (state.role.step input).1
  peers := input.peersAfter state.peers

/-- What the stack does. -/
def DeviceLegal (state : Served Nrf51822) (input : DeviceInput) : Prop := input.expectedBy state.peers

/-- What the stack does. -/
def CentralLegal (state : Served CentralRole) (input : CentralInput) : Prop :=
  input.expectedBy state.peers

/-- **What the peripheral role is to satisfy**: its table is right, and an update nobody connected has
subscribed to sends nothing and costs nothing. -/
structure DeviceRight (state : Served Nrf51822) : Prop
    extends SubscriptionsRight state.role.table state.peers where
  silent : ∀ (uninit : Memory UInt8) (characteristic : LocalCharacteristic),
    NoneSubscribed state.role.table state.peers characteristic.id →
      transfers (state.role.updateCharacteristicValue uninit characteristic).2.1 = [] ∧
        (state.role.updateCharacteristicValue uninit characteristic).1.txBufferCount =
          state.role.txBufferCount

/-- **What the central role is to satisfy**, the same. -/
structure CentralRight (state : Served CentralRole) : Prop
    extends SubscriptionsRight state.role.table state.peers where
  silent : ∀ characteristic : LocalCharacteristic,
    NoneSubscribed state.role.table state.peers characteristic.id →
      transfers (state.role.updateCharacteristicValue characteristic).2.1 = [] ∧
        (state.role.updateCharacteristicValue characteristic).1.txBufferCount =
          state.role.txBufferCount

/-- **What a step of the central role must meet.** When a link ends, what remains of the CCCD writes asks
for the same flags as before, for each characteristic. -/
def KeepsSubscriptions (state : Served CentralRole) : CentralInput → Prop
  | .event ⟨connHandle, .disconnected reason⟩ => ∀ info ∈ state.role.localCharacteristicInfo,
      (state.peers.after ⟨connHandle, .disconnected reason⟩).flags info.cccdHandle =
        state.peers.flags info.cccdHandle
  | _ => True

instance (state : Served Nrf51822) (input : DeviceInput) : Decidable (state.DeviceLegal input) :=
  inferInstanceAs (Decidable (_ = true))

instance (state : Served CentralRole) (input : CentralInput) : Decidable (state.CentralLegal input) :=
  inferInstanceAs (Decidable (_ = true))

instance (state : Served CentralRole) (input : CentralInput) :
    Decidable (state.KeepsSubscriptions input) :=
  match input with
  | .event ⟨_, .disconnected _⟩ => inferInstanceAs (Decidable (∀ info ∈ _, _ = _))
  | .event ⟨_, .connected _ _⟩ | .event ⟨_, .advReport _⟩ | .event ⟨_, .txComplete _⟩
  | .event ⟨_, .gattsWrite _ _⟩ | .event ⟨_, .sysAttrMissing⟩ | .event ⟨_, .primSrvcDiscRsp _ _ _⟩
  | .event ⟨_, .charDiscRsp _ _⟩ | .event ⟨_, .readRsp _ _ _⟩ | .event ⟨_, .writeRsp _⟩
  | .event ⟨_, .hvx _ _ _⟩ | .updateCharacteristicValue _ _ | .readRemoteCharacteristic _ _
  | .writeRemoteCharacteristic _ _ _ | .subscribeRemoteCharacteristic _ _
  | .unsubcribeRemoteCharacteristic _ _ => inferInstanceAs (Decidable True)

end Served

/-- **The invariant of both roles**: the table is right, its handles are distinct and what has been
written belongs to the links that are up. -/
structure Tabled (table : SubscriptionTable) (peers : Peers) : Prop where
  right : SubscriptionsRight table peers
  distinct : table.Distinct
  owned : peers.Owned

theorem tabled_of_begun {table : SubscriptionTable} (begun : table.Begun) :
    Tabled table .nobody where
  right := right_of_begun begun
  distinct := begun.toDistinct
  owned := fun _ member => absurd member List.not_mem_nil

/-- An event that leaves the table alone, and is no disconnection, keeps the invariant. -/
theorem tabled_of_same {table : SubscriptionTable} {peers : Peers} (tabled : Tabled table peers)
    {event : StackEvent} (other : event.touchesTable = false) {links : Nat}
    (expected : peers.expects links event) : Tabled table (peers.after event) := by
  refine ⟨?_, tabled.distinct, Peers.owned_after tabled.owned expected⟩
  obtain ⟨connHandle, params⟩ := event
  cases params with
  | connected peerAddr txPacketCount => exact right_connected tabled.right ..
  | disconnected reason => cases other
  | gattsWrite handle data => cases other
  | _ => exact tabled.right

theorem tabled_of_write {table : SubscriptionTable} {peers : Peers} (tabled : Tabled table peers)
    {links : Nat} {connHandle handle : UInt16} {data : List UInt8}
    (expected : peers.expects links ⟨connHandle, .gattsWrite handle data⟩) :
    Tabled (SubscriptionTable.writeLoop table.subscribed handle data [] table.infos)
      (peers.after ⟨connHandle, .gattsWrite handle data⟩) := by
  obtain ⟨up, proper⟩ : connHandle ∈ peers.live ∧ handle ≠ 0 := by
    simpa [Peers.expects] using expected
  rw [SubscriptionTable.writeLoop_eq data proper tabled.distinct, List.nil_append]
  refine ⟨?_, ?_, Peers.owned_after tabled.owned expected⟩
  · exact right_wrote tabled.right tabled.distinct up handle data
  · exact tabled.distinct.congr (table.write_layout handle data)

namespace Served

/-! ### The peripheral role -/

/-- The invariant of the peripheral role: it has one link at most. -/
structure DeviceTracks (state : Served Nrf51822) : Prop
    extends Tabled state.role.table state.peers where
  few : state.peers.live.length ≤ peripheralLinkCount

/-- The only link ends. -/
theorem alone_of_disconnected {peers : Peers} {connHandle : UInt16} {reason : UInt8}
    (few : peers.live.length ≤ peripheralLinkCount) (up : connHandle ∈ peers.live) :
    (peers.after ⟨connHandle, .disconnected reason⟩).live = [] := by
  have only : peers.live = [connHandle] := by
    obtain ⟨first, rest⟩ := List.length_eq_one_iff.mp
      (Nat.le_antisymm few (List.length_pos_of_mem up))
    rw [rest] at up ⊢
    rw [List.mem_singleton.mp up]
  simp [Peers.after, only]

theorem deviceTracks_step {state : Served Nrf51822} {input : DeviceInput}
    (tracks : state.DeviceTracks) (legal : state.DeviceLegal input) :
    (state.deviceStep input).DeviceTracks := by
  by_cases call : ∃ event, input = .event event
  · obtain ⟨event, rfl⟩ := call
    have expected : state.peers.expects peripheralLinkCount event := legal
    refine ⟨?_, ?_⟩
    · show Tabled (state.role.poll event).1.table (state.peers.after event)
      cases touches : event.touchesTable with
      | false =>
        rw [Nrf51822.poll_table state.role touches]
        exact tabled_of_same tracks.toTabled touches expected
      | true =>
        match event, touches with
        | ⟨connHandle, .disconnected reason⟩, _ =>
          have up : connHandle ∈ state.peers.live := by simpa [Peers.expects] using expected
          have owned := Peers.owned_after tracks.owned expected
          have table := Nrf51822.onDisconnected_table state.role reason
          rw [show (state.role.poll ⟨connHandle, .disconnected reason⟩).1.table = _ from table]
          refine ⟨right_cleared owned (alone_of_disconnected tracks.few up), ?_, owned⟩
          exact tracks.distinct.congr (SubscriptionTable.cleared_layout _)
        | ⟨connHandle, .gattsWrite handle data⟩, _ =>
          have table := Nrf51822.writeLocal_table state.role handle data [] state.role.table.infos
          rw [show (state.role.poll ⟨connHandle, .gattsWrite handle data⟩).1.table = _ from table]
          exact tabled_of_write tracks.toTabled expected
    · obtain ⟨connHandle, params⟩ := event
      cases params with
      | connected peerAddr txPacketCount =>
        have room : (connHandle ∉ state.peers.live ∧ connHandle ≠ connHandleInvalid) ∧
            state.peers.live.length < peripheralLinkCount := by
          simpa [Peers.expects] using expected
        exact room.2
      | disconnected reason => exact Nat.le_trans (List.length_filter_le _ _) tracks.few
      | _ => exact tracks.few
  · have quiet : ∀ event, input ≠ .event event := fun event same => call ⟨event, same⟩
    have table := Nrf51822.call_table state.role quiet
    have peers : input.peersAfter state.peers = state.peers := by
      cases input with
      | event event => exact absurd rfl (quiet event)
      | _ => rfl
    refine ⟨?_, ?_⟩
    · show Tabled (state.role.step input).1.table (input.peersAfter state.peers)
      rw [table, peers]
      exact tracks.toTabled
    · show (input.peersAfter state.peers).live.length ≤ peripheralLinkCount
      rw [peers]
      exact tracks.few

theorem deviceRight_of_tracks {state : Served Nrf51822} (tracks : state.DeviceTracks) :
    state.DeviceRight where
  toSubscriptionsRight := tracks.toTabled.right
  silent := by
    intro uninit characteristic none
    refine state.role.update_silent uninit characteristic fun info member isEntry => ?_
    exact (tracks.toTabled.right.last info member).trans (none info member isEntry)

/-- **In the peripheral role the subscriptions are right in every state of every run.** -/
theorem device_subscriptions_right {device : Nrf51822} (begun : device.table.Begun)
    {inputs : List DeviceInput} (legal : EachStep deviceStep DeviceLegal ⟨device, .nobody⟩ inputs) :
    Always deviceStep DeviceRight ⟨device, .nobody⟩ inputs := by
  have base : DeviceTracks ⟨device, .nobody⟩ := ⟨tabled_of_begun begun, Nat.zero_le _⟩
  have always := always_of_eachStep (fun _ _ tracks legal => deviceTracks_step tracks legal) base legal
  exact always.imp fun _ tracks => deviceRight_of_tracks tracks

/-! ### The central role -/

/-- The invariant of the central role. -/
def CentralTabled (state : Served CentralRole) : Prop := Tabled state.role.table state.peers

/-- A role that keeps the invariant is right. -/
theorem centralRight_of_right {state : Served CentralRole}
    (right : SubscriptionsRight state.role.table state.peers) : state.CentralRight where
  toSubscriptionsRight := right
  silent := by
    intro characteristic none
    refine state.role.update_silent characteristic fun info member isEntry => ?_
    exact (right.last info member).trans (none info member isEntry)

/-- **The step lemma.** A step of the central role keeps the invariant exactly when it meets
`KeepsSubscriptions`, and whatever it does it keeps the handles distinct and the writes owned. -/
theorem central_step {state : Served CentralRole} {input : CentralInput}
    (tabled : state.CentralTabled) (legal : state.CentralLegal input) :
    (state.centralStep input).role.table.Distinct ∧ (state.centralStep input).peers.Owned ∧
      (SubscriptionsRight (state.centralStep input).role.table (state.centralStep input).peers ↔
        state.KeepsSubscriptions input) := by
  have kept : ∀ {after : Served CentralRole}, Tabled after.role.table after.peers →
      (state.KeepsSubscriptions input) → after.role.table.Distinct ∧ after.peers.Owned ∧
        (SubscriptionsRight after.role.table after.peers ↔ state.KeepsSubscriptions input) :=
    fun after meets => ⟨after.distinct, after.owned, iff_of_true after.right meets⟩
  by_cases call : ∃ event, input = .event event
  · obtain ⟨event, rfl⟩ := call
    have expected : state.peers.expects centralLinkCount event := legal
    cases touches : event.touchesTable with
    | false =>
      have other : ∀ connHandle handle data, event ≠ ⟨connHandle, .gattsWrite handle data⟩ := by
        rintro connHandle handle data rfl
        cases touches
      have table := CentralRole.poll_table state.role event other
      refine kept ?_ ?_
      · show Tabled (state.role.poll event).1.table (state.peers.after event)
        rw [table]
        exact tabled_of_same tabled touches expected
      · obtain ⟨connHandle, params⟩ := event
        cases params <;> trivial
    | true =>
      match event, touches with
      | ⟨connHandle, .disconnected reason⟩, _ =>
        have owned := Peers.owned_after tabled.owned expected
        have table := CentralRole.poll_table state.role ⟨connHandle, .disconnected reason⟩
          (fun _ _ _ same => by cases same)
        show (state.role.poll ⟨connHandle, .disconnected reason⟩).1.table.Distinct ∧ _ ∧
          (SubscriptionsRight (state.role.poll ⟨connHandle, .disconnected reason⟩).1.table _ ↔ _)
        rw [table]
        exact ⟨tabled.distinct, owned, right_left_iff tabled.right owned⟩
      | ⟨connHandle, .gattsWrite handle data⟩, _ =>
        have table := CentralRole.writeLocal_table state.role
          (state.role.nodeAt (state.role.slot connHandle)) handle data [] state.role.table.infos
        refine kept ?_ trivial
        show Tabled (state.role.poll ⟨connHandle, .gattsWrite handle data⟩).1.table _
        rw [show (state.role.poll ⟨connHandle, .gattsWrite handle data⟩).1.table = _ from table]
        exact tabled_of_write tabled expected
  · have quiet : ∀ event, input ≠ .event event := fun event same => call ⟨event, same⟩
    have table := CentralRole.call_table state.role quiet
    refine kept ?_ ?_
    · show Tabled (state.role.step input).1.table (input.peersAfter state.peers)
      rw [table]
      cases input with
      | event event => exact absurd rfl (quiet event)
      | _ => exact tabled
    · cases input with
      | event event => exact absurd rfl (quiet event)
      | _ => trivial

/-- **In every run of both roles, the subscriptions are right in every state exactly when every step of
the central role meets `KeepsSubscriptions`.** -/
theorem subscriptions_right_iff {device : Nrf51822} {central : CentralRole}
    (deviceBegun : device.table.Begun) (centralBegun : central.table.Begun)
    (deviceInputs : List DeviceInput) (centralInputs : List CentralInput)
    (deviceLegal : EachStep deviceStep DeviceLegal ⟨device, .nobody⟩ deviceInputs)
    (centralLegal : EachStep centralStep CentralLegal ⟨central, .nobody⟩ centralInputs) :
    Always deviceStep DeviceRight ⟨device, .nobody⟩ deviceInputs ∧
        Always centralStep CentralRight ⟨central, .nobody⟩ centralInputs ↔
      EachStep centralStep KeepsSubscriptions ⟨central, .nobody⟩ centralInputs := by
  have base : CentralTabled ⟨central, .nobody⟩ := tabled_of_begun centralBegun
  have keep : ∀ (state : Served CentralRole) (input : CentralInput), state.CentralTabled →
      state.CentralLegal input → (state.centralStep input).CentralRight →
      (state.centralStep input).CentralTabled := by
    intro state input tabled legal right
    obtain ⟨distinct, owned, -⟩ := central_step tabled legal
    exact ⟨right.toSubscriptionsRight, distinct, owned⟩
  have same : ∀ (state : Served CentralRole) (input : CentralInput), state.CentralTabled →
      state.CentralLegal input → ((state.centralStep input).CentralRight ↔
        state.KeepsSubscriptions input) := by
    intro state input tabled legal
    obtain ⟨-, -, exact_step⟩ := central_step tabled legal
    rw [← exact_step]
    exact ⟨fun right => right.toSubscriptionsRight, centralRight_of_right⟩
  rw [and_iff_right (device_subscriptions_right deviceBegun deviceLegal)]
  exact always_iff_of_invariant keep same (centralRight_of_right base.right) base centralLegal

/-- A central role with one local characteristic, its value at handle 10 and its CCCD at handle 11. -/
def oneSubscribable : CentralRole :=
  { emptyCentral with localCharacteristicInfo := [⟨1, none, 10, 11, false, false⟩] }

/-- In both roles a peer subscribes, unsubscribes and leaves. -/
theorem subscriptions_right_iff_unsubscribed :
    Always deviceStep DeviceRight ⟨oneCharacteristic, .nobody⟩
        [.event ⟨0, .connected (.replicate 6 1) 6⟩, .event ⟨0, .gattsWrite 11 [1, 0]⟩,
          .event ⟨0, .disconnected 0x13⟩] ∧
      Always centralStep CentralRight ⟨oneSubscribable, .nobody⟩
        [connection 0, .event ⟨0, .gattsWrite 11 [1, 0]⟩, .event ⟨0, .gattsWrite 11 [0, 0]⟩,
          .event ⟨0, .disconnected 0x13⟩] :=
  (subscriptions_right_iff (by decide) (by decide) _ _ (by decide) (by decide)).mpr (by decide)

/-- **A subscription outlives its peer**: in the central role a peer subscribes and leaves. -/
theorem subscription_stays :
    ¬ ∀ (device : Nrf51822) (central : CentralRole), device.table.Begun → central.table.Begun →
      ∀ (deviceInputs : List DeviceInput) (centralInputs : List CentralInput),
        EachStep deviceStep DeviceLegal ⟨device, .nobody⟩ deviceInputs →
        EachStep centralStep CentralLegal ⟨central, .nobody⟩ centralInputs →
        Always deviceStep DeviceRight ⟨device, .nobody⟩ deviceInputs ∧
          Always centralStep CentralRight ⟨central, .nobody⟩ centralInputs := by
  intro always
  have right := (always oneCharacteristic oneSubscribable (by decide) (by decide) []
    [connection 0, .event ⟨0, .gattsWrite 11 [1, 0]⟩, .event ⟨0, .disconnected 0x13⟩]
    (by decide) (by decide)).2.last
  exact absurd right.toSubscriptionsRight (by decide)

end Served

end PrimoCore.Ble
