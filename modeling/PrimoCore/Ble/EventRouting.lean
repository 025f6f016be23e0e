/-
**Where the events of the stack go.**

Every event goes to `ble_evt_dispatch`. It hands it to the DFU service, when the connection table does
not say that the board is the central of the link, and then to `processBleEvents`, which tells the
table first and polls the object of the role afterwards. So the DFU service is asked with the role of
the table before the event, and a link that has ended keeps its role there.

* `processBleEvents`, `Board.dispatch` — the two, on top of the connection table.
* `liveRole` — the role a link came up with, while it is up, from the calls alone.
* `event_routed` — **every event of a link, from its first to its last, polls the object of its role**
  and no other.
* `dfu_handle_right_iff` — **over every run the DFU service has the handle of the link that is up
  exactly when** no link in the peripheral role comes up with the handle of a central link that is
  still in the table, and no disconnection has the byte of the central role.
-/

import Mathlib.Data.List.Induction
import PrimoCore.Ble.ConnState

namespace PrimoCore.Ble

open PrimoCore.Lib PrimoCore.Core

/-- `BLE_GAP_EVT_ADV_REPORT`. -/
def gapEvtAdvReport : UInt16 := 0x1D

/-- `BLEManagerClass`: whether a peripheral and a central are in its lists. -/
structure BLEManagerClass where
  peripheral : Bool
  central : Bool

/-- A call of `poll`. -/
inductive Poll where
  | peripheral (event : BleEvt)
  | central (event : BleEvt)

/-- `processBleEvents`. -/
def processBleEvents (registered : BLEManagerClass) (state : ConnState) (event : BleEvt) :
    ConnState × List Poll :=
  let state := (state.onBleEvt event).1
  let role := state.role event.connHandle
  let toPeripheral :=
    if role = gapRolePeriph then if registered.peripheral then [.peripheral event] else [] else []
  let toCentral :=
    if role = gapRoleCentral ∨ event.evtId = gapEvtAdvReport then
      if registered.central then [.central event] else []
    else []
  (state, toPeripheral ++ toCentral)

/-! ### The role of a link -/

/-- What a call makes of the role of a handle: a link brings one, and takes it away when it ends. -/
def liveStep (connHandle : UInt16) (role : Option UInt8) : ConnCall → Option UInt8
  | .bleEvt event =>
      if event.connHandle = connHandle ∧ event.evtId = gapEvtConnected then some event.connectedRole
      else if event.connHandle = connHandle ∧ event.evtId = gapEvtDisconnected then none
      else role
  | _ => role

/-- The role the link of a handle came up with, when it is up. -/
def liveRole (calls : List ConnCall) (connHandle : UInt16) : Option UInt8 :=
  run (liveStep connHandle) none calls

/-- The role of the link of an event, which may be the one that brings it up. -/
def eventRole (calls : List ConnCall) (event : BleEvt) : Option UInt8 :=
  if event.evtId = gapEvtConnected then some event.connectedRole else liveRole calls event.connHandle

namespace Link

variable (connHandle : UInt16) {flag : Nat} (value : Bool) (link : Link)

theorem set_flags {place : Nat} (other : flag ≠ place) :
    (set connHandle flag value link).flags place = link.flags place := by
  unfold set
  split
  · exact Function.update_of_ne other.symm value link.flags
  · rfl

theorem set_connected (other : flag ≠ connectedFlags) :
    (set connHandle flag value link).connected = link.connected := link.set_flags connHandle value other

theorem set_central (other : flag ≠ centralFlags) :
    (set connHandle flag value link).central = link.central := link.set_flags connHandle value other

/-- A link that ends. -/
theorem set_down (here : link.connHandle = connHandle) :
    (set connHandle connectedFlags false link).connected = false := by
  unfold set
  rw [if_pos here]
  exact Function.update_self connectedFlags false link.flags

end Link

namespace LinkTable

variable {table : LinkTable}

/-- The role of the link of a handle, when it is up. -/
def live (table : LinkTable) (connHandle : UInt16) : Option Bool :=
  ((table.find connHandle).filter Link.connected).map Link.central

theorem find_set (table : LinkTable) (flag : Nat) (connHandle other : UInt16) (value : Bool) :
    (table.set flag connHandle value).find other =
      (table.find other).map (Link.set connHandle flag value) := by
  unfold find set
  dsimp only
  rw [List.find?_map]
  refine congrArg (Option.map _) (congrArg (fun test => List.find? test table.links) (funext fun link => ?_))
  rw [Function.comp_apply, set_connHandle]

/-- A link with another handle is left alone. -/
theorem find_set_other (table : LinkTable) (flag : Nat) {connHandle other : UInt16} (value : Bool)
    (differs : other ≠ connHandle) : (table.set flag connHandle value).find other = table.find other := by
  rw [table.find_set]
  cases found : table.find other with
  | none => rfl
  | some link =>
    have same := List.find?_some found
    rw [decide_eq_true_eq] at same
    exact congrArg some (if_neg fun is => differs (same.symm.trans is))

/-- The other flags of a link are left alone. -/
theorem live_set (table : LinkTable) {flag : Nat} (connHandle : UInt16) (value : Bool)
    (other : flag ≠ connectedFlags ∧ flag ≠ centralFlags) (handle : UInt16) :
    (table.set flag connHandle value).live handle = table.live handle := by
  unfold live
  rw [table.find_set]
  cases table.find handle with
  | none => rfl
  | some link =>
    rw [Option.map_some, Option.filter_some, Option.filter_some,
      link.set_connected _ _ other.1]
    split
    · exact congrArg some (link.set_central _ _ other.2)
    · rfl

/-- Of the links that are up the table finds the same. -/
theorem find_connected (distinct : (table.links.map Link.connHandle).Nodup) (connHandle : UInt16) :
    (⟨table.links.filter Link.connected, table.acquired⟩ : LinkTable).find connHandle =
      (table.find connHandle).filter Link.connected := by
  have kept : ((table.links.filter Link.connected).map Link.connHandle).Nodup :=
    distinct.sublist (List.filter_sublist.map _)
  cases found : table.find connHandle with
  | none =>
    refine List.find?_eq_none.mpr fun link member => ?_
    exact List.find?_eq_none.mp found link (List.mem_filter.mp member).1
  | some link =>
    have member := List.mem_of_find?_eq_some found
    have same := List.find?_some found
    rw [decide_eq_true_eq] at same
    subst same
    show _ = if link.connected then some link else none
    split
    · next up => exact @find_eq_some ⟨_, table.acquired⟩ kept link (List.mem_filter.mpr ⟨member, up⟩)
    · next down =>
      refine List.find?_eq_none.mpr fun other inside is => down ?_
      obtain ⟨isLink, up⟩ := List.mem_filter.mp inside
      rw [decide_eq_true_eq] at is
      rwa [List.inj_on_of_nodup_map distinct isLink member is] at up

/-- **What a call does to the role of a handle.** -/
theorem live_step (distinct : (table.links.map Link.connHandle).Nodup) {call : ConnCall}
    {role : Option UInt8} {connHandle : UInt16}
    (same : table.live connHandle = role.map fun role => decide (role = gapRoleCentral)) :
    (table.step call).live connHandle =
      (liveStep connHandle role call).map fun role => decide (role = gapRoleCentral) := by
  cases call with
  | userFlagAcquire => exact same
  | userFlagSet handle flagId value =>
    show LinkTable.live (if _ then _ else _) connHandle = _
    split
    · rw [table.live_set _ _ ⟨?_, ?_⟩]
      · exact same
      · exact Nat.ne_of_gt (Nat.lt_add_right flagId (by decide : connectedFlags < nDefaultFlags))
      · exact Nat.ne_of_gt (Nat.lt_add_right flagId (by decide : centralFlags < nDefaultFlags))
    · exact same
  | bleEvt event =>
    show (table.onBleEvt event).live connHandle = Option.map _ (liveStep connHandle role (.bleEvt event))
    by_cases connects : event.evtId = gapEvtConnected
    · have ends : event.evtId ≠ gapEvtDisconnected := fun is => absurd (connects.symm.trans is) (by decide)
      have links : table.onBleEvt event =
          table.connect event.connHandle (event.connectedRole = gapRoleCentral) := if_pos connects
      rw [links]
      by_cases here : event.connHandle = connHandle
      · have brought : liveStep connHandle role (.bleEvt event) = some event.connectedRole :=
          if_pos ⟨here, connects⟩
        have found : (table.connect event.connHandle (event.connectedRole = gapRoleCentral)).find connHandle =
            some (.new event.connHandle (event.connectedRole = gapRoleCentral)) :=
          List.find?_cons_of_pos (decide_eq_true here)
        rw [brought]
        unfold live
        rw [found]
        rfl
      · have kept : liveStep connHandle role (.bleEvt event) = role :=
          (if_neg fun both => here both.1).trans (if_neg fun both => here both.1)
        have others := table.find_connected distinct connHandle
        have found : (table.connect event.connHandle (event.connectedRole = gapRoleCentral)).find connHandle =
            (table.find connHandle).filter Link.connected := by
          rw [← others]
          exact List.find?_cons_of_neg fun is => here (of_decide_eq_true is)
        rw [kept, ← same]
        unfold live
        rw [found]
        cases table.find connHandle with
        | none => rfl
        | some link =>
          cases up : link.connected with
          | false =>
            rw [Option.filter_some, up]
            rfl
          | true => rw [Option.filter_some, up, if_pos rfl, Option.filter_some, up, if_pos rfl]
    by_cases ends : event.evtId = gapEvtDisconnected
    · have links : table.onBleEvt event = table.set connectedFlags event.connHandle false :=
        (if_neg connects).trans (if_pos ends)
      rw [links]
      by_cases here : event.connHandle = connHandle
      · have gone : liveStep connHandle role (.bleEvt event) = none :=
          (if_neg fun both => connects both.2).trans (if_pos ⟨here, ends⟩)
        subst here
        rw [gone]
        unfold live
        rw [table.find_set]
        cases found : table.find event.connHandle with
        | none => rfl
        | some link =>
          have handle := List.find?_some found
          rw [decide_eq_true_eq] at handle
          rw [Option.map_some, Option.filter_some, link.set_down _ handle]
          rfl
      · have kept : liveStep connHandle role (.bleEvt event) = role :=
          (if_neg fun both => here both.1).trans (if_neg fun both => here both.1)
        rw [kept, ← same]
        unfold live
        rw [table.find_set_other _ _ (Ne.symm here)]
    · have kept : liveStep connHandle role (.bleEvt event) = role :=
        (if_neg fun both => connects both.2).trans (if_neg fun both => ends both.2)
      have links : table.onBleEvt event = if event.evtId = gapEvtConnSecUpdate then
          (table.set encryptedFlags event.connHandle (secModeLv event > 1)).set mitmProtectedFlags
            event.connHandle (secModeLv event > 2)
        else table := (if_neg connects).trans (if_neg ends)
      rw [kept, links]
      split
      · rw [live_set _ _ _ ⟨by decide, by decide⟩, live_set _ _ _ ⟨by decide, by decide⟩]
        exact same
      · exact same

end LinkTable

/-- **The table knows the links that are up**, with the role each came up with. -/
theorem live_eq {calls : List ConnCall} (legal : EachStep LinkTable.step LinkTable.Legal .initial calls)
    (connHandle : UInt16) : (run LinkTable.step .initial calls).live connHandle =
      (liveRole calls connHandle).map fun role => decide (role = gapRoleCentral) := by
  induction calls using List.reverseRecOn with
  | nil => rfl
  | append_singleton front call ih =>
    obtain ⟨before, -⟩ := eachStep_append.mp legal
    unfold liveRole
    rw [run_append, run_append]
    exact LinkTable.live_step (run_refines before).distinct (ih before)

/-! ### Polls -/

/-- What an event polls on a link with a role. -/
def pollsFor (registered : BLEManagerClass) (role : UInt8) (event : BleEvt) : List Poll :=
  if role = gapRoleCentral then if registered.central then [.central event] else []
  else
    (if registered.peripheral then [.peripheral event] else []) ++
      if event.evtId = gapEvtAdvReport ∧ registered.central then [.central event] else []

/-- The link of an event is still in the table behind the event, with its role. -/
theorem find_event {calls : List ConnCall} {event : BleEvt} {role : UInt8}
    (legal : EachStep LinkTable.step LinkTable.Legal .initial calls)
    (live : eventRole calls event = some role) :
    ∃ link, ((run LinkTable.step .initial calls).onBleEvt event).find event.connHandle = some link ∧
      link.central = decide (role = gapRoleCentral) := by
  have known := live_eq legal event.connHandle
  generalize run LinkTable.step .initial calls = table at known ⊢
  unfold eventRole at live
  unfold LinkTable.onBleEvt
  by_cases connects : event.evtId = gapEvtConnected
  · rw [if_pos connects, Option.some.injEq] at live
    rw [if_pos connects]
    refine ⟨.new event.connHandle (event.connectedRole = gapRoleCentral), ?_, ?_⟩
    · exact List.find?_cons_of_pos (decide_eq_true rfl)
    · rw [← live]
      exact Bool.true_and _
  · rw [if_neg connects] at live ⊢
    rw [live] at known
    unfold LinkTable.live at known
    obtain ⟨link, found, central⟩ := Option.map_eq_some_iff.mp known
    obtain ⟨found, -⟩ := Option.filter_eq_some_iff.mp found
    split
    · rw [table.find_set, found]
      exact ⟨_, rfl, (link.set_central _ _ (by decide)).trans central⟩
    · split
      · rw [LinkTable.find_set, table.find_set, found]
        refine ⟨_, rfl, ?_⟩
        rw [Link.set_central _ _ _ (by decide), Link.set_central _ _ _ (by decide)]
        exact central
      · exact ⟨link, found, central⟩

/-- **Every event of a link polls the object of its role**: from the one that brings the link up to
the one that ends it, whatever links have come and gone before, and whatever else happens. -/
theorem event_routed (registered : BLEManagerClass) {calls : List ConnCall} {event : BleEvt} {role : UInt8}
    (legal : EachStep LinkTable.step LinkTable.Legal .initial (calls ++ [.bleEvt event]))
    (live : eventRole calls event = some role) :
    (processBleEvents registered (run ConnState.step .reset calls) event).2 =
      pollsFor registered role event := by
  obtain ⟨before, ⟨here, -⟩⟩ := eachStep_append.mp legal
  obtain ⟨link, found, central⟩ := find_event before live
  have after := ((run_refines before).onBleEvt here).1.role_eq event.connHandle
  rw [found] at after
  unfold processBleEvents pollsFor
  dsimp only at after ⊢
  rw [after, central]
  have distinct : gapRoleCentral ≠ gapRolePeriph := by decide
  by_cases isCentral : role = gapRoleCentral
  · rw [decide_eq_true isCentral, if_pos rfl, if_neg distinct, if_pos (.inl rfl), if_pos isCentral]
    rfl
  · rw [decide_eq_false isCentral, if_neg Bool.false_ne_true, if_pos rfl, if_neg isCentral]
    refine congrArg _ ?_
    by_cases report : event.evtId = gapEvtAdvReport
    · rw [if_pos (.inr report)]
      simp only [report, true_and]
    · rw [if_neg fun either => either.elim distinct.symm report, if_neg fun both => report both.1]

/-- A write on a link that has the handle of one in the other role before it. -/
theorem event_routed_again :
    let calls : List ConnCall := [.bleEvt (linkEvent gapEvtConnected 3 gapRoleCentral),
      .bleEvt (linkEvent gapEvtDisconnected 3 0x13), .bleEvt (linkEvent gapEvtConnected 3 gapRolePeriph)]
    let event := linkEvent gattsEvtWrite 3 0
    (processBleEvents ⟨true, true⟩ (run ConnState.step .reset calls) event).2 = [.peripheral event] := by
  intro calls event
  exact @event_routed ⟨true, true⟩ calls event gapRolePeriph (by decide +kernel) (by decide +kernel)

/-! ### The DFU service -/

/-- The board: the DFU service, the connection table, and what is registered. -/
structure Board where
  service : DfuService
  conn : ConnState
  registered : BLEManagerClass

/-- `ble_evt_dispatch`, with what it calls of the service and of the library. -/
def Board.dispatch (board : Board) (event : BleEvt) : Board × List EvtCall × List Poll :=
  let (service, calls) := bleEvtDispatch board.conn.role board.service event
  if board.service.processBleEvents then
    let (conn, polls) := processBleEvents board.registered board.conn event
    ({ board with service := service, conn := conn }, calls, polls)
  else ({ board with service := service }, calls, [])

/-- The board and the links. -/
structure BoardState where
  board : Board
  table : LinkTable

namespace BoardState

def step (state : BoardState) (event : BleEvt) : BoardState :=
  ⟨(state.board.dispatch event).1, state.table.onBleEvt event⟩

/-- A board on which nothing has happened, with the library linked in. -/
def initial (registered : BLEManagerClass) : BoardState :=
  ⟨⟨⟨true, Core.connHandleInvalid, true⟩, .reset, registered⟩, .initial⟩

end BoardState

namespace LinkTable

/-- The links that are up in which the board is the peripheral. -/
def periphs (table : LinkTable) : List UInt16 :=
  (table.links.filter fun link => !link.central && link.connected).map Link.connHandle

end LinkTable

namespace BoardState

/-- **The service has the handle of its link**, or none when there is no link. -/
def HandleRight (state : BoardState) : Prop :=
  state.board.service.mConnHandle = state.table.periphs.headD Core.connHandleInvalid

/-- What the stack does, which is set up for one link in the peripheral role: no second one comes up,
only a link that is up ends, and no link has the invalid handle. -/
def Legal (state : BoardState) (event : BleEvt) : Prop :=
  state.table.Legal (.bleEvt event) ∧
    (event.evtId = gapEvtConnected → event.connHandle ≠ Core.connHandleInvalid ∧
      (event.connectedRole ≠ gapRoleCentral → state.table.periphs = [])) ∧
    (event.evtId = gapEvtDisconnected → (state.table.live event.connHandle).isSome = true)

/-- The event of a link in the peripheral role is let through: when the link comes up its handle is
not that of a central link the table still has, and when it ends the byte is not that of the central
role. -/
def LetsThrough (state : BoardState) (event : BleEvt) : Prop :=
  (event.evtId = gapEvtConnected → event.connectedRole ≠ gapRoleCentral →
    (state.table.find event.connHandle).any Link.central = false) ∧
  (event.evtId = gapEvtDisconnected → state.table.live event.connHandle = some false →
    event.connectedRole ≠ gapRoleCentral)

instance decidableLegal (state : BoardState) (event : BleEvt) : Decidable (state.Legal event) :=
  inferInstanceAs (Decidable (_ ∧ (_ → _ ∧ (_ → _)) ∧ (_ → _)))

instance decidableLetsThrough (state : BoardState) (event : BleEvt) : Decidable (state.LetsThrough event) :=
  inferInstanceAs (Decidable ((_ → _ → _) ∧ (_ → _ → _)))

/-- The invariant: the table holds the links, the service is on and the library is linked in, and
there is no more than one link in the peripheral role. -/
structure Inv (state : BoardState) : Prop where
  refines : Refines state.board.conn state.table
  on : state.board.service.dfuService = true
  linked : state.board.service.processBleEvents = true
  single : state.table.periphs.length ≤ 1
  proper : ∀ link ∈ state.table.links, link.connHandle ≠ Core.connHandleInvalid

end BoardState

namespace LinkTable

variable {table : LinkTable}

theorem periphs_connect (table : LinkTable) (connHandle : UInt16) (central : Bool) :
    (table.connect connHandle central).periphs =
      if central then table.periphs else connHandle :: table.periphs := by
  have rest : (table.links.filter Link.connected).filter (fun link => !link.central && link.connected) =
      table.links.filter fun link => !link.central && link.connected := by
    rw [List.filter_filter]
    refine List.filter_congr fun link _ => ?_
    rw [Bool.and_assoc, Bool.and_self]
  have role : (Link.new connHandle central).central = central := Bool.true_and _
  have up : (Link.new connHandle central).connected = true := rfl
  show ((Link.new connHandle central :: table.links.filter Link.connected).filter _).map _ = _
  rw [List.filter_cons, rest, role, up]
  cases central <;> rfl

/-- A flag that is neither the role nor the connection. -/
theorem periphs_set (table : LinkTable) {flag : Nat} (connHandle : UInt16) (value : Bool)
    (other : flag ≠ connectedFlags ∧ flag ≠ centralFlags) :
    (table.set flag connHandle value).periphs = table.periphs := by
  unfold periphs set
  dsimp only
  rw [List.filter_map, List.map_map]
  have same : table.links.filter ((fun link => !link.central && link.connected) ∘
      Link.set connHandle flag value) = table.links.filter fun link => !link.central && link.connected := by
    refine List.filter_congr fun link _ => ?_
    rw [Function.comp_apply, link.set_central _ _ other.2, link.set_connected _ _ other.1]
  rw [same]
  exact List.map_congr_left fun link _ => set_connHandle connHandle flag value link

/-- A link that ends is not among them any more. -/
theorem periphs_end (table : LinkTable) (connHandle : UInt16) :
    (table.set connectedFlags connHandle false).periphs =
      table.periphs.filter fun handle => handle ≠ connHandle := by
  unfold periphs set
  dsimp only
  rw [List.filter_map, List.map_map, List.filter_map, List.filter_filter]
  have same : table.links.filter ((fun link => !link.central && link.connected) ∘
      Link.set connHandle connectedFlags false) = table.links.filter fun link =>
        ((fun handle => decide (handle ≠ connHandle)) ∘ Link.connHandle) link &&
          (!link.central && link.connected) := by
    refine List.filter_congr fun link _ => ?_
    rw [Function.comp_apply, Function.comp_apply, link.set_central _ _ (by decide)]
    by_cases here : link.connHandle = connHandle
    · rw [link.set_down _ here, Bool.and_false, decide_eq_false (not_not.mpr here), Bool.false_and]
    · have kept : Link.set connHandle connectedFlags false link = link := if_neg here
      rw [kept, decide_eq_true here, Bool.true_and]
  rw [same]
  exact List.map_congr_left fun link _ => set_connHandle connHandle connectedFlags false link

/-- A link that is up, by its handle. -/
theorem live_eq_some_iff {connHandle : UInt16} {central : Bool} :
    table.live connHandle = some central ↔ ∃ link, table.find connHandle = some link ∧
      link.connected = true ∧ link.central = central := by
  unfold live
  rw [Option.map_eq_some_iff]
  refine exists_congr fun link => ?_
  rw [Option.filter_eq_some_iff, and_assoc]

theorem mem_periphs_iff (distinct : (table.links.map Link.connHandle).Nodup) {connHandle : UInt16} :
    connHandle ∈ table.periphs ↔ table.live connHandle = some false := by
  rw [live_eq_some_iff]
  unfold periphs
  rw [List.mem_map]
  constructor
  · rintro ⟨link, member, rfl⟩
    obtain ⟨inside, up⟩ := List.mem_filter.mp member
    rw [Bool.and_eq_true, Bool.not_eq_true'] at up
    exact ⟨link, table.find_eq_some distinct inside, up.2, up.1⟩
  · rintro ⟨link, found, up, periph⟩
    have same := List.find?_some found
    rw [decide_eq_true_eq] at same
    refine ⟨link, List.mem_filter.mpr ⟨List.mem_of_find?_eq_some found, ?_⟩, same⟩
    rw [periph, up]
    rfl

end LinkTable

theorem eq_singleton_of_mem {Item : Type} {items : List Item} {item : Item} (single : items.length ≤ 1)
    (member : item ∈ items) : items = [item] := by
  match items with
  | [only] => rw [List.mem_singleton.mp member]
  | _ :: _ :: _ => exact absurd single (by simp)

namespace BoardState

variable {state : BoardState} {event : BleEvt}

/-- The handle of the service behind an event. -/
def handleAfter (state : BoardState) (event : BleEvt) : UInt16 :=
  if (state.table.find event.connHandle).any Link.central = false ∧
      event.connectedRole ≠ gapRoleCentral then
    if event.evtId = gapEvtConnected then event.connHandle
    else if event.evtId = gapEvtDisconnected then Core.connHandleInvalid
    else state.board.service.mConnHandle
  else state.board.service.mConnHandle

/-- **What an event does to the board.** -/
theorem step_board (inv : state.Inv) (event : BleEvt) :
    (state.step event).board.service =
        { state.board.service with mConnHandle := state.handleAfter event } ∧
      (state.step event).board.conn = (state.board.conn.onBleEvt event).1 := by
  have role : state.board.conn.role event.connHandle ≠ gapRoleCentral ↔
      (state.table.find event.connHandle).any Link.central = false := by
    rw [inv.refines.role_eq]
    cases state.table.find event.connHandle with
    | none => exact iff_of_true (by decide) rfl
    | some link =>
      show (if link.central then _ else _) ≠ _ ↔ link.central = false
      cases link.central <;> decide
  have called : ∀ service : DfuService, (service.onBleEvt event).1 = { service with
      mConnHandle :=
        if event.evtId = gapEvtConnected then event.connHandle
        else if event.evtId = gapEvtDisconnected then Core.connHandleInvalid
        else service.mConnHandle } := by
    intro service
    unfold DfuService.onBleEvt
    split
    · rfl
    · split <;> rfl
  have dispatched : (bleEvtDispatch state.board.conn.role state.board.service event).1 =
      { state.board.service with mConnHandle := state.handleAfter event } := by
    unfold bleEvtDispatch handleAfter
    by_cases through : (state.table.find event.connHandle).any Link.central = false ∧
        event.connectedRole ≠ gapRoleCentral
    · rw [if_pos through, if_pos ⟨inv.on, role.mpr through.1, through.2⟩]
      exact called state.board.service
    · rw [if_neg through, if_neg fun all => through ⟨role.mp all.2.1, all.2.2⟩]
  unfold step Board.dispatch
  dsimp only
  rw [if_pos inv.linked]
  exact ⟨dispatched, rfl⟩

theorem step_periphs (state : BoardState) (event : BleEvt) : (state.step event).table.periphs =
    if event.evtId = gapEvtConnected then
      if event.connectedRole = gapRoleCentral then state.table.periphs
      else event.connHandle :: state.table.periphs
    else if event.evtId = gapEvtDisconnected then
      state.table.periphs.filter fun handle => handle ≠ event.connHandle
    else state.table.periphs := by
  show (state.table.onBleEvt event).periphs = _
  unfold LinkTable.onBleEvt
  split
  · rw [state.table.periphs_connect]
    simp only [decide_eq_true_eq]
  · split
    · exact state.table.periphs_end event.connHandle
    · split
      · rw [LinkTable.periphs_set _ _ _ ⟨by decide, by decide⟩,
          LinkTable.periphs_set _ _ _ ⟨by decide, by decide⟩]
      · rfl

/-- The handles of the links behind an event are old ones, or the one of a link that comes up. -/
theorem step_handles (state : BoardState) (event : BleEvt) {link : Link}
    (member : link ∈ (state.step event).table.links) :
    (event.evtId = gapEvtConnected ∧ link.connHandle = event.connHandle) ∨
      link.connHandle ∈ state.table.links.map Link.connHandle := by
  have set : ∀ table : LinkTable, ∀ flag value,
      link ∈ (table.set flag event.connHandle value).links →
        link.connHandle ∈ table.links.map Link.connHandle := by
    intro table flag value inside
    rw [← table.set_handles flag event.connHandle value]
    exact List.mem_map_of_mem inside
  change link ∈ (state.table.onBleEvt event).links at member
  unfold LinkTable.onBleEvt at member
  split at member
  · next connects =>
    rcases List.mem_cons.mp member with rfl | old
    · exact .inl ⟨connects, rfl⟩
    · exact .inr (List.mem_map_of_mem (List.mem_filter.mp old).1)
  · split at member
    · exact .inr (set _ _ _ member)
    · split at member
      · have inside := set _ _ _ member
        rw [LinkTable.set_handles] at inside
        exact .inr inside
      · exact .inr (List.mem_map_of_mem member)

theorem step_inv (inv : state.Inv) (legal : state.Legal event) : (state.step event).Inv := by
  obtain ⟨service, conn⟩ := step_board inv event
  constructor
  · rw [conn]
    exact (inv.refines.onBleEvt legal.1).1
  · rw [service]
    exact inv.on
  · rw [service]
    exact inv.linked
  · rw [state.step_periphs]
    split
    · next connects =>
      split
      · exact inv.single
      · next periph =>
        rw [(legal.2.1 connects).2 periph]
        exact Nat.le_refl 1
    · split
      · exact Nat.le_trans (List.length_filter_le _ _) inv.single
      · exact inv.single
  · intro link member
    rcases state.step_handles event member with ⟨connects, same⟩ | old
    · rw [same]
      exact (legal.2.1 connects).1
    · obtain ⟨before, inside, same⟩ := List.mem_map.mp old
      rw [← same]
      exact inv.proper before inside

/-- **When the handle is right behind an event**, if it was right before. -/
theorem handleRight_step_iff (inv : state.Inv) (legal : state.Legal event) (right : state.HandleRight) :
    (state.step event).HandleRight ↔ state.LetsThrough event := by
  unfold HandleRight at right
  unfold HandleRight LetsThrough
  rw [(step_board inv event).1, state.step_periphs]
  dsimp only
  unfold handleAfter
  by_cases connects : event.evtId = gapEvtConnected
  · have notEnds : event.evtId ≠ gapEvtDisconnected := fun is => absurd (connects.symm.trans is) (by decide)
    obtain ⟨proper, alone⟩ := legal.2.1 connects
    rw [if_pos connects, if_pos connects]
    by_cases central : event.connectedRole = gapRoleCentral
    · rw [if_neg fun both => both.2 central, if_pos central]
      exact iff_of_true right ⟨fun _ other => absurd central other, fun ends => absurd ends notEnds⟩
    · rw [if_neg central, List.headD_cons]
      rw [alone central, List.headD_nil] at right
      by_cases stale : (state.table.find event.connHandle).any Link.central = false
      · rw [if_pos ⟨stale, central⟩]
        exact iff_of_true rfl ⟨fun _ _ => stale, fun ends => absurd ends notEnds⟩
      · rw [if_neg fun both => stale both.1, right]
        exact iff_of_false (Ne.symm proper) fun through => stale (through.1 connects central)
  rw [if_neg connects, if_neg connects]
  by_cases ends : event.evtId = gapEvtDisconnected
  · have up := legal.2.2 ends
    rw [if_pos ends, if_pos ends]
    obtain ⟨central, live⟩ := Option.isSome_iff_exists.mp up
    obtain ⟨link, found, -, role⟩ := LinkTable.live_eq_some_iff.mp live
    have distinct := inv.refines.distinct
    have known : (state.table.find event.connHandle).any Link.central = central := by
      rw [found]
      exact role
    rw [known]
    cases central with
    | true =>
      have absent : event.connHandle ∉ state.table.periphs := by
        rw [LinkTable.mem_periphs_iff distinct, live]
        exact fun same => Bool.false_ne_true (Option.some.inj same).symm
      have kept : (state.table.periphs.filter fun handle => handle ≠ event.connHandle) =
          state.table.periphs := List.filter_eq_self.mpr fun handle member =>
        decide_eq_true fun same => absent (same ▸ member)
      rw [if_neg fun both => Bool.false_ne_true both.1.symm, kept]
      refine iff_of_true right ⟨fun is => absurd is connects, fun _ periph => ?_⟩
      rw [live] at periph
      exact absurd (Option.some.inj periph).symm Bool.false_ne_true
    | false =>
      have present := (LinkTable.mem_periphs_iff distinct).mpr live
      have only := eq_singleton_of_mem inv.single present
      have gone : (state.table.periphs.filter fun handle => handle ≠ event.connHandle) = [] := by
        rw [only]
        exact List.filter_cons_of_neg fun other => of_decide_eq_true other rfl
      rw [only, List.headD_cons] at right
      rw [gone, List.headD_nil]
      by_cases byte : event.connectedRole = gapRoleCentral
      · have handle : event.connHandle ≠ Core.connHandleInvalid := by
          have same := List.find?_some found
          rw [decide_eq_true_eq] at same
          rw [← same]
          exact inv.proper link (List.mem_of_find?_eq_some found)
        rw [if_neg fun both => both.2 byte, right]
        exact iff_of_false handle fun through => through.2 ends live byte
      · rw [if_pos ⟨rfl, byte⟩]
        exact iff_of_true rfl ⟨fun is => absurd is connects, fun _ _ => byte⟩
  · rw [if_neg ends, if_neg ends, ite_self]
    exact iff_of_true right ⟨fun is => absurd is connects, fun is => absurd is ends⟩

theorem initial_inv (registered : BLEManagerClass) : (initial registered).Inv :=
  ⟨reset_refines, rfl, rfl, Nat.zero_le 1, fun _ member => absurd member List.not_mem_nil⟩

/-- **Over every run the service has the handle of its link exactly when every event of such a link is
let through**: none comes up with the handle of a central link that has ended and is still in the
table, and no disconnection carries the byte of the central role where the role of a connection would
be. -/
theorem dfu_handle_right_iff (registered : BLEManagerClass) {events : List BleEvt}
    (legal : EachStep step Legal (initial registered) events) :
    Always step HandleRight (initial registered) events ↔
      EachStep step LetsThrough (initial registered) events :=
  have keep : ∀ state event, state.Inv ∧ state.HandleRight → state.Legal event →
      (step state event).HandleRight → (step state event).Inv ∧ (step state event).HandleRight :=
    fun _ _ both legal right => ⟨step_inv both.1 legal, right⟩
  always_iff_of_invariant keep (fun _ _ both legal => handleRight_step_iff both.1 legal both.2) rfl
    ⟨initial_inv registered, rfl⟩ legal

/-- A link in the peripheral role with the handle of a central link that has ended: the service does
not hear of it. -/
theorem dfu_handle_right_iff_stale :
    ¬ Always step HandleRight (initial ⟨true, true⟩) [linkEvent gapEvtConnected 3 gapRoleCentral,
      linkEvent gapEvtDisconnected 3 0x13, linkEvent gapEvtConnected 3 gapRolePeriph] := by
  rw [dfu_handle_right_iff ⟨true, true⟩ (by decide +kernel)]
  decide +kernel

end BoardState

end PrimoCore.Ble
