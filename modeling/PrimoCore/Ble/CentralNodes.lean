/-
**The nodes of the central role.**

A connection stores `_tempNode` in its slot, and `_tempNode` is what the last advertising report has
made of it, whoever sent it. `connect` may name any node a program has copied.

* `NodeState` — the role, the links, and the peer each link was reported with.
* `NodesRight`, `HandsOver` — **what the nodes are to satisfy**: the node of every link that is up, and
  those the program is handed, have the address of the link's peer.
* `connected_right_iff` — a connection keeps the nodes right exactly when the peer was heard last.
* `nodes_right_iff` — **over every run**, the nodes are right exactly when this is so of every
  connection.
-/

import PrimoCore.Ble.CentralLinks

namespace PrimoCore.Ble

open PrimoCore.Lib

/-- The central role, its links, the peer address each link came up with, and the addresses that
`connect` was called for. -/
structure NodeState extends LinkState where
  peerAddr : UInt16 → Vector UInt8 6
  asked : List (Vector UInt8 6)

/-- An event or a call of the central role, or `connect`. -/
inductive NodeInput where
  | role (input : CentralInput)
  | connect (node : BLENode)

namespace NodeState

/-- The role as it is constructed, and `allowMultilink` called. -/
def initial (central : CentralRole) (linksNo : UInt8) : NodeState where
  toLinkState := .initial central linksNo
  peerAddr := fun _ => .replicate 6 0
  asked := []

/-- The peers of the links, after an input. -/
def peerAddrAfter (state : NodeState) : CentralInput → UInt16 → Vector UInt8 6
  | .event ⟨connHandle, .connected peerAddr _⟩ => Function.update state.peerAddr connHandle peerAddr
  | _ => state.peerAddr

/-- `connect` asks the stack for a connection, and changes nothing in the role. -/
def step (state : NodeState) : NodeInput → NodeState
  | .role input =>
      { state with
        toLinkState := state.toLinkState.step input
        peerAddr := state.peerAddrAfter input }
  | .connect node => { state with asked := node.advReport.peerAddr :: state.asked }

/-- What an input makes the role do. -/
def outputs (state : NodeState) : NodeInput → List (Output CentralNotice)
  | .role input => (state.central.step input).2
  | .connect node => CentralRole.connect node

/-- What the stack does. -/
def Legal (state : NodeState) : NodeInput → Prop
  | .role input => state.toLinkState.Legal input
  | .connect _ => True

/-- A connection is one that `connect` has asked for. -/
def Asked (state : NodeState) : NodeInput → Prop
  | .role (.event ⟨_, .connected peerAddr _⟩) => peerAddr ∈ state.asked
  | _ => True

instance (state : NodeState) (input : NodeInput) : Decidable (state.Legal input) :=
  match input with
  | .role input => inferInstanceAs (Decidable (state.toLinkState.Legal input))
  | .connect _ => isTrue trivial

instance (state : NodeState) (input : NodeInput) : Decidable (state.Asked input) := by
  unfold Asked
  split <;> infer_instance

/-- The node that the role takes for a link's. -/
def nodeOf (state : NodeState) (connHandle : UInt16) : BLENode :=
  state.central.nodeAt (state.central.slot connHandle)

/-- **The node of every link that is up has the address of its peer.** -/
def NodesRight (state : NodeState) : Prop :=
  ∀ connHandle ∈ state.live, (state.nodeOf connHandle).address = state.peerAddr connHandle

/-- **The node that the program is handed has the address of the peer**, when a link comes up and when
it ends. -/
def HandsOver (state : NodeState) (input : NodeInput) : Prop :=
  (∀ connHandle peerAddr count, input = .role (.event ⟨connHandle, .connected peerAddr count⟩) →
    ∀ node, .notice (.connected node) ∈ state.outputs input → node.address = peerAddr) ∧
  ∀ connHandle reason, input = .role (.event ⟨connHandle, .disconnected reason⟩) →
    ∀ node, .notice (.disconnected node) ∈ state.outputs input →
      node.address = state.peerAddr connHandle

/-- A link that comes up without a free slot shares the slot behind the allowed ones, and does not take
it from a link of another peer. -/
def Spares (state : NodeState) (peerAddr : Vector UInt8 6) : Prop :=
  ∀ other ∈ state.live, state.central.slot other = state.central.slot connHandleInvalid →
    state.peerAddr other = peerAddr

instance (state : NodeState) (peerAddr : Vector UInt8 6) : Decidable (state.Spares peerAddr) :=
  List.decidableBAll _ state.live

/-- **The peer that connects is the one heard last**, and its link finds a slot. -/
def HeardLast (state : NodeState) : NodeInput → Prop
  | .role (.event ⟨_, .connected peerAddr _⟩) =>
      state.central.tempNode.address = peerAddr ∧ state.Spares peerAddr
  | _ => True

instance (state : NodeState) (input : NodeInput) : Decidable (state.HeardLast input) := by
  unfold HeardLast
  split <;> infer_instance

end NodeState

/-! ### The nodes -/

namespace NodeState

variable {state : NodeState} (slots : SlotsOwned state.toLinkState) (right : state.NodesRight)

/-- The node of a link is found by its handle and the slot array alone. -/
theorem nodeOf_same {state' : NodeState} (same : SameLinks state.central state'.central)
    (connHandle : UInt16) : state'.nodeOf connHandle = state.nodeOf connHandle := by
  simp only [nodeOf, CentralRole.nodeAt, CentralRole.slot, same.connectionHandle, same.node,
    same.allowedPeripherals]

include slots right

/-- **A connection keeps the nodes right exactly when the peer was heard last.** -/
theorem connected_right_iff {connHandle : UInt16} {peerAddr : Vector UInt8 6} {count : UInt8}
    (legal : state.Legal (.role (.event ⟨connHandle, .connected peerAddr count⟩))) :
    (state.step (.role (.event ⟨connHandle, .connected peerAddr count⟩))).NodesRight ↔
      state.HeardLast (.role (.event ⟨connHandle, .connected peerAddr count⟩)) := by
  obtain ⟨fresh, -, -⟩ := legal_connected legal
  have nodes : ∀ slot,
      (state.step (.role (.event ⟨connHandle, .connected peerAddr count⟩))).central.nodeAt slot =
        Function.update state.central.nodeAt (state.central.slot connHandleInvalid)
          state.central.tempNode slot := fun slot => congrFun (set_bytes ..) slot
  have new : (state.step (.role (.event ⟨connHandle, .connected peerAddr count⟩))).nodeOf connHandle =
      state.central.tempNode := by
    rw [nodeOf, nodes]
    exact (congrArg _ (slots.slot_new legal)).trans (Function.update_self ..)
  have old : ∀ other ∈ state.live,
      (state.step (.role (.event ⟨connHandle, .connected peerAddr count⟩))).nodeOf other =
        if state.central.slot other = state.central.slot connHandleInvalid then state.central.tempNode
        else state.nodeOf other := by
    intro other up
    rw [nodeOf, nodes]
    refine (congrArg _ (slots.slot_old legal up)).trans ?_
    rw [Function.update_apply]
    rfl
  have peerNew : (state.step (.role (.event ⟨connHandle, .connected peerAddr count⟩))).peerAddr
      connHandle = peerAddr := Function.update_self ..
  have peerOld : ∀ other ∈ state.live,
      (state.step (.role (.event ⟨connHandle, .connected peerAddr count⟩))).peerAddr other =
        state.peerAddr other :=
    fun other up => Function.update_of_ne (fun same : other = connHandle => fresh (same ▸ up)) ..
  constructor
  · intro after
    have heard : state.central.tempNode.address = peerAddr := by
      have here := after connHandle (List.mem_cons_self ..)
      rwa [new, peerNew] at here
    refine ⟨heard, fun other up shared => ?_⟩
    have there := after other (List.mem_cons_of_mem _ up)
    rw [old other up, if_pos shared, peerOld other up, heard] at there
    exact there.symm
  · rintro ⟨heard, spared⟩ other up
    rcases List.mem_cons.mp up with rfl | before
    · rw [new, peerNew]
      exact heard
    · rw [old other before, peerOld other before]
      split_ifs with shared
      · rw [heard]
        exact (spared other before shared).symm
      · exact right other before

/-- A link that ends leaves the nodes of the others. -/
theorem disconnected_right {connHandle : UInt16} {reason : UInt8} :
    (state.step (.role (.event ⟨connHandle, .disconnected reason⟩))).NodesRight := by
  intro other up
  obtain ⟨before, different⟩ := List.mem_filter.mp up
  have kept : (state.step (.role (.event ⟨connHandle, .disconnected reason⟩))).nodeOf other =
      state.nodeOf other :=
    congrArg state.central.nodeAt (slots.slot_left before (of_decide_eq_true different))
  rw [kept]
  exact right other before

omit slots right in
/-- A new link is handed over with the node of the last report. -/
theorem connected_notice {central : CentralRole} {connHandle : UInt16} {count : UInt8} {node : BLENode}
    (member : .notice (.connected node) ∈ (central.onConnected connHandle count).2) :
    node = central.tempNode := by
  simp only [CentralRole.onConnected, List.mem_cons, List.mem_append, Output.notice.injEq,
    CentralNotice.connected.injEq] at member
  rcases member with same | ((update | discover) | secure) | scan
  · exact same
  · split_ifs at update <;> simp at update
  · split_ifs at discover <;> simp at discover
  · split_ifs at secure <;> simp at secure
  · split_ifs at scan <;> simp at scan

/-- **The step lemma.** -/
theorem step_right_iff {input : NodeInput} (legal : state.Legal input) :
    (state.step input).NodesRight ∧ state.HandsOver input ↔ state.HeardLast input := by
  cases input with
  | connect node =>
    refine iff_of_true ⟨fun connHandle up => ?_, ?_, ?_⟩ trivial
    · exact right connHandle up
    · intro _ _ _ same
      cases same
    · intro _ _ same
      cases same
  | role input =>
    cases other : input.isLinkEvent with
    | false =>
      have live : (state.step (.role input)).live = state.live :=
        linksAfter_of_noLinkEvent other state.live
      have same : SameLinks state.central (state.step (.role input)).central :=
        step_links state.central other
      have peers : (state.step (.role input)).peerAddr = state.peerAddr := by
        show state.peerAddrAfter input = _
        unfold peerAddrAfter
        split
        · cases other
        · rfl
      have heard : state.HeardLast (.role input) := by
        unfold HeardLast
        split
        · rename_i isConnected
          cases isConnected
          cases other
        · trivial
      refine iff_of_true ⟨fun connHandle up => ?_, ?_, ?_⟩ heard
      · rw [nodeOf_same same, peers]
        exact right connHandle (live ▸ up)
      · intro _ _ _ isConnected
        cases isConnected
        cases other
      · intro _ _ isDisconnected
        cases isDisconnected
        cases other
    | true =>
      match input, other with
      | .event ⟨connHandle, .connected peerAddr count⟩, _ =>
        rw [← connected_right_iff slots right legal]
        refine ⟨And.left, fun after => ⟨after, ?_, ?_⟩⟩
        · intro handle peer packets same node member
          cases same
          rw [connected_notice member]
          exact ((connected_right_iff slots right legal).mp after).1
        · intro _ _ same
          cases same
      | .event ⟨connHandle, .disconnected reason⟩, _ =>
        refine iff_of_true ⟨disconnected_right slots right, ?_, ?_⟩ trivial
        · intro _ _ _ same
          cases same
        · intro handle code same node member
          cases same
          have up : connHandle ∈ state.live := legal_disconnected legal
          have handed : node = state.central.nodeAt (state.central.slot connHandle) := by
            simpa [outputs, CentralRole.step, CentralRole.poll, CentralRole.onDisconnected,
              CentralRole.dropLink, CentralRole.forgetRemote] using member
          rw [handed]
          exact right connHandle up

end NodeState

/-- **In every run, the nodes are right in every state and every node handed over is the peer's exactly
when every peer that connects is the one heard last.** -/
theorem nodes_right_iff (central : CentralRole) (linksNo : UInt8) (inputs : List NodeInput)
    (legal : EachStep NodeState.step NodeState.Legal (.initial central linksNo) inputs) :
    Always NodeState.step NodeState.NodesRight (.initial central linksNo) inputs ∧
        EachStep NodeState.step NodeState.HandsOver (.initial central linksNo) inputs ↔
      EachStep NodeState.step NodeState.HeardLast (.initial central linksNo) inputs := by
  have keep : ∀ (state : NodeState) (input : NodeInput), SlotsOwned state.toLinkState →
      state.Legal input → SlotsOwned (state.step input).toLinkState := by
    intro state input slots expected
    cases input with
    | connect node => exact slots
    | role input => exact slots.step expected
  have owned := eachStep_of_invariant keep (fun _ _ slots expected => And.intro slots expected)
    (initial_owned central linksNo) legal
  have base : (NodeState.initial central linksNo).NodesRight :=
    fun _ up => absurd up List.not_mem_nil
  exact always_and_eachStep_iff
    (fun _ _ right expected => NodeState.step_right_iff expected.1 right expected.2) base owned

/-- An advertisement of a peer. -/
def advertisementOf (peer : UInt8) : AdvReport :=
  { unseenNode.advReport with peerAddr := .replicate 6 peer }

/-- The event of an advertisement. -/
def heardFrom (peer : UInt8) : NodeInput :=
  .role (.event ⟨connHandleInvalid, .advReport (advertisementOf peer)⟩)

/-- A call of `connect` with a copy of the node of a peer. -/
def connectTo (peer : UInt8) : NodeInput := .connect (unseenNode.setAdvPck (advertisementOf peer))

/-- A link with a peer. -/
def linkWith (connHandle : UInt16) (peer : UInt8) : NodeInput :=
  .role (.event ⟨connHandle, .connected (.replicate 6 peer) 6⟩)

/-- Two peers connect, each right after its advertisement, and one of them leaves. -/
theorem nodes_right_iff_two :
    Always NodeState.step NodeState.NodesRight (.initial emptyCentral 2)
        [heardFrom 1, connectTo 1, linkWith 0 1, heardFrom 2, connectTo 2, linkWith 1 2,
          .role (.event ⟨0, .disconnected 0x13⟩)] ∧
      EachStep NodeState.step NodeState.HandsOver (.initial emptyCentral 2)
        [heardFrom 1, connectTo 1, linkWith 0 1, heardFrom 2, connectTo 2, linkWith 1 2,
          .role (.event ⟨0, .disconnected 0x13⟩)] :=
  (nodes_right_iff emptyCentral 2 [heardFrom 1, connectTo 1, linkWith 0 1, heardFrom 2, connectTo 2,
    linkWith 1 2, .role (.event ⟨0, .disconnected 0x13⟩)] (by decide)).mpr (by decide)

/-- **A peer that is not the one heard last**: the program connects to the first of two advertisers, and
the link gets the node of the second. -/
theorem node_mistaken :
    ¬ ∀ (central : CentralRole) (linksNo : UInt8) (inputs : List NodeInput),
      EachStep NodeState.step NodeState.Legal (.initial central linksNo) inputs →
      EachStep NodeState.step NodeState.Asked (.initial central linksNo) inputs →
      Always NodeState.step NodeState.NodesRight (.initial central linksNo) inputs ∧
        EachStep NodeState.step NodeState.HandsOver (.initial central linksNo) inputs := by
  intro always
  obtain ⟨right, _⟩ := always emptyCentral 1 [heardFrom 1, heardFrom 2, connectTo 1, linkWith 0 1]
    (by decide) (by decide)
  exact absurd (right.last 0 (by decide)) (by decide)

end PrimoCore.Ble
