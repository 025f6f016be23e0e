/-
**Packets of several links.**

By the rule of `ble.h` the stack grants each link packets of its own, taken by the notifications and
writes without response it accepts on the link and given back in the link's `BLE_EVT_TX_COMPLETE`.

* `LinkCredit`, `freePackets` — the account of a link, and the free packets of all; what calls and
  completions do to them.
* `hvxCalls` — the calls that send some values to some links.
* `NotifiesFree` — each notification goes to a link with a free packet, when its turn comes.
* `RoomForLast` — the free packets of each link against the answers of the stack.
* `notifiesFree_iff_room` — **for values sent to every link** the two are the same.
-/

import Mathlib.Data.List.Nodup
import Mathlib.Tactic.SplitIfs
import PrimoCore.Ble.Credit

namespace PrimoCore.Ble

open PrimoCore.Lib

/-! ### Accounts -/

/-- The account of a link that is up: the packets granted when it came up, and those in flight. -/
structure LinkCredit where
  connHandle : UInt16
  granted : UInt8
  inFlight : Nat
  deriving DecidableEq, Repr

/-- The calls that take a packet from a link, among those that are accepted. -/
def packetsOn (calls : List StackCall) (codes : Nat → UInt32) (connHandle : UInt16) : Nat :=
  ((accepted calls codes).filter fun call =>
    call.consumesPacket && call.transferHandle = connHandle).length

namespace LinkCredit

/-- The free packets of a link. -/
def free (link : LinkCredit) : Int := (link.granted.toNat : Int) - (link.inFlight : Int)

/-- The account after some calls. -/
def charge (calls : List StackCall) (codes : Nat → UInt32) (link : LinkCredit) : LinkCredit :=
  { link with inFlight := link.inFlight + packetsOn calls codes link.connHandle }

/-- The account after packets of a link have completed. -/
def complete (connHandle : UInt16) (count : UInt8) (link : LinkCredit) : LinkCredit :=
  if link.connHandle = connHandle then { link with inFlight := link.inFlight - count.toNat } else link

@[simp] theorem charge_connHandle (calls : List StackCall) (codes : Nat → UInt32)
    (link : LinkCredit) : (link.charge calls codes).connHandle = link.connHandle := rfl

@[simp] theorem complete_connHandle (connHandle : UInt16) (count : UInt8) (link : LinkCredit) :
    (link.complete connHandle count).connHandle = link.connHandle := by
  unfold complete
  split_ifs <;> rfl

theorem charge_free (calls : List StackCall) (codes : Nat → UInt32) (link : LinkCredit) :
    (link.charge calls codes).free = link.free - packetsOn calls codes link.connHandle := by
  simp only [free, charge]
  omega

end LinkCredit

/-- The free packets of some links. -/
def freePackets : List LinkCredit → Int
  | [] => 0
  | link :: rest => link.free + freePackets rest

/-- The handles of some links. -/
def handlesOf (links : List LinkCredit) : List UInt16 := links.map LinkCredit.connHandle

/-- The calls that take a packet, among those that are accepted. -/
def packets (calls : List StackCall) (codes : Nat → UInt32) : Nat :=
  ((accepted calls codes).filter StackCall.consumesPacket).length

theorem handlesOf_map {change : LinkCredit → LinkCredit}
    (same : ∀ link, (change link).connHandle = link.connHandle) (links : List LinkCredit) :
    handlesOf (links.map change) = handlesOf links := by
  rw [handlesOf, List.map_map]
  exact List.map_congr_left fun link _ => same link

/-- Links with distinct handles are told apart by them. -/
theorem eq_of_connHandle {links : List LinkCredit} (distinct : (handlesOf links).Nodup)
    {link other : LinkCredit} (first : link ∈ links) (second : other ∈ links)
    (same : link.connHandle = other.connHandle) : link = other :=
  List.inj_on_of_nodup_map distinct first second same

/-- What some accepted calls take from the links, one link after the other. -/
def taken (made : List StackCall) : List LinkCredit → Nat
  | [] => 0
  | link :: rest =>
      (made.filter fun call => call.consumesPacket && call.transferHandle = link.connHandle).length +
        taken made rest

theorem freePackets_charge (links : List LinkCredit) (calls : List StackCall)
    (codes : Nat → UInt32) : freePackets (links.map (LinkCredit.charge calls codes)) =
      freePackets links - taken (accepted calls codes) links := by
  induction links with
  | nil => rfl
  | cons link rest ih =>
    rw [List.map_cons, freePackets, freePackets, taken, ih, LinkCredit.charge_free, packetsOn]
    omega

theorem taken_nil (links : List LinkCredit) : taken [] links = 0 := by
  induction links with
  | nil => rfl
  | cons link rest ih => simp [taken, ih]

/-- A call takes a packet from no link but its own. -/
theorem taken_cons_of_not_mem {call : StackCall} {links : List LinkCredit}
    (other : call.transferHandle ∉ handlesOf links) (made : List StackCall) :
    taken (call :: made) links = taken made links := by
  induction links with
  | nil => rfl
  | cons link rest ih =>
    rw [handlesOf, List.map_cons, List.mem_cons, not_or] at other
    simp [taken, ih other.2, other.1]

/-- A call on one of the links takes a packet from it, if it takes one at all. -/
theorem taken_cons_of_mem {call : StackCall} {links : List LinkCredit}
    (distinct : (handlesOf links).Nodup) (own : call.transferHandle ∈ handlesOf links)
    (made : List StackCall) : taken (call :: made) links =
      (if call.consumesPacket then 1 else 0) + taken made links := by
  induction links with
  | nil => exact absurd own List.not_mem_nil
  | cons link rest ih =>
    rw [handlesOf, List.map_cons, List.nodup_cons] at distinct
    rw [taken, taken]
    by_cases here : call.transferHandle = link.connHandle
    · have notLater : call.transferHandle ∉ handlesOf rest := here ▸ distinct.1
      rw [taken_cons_of_not_mem notLater]
      cases packet : call.consumesPacket <;> simp [packet, here]
      omega
    · have later : call.transferHandle ∈ handlesOf rest :=
        (List.mem_cons.mp own).resolve_left here
      rw [ih distinct.2 later]
      simp [here]
      omega

/-- **The packets taken from all links are the packets taken.** -/
theorem taken_eq {links : List LinkCredit} (distinct : (handlesOf links).Nodup)
    {made : List StackCall} (known : ∀ call ∈ made, call.transferHandle ∈ handlesOf links) :
    taken made links = (made.filter StackCall.consumesPacket).length := by
  induction made with
  | nil => exact taken_nil links
  | cons call rest ih =>
    have later := ih fun made member => known made (List.mem_cons_of_mem _ member)
    rw [taken_cons_of_mem distinct (known call (List.mem_cons_self ..)), later, List.filter_cons]
    split_ifs <;> simp
    omega

theorem freePackets_charge_eq {links : List LinkCredit} (distinct : (handlesOf links).Nodup)
    {calls : List StackCall} (known : ∀ call ∈ calls, call.transferHandle ∈ handlesOf links)
    (codes : Nat → UInt32) : freePackets (links.map (LinkCredit.charge calls codes)) =
      freePackets links - packets calls codes := by
  rw [freePackets_charge,
    taken_eq distinct fun call member => known call (mem_of_accepted member), packets]

/-- Where no link has more in flight than it was granted, the free packets are none when each link has
none. -/
theorem free_nonpos_of_sum {links : List LinkCredit}
    (covered : ∀ link ∈ links, link.inFlight ≤ link.granted.toNat) (none : freePackets links = 0) :
    ∀ link ∈ links, link.free ≤ 0 := by
  have nonneg : ∀ others : List LinkCredit, (∀ link ∈ others, link.inFlight ≤ link.granted.toNat) →
      0 ≤ freePackets others := by
    intro others all
    induction others with
    | nil => exact Int.le_refl 0
    | cons link rest ih =>
      have first := all link (List.mem_cons_self ..)
      have later := ih fun other member => all other (List.mem_cons_of_mem _ member)
      simp only [freePackets, LinkCredit.free]
      omega
  induction links with
  | nil => exact fun _ member => absurd member List.not_mem_nil
  | cons link rest ih =>
    have first := covered link (List.mem_cons_self ..)
    have others : ∀ other ∈ rest, other.inFlight ≤ other.granted.toNat :=
      fun other member => covered other (List.mem_cons_of_mem _ member)
    have later := nonneg rest others
    simp only [freePackets, LinkCredit.free] at none
    intro other member
    rcases List.mem_cons.mp member with rfl | inRest
    · simp only [LinkCredit.free]
      omega
    · exact ih others (by omega) other inRest

/-- Packets that complete are free again. -/
theorem freePackets_complete {links : List LinkCredit} (distinct : (handlesOf links).Nodup)
    {link : LinkCredit} (member : link ∈ links) {count : UInt8}
    (enough : count.toNat ≤ link.inFlight) :
    freePackets (links.map (LinkCredit.complete link.connHandle count)) =
      freePackets links + count.toNat := by
  induction links with
  | nil => exact absurd member List.not_mem_nil
  | cons first rest ih =>
    rw [handlesOf, List.map_cons, List.nodup_cons] at distinct
    rw [List.map_cons, freePackets, freePackets]
    rcases List.mem_cons.mp member with rfl | later
    · have others : rest.map (LinkCredit.complete link.connHandle count) = rest := by
        refine (List.map_congr_left fun other inside => ?_).trans (List.map_id rest)
        refine if_neg fun same => distinct.1 ?_
        exact same ▸ List.mem_map_of_mem inside
      have here : (link.complete link.connHandle count).free = link.free + count.toNat := by
        simp only [LinkCredit.complete, LinkCredit.free, if_true]
        omega
      rw [others, here]
      omega
    · have other : (first.complete link.connHandle count) = first :=
        if_neg fun (same : first.connHandle = link.connHandle) =>
          distinct.1 (same ▸ List.mem_map_of_mem later)
      rw [ih distinct.2 later, other]
      omega

/-! ### Values sent to every link -/

/-- The calls that send some values to some links, one value after the other. -/
def hvxCalls (handles : List UInt16) (values : List (UInt16 × HvxType)) : List StackCall :=
  values.flatMap fun value => handles.map fun connHandle => hvxCall connHandle value

/-- A notification. -/
def StackCall.isNotification : StackCall → Bool
  | .gattsHvx _ _ .notification => true
  | _ => false

/-- Each notification goes to a link with a free packet, when its turn comes. -/
def NotifiesFree (links : List LinkCredit) (calls : List StackCall) (codes : Nat → UInt32) : Prop :=
  ∀ (index : Nat) (inside : index < calls.length), calls[index].isNotification →
    ∃ link ∈ links, link.connHandle = calls[index].transferHandle ∧
      0 < (link.charge (calls.take index) codes).free

instance (links : List LinkCredit) (calls : List StackCall) (codes : Nat → UInt32) :
    Decidable (NotifiesFree links calls codes) :=
  inferInstanceAs (Decidable (∀ (index : Nat) (_ : index < calls.length), _ → _))

/-- The values in front of the last notification. -/
def beforeLast : List (UInt16 × HvxType) → List (UInt16 × HvxType)
  | [] => []
  | value :: rest =>
      if rest.any fun other => other.2 = .notification then value :: beforeLast rest else []

/-- How many of some values, each sent to as many links as there are, the stack takes for packets of the
link in a place. -/
def acceptedIn (links place : Nat) (codes : Nat → UInt32) : List (UInt16 × HvxType) → Nat
  | [] => 0
  | value :: rest =>
      (if value.2 = .notification ∧ codes place = nrfSuccess then 1 else 0) +
        acceptedIn links place (fun index => codes (links + index)) rest

/-- **Room for the last notification**: where there is one, each link has more free packets than the stack
takes for it in front of that. -/
def RoomForLast (links : List LinkCredit) (handles : List UInt16) (values : List (UInt16 × HvxType))
    (codes : Nat → UInt32) : Prop :=
  (values.any fun value => value.2 = .notification) →
    ∀ (place : Nat) (inside : place < handles.length), ∀ link ∈ links,
      link.connHandle = handles[place] →
        (acceptedIn handles.length place codes (beforeLast values) : Int) < link.free

instance (links : List LinkCredit) (handles : List UInt16) (values : List (UInt16 × HvxType))
    (codes : Nat → UInt32) : Decidable (RoomForLast links handles values codes) :=
  inferInstanceAs (Decidable (_ → ∀ (place : Nat) (_ : place < handles.length), ∀ link ∈ links, _ → _))

/-! ### Packets in order -/

theorem accepted_append (first second : List StackCall) (codes : Nat → UInt32) :
    accepted (first ++ second) codes =
      accepted first codes ++ accepted second fun index => codes (first.length + index) := by
  induction first generalizing codes with
  | nil => simp [accepted]
  | cons call rest ih =>
    have later : (fun index => codes (rest.length + index + 1)) =
        fun index => codes (rest.length + 1 + index) := by
      funext index
      rw [Nat.add_right_comm]
    rw [List.cons_append, accepted, accepted, ih]
    simp only [List.length_cons, later]
    split_ifs <;> rfl

/-- One call takes one packet at most, from its own link. -/
theorem packetsOn_take_succ (calls : List StackCall) (codes : Nat → UInt32) (connHandle : UInt16)
    {index : Nat} (inside : index < calls.length) :
    packetsOn (calls.take (index + 1)) codes connHandle =
      packetsOn (calls.take index) codes connHandle +
        if codes index = nrfSuccess ∧ calls[index].consumesPacket = true ∧
          calls[index].transferHandle = connHandle then 1 else 0 := by
  have length : (calls.take index).length = index := by
    rw [List.length_take]
    omega
  rw [packetsOn, packetsOn, List.take_succ_eq_append_getElem inside, accepted_append,
    List.filter_append, List.length_append, length]
  congr 1
  by_cases success : codes index = nrfSuccess
  · by_cases own : calls[index].consumesPacket = true ∧ calls[index].transferHandle = connHandle
    · simp [accepted, success, own]
    · simp only [accepted, Nat.add_zero, success, if_true, true_and, if_neg own]
      simpa using own
  · simp [accepted, success]

theorem packetsOn_le (calls : List StackCall) (codes : Nat → UInt32) (connHandle : UInt16) :
    packetsOn calls codes connHandle ≤ packets calls codes := by
  rw [packetsOn, packets, ← List.countP_eq_length_filter, ← List.countP_eq_length_filter]
  exact List.countP_mono_left fun call _ own => ((Bool.and_eq_true ..).mp own).1

/-- **Notifications that meet a free packet** take no more than were granted. -/
theorem covered_charge {links : List LinkCredit} (distinct : (handlesOf links).Nodup)
    (covered : ∀ link ∈ links, link.inFlight ≤ link.granted.toNat) {calls : List StackCall}
    {codes : Nat → UInt32} (notifications : ∀ call ∈ calls, call.consumesPacket → call.isNotification)
    (notifiesFree : NotifiesFree links calls codes) :
    ∀ link ∈ links, (link.charge calls codes).inFlight ≤ link.granted.toNat := by
  intro link member
  have upTo : ∀ count ≤ calls.length,
      link.inFlight + packetsOn (calls.take count) codes link.connHandle ≤ link.granted.toNat := by
    intro count
    induction count with
    | zero =>
      intro _
      simpa [packetsOn, accepted] using covered link member
    | succ index ih =>
      intro inside
      have before := ih (by omega)
      rw [packetsOn_take_succ calls codes link.connHandle inside]
      split_ifs with takes
      · obtain ⟨_, packet, own⟩ := takes
        obtain ⟨other, otherMember, same, free⟩ := notifiesFree index inside
          (notifications _ (List.getElem_mem inside) packet)
        rw [eq_of_connHandle distinct otherMember member (same.trans own)] at free
        simp only [LinkCredit.free, LinkCredit.charge] at free
        omega
      · exact before
  have whole := upTo calls.length (Nat.le_refl _)
  rwa [List.take_length] at whole

/-- What an update sends are notifications, as far as it takes packets. -/
theorem hvxCalls_notifications {handles : List UInt16} {values : List (UInt16 × HvxType)} :
    ∀ call ∈ hvxCalls handles values,
      call.transferHandle ∈ handles ∧ (call.consumesPacket → call.isNotification) := by
  intro call member
  obtain ⟨⟨handle, type⟩, _, made⟩ := List.mem_flatMap.mp member
  obtain ⟨connHandle, linked, rfl⟩ := List.mem_map.mp made
  refine ⟨linked, fun packet => ?_⟩
  cases type with
  | notification => rfl
  | indication => cases packet

/-! ### Room for the last notification -/

theorem packetsOn_append (first second : List StackCall) (codes : Nat → UInt32) (connHandle : UInt16) :
    packetsOn (first ++ second) codes connHandle = packetsOn first codes connHandle +
      packetsOn second (fun index => codes (first.length + index)) connHandle := by
  rw [packetsOn, packetsOn, packetsOn, accepted_append, List.filter_append, List.length_append]

theorem charge_append (first second : List StackCall) (codes : Nat → UInt32) (link : LinkCredit) :
    link.charge (first ++ second) codes =
      (link.charge first codes).charge second fun index => codes (first.length + index) := by
  simp only [LinkCredit.charge, packetsOn_append, Nat.add_assoc]

/-- Calls on other links take nothing from a link. -/
theorem packetsOn_eq_zero {calls : List StackCall} {connHandle : UInt16}
    (others : ∀ call ∈ calls, call.transferHandle ≠ connHandle) (codes : Nat → UInt32) :
    packetsOn calls codes connHandle = 0 := by
  rw [packetsOn, List.length_eq_zero_iff, List.filter_eq_nil_iff]
  intro call member
  simp [others call (mem_of_accepted member)]

/-- What is notified after some calls meets the links as these have left them. -/
theorem notifiesFree_append {links : List LinkCredit} {first second : List StackCall}
    {codes : Nat → UInt32} : NotifiesFree links (first ++ second) codes ↔
      NotifiesFree links first codes ∧ NotifiesFree (links.map (LinkCredit.charge first codes)) second
        fun index => codes (first.length + index) := by
  constructor
  · intro all
    refine ⟨fun index inside notification => ?_, fun index inside notification => ?_⟩
    · have whole := all index (by rw [List.length_append]; omega)
      rw [List.getElem_append_left inside, List.take_append_of_le_length (Nat.le_of_lt inside)] at whole
      exact whole notification
    · have whole := all (first.length + index) (by rw [List.length_append]; omega)
      rw [List.getElem_append_right (Nat.le_add_right ..), List.take_append] at whole
      simp only [Nat.add_sub_cancel_left, List.take_of_length_le (Nat.le_add_right ..)] at whole
      obtain ⟨link, member, own, free⟩ := whole notification
      rw [charge_append] at free
      exact ⟨_, List.mem_map_of_mem member, own, free⟩
  · rintro ⟨front, back⟩ index inside notification
    rw [List.length_append] at inside
    by_cases early : index < first.length
    · rw [List.getElem_append_left early] at notification ⊢
      rw [List.take_append_of_le_length (Nat.le_of_lt early)]
      exact front index early notification
    · obtain ⟨later, rfl⟩ := Nat.exists_eq_add_of_le (Nat.le_of_not_lt early)
      rw [List.getElem_append_right (Nat.le_add_right ..)] at notification ⊢
      rw [List.take_append]
      simp only [Nat.add_sub_cancel_left, List.take_of_length_le (Nat.le_add_right ..)] at notification ⊢
      obtain ⟨_, charged, own, free⟩ := back later (by omega) notification
      obtain ⟨link, member, rfl⟩ := List.mem_map.mp charged
      exact ⟨link, member, own, by rwa [charge_append]⟩

section Room

variable {links : List LinkCredit} {handles : List UInt16}

/-- The calls that send one value to every link. -/
theorem hvxCalls_cons (handles : List UInt16) (value : UInt16 × HvxType)
    (rest : List (UInt16 × HvxType)) : hvxCalls handles (value :: rest) =
      hvxCalls handles [value] ++ hvxCalls handles rest := by
  simp [hvxCalls]

theorem hvxCalls_singleton (handles : List UInt16) (value : UInt16 × HvxType) :
    hvxCalls handles [value] = handles.map fun connHandle => hvxCall connHandle value := by
  simp [hvxCalls]

/-- In front of its turn, one value takes nothing from a link. -/
theorem packetsOn_take (nodup : handles.Nodup) (value : UInt16 × HvxType) (codes : Nat → UInt32)
    {place : Nat} (inside : place < handles.length) :
    packetsOn ((hvxCalls handles [value]).take place) codes handles[place] = 0 := by
  refine packetsOn_eq_zero (fun call member same => ?_) codes
  rw [hvxCalls_singleton, ← List.map_take] at member
  obtain ⟨connHandle, before, rfl⟩ := List.mem_map.mp member
  obtain rfl : connHandle = handles[place] := same
  have here : handles[place] ∈ handles.drop place := by
    rw [List.drop_eq_getElem_cons inside]
    exact List.mem_cons_self ..
  exact List.disjoint_take_drop nodup (Nat.le_refl place) before here

/-- One value takes one packet from a link at most. -/
theorem packetsOn_value (nodup : handles.Nodup) (value : UInt16 × HvxType) (codes : Nat → UInt32)
    {place : Nat} (inside : place < handles.length) :
    packetsOn (hvxCalls handles [value]) codes handles[place] =
      if value.2 = .notification ∧ codes place = nrfSuccess then 1 else 0 := by
  have length : place < (hvxCalls handles [value]).length := by
    rw [hvxCalls_singleton, List.length_map]
    exact inside
  have behind : packetsOn ((hvxCalls handles [value]).drop (place + 1))
      (fun index => codes (((hvxCalls handles [value]).take (place + 1)).length + index))
      handles[place] = 0 := by
    refine packetsOn_eq_zero (fun call member same => ?_) _
    rw [hvxCalls_singleton, ← List.map_drop] at member
    obtain ⟨connHandle, after, rfl⟩ := List.mem_map.mp member
    obtain rfl : connHandle = handles[place] := same
    have here : handles[place] ∈ handles.take (place + 1) := by
      rw [List.take_succ_eq_append_getElem inside]
      exact List.mem_append_right _ (List.mem_singleton_self _)
    exact List.disjoint_take_drop nodup (Nat.le_refl _) here after
  have turn : (hvxCalls handles [value])[place] = hvxCall handles[place] value := by
    simp only [hvxCalls_singleton, List.getElem_map]
  have packet : (hvxCall handles[place] value).consumesPacket = true ↔ value.2 = .notification := by
    obtain ⟨handle, type⟩ := value
    cases type <;> simp [hvxCall, StackCall.consumesPacket]
  conv_lhs => rw [← List.take_append_drop (place + 1) (hvxCalls handles [value])]
  rw [packetsOn_append, behind, packetsOn_take_succ _ _ _ length, packetsOn_take nodup _ _ inside, turn]
  simp only [packet, show (hvxCall handles[place] value).transferHandle = handles[place] from rfl,
    true_and, Nat.zero_add, Nat.add_zero, and_comm]

/-- A notification meets free packets when each link has one. -/
theorem notifiesFree_value_iff (distinct : (handlesOf links).Nodup) (nodup : handles.Nodup)
    (known : ∀ connHandle ∈ handles, connHandle ∈ handlesOf links) (value : UInt16 × HvxType)
    (codes : Nat → UInt32) : NotifiesFree links (hvxCalls handles [value]) codes ↔
      (value.2 = .notification → ∀ (place : Nat) (inside : place < handles.length), ∀ link ∈ links,
        link.connHandle = handles[place] → 0 < link.free) := by
  have free : ∀ (place : Nat) (inside : place < handles.length) (link : LinkCredit),
      link.connHandle = handles[place] →
        (link.charge ((hvxCalls handles [value]).take place) codes).free = link.free := by
    intro place inside link own
    rw [LinkCredit.charge_free, own, packetsOn_take nodup value codes inside]
    exact Int.sub_zero _
  have turn : ∀ (place : Nat) (inside : place < (hvxCalls handles [value]).length)
      (inside' : place < handles.length),
        (hvxCalls handles [value])[place] = hvxCall handles[place] value := by
    intro place _ _
    simp only [hvxCalls_singleton, List.getElem_map]
  have notification : ∀ connHandle, (hvxCall connHandle value).isNotification = true ↔
      value.2 = .notification := by
    intro connHandle
    obtain ⟨handle, type⟩ := value
    cases type <;> simp [hvxCall, StackCall.isNotification]
  have length : (hvxCalls handles [value]).length = handles.length := by
    rw [hvxCalls_singleton, List.length_map]
  constructor
  · intro all isNotification place inside link member own
    have here := all place (by rw [length]; exact inside)
    rw [turn place _ inside, notification] at here
    obtain ⟨other, otherMember, same, room⟩ := here isNotification
    rw [eq_of_connHandle distinct otherMember member (same.trans own.symm), free place inside link own]
      at room
    exact room
  · intro all place inside isNotification
    rw [length] at inside
    rw [turn place _ inside, notification] at isNotification
    obtain ⟨link, member, own⟩ := List.mem_map.mp (known _ (List.getElem_mem inside))
    rw [turn place _ inside]
    refine ⟨link, member, own, ?_⟩
    rw [free place inside link own]
    exact all isNotification place inside link member own

/-- Room for the last of some notifications is room for the first, and what is left is room for the last
of the others. -/
theorem roomForLast_cons_iff (nodup : handles.Nodup) (value : UInt16 × HvxType)
    (rest : List (UInt16 × HvxType)) (codes : Nat → UInt32) :
    RoomForLast links handles (value :: rest) codes ↔
      (value.2 = .notification → ∀ (place : Nat) (inside : place < handles.length), ∀ link ∈ links,
        link.connHandle = handles[place] → 0 < link.free) ∧
      RoomForLast (links.map (LinkCredit.charge (hvxCalls handles [value]) codes)) handles rest
        fun index => codes ((hvxCalls handles [value]).length + index) := by
  have length : (hvxCalls handles [value]).length = handles.length := by
    rw [hvxCalls_singleton, List.length_map]
  unfold RoomForLast
  rw [length]
  cases later : rest.any fun other => decide (other.2 = .notification) with
  | false =>
    simp [beforeLast, later, acceptedIn]
  | true =>
    simp only [List.any_cons, later, Bool.or_true, true_implies, beforeLast, if_true, acceptedIn,
      List.forall_mem_map, LinkCredit.charge_connHandle]
    constructor
    · refine fun all => ⟨fun _ place inside link member own => ?_,
        fun place inside link member own => ?_⟩
      · have room := all place inside link member own
        omega
      · have room := all place inside link member own
        rw [LinkCredit.charge_free, own, packetsOn_value nodup value codes inside]
        split_ifs at room ⊢ <;> omega
    · rintro ⟨_, all⟩ place inside link member own
      have room := all place inside link member own
      rw [LinkCredit.charge_free, own, packetsOn_value nodup value codes inside] at room
      split_ifs at room ⊢ <;> omega

/-- **Each notification of an update meets a free packet on each link** exactly when each link has room for
the last one. -/
theorem notifiesFree_iff_room (distinct : (handlesOf links).Nodup) (nodup : handles.Nodup)
    (known : ∀ connHandle ∈ handles, connHandle ∈ handlesOf links)
    (values : List (UInt16 × HvxType)) (codes : Nat → UInt32) :
    NotifiesFree links (hvxCalls handles values) codes ↔ RoomForLast links handles values codes := by
  induction values generalizing links codes with
  | nil =>
    refine iff_of_true (fun _ inside => absurd inside (Nat.not_lt_zero _)) fun none => ?_
    cases none
  | cons value rest ih =>
    have handlesAfter : handlesOf (links.map (LinkCredit.charge (hvxCalls handles [value]) codes)) =
        handlesOf links := handlesOf_map (LinkCredit.charge_connHandle _ codes) links
    rw [hvxCalls_cons, notifiesFree_append, roomForLast_cons_iff nodup value rest codes,
      notifiesFree_value_iff distinct nodup known value codes,
      ih (handlesAfter ▸ distinct) (fun connHandle member => handlesAfter ▸ known connHandle member)]

end Room

end PrimoCore.Ble
