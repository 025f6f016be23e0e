/-
**The channels of GPIOTE, `attachInterrupt` and `detachInterrupt`.**

Eight channels are handed out to pins. A table of flags says which channels are free, a table of slots
which pin and callback each channel has; freed slots keep theirs. The interrupt handler looks for the
first slot whose event register is set.

* `attachInterrupt`, `detachInterrupt`, `irqEnter`, `irqExit` — the code, the handler in two halves around
  the callback, which may attach and detach.
* `ChannelState` — a run, with the functions the calls of the program have attached.
* `ChannelState.Consistent`, `ChannelState.Serves` — what is to hold of every state, and of every run of
  the handler.
* `channels_consistent_iff` — **both hold in a run exactly when** no pin is attached a second time, no
  freed slot has its event register set before the slot that is served, and no callback leaves its own
  channel free.
-/

import PrimoCore.Lib.Run
import PrimoCore.Lib.Slots

namespace PrimoCore.Core

open PrimoCore.Lib

/-- `NUMBER_OF_GPIO_TE`. -/
def numberOfGpioTe : Nat := 8

/-- `nrf_gpiote_polarity_t`. -/
inductive Polarity where
  | loToHi
  | hiToLo
  | toggle
  deriving DecidableEq

/-- A `CONFIG` register: whether the channel is in event mode, its pin and its polarity. -/
structure ChannelConfig where
  event : Bool
  pin : UInt32
  polarity : Polarity

/-- The event, interrupt and configuration registers of GPIOTE. -/
structure Gpiote where
  events : Nat → Bool
  intEnabled : Nat → Bool
  config : Nat → ChannelConfig

/-- An element of `callbacksInt`. `channel` and `mask` are the event register and the interrupt bit of a
channel, or nothing where the slot has not been used: zero is the mask of no channel, and the register at
zero reads as not set. -/
structure Slot where
  ulPin : UInt32
  callback : Nat
  channel : Option Nat
  mask : Option Nat

/-- The file-scope variables, GPIOTE, and the slot whose callback runs. -/
structure Channels where
  freeChannels : Nat → Bool
  callbacksInt : Nat → Slot
  gpiote : Gpiote
  serving : Option Nat

namespace Gpiote

/-- `nrf_gpiote_event_is_set`. -/
def eventIsSet (gpiote : Gpiote) : Option Nat → Bool
  | none => false
  | some channel => gpiote.events channel

/-- `nrf_gpiote_event_clear`. -/
def eventClear (gpiote : Gpiote) : Option Nat → Gpiote
  | none => gpiote
  | some channel => { gpiote with events := Function.update gpiote.events channel false }

/-- `nrf_gpiote_int_enable` and `nrf_gpiote_int_disable`. -/
def intSet (gpiote : Gpiote) (enable : Bool) : Option Nat → Gpiote
  | none => gpiote
  | some channel => { gpiote with intEnabled := Function.update gpiote.intEnabled channel enable }

/-- `nrf_gpiote_event_configure`, `nrf_gpiote_event_enable`. -/
def eventConfigure (gpiote : Gpiote) (channel : Nat) (pin : UInt32) (mode : Polarity) : Gpiote :=
  { gpiote with config := Function.update gpiote.config channel ⟨true, pin, mode⟩ }

/-- `nrf_gpiote_event_disable`. -/
def eventDisable (gpiote : Gpiote) (channel : Nat) : Gpiote :=
  { gpiote with
    config := Function.update gpiote.config channel { gpiote.config channel with event := false } }

/-- The pin of a channel changes as the channel is configured. -/
def edge (gpiote : Gpiote) (channel : Nat) : Gpiote :=
  if (gpiote.config channel).event then
    { gpiote with events := Function.update gpiote.events channel true }
  else gpiote

end Gpiote

/-- The `switch` over `LOW`, `HIGH`, `CHANGE`, `FALLING` and `RISING`. -/
def polarity (ulMode : UInt32) : Polarity :=
  if ulMode = 0 then .hiToLo
  else if ulMode = 1 then .loToHi
  else if ulMode = 2 then .toggle
  else if ulMode = 3 then .hiToLo
  else if ulMode = 4 then .loToHi
  else .hiToLo

namespace Channels

/-- The first free channel, or 8. -/
def freeChannel (channels : Channels) : Nat := findSlot channels.freeChannels true numberOfGpioTe

/-- The first slot with a pin, or 8. -/
def slotOf (channels : Channels) (ulPin : UInt32) : Nat :=
  findSlot (fun slot => (channels.callbacksInt slot).ulPin) ulPin numberOfGpioTe

/-- The first slot whose event register is set, or 8. -/
def setSlot (channels : Channels) : Nat :=
  findSlot (fun slot => channels.gpiote.eventIsSet (channels.callbacksInt slot).channel) true
    numberOfGpioTe

/-- `attachInterrupt`. `description` is `g_APinDescription`, with the pins of the chip. -/
def attachInterrupt (description : UInt32 → UInt32) (channels : Channels) (ulPin : UInt32)
    (callback : Nat) (ulMode : UInt32) : Channels × Option Nat :=
  let j := channels.freeChannel
  if j = numberOfGpioTe then (channels, none)
  else
    ({ channels with
        callbacksInt := Function.update channels.callbacksInt j ⟨ulPin, callback, some j, some j⟩
        freeChannels := Function.update channels.freeChannels j false
        gpiote := (channels.gpiote.eventConfigure j (description ulPin) (polarity ulMode)).intSet true
          (some j) },
      some j)

/-- `detachInterrupt`. -/
def detachInterrupt (channels : Channels) (ulPin : UInt32) : Channels :=
  let j := channels.slotOf ulPin
  if j = numberOfGpioTe then channels
  else
    { channels with
      gpiote := (channels.gpiote.eventDisable j).intSet false (channels.callbacksInt j).mask
      freeChannels := Function.update channels.freeChannels j true }

/-- `GPIOTE_IRQHandler` up to the call of the callback. -/
def irqEnter (channels : Channels) : Channels :=
  let j := channels.setSlot
  let slot := channels.callbacksInt j
  { channels with
    gpiote := (channels.gpiote.eventClear slot.channel).intSet false slot.mask
    serving := some j }

/-- `GPIOTE_IRQHandler` after the callback of a slot. -/
def irqExit (channels : Channels) (j : Nat) : Channels :=
  { channels with
    gpiote := channels.gpiote.intSet true (channels.callbacksInt j).mask
    serving := none }

/-- The channel is marked busy. -/
def Busy (channels : Channels) (channel : Nat) : Prop := channels.freeChannels channel = false

instance (channels : Channels) (channel : Nat) : Decidable (channels.Busy channel) :=
  inferInstanceAs (Decidable (_ = _))

/-- What the C runtime leaves before the first call. -/
def initial : Channels where
  freeChannels := fun _ => true
  callbacksInt := fun _ => ⟨0, 0, none, none⟩
  gpiote := ⟨fun _ => false, fun _ => false, fun _ => ⟨false, 0, .hiToLo⟩⟩
  serving := none

/-- The channel that is handed out is not busy. -/
theorem freeChannel_idle {channels : Channels} (room : channels.freeChannel < 8) :
    ¬ channels.Busy channels.freeChannel := by
  have free : channels.freeChannels channels.freeChannel = true := findSlot_holds room
  unfold Busy
  rw [free]
  exact Bool.noConfusion

/-- Every channel before it is. -/
theorem freeChannel_first {channels : Channels} {before : Nat} (below : before < channels.freeChannel) :
    channels.Busy before :=
  Bool.eq_false_iff.mpr (findSlot_first below)

end Channels

/-! ### Runs -/

/-- What can happen: a call, of the program or of the callback that runs, an edge on the pin of a channel,
the start of the handler, or the end of its callback. -/
inductive ChannelInput where
  | attach (ulPin : UInt32) (callback : Nat) (ulMode : UInt32)
  | detach (ulPin : UInt32)
  | edge (channel : Nat)
  | irqEnter
  | irqExit

/-- The channels in a run, with the function the calls have attached to each pin. -/
structure ChannelState where
  channels : Channels
  attached : UInt32 → Option Nat

namespace ChannelState

/-- What a call of `attachInterrupt` is to attach: the function replaces the one the pin has; a pin
without one is left so if the call fails. -/
def attachedBy (attached : UInt32 → Option Nat) (ulPin : UInt32) (callback : Nat) (result : Option Nat) :
    UInt32 → Option Nat :=
  if result = none ∧ attached ulPin = none then attached
  else Function.update attached ulPin (some callback)

/-- One step. The handler does not interrupt itself. -/
def step (description : UInt32 → UInt32) (state : ChannelState) : ChannelInput → ChannelState
  | .attach ulPin callback ulMode =>
      let (channels, result) := state.channels.attachInterrupt description ulPin callback ulMode
      ⟨channels, attachedBy state.attached ulPin callback result⟩
  | .detach ulPin =>
      ⟨state.channels.detachInterrupt ulPin, Function.update state.attached ulPin none⟩
  | .edge channel =>
      { state with
        channels := { state.channels with gpiote := state.channels.gpiote.edge channel } }
  | .irqEnter =>
      match state.channels.serving with
      | none => { state with channels := state.channels.irqEnter }
      | some _ => state
  | .irqExit =>
      match state.channels.serving with
      | none => state
      | some j => { state with channels := state.channels.irqExit j }

/-- **What is to hold of every state.** The interrupt of a channel that is being served may be off; its
handler has switched it off. -/
structure Consistent (state : ChannelState) : Prop where
  enabled : ∀ channel < 8, state.channels.gpiote.intEnabled channel = true →
    state.channels.Busy channel
  busy : ∀ channel < 8, state.channels.Busy channel → state.channels.serving ≠ some channel →
    state.channels.gpiote.intEnabled channel = true
  bound : ∀ channel < 8,
    state.channels.Busy channel ↔ (state.channels.gpiote.config channel).event = true
  unique : ∀ channel < 8, ∀ other < 8, state.channels.Busy channel → state.channels.Busy other →
    (state.channels.callbacksInt channel).ulPin = (state.channels.callbacksInt other).ulPin →
    channel = other
  functions : ∀ ulPin callback, state.attached ulPin = some callback ↔
    ∃ channel < 8, state.channels.Busy channel ∧
      (state.channels.callbacksInt channel).ulPin = ulPin ∧
      (state.channels.callbacksInt channel).callback = callback

/-- **What is to hold of every run of the handler**: it indexes a slot of the table, that of a busy
channel. -/
def Serves (state : ChannelState) : ChannelInput → Prop
  | .irqEnter => state.channels.serving = none →
      state.channels.setSlot < 8 ∧ state.channels.Busy state.channels.setSlot
  | _ => True

/-- **The condition on a step.** A pin that is attached has no function yet, or all channels are taken and
it has this one. When the handler starts, the event register of a busy channel is set, and that of no
freed one before it. When a callback ends, its channel is busy. -/
def KeepsChannels (state : ChannelState) : ChannelInput → Prop
  | .attach ulPin callback _ => state.attached ulPin = none ∨
      (∀ channel < 8, state.channels.Busy channel) ∧ state.attached ulPin = some callback
  | .irqEnter => state.channels.serving = none → ∃ slot < 8, state.channels.Busy slot ∧
      state.channels.gpiote.eventIsSet (state.channels.callbacksInt slot).channel = true ∧
      ∀ before < slot,
        state.channels.gpiote.eventIsSet (state.channels.callbacksInt before).channel = false
  | .irqExit => ∀ j, state.channels.serving = some j → state.channels.Busy j
  | _ => True

/-- What else holds in every state of such a run: a slot is unused or has its own channel, as every busy
one does; a busy slot is the first one with its pin; the slot that is served has been used. -/
structure Tidy (state : ChannelState) : Prop where
  slots : ∀ j < 8, (state.channels.callbacksInt j).mask = (state.channels.callbacksInt j).channel
  own : ∀ j < 8, (state.channels.callbacksInt j).channel = none ∨
    (state.channels.callbacksInt j).channel = some j
  used : ∀ j < 8, state.channels.Busy j → (state.channels.callbacksInt j).channel = some j
  first : ∀ j < 8, state.channels.Busy j → ∀ before < j,
    (state.channels.callbacksInt before).ulPin ≠ (state.channels.callbacksInt j).ulPin
  serving : ∀ j, state.channels.serving = some j →
    j < 8 ∧ (state.channels.callbacksInt j).channel = some j

variable {state : ChannelState}

/-- A pin has a function exactly when a busy channel has the pin. -/
theorem Consistent.attached_iff (consistent : state.Consistent) (ulPin : UInt32) :
    state.attached ulPin ≠ none ↔ ∃ channel < 8, state.channels.Busy channel ∧
      (state.channels.callbacksInt channel).ulPin = ulPin := by
  constructor
  · intro attached
    obtain ⟨callback, attached⟩ := Option.ne_none_iff_exists'.mp attached
    obtain ⟨channel, inside, busy, pin, _⟩ := (consistent.functions ulPin callback).mp attached
    exact ⟨channel, inside, busy, pin⟩
  · rintro ⟨channel, inside, busy, pin⟩ none
    have attached := (consistent.functions ulPin (state.channels.callbacksInt channel).callback).mpr
      ⟨channel, inside, busy, pin, rfl⟩
    rw [none] at attached
    cases attached

/-! ### Steps that change one channel -/

/-- Two states of the channels that agree on all but one. -/
structure Elsewhere (channels next : Channels) (j : Nat) : Prop where
  free : ∀ channel, channel ≠ j → next.freeChannels channel = channels.freeChannels channel
  slot : ∀ channel, channel ≠ j → next.callbacksInt channel = channels.callbacksInt channel
  int : ∀ channel, channel ≠ j → next.gpiote.intEnabled channel = channels.gpiote.intEnabled channel
  config : ∀ channel, channel ≠ j → next.gpiote.config channel = channels.gpiote.config channel
  serving : ∀ channel, channel ≠ j → next.serving ≠ some channel → channels.serving ≠ some channel

theorem Elsewhere.busy_iff {channels next : Channels} {j : Nat} (elsewhere : Elsewhere channels next j)
    {channel : Nat} (other : channel ≠ j) : next.Busy channel ↔ channels.Busy channel := by
  unfold Channels.Busy
  rw [elsewhere.free channel other]

/-- What one channel is to be like. -/
structure InOrder (channels : Channels) (channel : Nat) : Prop where
  enabled : channels.gpiote.intEnabled channel = true → channels.Busy channel
  busy : channels.Busy channel → channels.serving ≠ some channel →
    channels.gpiote.intEnabled channel = true
  bound : channels.Busy channel ↔ (channels.gpiote.config channel).event = true

theorem Consistent.inOrder (consistent : state.Consistent) {channel : Nat} (inside : channel < 8) :
    InOrder state.channels channel :=
  ⟨consistent.enabled channel inside, consistent.busy channel inside, consistent.bound channel inside⟩

/-- Channels that are not changed stay in order. -/
theorem InOrder.elsewhere {channels next : Channels} {channel j : Nat}
    (inOrder : InOrder channels channel) (elsewhere : Elsewhere channels next j) (other : channel ≠ j) :
    InOrder next channel where
  enabled := by
    rw [elsewhere.int channel other, elsewhere.busy_iff other]
    exact inOrder.enabled
  busy := by
    rw [elsewhere.int channel other, elsewhere.busy_iff other]
    exact fun busy serving => inOrder.busy busy (elsewhere.serving channel other serving)
  bound := by
    rw [elsewhere.config channel other, elsewhere.busy_iff other]
    exact inOrder.bound

/-- A step that changes one channel, and leaves it in order, is right if the pins are. -/
theorem Consistent.elsewhere (consistent : state.Consistent) {next : ChannelState} {j : Nat}
    (elsewhere : Elsewhere state.channels next.channels j) (changed : InOrder next.channels j)
    (unique : ∀ channel < 8, ∀ other < 8, next.channels.Busy channel → next.channels.Busy other →
      (next.channels.callbacksInt channel).ulPin = (next.channels.callbacksInt other).ulPin →
      channel = other)
    (functions : ∀ ulPin callback, next.attached ulPin = some callback ↔
      ∃ channel < 8, next.channels.Busy channel ∧
        (next.channels.callbacksInt channel).ulPin = ulPin ∧
        (next.channels.callbacksInt channel).callback = callback) : next.Consistent := by
  have each : ∀ channel < 8, InOrder next.channels channel := by
    intro channel inside
    by_cases here : channel = j
    · rw [here]
      exact changed
    · exact (consistent.inOrder inside).elsewhere elsewhere here
  exact ⟨fun channel inside => (each channel inside).enabled,
    fun channel inside => (each channel inside).busy, fun channel inside => (each channel inside).bound,
    unique, functions⟩

/-! ### `attachInterrupt` -/

section Attach

variable (description : UInt32 → UInt32) (ulPin : UInt32) (callback : Nat) (ulMode : UInt32)

theorem attach_full (full : state.channels.freeChannel = numberOfGpioTe) :
    state.channels.attachInterrupt description ulPin callback ulMode = (state.channels, none) := by
  unfold Channels.attachInterrupt
  dsimp only
  rw [if_pos full]

/-- The channels after a function has gone to the first free one. -/
theorem attach_room (room : state.channels.freeChannel < 8) :
    state.channels.attachInterrupt description ulPin callback ulMode =
      (⟨Function.update state.channels.freeChannels state.channels.freeChannel false,
        Function.update state.channels.callbacksInt state.channels.freeChannel
          ⟨ulPin, callback, some state.channels.freeChannel, some state.channels.freeChannel⟩,
        ⟨state.channels.gpiote.events,
          Function.update state.channels.gpiote.intEnabled state.channels.freeChannel true,
          Function.update state.channels.gpiote.config state.channels.freeChannel
            ⟨true, description ulPin, polarity ulMode⟩⟩,
        state.channels.serving⟩, some state.channels.freeChannel) := by
  have notFull : state.channels.freeChannel ≠ numberOfGpioTe := Nat.ne_of_lt room
  unfold Channels.attachInterrupt
  dsimp only
  rw [if_neg notFull]
  rfl

/-- Where no channel is free, only the pin's function can be wrong. -/
theorem attach_full_iff (consistent : state.Consistent)
    (full : state.channels.freeChannel = numberOfGpioTe) :
    (state.step description (.attach ulPin callback ulMode)).Consistent ↔
      state.attached ulPin = none ∨ state.attached ulPin = some callback := by
  have after : state.step description (.attach ulPin callback ulMode) =
      ⟨state.channels, attachedBy state.attached ulPin callback none⟩ := by
    show ChannelState.mk (state.channels.attachInterrupt description ulPin callback ulMode).1
      (attachedBy _ _ _ (state.channels.attachInterrupt description ulPin callback ulMode).2) = _
    rw [attach_full description ulPin callback ulMode full]
  rw [after]
  unfold attachedBy
  cases attached : state.attached ulPin with
  | none =>
    rw [if_pos ⟨rfl, rfl⟩]
    exact iff_of_true consistent (.inl rfl)
  | some old =>
    rw [if_neg (by simp)]
    constructor
    · intro next
      obtain ⟨channel, inside, busy, pin, new⟩ :=
        (next.functions ulPin callback).mp (Function.update_self ..)
      obtain ⟨other, otherInside, otherBusy, otherPin, same⟩ :=
        (consistent.functions ulPin old).mp attached
      obtain rfl := consistent.unique channel inside other otherInside busy otherBusy
        (pin.trans otherPin.symm)
      exact .inr (congrArg some (same.symm.trans new))
    · rintro (none | same)
      · cases none
      · rw [same] at attached
        rw [← attached, Function.update_eq_self]
        exact consistent

/-- The state after a function has gone to the first free channel. -/
theorem step_attach_room (room : state.channels.freeChannel < 8) :
    state.step description (.attach ulPin callback ulMode) =
      ⟨(state.channels.attachInterrupt description ulPin callback ulMode).1,
        Function.update state.attached ulPin (some callback)⟩ := by
  have result : (state.channels.attachInterrupt description ulPin callback ulMode).2 =
      some state.channels.freeChannel := by rw [attach_room description ulPin callback ulMode room]
  show ChannelState.mk (state.channels.attachInterrupt description ulPin callback ulMode).1
    (attachedBy _ _ _ (state.channels.attachInterrupt description ulPin callback ulMode).2) = _
  rw [result]
  unfold attachedBy
  rw [if_neg (by simp)]

theorem attach_elsewhere (room : state.channels.freeChannel < 8) :
    Elsewhere state.channels (state.channels.attachInterrupt description ulPin callback ulMode).1
      state.channels.freeChannel := by
  rw [attach_room description ulPin callback ulMode room]
  constructor
  · exact fun _ other => Function.update_of_ne other ..
  · exact fun _ other => Function.update_of_ne other ..
  · exact fun _ other => Function.update_of_ne other ..
  · exact fun _ other => Function.update_of_ne other ..
  · exact fun _ _ => id

/-- The channel a new function goes to is in order, and has its pin and callback. -/
theorem attach_changed (room : state.channels.freeChannel < 8) :
    InOrder (state.channels.attachInterrupt description ulPin callback ulMode).1
        state.channels.freeChannel ∧
      (state.channels.attachInterrupt description ulPin callback ulMode).1.callbacksInt
        state.channels.freeChannel =
      ⟨ulPin, callback, some state.channels.freeChannel, some state.channels.freeChannel⟩ ∧
      (state.channels.attachInterrupt description ulPin callback ulMode).1.Busy
        state.channels.freeChannel := by
  rw [attach_room description ulPin callback ulMode room]
  have busy : Function.update state.channels.freeChannels state.channels.freeChannel false
      state.channels.freeChannel = false := Function.update_self ..
  refine ⟨⟨fun _ => busy, fun _ _ => Function.update_self .., iff_of_true busy ?_⟩,
    Function.update_self .., busy⟩
  have config : Function.update state.channels.gpiote.config state.channels.freeChannel
      ⟨true, description ulPin, polarity ulMode⟩ state.channels.freeChannel = _ :=
    Function.update_self ..
  exact congrArg ChannelConfig.event config

/-- **A function for a pin without one** goes to the first free channel, and all is right. -/
theorem attach_new (consistent : state.Consistent) (tidy : state.Tidy)
    (room : state.channels.freeChannel < 8) (new : state.attached ulPin = none) :
    (state.step description (.attach ulPin callback ulMode)).Consistent ∧
      (state.step description (.attach ulPin callback ulMode)).Tidy := by
  have elsewhere := attach_elsewhere description ulPin callback ulMode room
  obtain ⟨changed, slot, taken⟩ := attach_changed description ulPin callback ulMode room
  have serving : (state.channels.attachInterrupt description ulPin callback ulMode).1.serving =
      state.channels.serving := by rw [attach_room description ulPin callback ulMode room]
  have lower : ∀ before < state.channels.freeChannel, state.channels.Busy before :=
    fun _ => Channels.freeChannel_first
  have other : ∀ channel < 8, state.channels.Busy channel →
      (state.channels.callbacksInt channel).ulPin ≠ ulPin := fun channel inside busy same =>
    (consistent.attached_iff ulPin).mpr ⟨channel, inside, busy, same⟩ new
  have free := Channels.freeChannel_idle room
  rw [step_attach_room description ulPin callback ulMode room]
  generalize (state.channels.attachInterrupt description ulPin callback ulMode).1 = next at *
  generalize state.channels.freeChannel = j at *
  -- a busy channel of the new state is the new one, or was busy before
  have was : ∀ channel, next.Busy channel → channel = j ∨ channel ≠ j ∧ state.channels.Busy channel := by
    intro channel busy
    by_cases here : channel = j
    · exact .inl here
    · exact .inr ⟨here, (elsewhere.busy_iff here).mp busy⟩
  refine ⟨consistent.elsewhere elsewhere changed ?_ ?_, ⟨?_, ?_, ?_, ?_, ?_⟩⟩
  · intro channel inside second secondInside busy secondBusy same
    rcases was channel busy with rfl | ⟨here, busy⟩
    · rcases was second secondBusy with rfl | ⟨there, secondBusy⟩
      · rfl
      · rw [slot, elsewhere.slot second there] at same
        exact absurd same.symm (other second secondInside secondBusy)
    · rw [elsewhere.slot channel here] at same
      rcases was second secondBusy with there | ⟨there, secondBusy⟩
      · rw [there, slot] at same
        exact absurd same (other channel inside busy)
      · rw [elsewhere.slot second there] at same
        exact consistent.unique channel inside second secondInside busy secondBusy same
  · intro pin function
    by_cases this : pin = ulPin
    · rw [this]
      constructor
      · intro attached
        have same : callback = function := by simpa using attached
        exact ⟨j, room, taken, by rw [slot], by rw [slot]; exact same⟩
      · rintro ⟨channel, inside, busy, pin, same⟩
        rcases was channel busy with rfl | ⟨here, busy⟩
        · rw [slot] at same
          exact (Function.update_self ..).trans (congrArg some same)
        · rw [elsewhere.slot channel here] at pin
          exact absurd pin (other channel inside busy)
    · show Function.update state.attached ulPin (some callback) pin = some function ↔ _
      rw [Function.update_of_ne this, consistent.functions]
      constructor
      · rintro ⟨channel, inside, busy, pin, same⟩
        have here : channel ≠ j := by
          rintro rfl
          exact free busy
        refine ⟨channel, inside, (elsewhere.busy_iff here).mpr busy, ?_⟩
        rw [elsewhere.slot channel here]
        exact ⟨pin, same⟩
      · rintro ⟨channel, inside, busy, pin, same⟩
        rcases was channel busy with rfl | ⟨here, busy⟩
        · rw [slot] at pin
          exact absurd pin.symm this
        · rw [elsewhere.slot channel here] at pin same
          exact ⟨channel, inside, busy, pin, same⟩
  · intro channel inside
    by_cases here : channel = j
    · rw [here, slot]
    · rw [elsewhere.slot channel here]
      exact tidy.slots channel inside
  · intro channel inside
    by_cases here : channel = j
    · rw [here, slot]
      exact .inr rfl
    · rw [elsewhere.slot channel here]
      exact tidy.own channel inside
  · intro channel inside busy
    rcases was channel busy with rfl | ⟨here, busy⟩
    · rw [slot]
    · rw [elsewhere.slot channel here]
      exact tidy.used channel inside busy
  · intro channel inside busy before below
    rcases was channel busy with rfl | ⟨here, busy⟩
    · rw [slot, elsewhere.slot before (Nat.ne_of_lt below)]
      exact other before (Nat.lt_trans below room) (lower before below)
    · rw [elsewhere.slot channel here]
      by_cases there : before = j
      · rw [there, slot]
        exact (other channel inside busy).symm
      · rw [elsewhere.slot before there]
        exact tidy.first channel inside busy before below
  · intro channel serves
    rw [serving] at serves
    obtain ⟨inside, own⟩ := tidy.serving channel serves
    refine ⟨inside, ?_⟩
    by_cases here : channel = j
    · rw [here, slot]
    · rw [elsewhere.slot channel here]
      exact own

/-- A second channel for a pin that has one is wrong. -/
theorem attach_again (consistent : state.Consistent) (room : state.channels.freeChannel < 8)
    (next : (state.step description (.attach ulPin callback ulMode)).Consistent) :
    state.attached ulPin = none := by
  have elsewhere := attach_elsewhere description ulPin callback ulMode room
  obtain ⟨_, slot, busy⟩ := attach_changed description ulPin callback ulMode room
  have free := Channels.freeChannel_idle room
  rw [step_attach_room description ulPin callback ulMode room] at next
  by_contra attached
  obtain ⟨channel, inside, was, pin⟩ := (consistent.attached_iff ulPin).mp attached
  have here : channel ≠ state.channels.freeChannel := by
    rintro rfl
    exact free was
  refine here (next.unique channel inside _ room ((elsewhere.busy_iff here).mpr was) busy ?_)
  rw [slot, elsewhere.slot channel here]
  exact pin

/-- **One call of `attachInterrupt`.** -/
theorem attach_iff (consistent : state.Consistent) (tidy : state.Tidy) :
    ((state.step description (.attach ulPin callback ulMode)).Consistent ↔
        state.KeepsChannels (.attach ulPin callback ulMode)) ∧
      ((state.step description (.attach ulPin callback ulMode)).Consistent →
        (state.step description (.attach ulPin callback ulMode)).Tidy) := by
  by_cases room : state.channels.freeChannel < 8
  · have free := Channels.freeChannel_idle room
    have notFull : ¬ ∀ channel < 8, state.channels.Busy channel := fun full =>
      free (full _ room)
    refine ⟨⟨fun next => .inl ?_, ?_⟩, fun next => ?_⟩
    · exact attach_again description ulPin callback ulMode consistent room next
    · rintro (new | ⟨full, _⟩)
      · exact (attach_new description ulPin callback ulMode consistent tidy room new).1
      · exact absurd full notFull
    · exact (attach_new description ulPin callback ulMode consistent tidy room
        (attach_again description ulPin callback ulMode consistent room next)).2
  · have none : state.channels.freeChannel = numberOfGpioTe :=
      Nat.le_antisymm findSlot_le (Nat.le_of_not_lt room)
    have full : ∀ channel < 8, state.channels.Busy channel := fun channel inside =>
      Channels.freeChannel_first (Nat.lt_of_lt_of_le inside (Nat.le_of_not_lt room))
    refine ⟨(attach_full_iff description ulPin callback ulMode consistent none).trans ?_, fun _ => ?_⟩
    · exact or_congr_right ⟨fun same => ⟨full, same⟩, And.right⟩
    · have channels : (state.step description (.attach ulPin callback ulMode)).channels =
          state.channels := by
        show (state.channels.attachInterrupt description ulPin callback ulMode).1 = _
        rw [attach_full description ulPin callback ulMode none]
      obtain ⟨slots, own, used, first, serving⟩ := tidy
      constructor <;> rw [channels] <;> assumption

end Attach

/-! ### `detachInterrupt` -/

section Detach

variable (description : UInt32 → UInt32) (ulPin : UInt32)

theorem detach_nothing (none : state.channels.slotOf ulPin = numberOfGpioTe) :
    state.channels.detachInterrupt ulPin = state.channels := by
  unfold Channels.detachInterrupt
  dsimp only
  rw [if_pos none]

/-- The channels after the slot of a pin has been freed. -/
theorem detach_found (found : state.channels.slotOf ulPin < 8) :
    state.channels.detachInterrupt ulPin =
      { state.channels with
        gpiote := (state.channels.gpiote.eventDisable (state.channels.slotOf ulPin)).intSet false
          (state.channels.callbacksInt (state.channels.slotOf ulPin)).mask
        freeChannels := Function.update state.channels.freeChannels (state.channels.slotOf ulPin) true } := by
  have notNone : state.channels.slotOf ulPin ≠ numberOfGpioTe := Nat.ne_of_lt found
  unfold Channels.detachInterrupt
  dsimp only
  rw [if_neg notNone]

/-- The slot that is found for a pin with a function is that of its channel. -/
theorem slotOf_eq (tidy : state.Tidy) {channel : Nat} (inside : channel < 8)
    (busy : state.channels.Busy channel) (pin : (state.channels.callbacksInt channel).ulPin = ulPin) :
    state.channels.slotOf ulPin = channel := by
  refine findSlot_eq inside pin fun before below => ?_
  rw [← pin]
  exact tidy.first channel inside busy before below

/-- A slot that is found free changes nothing. -/
theorem detach_free (consistent : state.Consistent) (tidy : state.Tidy)
    (found : state.channels.slotOf ulPin < 8)
    (free : ¬ state.channels.Busy (state.channels.slotOf ulPin)) :
    state.channels.detachInterrupt ulPin = state.channels := by
  have freeAlready : state.channels.freeChannels (state.channels.slotOf ulPin) = true :=
    (Bool.not_eq_false _).mp free
  have off : state.channels.gpiote.intEnabled (state.channels.slotOf ulPin) = false :=
    Bool.eq_false_iff.mpr fun on => free (consistent.enabled _ found on)
  have unconfigured : (state.channels.gpiote.config (state.channels.slotOf ulPin)).event = false :=
    Bool.eq_false_iff.mpr fun on => free ((consistent.bound _ found).mpr on)
  have disabled : state.channels.gpiote.eventDisable (state.channels.slotOf ulPin) =
      state.channels.gpiote := by
    unfold Gpiote.eventDisable
    rw [← unconfigured, Function.update_eq_self]
  have int : state.channels.gpiote.intSet false
      (state.channels.callbacksInt (state.channels.slotOf ulPin)).mask = state.channels.gpiote := by
    rw [tidy.slots _ found]
    rcases tidy.own _ found with unused | own
    · rw [unused]
      rfl
    · rw [own]
      show Gpiote.mk _ (Function.update _ _ _) _ = _
      rw [← off, Function.update_eq_self]
  rw [detach_found ulPin found, disabled, int, ← freeAlready, Function.update_eq_self]

/-- The channel of a pin, freed. -/
theorem detach_changed (tidy : state.Tidy) (found : state.channels.slotOf ulPin < 8)
    (busy : state.channels.Busy (state.channels.slotOf ulPin)) :
    Elsewhere state.channels (state.channels.detachInterrupt ulPin) (state.channels.slotOf ulPin) ∧
      InOrder (state.channels.detachInterrupt ulPin) (state.channels.slotOf ulPin) ∧
      ¬ (state.channels.detachInterrupt ulPin).Busy (state.channels.slotOf ulPin) := by
  have mask : (state.channels.callbacksInt (state.channels.slotOf ulPin)).mask =
      some (state.channels.slotOf ulPin) := (tidy.slots _ found).trans (tidy.used _ found busy)
  rw [detach_found ulPin found, mask]
  generalize state.channels.slotOf ulPin = j at *
  have freed : Function.update state.channels.freeChannels j true j = true := Function.update_self ..
  have off : Function.update state.channels.gpiote.intEnabled j false j = false :=
    Function.update_self ..
  have config : Function.update state.channels.gpiote.config j
      { state.channels.gpiote.config j with event := false } j = _ := Function.update_self ..
  have notBusy : ¬ Function.update state.channels.freeChannels j true j = false := by
    rw [freed]
    decide
  refine ⟨⟨?_, fun _ _ => rfl, ?_, ?_, fun _ _ => id⟩, ⟨?_, ?_, ?_⟩, notBusy⟩
  · exact fun _ other => Function.update_of_ne other ..
  · exact fun _ other => Function.update_of_ne other ..
  · exact fun _ other => Function.update_of_ne other ..
  · exact fun enabled => absurd (off.symm.trans enabled) (by decide)
  · exact fun busy => absurd busy notBusy
  · refine iff_of_false notBusy fun event => ?_
    have none := congrArg ChannelConfig.event config
    exact absurd (none.symm.trans event) Bool.false_ne_true

/-- **One call of `detachInterrupt`** leaves all right. -/
theorem detach_right (consistent : state.Consistent) (tidy : state.Tidy) :
    (state.step description (.detach ulPin)).Consistent ∧
      (state.step description (.detach ulPin)).Tidy := by
  by_cases busy : ∃ channel < 8, state.channels.Busy channel ∧
      (state.channels.callbacksInt channel).ulPin = ulPin
  · obtain ⟨channel, inside, busy, pin⟩ := busy
    have found := slotOf_eq ulPin tidy inside busy pin
    obtain ⟨elsewhere, changed, freed⟩ :=
      detach_changed ulPin tidy (by rw [found]; exact inside) (by rw [found]; exact busy)
    have slots : (state.channels.detachInterrupt ulPin).callbacksInt = state.channels.callbacksInt := by
      rw [detach_found ulPin (by rw [found]; exact inside)]
    have serving : (state.channels.detachInterrupt ulPin).serving = state.channels.serving := by
      rw [detach_found ulPin (by rw [found]; exact inside)]
    rw [found] at elsewhere changed freed
    show (ChannelState.mk (state.channels.detachInterrupt ulPin) _).Consistent ∧
      (ChannelState.mk (state.channels.detachInterrupt ulPin) _).Tidy
    generalize state.channels.detachInterrupt ulPin = next at *
    have was : ∀ other, next.Busy other ↔ other ≠ channel ∧ state.channels.Busy other := by
      intro other
      by_cases here : other = channel
      · rw [here]
        exact iff_of_false freed fun both => both.1 rfl
      · rw [elsewhere.busy_iff here]
        exact (and_iff_right here).symm
    refine ⟨consistent.elsewhere elsewhere changed ?_ ?_, ⟨?_, ?_, ?_, ?_, ?_⟩⟩
    · intro first firstInside second secondInside firstBusy secondBusy same
      rw [slots] at same
      exact consistent.unique first firstInside second secondInside ((was first).mp firstBusy).2
        ((was second).mp secondBusy).2 same
    · intro pin' callback
      show Function.update state.attached ulPin none pin' = some callback ↔ _
      rw [slots]
      by_cases this : pin' = ulPin
      · rw [this, Function.update_self]
        refine iff_of_false (fun none => by cases none) ?_
        rintro ⟨other, otherInside, otherBusy, otherPin, _⟩
        obtain ⟨here, otherBusy⟩ := (was other).mp otherBusy
        exact here (consistent.unique other otherInside channel inside otherBusy busy
          (otherPin.trans pin.symm))
      · rw [Function.update_of_ne this, consistent.functions]
        constructor
        · rintro ⟨other, otherInside, otherBusy, otherPin, same⟩
          refine ⟨other, otherInside, (was other).mpr ⟨?_, otherBusy⟩, otherPin, same⟩
          rintro rfl
          exact this (otherPin.symm.trans pin)
        · rintro ⟨other, otherInside, otherBusy, otherPin, same⟩
          exact ⟨other, otherInside, ((was other).mp otherBusy).2, otherPin, same⟩
    · rw [slots]
      exact tidy.slots
    · rw [slots]
      exact tidy.own
    · rw [slots]
      exact fun other otherInside otherBusy => tidy.used other otherInside ((was other).mp otherBusy).2
    · rw [slots]
      exact fun other otherInside otherBusy => tidy.first other otherInside ((was other).mp otherBusy).2
    · rw [slots, serving]
      exact tidy.serving
  · have new : state.attached ulPin = none := by
      by_contra attached
      exact busy ((consistent.attached_iff ulPin).mp attached)
    have same : state.channels.detachInterrupt ulPin = state.channels := by
      by_cases found : state.channels.slotOf ulPin < 8
      · have pin : (state.channels.callbacksInt (state.channels.slotOf ulPin)).ulPin = ulPin :=
          findSlot_holds found
        exact detach_free ulPin consistent tidy found fun taken => busy ⟨_, found, taken, pin⟩
      · exact detach_nothing ulPin (Nat.le_antisymm findSlot_le (Nat.le_of_not_lt found))
    show (ChannelState.mk (state.channels.detachInterrupt ulPin)
        (Function.update state.attached ulPin none)).Consistent ∧
      (ChannelState.mk (state.channels.detachInterrupt ulPin)
        (Function.update state.attached ulPin none)).Tidy
    rw [same, ← new, Function.update_eq_self]
    exact ⟨consistent, tidy⟩

end Detach

/-! ### The handler -/

theorem edge_right (description : UInt32 → UInt32) (channel : Nat) (consistent : state.Consistent)
    (tidy : state.Tidy) : (state.step description (.edge channel)).Consistent ∧
      (state.step description (.edge channel)).Tidy := by
  have int : (state.channels.gpiote.edge channel).intEnabled = state.channels.gpiote.intEnabled := by
    unfold Gpiote.edge
    split_ifs <;> rfl
  have config : (state.channels.gpiote.edge channel).config = state.channels.gpiote.config := by
    unfold Gpiote.edge
    split_ifs <;> rfl
  obtain ⟨enabled, busy, bound, unique, functions⟩ := consistent
  obtain ⟨slots, own, used, first, serving⟩ := tidy
  rw [← int] at enabled busy
  rw [← config] at bound
  exact ⟨⟨enabled, busy, bound, unique, functions⟩, ⟨slots, own, used, first, serving⟩⟩

/-- The handler finds a busy channel exactly when the first event register that is set is that of one. -/
theorem serves_iff (state : ChannelState) : state.Serves .irqEnter ↔ state.KeepsChannels .irqEnter := by
  refine forall_congr' fun _ => ⟨?_, ?_⟩
  · rintro ⟨found, busy⟩
    exact ⟨_, found, busy, findSlot_holds found, fun before below =>
      Bool.eq_false_iff.mpr (findSlot_first below)⟩
  · rintro ⟨slot, inside, busy, isSet, first⟩
    have found : state.channels.setSlot = slot := findSlot_eq inside isSet fun before below =>
      Bool.eq_false_iff.mp (first before below)
    rw [found]
    exact ⟨inside, busy⟩

/-- The handler switches off the interrupt of the channel it serves. -/
theorem irqEnter_right (consistent : state.Consistent) (tidy : state.Tidy)
    (idle : state.channels.serving = none) (found : state.channels.setSlot < 8)
    (busy : state.channels.Busy state.channels.setSlot) :
    (ChannelState.mk state.channels.irqEnter state.attached).Consistent ∧
      (ChannelState.mk state.channels.irqEnter state.attached).Tidy := by
  have channel := tidy.used _ found busy
  have mask := (tidy.slots _ found).trans channel
  have after : state.channels.irqEnter =
      ⟨state.channels.freeChannels, state.channels.callbacksInt,
        ⟨Function.update state.channels.gpiote.events state.channels.setSlot false,
          Function.update state.channels.gpiote.intEnabled state.channels.setSlot false,
          state.channels.gpiote.config⟩, some state.channels.setSlot⟩ := by
    unfold Channels.irqEnter
    dsimp only
    rw [channel, mask]
    rfl
  rw [after]
  generalize state.channels.setSlot = j at *
  have off : Function.update state.channels.gpiote.intEnabled j false j = false :=
    Function.update_self ..
  refine ⟨consistent.elsewhere ⟨fun _ _ => rfl, fun _ _ => rfl,
      fun _ other => Function.update_of_ne other .., fun _ _ => rfl,
      fun _ _ _ serves => by rw [idle] at serves; cases serves⟩
    ⟨fun enabled => absurd (off.symm.trans enabled) Bool.false_ne_true,
      fun _ serving => absurd rfl serving, consistent.bound j found⟩
    consistent.unique consistent.functions,
    ⟨tidy.slots, tidy.own, tidy.used, tidy.first, fun other serves => ?_⟩⟩
  obtain rfl := Option.some.inj serves
  exact ⟨found, channel⟩

/-- The handler switches the interrupt of the channel it has served on again. -/
theorem irqExit_iff (consistent : state.Consistent) (tidy : state.Tidy) {j : Nat}
    (serves : state.channels.serving = some j) :
    ((ChannelState.mk (state.channels.irqExit j) state.attached).Consistent ↔ state.channels.Busy j) ∧
      (ChannelState.mk (state.channels.irqExit j) state.attached).Tidy := by
  obtain ⟨inside, channel⟩ := tidy.serving j serves
  have mask := (tidy.slots j inside).trans channel
  have after : state.channels.irqExit j =
      ⟨state.channels.freeChannels, state.channels.callbacksInt,
        ⟨state.channels.gpiote.events, Function.update state.channels.gpiote.intEnabled j true,
          state.channels.gpiote.config⟩, none⟩ := by
    unfold Channels.irqExit
    rw [mask]
    rfl
  have on : Function.update state.channels.gpiote.intEnabled j true j = true := Function.update_self ..
  rw [after]
  refine ⟨⟨fun next => next.enabled j inside on, fun busy => ?_⟩,
    ⟨tidy.slots, tidy.own, tidy.used, tidy.first, fun _ none => by cases none⟩⟩
  refine consistent.elsewhere ⟨fun _ _ => rfl, fun _ _ => rfl,
      fun _ other => Function.update_of_ne other .., fun _ _ => rfl, fun other there _ same => ?_⟩
    ⟨fun _ => busy, fun _ _ => on, consistent.bound j inside⟩ consistent.unique consistent.functions
  exact there (Option.some.inj (same.symm.trans serves))

/-! ### Runs -/

/-- **One step** is right exactly when it meets `KeepsChannels`, and leaves the slots tidy. -/
theorem step_iff (state : ChannelState) (description : UInt32 → UInt32) (input : ChannelInput)
    (consistent : state.Consistent) (tidy : state.Tidy) :
    ((state.step description input).Consistent ∧ state.Serves input ↔ state.KeepsChannels input) ∧
      ((state.step description input).Consistent ∧ state.Serves input →
        (state.step description input).Tidy) := by
  cases input with
  | attach ulPin callback ulMode =>
    obtain ⟨exactly, next⟩ := attach_iff description ulPin callback ulMode consistent tidy
    exact ⟨(and_iff_left trivial).trans exactly, fun both => next both.1⟩
  | detach ulPin =>
    obtain ⟨right, next⟩ := detach_right description ulPin consistent tidy
    exact ⟨iff_of_true ⟨right, trivial⟩ trivial, fun _ => next⟩
  | edge channel =>
    obtain ⟨right, next⟩ := edge_right description channel consistent tidy
    exact ⟨iff_of_true ⟨right, trivial⟩ trivial, fun _ => next⟩
  | irqEnter =>
    have serves := serves_iff state
    cases serving : state.channels.serving with
    | none =>
      have after : state.step description .irqEnter = ⟨state.channels.irqEnter, state.attached⟩ := by
        unfold step
        dsimp only
        rw [serving]
      rw [after]
      refine ⟨⟨fun both => serves.mp both.2, fun keeps => ?_⟩, fun both => ?_⟩
      · obtain ⟨found, busy⟩ := serves.mpr keeps serving
        exact ⟨(irqEnter_right consistent tidy serving found busy).1, serves.mpr keeps⟩
      · obtain ⟨found, busy⟩ := both.2 serving
        exact (irqEnter_right consistent tidy serving found busy).2
    | some j =>
      have after : state.step description .irqEnter = state := by
        unfold step
        dsimp only
        rw [serving]
      rw [after]
      exact ⟨⟨fun both => serves.mp both.2, fun keeps => ⟨consistent, serves.mpr keeps⟩⟩, fun _ => tidy⟩
  | irqExit =>
    cases serving : state.channels.serving with
    | none =>
      have after : state.step description .irqExit = state := by
        unfold step
        dsimp only
        rw [serving]
      rw [after]
      refine ⟨iff_of_true ⟨consistent, trivial⟩ fun j serves => ?_, fun _ => tidy⟩
      rw [serving] at serves
      cases serves
    | some j =>
      have after : state.step description .irqExit =
          ⟨state.channels.irqExit j, state.attached⟩ := by
        unfold step
        dsimp only
        rw [serving]
      obtain ⟨exactly, next⟩ := irqExit_iff consistent tidy serving
      rw [after]
      refine ⟨(and_iff_left trivial).trans (exactly.trans ⟨fun busy other serves => ?_, fun keeps => ?_⟩),
        fun _ => next⟩
      · rw [serving] at serves
        obtain rfl := Option.some.inj serves
        exact busy
      · exact keeps j serving

/-- No channel has been handed out. -/
def initial : ChannelState := ⟨.initial, fun _ => none⟩

theorem initial_right : initial.Consistent ∧ initial.Tidy := by
  have free : ∀ channel, ¬ initial.channels.Busy channel := fun _ busy => by cases busy
  constructor
  · constructor
    · exact fun _ _ on => absurd on Bool.false_ne_true
    · exact fun channel _ busy => absurd busy (free channel)
    · exact fun channel _ => iff_of_false (free channel) Bool.false_ne_true
    · exact fun channel _ _ _ busy => absurd busy (free channel)
    · intro ulPin callback
      refine iff_of_false (fun attached => by cases attached) ?_
      rintro ⟨channel, _, busy, _⟩
      exact free channel busy
  · constructor
    · exact fun _ _ => rfl
    · exact fun _ _ => .inl rfl
    · exact fun channel _ busy => absurd busy (free channel)
    · exact fun channel _ busy => absurd busy (free channel)
    · exact fun _ serves => by cases serves

end ChannelState

/-- **Exactly when the channels are right in a whole run**: no pin is attached again, no freed slot has its
event register set before the one that is served, and no callback leaves its own channel free. -/
theorem channels_consistent_iff (description : UInt32 → UInt32) (inputs : List ChannelInput) :
    Always (ChannelState.step description) ChannelState.Consistent .initial inputs ∧
        EachStep (ChannelState.step description) ChannelState.Serves .initial inputs ↔
      EachStep (ChannelState.step description) ChannelState.KeepsChannels .initial inputs := by
  have legal : EachStep (ChannelState.step description) (fun _ _ => True) .initial inputs :=
    eachStep_of_forall (fun _ _ => trivial) _ _
  have keep : ∀ (state : ChannelState) (input : ChannelInput), state.Consistent ∧ state.Tidy → True →
      (state.step description input).Consistent ∧ state.Serves input →
      (state.step description input).Consistent ∧ (state.step description input).Tidy :=
    fun state input right _ next =>
      ⟨next.1, (state.step_iff description input right.1 right.2).2 next⟩
  exact always_and_iff_of_invariant keep
    (fun state input right _ => (state.step_iff description input right.1 right.2).1)
    ChannelState.initial_right.1 ChannelState.initial_right legal

/-- **A second function does not replace the first**: the pin has two busy channels. -/
theorem channels_attached_twice :
    ¬ ∀ (description : UInt32 → UInt32) (inputs : List ChannelInput),
      Always (ChannelState.step description) ChannelState.Consistent .initial inputs ∧
        EachStep (ChannelState.step description) ChannelState.Serves .initial inputs := by
  intro always
  have consistent := (always id [.attach 3 1 2, .attach 3 2 2]).1.last
  have same := consistent.unique 0 (by decide) 1 (by decide) rfl rfl rfl
  exact absurd same (by decide)

end PrimoCore.Core
