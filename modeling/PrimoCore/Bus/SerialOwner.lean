/-
**Which object of `SoftwareSerial` owns a channel.**

The active object is to own a channel of GPIOTE, and no other object one. `listen` takes the first
free channel, and `stopListening` frees the first one with the pin of the object; other users attach
and detach functions in between. `write` switches the interrupts of the object's mask off and on,
whichever channels have them by then.

* `Serials.Owned` — the active object owns a channel, and every channel with `handle_interrupt` is
  its.
* `SerialRun` — a run, with the bytes that are to be unread.
* `serials_kept_iff` — **all that is to hold of a run does exactly when** a channel is free where an
  object starts to listen and none was listening, `stopListening` frees the object's own channel and
  nobody else does, and a `write` finds all channels of its mask handed out.
-/

import PrimoCore.Bus.SoftwareSerial
import PrimoCore.Lib.Run

namespace PrimoCore.Bus

open PrimoCore.Lib PrimoCore.Core

/-! ### The channels -/

/-- The channel is handed out, to `handle_interrupt`. -/
def Serves (channels : Channels) (channel : Nat) : Prop :=
  channels.Busy channel ∧ (channels.callbacksInt channel).callback = handleInterrupt

instance (channels : Channels) (channel : Nat) : Decidable (Serves channels channel) :=
  inferInstanceAs (Decidable (_ ∧ _))

/-- What holds of the channels where no mask switches on one that is free: a slot is unused or has its
own channel, as every busy one does, and the interrupts of the busy ones are on. -/
structure Sound (channels : Channels) : Prop where
  own : ∀ channel < 8, (channels.callbacksInt channel).mask = none ∨
    (channels.callbacksInt channel).mask = some channel
  used : ∀ channel < 8, channels.Busy channel → (channels.callbacksInt channel).mask = some channel
  enabled : ∀ channel < 8, channels.gpiote.intEnabled channel = true ↔ channels.Busy channel

theorem sound_initial : Sound .initial where
  own := fun _ _ => .inl rfl
  used := fun _ _ busy => absurd busy Bool.noConfusion
  enabled := fun _ _ => iff_of_false Bool.noConfusion Bool.noConfusion

/-- The mask of a channel has its bit only. -/
theorem testBit_resultMask {channel other : Nat} (inside : channel < 8) (otherInside : other < 8) :
    (resultMask (some channel)).toNat.testBit other = true ↔ other = channel := by
  have each : ∀ channel other : Fin 8,
      (resultMask (some channel.val)).toNat.testBit other.val = true ↔ other.val = channel.val := by
    decide
  exact each ⟨channel, inside⟩ ⟨other, otherInside⟩

theorem resultMask_injective {channel other : Nat} (inside : channel < 8) (otherInside : other < 8)
    (same : resultMask (some channel) = resultMask (some other)) : channel = other := by
  rw [← testBit_resultMask otherInside inside, ← same, testBit_resultMask inside inside]

/-- The result where no channel was free is the mask of none. -/
theorem resultMask_none_ne {channel : Nat} (inside : channel < 8) :
    resultMask none ≠ resultMask (some channel) := by
  have each : ∀ channel : Fin 8, resultMask none ≠ resultMask (some channel.val) := by decide
  exact each ⟨channel, inside⟩

section Channels

variable {channels next : Channels} {j : Nat}

open ChannelState (Elsewhere)

theorem serves_elsewhere (elsewhere : Elsewhere channels next j) {channel : Nat} (other : channel ≠ j) :
    Serves next channel ↔ Serves channels channel := by
  unfold Serves
  rw [elsewhere.busy_iff other, elsewhere.slot channel other]

/-- A step that changes one channel keeps the others sound. -/
theorem Sound.elsewhere (sound : Sound channels) (elsewhere : Elsewhere channels next j)
    (own : (next.callbacksInt j).mask = none ∨ (next.callbacksInt j).mask = some j)
    (used : next.Busy j → (next.callbacksInt j).mask = some j)
    (enabled : next.gpiote.intEnabled j = true ↔ next.Busy j) : Sound next where
  own := by
    intro channel inside
    by_cases here : channel = j
    · rw [here]
      exact own
    · rw [elsewhere.slot channel here]
      exact sound.own channel inside
  used := by
    intro channel inside
    by_cases here : channel = j
    · rw [here]
      exact used
    · rw [elsewhere.slot channel here, elsewhere.busy_iff here]
      exact sound.used channel inside
  enabled := by
    intro channel inside
    by_cases here : channel = j
    · rw [here]
      exact enabled
    · rw [elsewhere.int channel here, elsewhere.busy_iff here]
      exact sound.enabled channel inside

/-! #### `attachInterrupt` -/

variable (description : UInt32 → UInt32) (ulPin : UInt32) (callback : Nat) (ulMode : UInt32)

/-- What `attachInterrupt` does to the first free channel. -/
structure Attached (channels next : Channels) (ulPin : UInt32) (callback : Nat) : Prop where
  elsewhere : Elsewhere channels next channels.freeChannel
  idle : ¬ channels.Busy channels.freeChannel
  busy : next.Busy channels.freeChannel
  slot : next.callbacksInt channels.freeChannel =
    ⟨ulPin, callback, some channels.freeChannel, some channels.freeChannel⟩
  enabled : next.gpiote.intEnabled channels.freeChannel = true

theorem attach_full (full : ¬ channels.freeChannel < 8) :
    channels.attachInterrupt description ulPin callback ulMode = (channels, none) :=
  @ChannelState.attach_full ⟨channels, fun _ => none⟩ description ulPin callback ulMode
    (Nat.le_antisymm findSlot_le (Nat.le_of_not_lt full))

theorem attach_room (room : channels.freeChannel < 8) :
    (channels.attachInterrupt description ulPin callback ulMode).2 = some channels.freeChannel ∧
      Attached channels (channels.attachInterrupt description ulPin callback ulMode).1 ulPin
        callback := by
  obtain ⟨inOrder, slot, busy⟩ :=
    @ChannelState.attach_changed ⟨channels, fun _ => none⟩ description ulPin callback ulMode room
  have elsewhere :=
    @ChannelState.attach_elsewhere ⟨channels, fun _ => none⟩ description ulPin callback ulMode room
  have idle := Channels.freeChannel_idle room
  have result := congrArg Prod.snd
    (@ChannelState.attach_room ⟨channels, fun _ => none⟩ description ulPin callback ulMode room)
  have serving := congrArg (fun next => next.1.gpiote.intEnabled channels.freeChannel)
    (@ChannelState.attach_room ⟨channels, fun _ => none⟩ description ulPin callback ulMode room)
  exact ⟨result, elsewhere, idle, busy, slot, serving.trans (Function.update_self ..)⟩

variable {ulPin callback}

theorem Attached.sound (attached : Attached channels next ulPin callback) (sound : Sound channels) :
    Sound next := by
  have mask := congrArg Slot.mask attached.slot
  exact sound.elsewhere attached.elsewhere (.inr mask) (fun _ => mask)
    (iff_of_true attached.enabled attached.busy)

theorem attach_sound (ulPin : UInt32) (callback : Nat) (sound : Sound channels) :
    Sound (channels.attachInterrupt description ulPin callback ulMode).1 := by
  by_cases room : channels.freeChannel < 8
  · exact (attach_room description ulPin callback ulMode room).2.sound sound
  · rw [attach_full description ulPin callback ulMode room]
    exact sound

/-- The channel serves the callback, and the others what they did. -/
theorem Attached.serves_iff (attached : Attached channels next ulPin callback) (channel : Nat) :
    Serves next channel ↔
      channel = channels.freeChannel ∧ callback = handleInterrupt ∨ Serves channels channel := by
  by_cases here : channel = channels.freeChannel
  · have unserved : ¬ Serves channels channel := fun serves => attached.idle (here ▸ serves.1)
    rw [or_iff_left unserved, here, Serves, attached.slot]
    exact ⟨fun serves => ⟨rfl, serves.2⟩, fun same => ⟨attached.busy, same.2⟩⟩
  · rw [serves_elsewhere attached.elsewhere here]
    exact (or_iff_right fun both => here both.1).symm

/-! #### `detachInterrupt` -/

/-- What `detachInterrupt` does to the first slot with the pin. -/
structure Detached (channels next : Channels) (slot : Nat) : Prop where
  elsewhere : Elsewhere channels next slot
  idle : ¬ next.Busy slot
  slots : next.callbacksInt = channels.callbacksInt
  disabled : next.gpiote.intEnabled slot = false

theorem detach_nothing (ulPin : UInt32) (none : ¬ channels.slotOf ulPin < 8) :
    channels.detachInterrupt ulPin = channels :=
  @ChannelState.detach_nothing ⟨channels, fun _ => .none⟩ ulPin
    (Nat.le_antisymm findSlot_le (Nat.le_of_not_lt none))

theorem detach_found (sound : Sound channels) (ulPin : UInt32) (found : channels.slotOf ulPin < 8) :
    Detached channels (channels.detachInterrupt ulPin) (channels.slotOf ulPin) := by
  rw [@ChannelState.detach_found ⟨channels, fun _ => none⟩ ulPin found]
  dsimp only
  generalize channels.slotOf ulPin = slot at *
  have freed : Function.update channels.freeChannels slot true slot = true := Function.update_self ..
  have idle : ¬ Function.update channels.freeChannels slot true slot = false := by
    rw [freed]
    exact Bool.noConfusion
  rcases sound.own slot found with unused | own
  · have off : channels.gpiote.intEnabled slot = false := Bool.eq_false_iff.mpr fun on => by
      have taken := sound.used slot found ((sound.enabled slot found).mp on)
      rw [unused] at taken
      cases taken
    rw [unused]
    refine ⟨⟨?_, fun _ _ => rfl, fun _ _ => rfl, ?_, fun _ _ => id⟩, idle, rfl, off⟩
    · exact fun _ other => Function.update_of_ne other ..
    · exact fun _ other => Function.update_of_ne other ..
  · rw [own]
    refine ⟨⟨?_, fun _ _ => rfl, ?_, ?_, fun _ _ => id⟩, idle, rfl, Function.update_self ..⟩
    · exact fun _ other => Function.update_of_ne other ..
    · exact fun _ other => Function.update_of_ne other ..
    · exact fun _ other => Function.update_of_ne other ..

theorem Detached.sound {slot : Nat} (detached : Detached channels next slot) (sound : Sound channels)
    (inside : slot < 8) : Sound next := by
  refine sound.elsewhere detached.elsewhere ?_ (fun busy => absurd busy detached.idle) ?_
  · rw [detached.slots]
    exact sound.own slot inside
  · rw [detached.disabled]
    exact iff_of_false Bool.noConfusion detached.idle

theorem detach_sound (ulPin : UInt32) (sound : Sound channels) :
    Sound (channels.detachInterrupt ulPin) := by
  by_cases found : channels.slotOf ulPin < 8
  · exact (detach_found sound ulPin found).sound sound found
  · rw [detach_nothing ulPin found]
    exact sound

/-- The slot serves nobody, and the others whom they did. -/
theorem Detached.serves_iff {slot : Nat} (detached : Detached channels next slot) (channel : Nat) :
    Serves next channel ↔ channel ≠ slot ∧ Serves channels channel := by
  by_cases here : channel = slot
  · rw [here]
    exact iff_of_false (fun serves => detached.idle serves.1) fun both => both.1 rfl
  · rw [serves_elsewhere detached.elsewhere here]
    exact (and_iff_right here).symm

/-- There is a free channel after it. -/
theorem Detached.room {slot : Nat} (detached : Detached channels next slot) (inside : slot < 8) :
    next.freeChannel < 8 :=
  findSlot_lt_iff.mpr ⟨slot, inside, (Bool.not_eq_false _).mp detached.idle⟩

end Channels

namespace Serials

/-! ### Ownership -/

/-- **The object owns the channel**: it is active, the channel calls `handle_interrupt` for its pin,
and its mask is that of the channel. -/
structure Owns (serials : Serials) (this channel : Nat) : Prop where
  active : serials.activeObject = some this
  serves : Serves serials.channels channel
  pin : (serials.channels.callbacksInt channel).ulPin = (serials.object this).receivePin.toUInt32
  mask : (serials.object this).intMask = resultMask (some channel)

/-- **The active object owns a channel**, and it alone. -/
structure Owned (serials : Serials) : Prop where
  has : ∀ this, serials.activeObject = some this → ∃ channel < 8, serials.Owns this channel
  alone : ∀ channel < 8, Serves serials.channels channel → ∃ this, serials.Owns this channel

/-- The interrupts of the channels that the object does not own are as before. -/
def LeavesOthers (serials next : Serials) (this : Nat) : Prop :=
  ∀ channel < 8, ¬ serials.Owns this channel →
    next.channels.gpiote.intEnabled channel = serials.channels.gpiote.intEnabled channel

/-- The slot that `stopListening` frees: the first one with the pin of the object. -/
def pinSlot (serials : Serials) (this : Nat) : Nat :=
  serials.channels.slotOf (serials.object this).receivePin.toUInt32

/-- The slot that `stopListening` frees calls `handle_interrupt`. -/
def Frees (serials : Serials) (this : Nat) : Prop :=
  serials.pinSlot this < 8 ∧ Serves serials.channels (serials.pinSlot this)

instance (serials : Serials) (this : Nat) : Decidable (serials.Frees this) :=
  inferInstanceAs (Decidable (_ ∧ _))

variable {serials next : Serials} {this : Nat}

/-- Only one channel calls `handle_interrupt`. -/
theorem Owned.unique (owned : serials.Owned) {channel other : Nat} (inside : channel < 8)
    (otherInside : other < 8) (serves : Serves serials.channels channel)
    (otherServes : Serves serials.channels other) : channel = other := by
  obtain ⟨this, owns⟩ := owned.alone channel inside serves
  obtain ⟨that, otherOwns⟩ := owned.alone other otherInside otherServes
  obtain rfl := Option.some.inj (owns.active.symm.trans otherOwns.active)
  exact resultMask_injective inside otherInside (owns.mask.symm.trans otherOwns.mask)

/-- The mask of the active object has the bit of its channel only. -/
theorem Owned.mask_busy (owned : serials.Owned) (active : serials.activeObject = some this)
    {channel : Nat} (inside : channel < 8) (bit : (serials.object this).intMask.toNat.testBit channel = true) :
    serials.channels.Busy channel := by
  obtain ⟨mine, mineInside, owns⟩ := owned.has this active
  rw [owns.mask, testBit_resultMask mineInside inside] at bit
  rw [bit]
  exact owns.serves.1

/-! #### Calls that attach and detach nothing -/

/-- Two states that agree on what ownership is about. -/
structure SameOwner (serials next : Serials) : Prop where
  active : next.activeObject = serials.activeObject
  pins : ∀ this, (next.object this).receivePin = (serials.object this).receivePin
  masks : ∀ this, (next.object this).intMask = (serials.object this).intMask
  free : next.channels.freeChannels = serials.channels.freeChannels
  slots : next.channels.callbacksInt = serials.channels.callbacksInt

theorem SameOwner.refl (serials : Serials) : SameOwner serials serials :=
  ⟨rfl, fun _ => rfl, fun _ => rfl, rfl, rfl⟩

theorem SameOwner.busy_iff (same : SameOwner serials next) (channel : Nat) :
    next.channels.Busy channel ↔ serials.channels.Busy channel := by
  unfold Channels.Busy
  rw [same.free]

theorem SameOwner.serves_iff (same : SameOwner serials next) (channel : Nat) :
    Serves next.channels channel ↔ Serves serials.channels channel := by
  unfold Serves
  rw [same.busy_iff, same.slots]

theorem SameOwner.owns (same : SameOwner serials next) {channel : Nat}
    (owns : serials.Owns this channel) : next.Owns this channel where
  active := same.active.trans owns.active
  serves := (same.serves_iff channel).mpr owns.serves
  pin := by rw [same.slots, same.pins, owns.pin]
  mask := (same.masks this).trans owns.mask

theorem SameOwner.owned (same : SameOwner serials next) (owned : serials.Owned) : next.Owned where
  has := fun this active =>
    have ⟨channel, inside, owns⟩ := owned.has this (same.active.symm.trans active)
    ⟨channel, inside, same.owns owns⟩
  alone := fun channel inside serves =>
    have ⟨this, owns⟩ := owned.alone channel inside ((same.serves_iff channel).mp serves)
    ⟨this, same.owns owns⟩

/-- An object is changed, but not its pin and mask. -/
theorem setObject_same {serial : SoftwareSerial}
    (pin : serial.receivePin = (serials.object this).receivePin)
    (mask : serial.intMask = (serials.object this).intMask) :
    SameOwner serials (serials.setObject this serial) := by
  have each : ∀ other, ((serials.setObject this serial).object other).receivePin =
        (serials.object other).receivePin ∧
      ((serials.setObject this serial).object other).intMask = (serials.object other).intMask := by
    intro other
    by_cases here : other = this
    · rw [here, setObject_self]
      exact ⟨pin, mask⟩
    · rw [setObject_of_ne here]
      exact ⟨rfl, rfl⟩
  exact ⟨rfl, fun other => (each other).1, fun other => (each other).2, rfl, rfl⟩

theorem received_same (serials : Serials) (this : Nat) (d : UInt8) :
    SameOwner serials (serials.received this d) := by
  unfold received
  dsimp only
  split_ifs
  · exact ⟨rfl, fun _ => rfl, fun _ => rfl, rfl, rfl⟩
  · exact setObject_same rfl rfl

theorem read_same (serials : Serials) (this : Nat) : SameOwner serials (serials.read this).2 := by
  unfold read
  split_ifs <;> exact ⟨rfl, fun _ => rfl, fun _ => rfl, rfl, rfl⟩

theorem overflow_same (serials : Serials) (this : Nat) :
    SameOwner serials (serials.overflow this).2 := by
  unfold overflow
  dsimp only
  split_ifs
  · exact setObject_same rfl rfl
  · exact .refl _

theorem received_channels (serials : Serials) (this : Nat) (d : UInt8) :
    (serials.received this d).channels = serials.channels := by
  unfold received
  dsimp only
  split_ifs <;> rfl

/-! #### Calls that switch the interrupts of a mask off and on -/

/-- All interrupts of the mask of the object are on, and those of other channels as they were. -/
structure Masked (serials next : Serials) (this : Nat) : Prop where
  same : SameOwner serials next
  enabled : ∀ channel, next.channels.gpiote.intEnabled channel =
    (serials.channels.gpiote.intEnabled channel || (serials.object this).intMask.toNat.testBit channel)

/-- Nothing is attached or detached between the two writes. -/
theorem masked_of_between {middle : Serials} (same : SameOwner (serials.clearInterrupts this) middle)
    (channels : middle.channels = (serials.clearInterrupts this).channels) :
    Masked serials (middle.setInterrupts this) this where
  same := ⟨same.active, same.pins, same.masks, same.free, same.slots⟩
  enabled := by
    intro channel
    show (middle.channels.gpiote.intEnabled channel ||
      (middle.object this).intMask.toNat.testBit channel) = _
    rw [channels, same.masks]
    show (serials.channels.gpiote.intEnabled channel &&
        !(serials.object this).intMask.toNat.testBit channel ||
      (serials.object this).intMask.toNat.testBit channel) = _
    cases (serials.object this).intMask.toNat.testBit channel <;> simp

/-- **The other channels are left as they were** exactly when all channels of the mask are handed out.
-/
theorem Masked.leaves_iff (masked : Masked serials next this) (sound : Sound serials.channels) :
    serials.LeavesOthers next this ↔ ∀ channel < 8,
      (serials.object this).intMask.toNat.testBit channel = true → serials.channels.Busy channel := by
  constructor
  · intro leaves channel inside bit
    by_cases owns : serials.Owns this channel
    · exact owns.serves.1
    · have kept := leaves channel inside owns
      rw [masked.enabled, bit, Bool.or_true] at kept
      exact (sound.enabled channel inside).mp kept.symm
  · intro busy channel inside _
    rw [masked.enabled]
    cases bit : (serials.object this).intMask.toNat.testBit channel with
    | false => exact Bool.or_false _
    | true => rw [(sound.enabled channel inside).mpr (busy channel inside bit), Bool.or_true]

/-- The channels stay sound then. -/
theorem Masked.sound (masked : Masked serials next this) (sound : Sound serials.channels)
    (busy : ∀ channel < 8,
      (serials.object this).intMask.toNat.testBit channel = true → serials.channels.Busy channel) :
    Sound next.channels where
  own := by
    rw [masked.same.slots]
    exact sound.own
  used := by
    intro channel inside
    rw [masked.same.slots, masked.same.busy_iff]
    exact sound.used channel inside
  enabled := by
    intro channel inside
    rw [masked.enabled, masked.same.busy_iff, Bool.or_eq_true, sound.enabled channel inside]
    exact or_iff_left_of_imp (busy channel inside)

/-- The active object leaves them so. -/
theorem Masked.of_active (masked : Masked serials next this) (sound : Sound serials.channels)
    (owned : serials.Owned) (active : serials.activeObject = some this) :
    serials.LeavesOthers next this ∧ Sound next.channels :=
  have busy : ∀ channel < 8, (serials.object this).intMask.toNat.testBit channel = true →
      serials.channels.Busy channel := fun _ inside bit => owned.mask_busy active inside bit
  ⟨(masked.leaves_iff sound).mpr busy, masked.sound sound busy⟩

theorem write_masked (b : UInt8) (set : (serials.object this).txDelay ≠ 0) :
    Masked serials (serials.write this b).2 this := by
  unfold write
  dsimp only
  rw [if_neg set]
  exact masked_of_between ⟨rfl, fun _ => rfl, fun _ => rfl, rfl, rfl⟩ rfl

theorem flush_masked (active : serials.isListening this = true) :
    Masked serials (serials.flush this) this := by
  unfold flush
  rw [active]
  exact masked_of_between ⟨rfl, fun _ => rfl, fun _ => rfl, rfl, rfl⟩ rfl

theorem startBit_iff (inverseLogic level : Bool) :
    (if inverseLogic then level else !level) = true ↔ level = inverseLogic := by
  cases inverseLogic <;> simp

theorem recv_masked {line : Nat → Bool} (start : line 0 = (serials.object this).inverseLogic) :
    Masked serials (serials.recv this line) this := by
  unfold recv
  dsimp only
  rw [if_pos ((startBit_iff ..).mpr start)]
  exact masked_of_between (received_same ..) (received_channels ..)

/-! #### `stopListening` and `listen` -/

theorem isListening_iff : serials.isListening this = true ↔ serials.activeObject = some this :=
  decide_eq_true_iff

theorem owned_iff_of_none (none : serials.activeObject = none) :
    serials.Owned ↔ ∀ channel < 8, ¬ Serves serials.channels channel := by
  constructor
  · intro owned channel inside serves
    obtain ⟨this, owns⟩ := owned.alone channel inside serves
    have active := owns.active
    rw [none] at active
    cases active
  · intro idle
    refine ⟨fun this active => ?_, fun channel inside serves => absurd serves (idle channel inside)⟩
    rw [none] at active
    cases active

/-- The pin of the active object is found, and its slot freed. -/
theorem ends_detached (owned : serials.Owned) (sound : Sound serials.channels)
    (active : serials.activeObject = some this) :
    serials.pinSlot this < 8 ∧ (serials.ends this).activeObject = none ∧
      Detached serials.channels (serials.ends this).channels (serials.pinSlot this) := by
  obtain ⟨channel, inside, owns⟩ := owned.has this active
  have found : serials.pinSlot this < 8 :=
    findSlot_lt_iff.mpr ⟨channel, inside, owns.pin⟩
  have detached := detach_found sound _ found
  unfold ends stopListening
  rw [if_pos (isListening_iff.mpr active)]
  exact ⟨found, rfl, detached⟩

/-- **The active object stops**, and no channel calls `handle_interrupt` any more exactly when the
slot that is freed does. -/
theorem ends_idle_iff (owned : serials.Owned) (sound : Sound serials.channels)
    (active : serials.activeObject = some this) :
    (∀ channel < 8, ¬ Serves (serials.ends this).channels channel) ↔ serials.Frees this := by
  obtain ⟨found, -, detached⟩ := ends_detached owned sound active
  unfold Frees
  generalize serials.pinSlot this = slot at *
  constructor
  · intro idle
    obtain ⟨channel, inside, owns⟩ := owned.has this active
    by_cases here : channel = slot
    · exact ⟨found, here ▸ owns.serves⟩
    · exact absurd ((detached.serves_iff channel).mpr ⟨here, owns.serves⟩) (idle channel inside)
  · rintro ⟨_, serves⟩ channel inside stays
    obtain ⟨other, old⟩ := (detached.serves_iff channel).mp stays
    exact other (owned.unique inside found old serves)

/-- An object starts to listen, after the one that did has stopped. -/
theorem startListening_owned_iff (description : UInt32 → UInt32) (serials : Serials) (this : Nat) :
    (serials.startListening description this).Owned ↔
      serials.channels.freeChannel < 8 ∧ ∀ channel < 8, ¬ Serves serials.channels channel := by
  have object : (serials.startListening description this).object this = _ := Function.update_self ..
  have mask := congrArg SoftwareSerial.intMask object
  have pin := congrArg SoftwareSerial.receivePin object
  by_cases room : serials.channels.freeChannel < 8
  · obtain ⟨result, attached⟩ := attach_room description (serials.object this).receivePin.toUInt32
      handleInterrupt (if (serials.object this).inverseLogic then 4 else 3) room
    have owns : (serials.startListening description this).Owns this serials.channels.freeChannel :=
      ⟨rfl, (attached.serves_iff _).mpr (.inl ⟨rfl, rfl⟩),
        (congrArg Slot.ulPin attached.slot).trans (congrArg UInt8.toUInt32 pin.symm),
        mask.trans (congrArg resultMask result)⟩
    constructor
    · refine fun owned => ⟨room, fun channel inside serves => ?_⟩
      have stays := (attached.serves_iff channel).mpr (.inr serves)
      have here : channel = serials.channels.freeChannel := owned.unique inside room stays owns.serves
      exact attached.idle (here ▸ serves.1)
    · rintro ⟨-, idle⟩
      refine ⟨fun that active => ?_, fun channel inside serves => ?_⟩
      · obtain rfl : this = that := Option.some.inj active
        exact ⟨_, room, owns⟩
      · rcases (attached.serves_iff channel).mp serves with ⟨rfl, -⟩ | old
        · exact ⟨this, owns⟩
        · exact absurd old (idle channel inside)
  · refine iff_of_false (fun owned => ?_) fun both => room both.1
    obtain ⟨channel, inside, owns⟩ := owned.has this rfl
    have result := congrArg Prod.snd (attach_full description (serials.object this).receivePin.toUInt32
      handleInterrupt (if (serials.object this).inverseLogic then 4 else 3) room)
    have same := mask.symm.trans owns.mask
    exact resultMask_none_ne inside ((congrArg resultMask result).symm.trans same)

/-- Nobody listens and a channel is free, or the object that listens frees its own. -/
def MayStart (serials : Serials) : Prop :=
  match serials.activeObject with
  | none => serials.channels.freeChannel < 8
  | some active => serials.Frees active

/-- **`listen`, when it starts to.** -/
theorem restart_iff (description : UInt32 → UInt32) (owned : serials.Owned)
    (sound : Sound serials.channels) (this : Nat) :
    (serials.stopActive.startListening description this).Owned ↔ serials.MayStart := by
  rw [startListening_owned_iff]
  unfold stopActive MayStart
  cases active : serials.activeObject with
  | none => exact and_iff_left ((owned_iff_of_none active).mp owned)
  | some other =>
    obtain ⟨found, -, detached⟩ := ends_detached owned sound active
    exact (and_iff_right (detached.room found)).trans (ends_idle_iff owned sound active)

theorem ends_sound (sound : Sound serials.channels) (this : Nat) :
    Sound (serials.ends this).channels := by
  unfold ends stopListening
  split_ifs
  · exact detach_sound _ sound
  · exact sound

theorem restart_sound (description : UInt32 → UInt32) (sound : Sound serials.channels) (this : Nat) :
    Sound (serials.stopActive.startListening description this).channels := by
  refine attach_sound description _ _ _ ?_
  unfold stopActive
  cases serials.activeObject with
  | none => exact sound
  | some active => exact ends_sound sound active

/-! #### Other users -/

/-- Another user's function leaves the channels of the objects. -/
theorem attach_owned (description : UInt32 → UInt32) (owned : serials.Owned) (ulPin : UInt32)
    (callback : Nat) (ulMode : UInt32) : Owned { serials with
      channels := (serials.channels.attachInterrupt description ulPin (callback + 1) ulMode).1 } := by
  by_cases room : serials.channels.freeChannel < 8
  · obtain ⟨-, attached⟩ := attach_room description ulPin (callback + 1) ulMode room
    have serves : ∀ channel, Serves
        (serials.channels.attachInterrupt description ulPin (callback + 1) ulMode).1 channel ↔
        Serves serials.channels channel := fun channel =>
      (attached.serves_iff channel).trans (or_iff_right fun both => Nat.succ_ne_zero callback both.2)
    have owns : ∀ this channel, serials.Owns this channel → Owns { serials with
        channels := (serials.channels.attachInterrupt description ulPin (callback + 1) ulMode).1 }
        this channel := by
      intro this channel owns
      have other : channel ≠ serials.channels.freeChannel := fun here =>
        attached.idle (here ▸ owns.serves.1)
      exact ⟨owns.active, (serves channel).mpr owns.serves,
        (congrArg Slot.ulPin (attached.elsewhere.slot channel other)).trans owns.pin, owns.mask⟩
    refine ⟨fun this active => ?_, fun channel inside stays => ?_⟩
    · obtain ⟨channel, inside, mine⟩ := owned.has this active
      exact ⟨channel, inside, owns this channel mine⟩
    · obtain ⟨this, mine⟩ := owned.alone channel inside ((serves channel).mp stays)
      exact ⟨this, owns this channel mine⟩
  · rw [attach_full description ulPin (callback + 1) ulMode room]
    exact owned

/-- **Another user frees a slot**, not that of the active object. -/
theorem detach_owned_iff (owned : serials.Owned) (sound : Sound serials.channels) (ulPin : UInt32) :
    Owned { serials with channels := serials.channels.detachInterrupt ulPin } ↔
      (serials.channels.slotOf ulPin < 8 →
        ¬ Serves serials.channels (serials.channels.slotOf ulPin)) := by
  by_cases found : serials.channels.slotOf ulPin < 8
  · have detached := detach_found sound ulPin found
    have freed : ∀ this channel,
        Owns { serials with channels := serials.channels.detachInterrupt ulPin } this channel ↔ channel ≠ serials.channels.slotOf ulPin ∧ serials.Owns this channel := by
      intro this channel
      have pin : ((serials.channels.detachInterrupt ulPin).callbacksInt channel).ulPin = _ :=
        congrArg (fun slots => Slot.ulPin (slots channel)) detached.slots
      constructor
      · rintro ⟨active, serves, slot, mask⟩
        obtain ⟨other, old⟩ := (detached.serves_iff channel).mp serves
        exact ⟨other, active, old, pin.symm.trans slot, mask⟩
      · rintro ⟨other, owns⟩
        exact ⟨owns.active, (detached.serves_iff channel).mpr ⟨other, owns.serves⟩, pin.trans owns.pin,
          owns.mask⟩
    constructor
    · intro next _ serves
      obtain ⟨this, owns⟩ := owned.alone _ found serves
      obtain ⟨channel, inside, stays⟩ := next.has this owns.active
      obtain ⟨other, mine⟩ := (freed this channel).mp stays
      exact other (owned.unique inside found mine.serves serves)
    · intro unserved
      refine ⟨fun this active => ?_, fun channel inside serves => ?_⟩
      · obtain ⟨channel, inside, mine⟩ := owned.has this active
        refine ⟨channel, inside, (freed this channel).mpr ⟨fun here => ?_, mine⟩⟩
        exact unserved found (here ▸ mine.serves)
      · obtain ⟨other, old⟩ := (detached.serves_iff channel).mp serves
        obtain ⟨this, mine⟩ := owned.alone channel inside old
        exact ⟨this, (freed this channel).mpr ⟨other, mine⟩⟩
  · rw [detach_nothing ulPin found]
    exact iff_of_true owned fun there => absurd there found

end Serials

/-! ### Runs -/

/-- A call on an object, an interrupt of the active one, or a call of another user of the channels,
whose functions are numbered from 0. -/
inductive SerialCall where
  | begins (this : Nat) (bitDelay : UInt32)
  | listen (this : Nat)
  | stopListening (this : Nat)
  | ends (this : Nat)
  | read (this : Nat)
  | peek (this : Nat)
  | available (this : Nat)
  | overflow (this : Nat)
  | flush (this : Nat)
  | write (this : Nat) (b : UInt8)
  | recv (line : Nat → Bool)
  | attach (ulPin : UInt32) (callback : Nat) (ulMode : UInt32)
  | detach (ulPin : UInt32)

namespace Serials

/-- One call. -/
def call (description : UInt32 → UInt32) (serials : Serials) : SerialCall → Serials
  | .begins this bitDelay => serials.begins description this bitDelay
  | .listen this => (serials.listen description this).2
  | .stopListening this => (serials.stopListening this).2
  | .ends this => serials.ends this
  | .read this => (serials.read this).2
  | .peek _ => serials
  | .available _ => serials
  | .overflow this => (serials.overflow this).2
  | .flush this => serials.flush this
  | .write this b => (serials.write this b).2
  | .recv line => serials.handle line
  | .attach ulPin callback ulMode => { serials with
      channels := (serials.channels.attachInterrupt description ulPin (callback + 1) ulMode).1 }
  | .detach ulPin => { serials with channels := serials.channels.detachInterrupt ulPin }

/-- `listen` starts to listen: the object has been begun, and is not listening. -/
def Starts (serials : Serials) (this : Nat) : Prop :=
  (serials.object this).rxDelayStopbit ≠ 0 ∧ serials.isListening this = false

instance (serials : Serials) (this : Nat) : Decidable (serials.Starts this) :=
  inferInstanceAs (Decidable (_ ∧ _))

/-- The byte that arrives, where an object listens and the line has the level of a start bit. -/
def arriving (serials : Serials) (line : Nat → Bool) : Option UInt8 :=
  match serials.activeObject with
  | none => none
  | some active =>
      let inverseLogic := (serials.object active).inverseLogic
      if line 0 = inverseLogic then some (sampled inverseLogic line) else none

/-- What another object of the same logic writes arrives. -/
theorem arriving_frame {serials : Serials} {this sender : Nat}
    (active : serials.activeObject = some this)
    (logic : (serials.object sender).inverseLogic = (serials.object this).inverseLogic) (idle : Bool)
    (b : UInt8) : serials.arriving
      (fun bit => (frame (serials.object sender).inverseLogic b).getD bit idle) = some b := by
  obtain ⟨start, byte⟩ := sampled_frame (serials.object this).inverseLogic idle b
  unfold arriving
  rw [active, logic]
  dsimp only
  rw [if_pos start, byte]

/-- The bytes that are to be unread after a call: those that arrived since an object started to listen
or was flushed, as far as there was room, without those that were read. -/
def unreadAfter (serials : Serials) (unread : List UInt8) : SerialCall → List UInt8
  | .begins this bitDelay => if (serials.setDelays this bitDelay).Starts this then [] else unread
  | .listen this => if serials.Starts this then [] else unread
  | .flush this => if serials.isListening this then [] else unread
  | .read this => if serials.isListening this then unread.tail else unread
  | .recv line => match serials.arriving line with
      | none => unread
      | some d => store ssCapacity unread d
  | _ => unread

end Serials

/-- A run, with the bytes that are to be unread. -/
structure SerialRun where
  serials : Serials
  unread : List UInt8

namespace SerialRun

/-- One step. -/
def step (description : UInt32 → UInt32) (run : SerialRun) (call : SerialCall) : SerialRun :=
  ⟨run.serials.call description call, run.serials.unreadAfter run.unread call⟩

/-- **What is to hold of every state**: the active object alone owns a channel, and the buffer has the
bytes that are to be unread. -/
structure Keeps (run : SerialRun) : Prop where
  owned : run.serials.Owned
  contents : run.serials.contents = run.unread

/-- **What is to hold of every call.** An object that listens answers with the bytes that are to be
unread, and another one that there are none; `peek` answers as `read` would. A byte that arrives while
63 are unread is noted, and neither it nor `flush` nor `write` changes the interrupts of channels the
object does not own. -/
def Answers (description : UInt32 → UInt32) (run : SerialRun) (call : SerialCall) : Prop :=
  let serials := run.serials
  let next := serials.call description call
  match call with
  | .read this => (serials.read this).1 = if serials.isListening this then oldest run.unread else -1
  | .peek this => serials.peek this = (serials.read this).1
  | .available this =>
      serials.available this = if serials.isListening this then (run.unread.length : Int) else 0
  | .recv line => ∀ this, serials.activeObject = some this → serials.LeavesOthers next this ∧
      ((next.object this).bufferOverflow = true ↔ (serials.object this).bufferOverflow = true ∨
        serials.arriving line ≠ none ∧ run.unread.length = ssCapacity)
  | .flush this => serials.LeavesOthers next this
  | .write this _ => serials.LeavesOthers next this
  | _ => True

/-- **The condition on a step.** Where an object starts to listen, a channel is free or another object
listens. An object that listens frees its own slot when it stops, and no other user frees it. All
channels in the mask of an object that writes are handed out. -/
def Meets (run : SerialRun) : SerialCall → Prop
  | .begins this bitDelay => (run.serials.setDelays this bitDelay).Starts this → run.serials.MayStart
  | .listen this => run.serials.Starts this → run.serials.MayStart
  | .stopListening this => run.serials.activeObject = some this → run.serials.Frees this
  | .ends this => run.serials.activeObject = some this → run.serials.Frees this
  | .write this _ => (run.serials.object this).txDelay ≠ 0 → ∀ channel < 8,
      (run.serials.object this).intMask.toNat.testBit channel = true → run.serials.channels.Busy channel
  | .detach ulPin => run.serials.channels.slotOf ulPin < 8 →
      ¬ Serves run.serials.channels (run.serials.channels.slotOf ulPin)
  | _ => True

end SerialRun

namespace Serials

variable {serials next : Serials} {this : Nat}

/-! #### The buffer after a call -/

theorem listen_eq (description : UInt32 → UInt32) (serials : Serials) (this : Nat) :
    (serials.listen description this).2 =
      if serials.Starts this then serials.stopActive.startListening description this else serials := by
  unfold listen Starts
  by_cases unset : (serials.object this).rxDelayStopbit = 0
  · simp only [unset, if_true, ne_eq, not_true_eq_false, false_and, if_false]
  · by_cases listening : serials.isListening this = true
    · simp [unset, listening]
    · simp [unset, listening]

theorem listen_buffer (description : UInt32 → UInt32) (within : serials.Within) (this : Nat) :
    (serials.listen description this).2.Within ∧ (serials.listen description this).2.contents =
      if serials.Starts this then [] else serials.contents := by
  rw [listen_eq]
  split_ifs
  · exact cleared_contents _
  · exact ⟨within, rfl⟩

theorem ends_buffer (within : serials.Within) (this : Nat) :
    (serials.ends this).Within ∧ (serials.ends this).contents = serials.contents := by
  unfold ends stopListening
  split_ifs <;> exact ⟨within, rfl⟩

theorem flush_buffer (within : serials.Within) (this : Nat) :
    (serials.flush this).Within ∧
      (serials.flush this).contents = if serials.isListening this then [] else serials.contents := by
  unfold flush
  cases serials.isListening this with
  | false => exact ⟨within, rfl⟩
  | true => exact cleared_contents _

theorem handle_buffer (within : serials.Within) (line : Nat → Bool) :
    (serials.handle line).Within ∧ (serials.handle line).contents = match serials.arriving line with
      | none => serials.contents
      | some d => store ssCapacity serials.contents d := by
  unfold handle arriving
  cases serials.activeObject with
  | none => exact ⟨within, rfl⟩
  | some active =>
    unfold recv
    simp only [startBit_iff]
    split_ifs
    · exact @received_contents (serials.clearInterrupts active) active within _
    · exact ⟨within, rfl⟩

/-- **The buffer is a queue.** After every call it has the bytes that are to be unread. -/
theorem call_buffer (description : UInt32 → UInt32) (within : serials.Within) (call : SerialCall) :
    (serials.call description call).Within ∧
      (serials.call description call).contents = serials.unreadAfter serials.contents call := by
  cases call with
  | begins this bitDelay =>
    exact @listen_buffer (serials.setDelays this bitDelay) description within this
  | listen this => exact listen_buffer description within this
  | stopListening this => exact ends_buffer within this
  | ends this => exact ends_buffer within this
  | read this =>
    show (serials.read this).2.Within ∧ (serials.read this).2.contents =
      if serials.isListening this then serials.contents.tail else serials.contents
    cases active : serials.isListening this with
    | false =>
      rw [read, active]
      exact ⟨within, rfl⟩
    | true => exact (read_contents within active).2
  | peek _ => exact ⟨within, rfl⟩
  | available _ => exact ⟨within, rfl⟩
  | overflow this =>
    show (serials.overflow this).2.Within ∧ (serials.overflow this).2.contents = _
    unfold overflow
    dsimp only
    split_ifs <;> exact ⟨within, rfl⟩
  | flush this => exact flush_buffer within this
  | write this b =>
    show (serials.write this b).2.Within ∧ (serials.write this b).2.contents = _
    unfold write
    dsimp only
    split_ifs <;> exact ⟨within, rfl⟩
  | recv line => exact handle_buffer within line
  | attach ulPin callback ulMode => exact ⟨within, rfl⟩
  | detach ulPin => exact ⟨within, rfl⟩

/-! #### Ownership after a call -/

theorem listen_owned_iff (description : UInt32 → UInt32) (owned : serials.Owned)
    (sound : Sound serials.channels) (this : Nat) :
    (serials.listen description this).2.Owned ↔ (serials.Starts this → serials.MayStart) := by
  rw [listen_eq]
  by_cases starts : serials.Starts this
  · rw [if_pos starts, restart_iff description owned sound]
    exact (imp_iff_right starts).symm
  · rw [if_neg starts]
    exact iff_of_true owned fun now => absurd now starts

theorem listen_sound (description : UInt32 → UInt32) (sound : Sound serials.channels) (this : Nat) :
    Sound (serials.listen description this).2.channels := by
  rw [listen_eq]
  split_ifs
  · exact restart_sound description sound this
  · exact sound

theorem ends_owned_iff (owned : serials.Owned) (sound : Sound serials.channels) (this : Nat) :
    (serials.ends this).Owned ↔ (serials.activeObject = some this → serials.Frees this) := by
  by_cases active : serials.activeObject = some this
  · rw [owned_iff_of_none (ends_detached owned sound active).2.1, ends_idle_iff owned sound active]
    exact (imp_iff_right active).symm
  · unfold ends stopListening
    rw [if_neg (mt isListening_iff.mp active)]
    exact iff_of_true owned fun now => absurd now active

theorem setDelays_same (serials : Serials) (this : Nat) (bitDelay : UInt32) :
    SameOwner serials (serials.setDelays this bitDelay) := setObject_same rfl rfl

theorem setDelays_mayStart (serials : Serials) (this : Nat) (bitDelay : UInt32) :
    (serials.setDelays this bitDelay).MayStart ↔ serials.MayStart := by
  have pins := (setDelays_same serials this bitDelay).pins
  unfold MayStart
  show (match serials.activeObject with
    | none => serials.channels.freeChannel < 8
    | some active => (serials.setDelays this bitDelay).Frees active) ↔ _
  cases serials.activeObject with
  | none => exact Iff.rfl
  | some active =>
    show (serials.setDelays this bitDelay).Frees active ↔ serials.Frees active
    unfold Frees pinSlot
    rw [pins]
    exact Iff.rfl

/-- A byte that arrives. -/
theorem handle_answers (within : serials.Within) (owned : serials.Owned)
    (sound : Sound serials.channels) (active : serials.activeObject = some this) (line : Nat → Bool) :
    SameOwner serials (serials.handle line) ∧ Sound (serials.handle line).channels ∧
      serials.LeavesOthers (serials.handle line) this ∧
      (((serials.handle line).object this).bufferOverflow = true ↔
        (serials.object this).bufferOverflow = true ∨
          serials.arriving line ≠ none ∧ serials.contents.length = ssCapacity) := by
  have handled : serials.handle line = serials.recv this line := by
    unfold handle
    rw [active]
  have arrives : serials.arriving line = if line 0 = (serials.object this).inverseLogic then
      some (sampled (serials.object this).inverseLogic line) else none := by
    unfold arriving
    rw [active]
  rw [handled, arrives]
  by_cases start : line 0 = (serials.object this).inverseLogic
  · have masked := recv_masked start
    obtain ⟨leaves, next⟩ := masked.of_active sound owned active
    refine ⟨masked.same, next, leaves, ?_⟩
    rw [if_pos start]
    unfold recv
    rw [if_pos ((startBit_iff ..).mpr start)]
    refine (@received_overflow (serials.clearInterrupts this) this within _).trans ?_
    exact or_congr_right (and_iff_right (Option.some_ne_none _)).symm
  · have unchanged : serials.recv this line = serials := by
      unfold recv
      rw [if_neg (mt (startBit_iff ..).mp start)]
    rw [unchanged, if_neg start]
    exact ⟨.refl _, sound, fun _ _ _ => rfl, (or_iff_left fun both => both.1 rfl).symm⟩

end Serials

namespace SerialRun

open Serials

variable {run : SerialRun}

/-- **One call** keeps all and answers as it is to exactly when it meets the condition. -/
theorem step_iff (description : UInt32 → UInt32) (keeps : run.Keeps) (within : run.serials.Within)
    (sound : Sound run.serials.channels) (call : SerialCall) :
    (run.step description call).Keeps ∧ run.Answers description call ↔ run.Meets call := by
  obtain ⟨owned, contents⟩ := keeps
  have keeps_iff : (run.step description call).Keeps ↔ (run.serials.call description call).Owned := by
    have buffer := (call_buffer description within call).2
    rw [contents] at buffer
    exact ⟨Keeps.owned, fun owned => ⟨owned, buffer⟩⟩
  rw [keeps_iff]
  cases call with
  | begins this bitDelay =>
    have same := setDelays_same run.serials this bitDelay
    refine (and_iff_left trivial).trans ?_
    refine (listen_owned_iff description (same.owned owned) sound this).trans ?_
    rw [setDelays_mayStart]
    exact Iff.rfl
  | listen this => exact (and_iff_left trivial).trans (listen_owned_iff description owned sound this)
  | stopListening this => exact (and_iff_left trivial).trans (ends_owned_iff owned sound this)
  | ends this => exact (and_iff_left trivial).trans (ends_owned_iff owned sound this)
  | read this =>
    refine iff_of_true ⟨(read_same run.serials this).owned owned, ?_⟩ trivial
    show (run.serials.read this).1 = if run.serials.isListening this then oldest run.unread else -1
    cases active : run.serials.isListening this with
    | false =>
      rw [Serials.read, active]
      rfl
    | true => rw [(read_contents within active).1, contents, if_pos rfl]
  | peek this =>
    refine iff_of_true ⟨owned, ?_⟩ trivial
    show run.serials.peek this = (run.serials.read this).1
    unfold Serials.peek Serials.read
    split_ifs <;> rfl
  | available this =>
    refine iff_of_true ⟨owned, ?_⟩ trivial
    show run.serials.available this =
      if run.serials.isListening this then (run.unread.length : Int) else 0
    cases active : run.serials.isListening this with
    | false =>
      rw [Serials.available, active]
      rfl
    | true => rw [available_eq within active, contents, if_pos rfl]
  | overflow this => exact iff_of_true ⟨(overflow_same run.serials this).owned owned, trivial⟩ trivial
  | flush this =>
    refine iff_of_true ?_ trivial
    show (run.serials.flush this).Owned ∧ run.serials.LeavesOthers (run.serials.flush this) this
    cases listening : run.serials.isListening this with
    | false =>
      unfold Serials.flush
      rw [listening]
      exact ⟨owned, fun _ _ _ => rfl⟩
    | true =>
      have masked := flush_masked listening
      exact ⟨masked.same.owned owned, (masked.of_active sound owned (isListening_iff.mp listening)).1⟩
  | write this b =>
    show (run.serials.write this b).2.Owned ∧
      run.serials.LeavesOthers (run.serials.write this b).2 this ↔ ((run.serials.object this).txDelay ≠ 0 → _)
    by_cases set : (run.serials.object this).txDelay ≠ 0
    · have masked := write_masked b set
      rw [and_iff_right (masked.same.owned owned), masked.leaves_iff sound]
      exact (imp_iff_right set).symm
    · have failed : (run.serials.write this b).2 =
          run.serials.setObject this { run.serials.object this with writeError := 1 } := by
        unfold Serials.write
        dsimp only
        rw [if_pos (not_not.mp set)]
      have same : SameOwner run.serials (run.serials.write this b).2 := by
        rw [failed]
        exact setObject_same rfl rfl
      refine iff_of_true ⟨same.owned owned, fun _ _ _ => ?_⟩ fun now => absurd now set
      rw [failed]
      rfl
  | recv line =>
    refine iff_of_true ⟨?_, fun this active => ?_⟩ trivial
    · show (run.serials.handle line).Owned
      cases active : run.serials.activeObject with
      | none =>
        unfold Serials.handle
        rw [active]
        exact owned
      | some this => exact (handle_answers within owned sound active line).1.owned owned
    · obtain ⟨-, -, leaves, overflow⟩ := handle_answers within owned sound active line
      rw [contents] at overflow
      exact ⟨leaves, overflow⟩
  | attach ulPin callback ulMode =>
    exact iff_of_true ⟨attach_owned description owned ulPin callback ulMode, trivial⟩ trivial
  | detach ulPin => exact (and_iff_left trivial).trans (detach_owned_iff owned sound ulPin)

/-- The channels stay sound in such a call. -/
theorem step_sound (description : UInt32 → UInt32) (keeps : run.Keeps) (within : run.serials.Within)
    (sound : Sound run.serials.channels) (call : SerialCall) (meets : run.Meets call) :
    Sound (run.step description call).serials.channels := by
  obtain ⟨owned, -⟩ := keeps
  cases call with
  | begins this bitDelay =>
    exact @listen_sound (run.serials.setDelays this bitDelay) description sound this
  | listen this => exact listen_sound description sound this
  | stopListening this => exact ends_sound sound this
  | ends this => exact ends_sound sound this
  | read this =>
    show Sound (run.serials.read this).2.channels
    unfold Serials.read
    split_ifs <;> exact sound
  | peek this => exact sound
  | available this => exact sound
  | overflow this =>
    show Sound (run.serials.overflow this).2.channels
    unfold Serials.overflow
    dsimp only
    split_ifs <;> exact sound
  | flush this =>
    show Sound (run.serials.flush this).channels
    cases listening : run.serials.isListening this with
    | false =>
      unfold Serials.flush
      rw [listening]
      exact sound
    | true => exact ((flush_masked listening).of_active sound owned (isListening_iff.mp listening)).2
  | write this b =>
    show Sound (run.serials.write this b).2.channels
    by_cases set : (run.serials.object this).txDelay ≠ 0
    · exact (write_masked b set).sound sound (meets set)
    · unfold Serials.write
      dsimp only
      rw [if_pos (not_not.mp set)]
      exact sound
  | recv line =>
    show Sound (run.serials.handle line).channels
    cases active : run.serials.activeObject with
    | none =>
      unfold Serials.handle
      rw [active]
      exact sound
    | some this => exact (handle_answers within owned sound active line).2.1
  | attach ulPin callback ulMode => exact attach_sound description ulMode ulPin (callback + 1) sound
  | detach ulPin => exact detach_sound ulPin sound

/-- A run from the objects that have been constructed. -/
def initial (receivePin : Nat → UInt8) (inverseLogic : Nat → Bool) (uninit : Nat → UInt32) :
    SerialRun :=
  ⟨.initial receivePin inverseLogic uninit, []⟩

theorem initial_keeps (receivePin : Nat → UInt8) (inverseLogic : Nat → Bool) (uninit : Nat → UInt32) :
    (initial receivePin inverseLogic uninit).Keeps ∧
      (initial receivePin inverseLogic uninit).serials.Within := by
  have buffer := cleared_contents fun _ => 0
  have idle : ∀ channel < 8, ¬ Serves Channels.initial channel := fun _ _ serves =>
    Bool.noConfusion serves.1
  exact ⟨⟨(owned_iff_of_none rfl).mpr idle, buffer.2⟩, buffer.1⟩

end SerialRun

/-- **When the objects keep their channels and their bytes apart.** From any objects, over every run
of calls on them, of bytes that arrive, and of other users' calls: in every state the active object
alone owns a channel and the buffer has the bytes that are to be unread, and every call does as it is
to, exactly when every step meets `Meets`. -/
theorem serials_kept_iff (description : UInt32 → UInt32) (receivePin : Nat → UInt8)
    (inverseLogic : Nat → Bool) (uninit : Nat → UInt32) (calls : List SerialCall) :
    Always (SerialRun.step description) SerialRun.Keeps
          (.initial receivePin inverseLogic uninit) calls ∧
        EachStep (SerialRun.step description) (SerialRun.Answers description)
          (.initial receivePin inverseLogic uninit) calls ↔
      EachStep (SerialRun.step description) SerialRun.Meets
        (.initial receivePin inverseLogic uninit) calls := by
  obtain ⟨keeps, within⟩ := SerialRun.initial_keeps receivePin inverseLogic uninit
  -- the indices stay in the buffer in any case, and the channels sound where the condition is met
  refine @always_and_iff_of_invariant _ _ _
    (fun run => run.Keeps ∧ run.serials.Within ∧ Sound run.serials.channels) _ (fun _ _ => True) _ _
    ?_ ?_ _ _ keeps ⟨keeps, within, sound_initial⟩ (eachStep_of_forall (fun _ _ => trivial) _ _)
  · rintro run call ⟨keeps, within, sound⟩ - met
    have meets := (run.step_iff description keeps within sound call).mp met
    exact ⟨met.1, (Serials.call_buffer description within call).1,
      run.step_sound description keeps within sound call meets⟩
  · rintro run call ⟨keeps, within, sound⟩ -
    exact run.step_iff description keeps within sound call

/-- A `write` after `stopListening` switches on the interrupt of a channel nobody has. An object that
starts to listen where all channels are taken has none. And one that stops frees the slot of another
user of its pin. -/
theorem serials_not_kept :
    ¬ EachStep (SerialRun.step id) (SerialRun.Answers id)
      (.initial (fun _ => 5) (fun _ => false) (fun _ => 0))
      [.begins 0 104, .stopListening 0, .write 0 65] ∧
    ¬ Always (SerialRun.step id) SerialRun.Keeps (.initial (fun _ => 5) (fun _ => false) (fun _ => 0))
      (List.replicate 8 (.attach 1 0 3) ++ [.begins 0 104]) ∧
    ¬ Always (SerialRun.step id) SerialRun.Keeps (.initial (fun _ => 5) (fun _ => false) (fun _ => 0))
      [.attach 5 0 3, .begins 0 104, .stopListening 0] := by
  refine ⟨?_, ?_, ?_⟩
  · rintro ⟨-, -, leaves, -⟩
    have kept := leaves 0 (by decide) fun owns => absurd owns.active (by decide +kernel)
    exact absurd kept (by decide +kernel)
  · intro always
    obtain ⟨channel, inside, owns⟩ := always.last.owned.has 0 rfl
    have none : ∀ channel : Fin 8, ¬ Serves (run (SerialRun.step id)
        (.initial (fun _ => 5) (fun _ => false) (fun _ => 0))
        (List.replicate 8 (.attach 1 0 3) ++ [.begins 0 104])).serials.channels channel.val := by
      decide +kernel
    exact none ⟨channel, inside⟩ owns.serves
  · intro always
    obtain ⟨this, owns⟩ := always.last.owned.alone 1 (by decide) (by decide +kernel)
    cases owns.active

end PrimoCore.Bus
