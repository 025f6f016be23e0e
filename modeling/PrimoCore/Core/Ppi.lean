/-
**PPI shortcuts, and the channels of GPIOTE they share with the interrupts.**

A shortcut connects an event to a task through one of twenty channels. Where the event or the task is one
of a pin, a channel of GPIOTE is configured for it. PPI takes these in turn, from the first again after
the eighth; `attachInterrupt` takes the first one that its own table has free.

* `setShortcut` — the code, with the channels of GPIOTE a call configures and the table elements it reads.
* `Board.Designed` — what each call does: it takes the next channels in turn and a fresh channel of PPI,
  or nothing at all.
* `Board.Apart` — no call takes a channel that a live interrupt or a shortcut has.
* `ppi_shares_iff` — **every call of every run is as designed, and the channels are kept apart in a run
  exactly when** pins are attached only before the first shortcut with a pin, and such shortcuts come
  round to no channel that is taken.
-/

import PrimoCore.Core.Interrupts

namespace PrimoCore.Core

open PrimoCore.Lib

/-! ### Events and tasks -/

/-- The first nibble of an event or a task: the peripheral involved. -/
inductive Peripheral where
  | timer
  | gpio
  | comp
  | nfc
  | power
  deriving DecidableEq

/-- `event_type`. -/
inductive EventType where
  | timer
  | pinHigh
  | pinLow
  | pinChange
  | compDown
  | compUp
  | compCross
  | nfcFieldDetected
  | powerWarning

/-- `task_type`. -/
inductive TaskType where
  | timerStart
  | timerStop
  | pinSet
  | pinClear
  | pinToggle
  | nfcStartSense
  | nfcStopSense

namespace EventType

/-- `event & 0xF0`. -/
def peripheral : EventType → Peripheral
  | .timer => .timer
  | .pinHigh | .pinLow | .pinChange => .gpio
  | .compDown | .compUp | .compCross => .comp
  | .nfcFieldDetected => .nfc
  | .powerWarning => .power

/-- `event & 0x0F`. -/
def index : EventType → Nat
  | .timer | .pinHigh | .compDown | .nfcFieldDetected | .powerWarning => 0
  | .pinLow | .compUp => 1
  | .pinChange | .compCross => 2

end EventType

namespace TaskType

/-- `task & 0xF0`. -/
def peripheral : TaskType → Peripheral
  | .timerStart | .timerStop => .timer
  | .pinSet | .pinClear | .pinToggle => .gpio
  | .nfcStartSense | .nfcStopSense => .nfc

/-- `task & 0x0F`. -/
def index : TaskType → Nat
  | .timerStart | .pinSet | .nfcStartSense => 0
  | .timerStop | .pinClear | .nfcStopSense => 1
  | .pinToggle => 2

end TaskType

/-- The `switch` over the index of an event or a task of a pin. -/
def pinPolarity : Nat → Polarity
  | 0 => .loToHi
  | 1 => .hiToLo
  | _ => .toggle

/-- `detect_mode`, and the events of the comparator. -/
inductive DetectMode where
  | down
  | up
  | cross

/-- The `switch` over the index of an event of the comparator. -/
def detectMode : Nat → DetectMode
  | 0 => .down
  | 1 => .up
  | _ => .cross

/-- The event registers a channel of PPI is connected to. -/
inductive EventEnd where
  | timerCompare
  | gpioteIn (channel : Nat)
  | lpcomp (mode : DetectMode)
  | nfcFieldDetected
  | powerWarning

/-- The task registers a channel of PPI is connected to. -/
inductive TaskEnd where
  | timerStart
  | timerStop
  | gpioteOut (channel : Nat)
  | nfcStartSense
  | nfcStopSense

namespace EventEnd

/-- The channel of GPIOTE whose event it is. -/
def gpiote : EventEnd → List Nat
  | .gpioteIn channel => [channel]
  | _ => []

end EventEnd

namespace TaskEnd

/-- The channel of GPIOTE whose task it is. -/
def gpiote : TaskEnd → List Nat
  | .gpioteOut channel => [channel]
  | _ => []

end TaskEnd

/-! ### The board -/

/-- The file-scope variables of PPI, and the registers of its channels: `none` for one that is not
enabled. -/
structure Ppi where
  firstFreeChannel : Nat
  gpioteConfigIndex : Nat
  eventIndex : Nat
  taskIndex : Nat
  outputPin : UInt32
  inputPin : UInt32
  shortcut : Nat → Option (EventEnd × TaskEnd)

/-- What `CONFIG` has for a channel with a task: whether it is in task mode, and the initial value of
its pin. -/
structure TaskConfig where
  task : Bool
  outInit : Bool

/-- The two users of GPIOTE. -/
structure Board where
  channels : Channels
  tasks : Nat → TaskConfig
  ppi : Ppi

/-- An element of a table that is read. -/
inductive TableRead where
  | channels (i : Nat)
  | gpioTaskNo (i : Nat)
  | gpioEventNo (i : Nat)
  | analogPin (i : UInt32)

/-- The element is in its table. -/
def TableRead.InRange : TableRead → Prop
  | .channels i => i < 20
  | .gpioTaskNo i => i < 8
  | .gpioEventNo i => i < 8
  | .analogPin i => i.toNat < 6

/-- A call of `setShortcut` as it runs: the channels of GPIOTE it has configured, and what it has read. -/
structure Call where
  board : Board
  configured : List Nat
  reads : List TableRead

namespace Gpiote

/-- `nrf_gpiote_event_configure`, `nrf_gpiote_task_configure`: the mode stays. -/
def configure (gpiote : Gpiote) (channel : Nat) (pin : UInt32) (mode : Polarity) : Gpiote :=
  { gpiote with
    config := Function.update gpiote.config channel
      { gpiote.config channel with pin := pin, polarity := mode } }

/-- `nrf_gpiote_event_enable`, and the event bit that `nrf_gpiote_task_enable` sets too. -/
def eventEnable (gpiote : Gpiote) (channel : Nat) : Gpiote :=
  { gpiote with
    config := Function.update gpiote.config channel { gpiote.config channel with event := true } }

/-- `attachInterrupt` makes the same two calls. -/
theorem eventConfigure_eq (gpiote : Gpiote) (channel : Nat) (pin : UInt32) (mode : Polarity) :
    gpiote.eventConfigure channel pin mode =
      (gpiote.configure channel pin mode).eventEnable channel := by
  unfold eventConfigure configure eventEnable
  dsimp only
  rw [Function.update_idem, Function.update_self]

end Gpiote

/-- The next channel of GPIOTE in turn: after the eighth, the first again. -/
def nextInTurn (gpioteConfigIndex : Nat) : Nat :=
  if gpioteConfigIndex = 8 then 0 else gpioteConfigIndex

namespace Board

/-- New registers of GPIOTE. -/
def withGpiote (board : Board) (gpiote : Gpiote) : Board :=
  { board with channels := { board.channels with gpiote := gpiote } }

end Board

namespace Call

variable (description : UInt32 → UInt32)

/-- `configureGPIOEvent`. `description` is `g_APinDescription`, with the pins of the chip. -/
def configureGPIOEvent (call : Call) (event : EventType) : Call :=
  let ppi := call.board.ppi
  let index := nextInTurn ppi.gpioteConfigIndex
  { call with
    board :=
      { call.board.withGpiote (call.board.channels.gpiote.configure index (description ppi.inputPin)
          (pinPolarity event.index)) with
        ppi := { ppi with eventIndex := index, gpioteConfigIndex := index + 1 } }
    configured := call.configured ++ [index] }

/-- `configureCompEvent`. No pin is both below 14 and above 19. -/
def configureCompEvent (call : Call) : Call :=
  let inputPin := call.board.ppi.inputPin
  if inputPin < 14 ∧ inputPin > 19 then call
  else { call with reads := call.reads ++ [.analogPin (inputPin - 14)] }

/-- `configureGPIOTask`. -/
def configureGPIOTask (call : Call) (task : TaskType) : Call :=
  let ppi := call.board.ppi
  let index := nextInTurn ppi.gpioteConfigIndex
  { call with
    board :=
      { call.board.withGpiote ((call.board.channels.gpiote.configure index
          (description ppi.outputPin) (pinPolarity task.index)).eventEnable index) with
        tasks := Function.update call.board.tasks index ⟨true, task.index = 1⟩
        ppi := { ppi with taskIndex := index, gpioteConfigIndex := index + 1 } }
    configured := call.configured ++ [index] }

/-- The tables an end is looked up in. -/
def lookedUp (event : EventEnd) (task : TaskEnd) : List TableRead :=
  event.gpiote.map .gpioEventNo ++ task.gpiote.map .gpioTaskNo

/-- `nrf_ppi_channel_endpoint_setup`, `nrf_ppi_channel_enable`. -/
def connect (call : Call) (event : EventEnd) (task : TaskEnd) : Call :=
  let ppi := call.board.ppi
  { call with
    board :=
      { call.board with
        ppi :=
          { ppi with
            shortcut := Function.update ppi.shortcut ppi.firstFreeChannel (some (event, task)) } }
    reads := call.reads ++ .channels ppi.firstFreeChannel :: lookedUp event task }

/-- The inner `switch`, for an event whose `switch` has the cases of the timer and of NFC or not. `none`
where the task is not recognised. -/
def switchTask (call : Call) (event : EventEnd) (task : TaskType) (timer nfc : Bool) : Option Call :=
  match task.peripheral with
  | .timer =>
      if timer then
        some (call.connect event (if task.index = 0 then .timerStart else .timerStop))
      else none
  | .gpio =>
      let call := call.configureGPIOTask description task
      some (call.connect event (.gpioteOut call.board.ppi.taskIndex))
  | .nfc =>
      if nfc then
        some (call.connect event (if task.index = 0 then .nfcStartSense else .nfcStopSense))
      else none
  | _ => none

/-- `nrf_gpiote_event_enable(event_index)`. -/
def enableSensing (call : Call) : Call :=
  { call with
    board := call.board.withGpiote
      (call.board.channels.gpiote.eventEnable call.board.ppi.eventIndex) }

/-- The end of `setShortcut`: a task that is not recognised, or one channel more. -/
def finish (call : Call) : Option Call → Call × Nat
  | none => (call, 0)
  | some connected =>
      let ppi := connected.board.ppi
      ({ connected with
          board :=
            { connected.board with ppi := { ppi with firstFreeChannel := ppi.firstFreeChannel + 1 } } },
        1)

end Call

namespace Board

variable (description : UInt32 → UInt32)

/-- `setShortcut`. -/
def setShortcut (board : Board) (event : EventType) (task : TaskType) : Call × Nat :=
  let call : Call := ⟨board, [], []⟩
  if board.ppi.firstFreeChannel = 20 then (call, 0)
  else
    match event.peripheral with
    | .timer => call.finish (call.switchTask description .timerCompare task false true)
    | .gpio =>
        let call := call.configureGPIOEvent description event
        call.finish ((call.switchTask description (.gpioteIn call.board.ppi.eventIndex) task true
          true).map Call.enableSensing)
    | .comp =>
        let call := call.configureCompEvent
        call.finish (call.switchTask description (.lpcomp (detectMode event.index)) task true true)
    | .nfc => call.finish (call.switchTask description .nfcFieldDetected task true false)
    | .power => call.finish (call.switchTask description .powerWarning task true true)

/-- What the C runtime leaves: `A0` and `LED_BUILTIN` are those of the board. -/
def initial (a0 ledBuiltin : UInt32) : Board where
  channels := .initial
  tasks := fun _ => ⟨false, false⟩
  ppi := ⟨0, 0, 0, 0, ledBuiltin, a0, fun _ => none⟩

end Board

/-! ### The channels a call takes -/

/-- The channels of GPIOTE a shortcut takes for a peripheral: one for a pin. -/
def Peripheral.pins (peripheral : Peripheral) : Nat :=
  if peripheral = .gpio then 1 else 0

/-- The switches recognise a task with an event unless both are of the timer, or both of NFC. -/
def Recognised (event : EventType) (task : TaskType) : Prop :=
  event.peripheral = task.peripheral → event.peripheral = .gpio

/-- `gpiote_config_index` after some more channels. -/
def turned (gpioteConfigIndex : Nat) : Nat → Nat
  | 0 => gpioteConfigIndex
  | n + 1 => nextInTurn (turned gpioteConfigIndex n) + 1

/-- The next channels in turn. -/
def inTurn (gpioteConfigIndex n : Nat) : List Nat :=
  (List.range n).map fun k => (gpioteConfigIndex + k) % 8

variable {gpioteConfigIndex n : Nat}

theorem nextInTurn_eq (inside : gpioteConfigIndex ≤ 8) :
    nextInTurn gpioteConfigIndex = gpioteConfigIndex % 8 := by
  unfold nextInTurn
  split_ifs with last
  · rw [last]
  · exact (Nat.mod_eq_of_lt (Nat.lt_of_le_of_ne inside last)).symm

theorem nextInTurn_lt (inside : gpioteConfigIndex ≤ 8) : nextInTurn gpioteConfigIndex < 8 := by
  rw [nextInTurn_eq inside]
  exact Nat.mod_lt _ (by decide)

theorem turned_le (inside : gpioteConfigIndex ≤ 8) (n : Nat) : turned gpioteConfigIndex n ≤ 8 := by
  induction n with
  | zero => exact inside
  | succ n ih => exact nextInTurn_lt ih

theorem nextInTurn_turned (inside : gpioteConfigIndex ≤ 8) (n : Nat) :
    nextInTurn (turned gpioteConfigIndex n) = (gpioteConfigIndex + n) % 8 := by
  rw [nextInTurn_eq (turned_le inside n)]
  induction n with
  | zero => rfl
  | succ n ih =>
    rw [turned, nextInTurn_eq (turned_le inside n), ih]
    omega

/-- Up to the eighth channel the index counts the channels. -/
theorem turned_eq (room : gpioteConfigIndex + n ≤ 8) :
    turned gpioteConfigIndex n = gpioteConfigIndex + n := by
  induction n with
  | zero => rfl
  | succ n ih =>
    rw [turned, ih (by omega), nextInTurn, if_neg (by omega)]
    rfl

theorem inTurn_succ (inside : gpioteConfigIndex ≤ 8) (n : Nat) :
    inTurn gpioteConfigIndex (n + 1) =
      inTurn gpioteConfigIndex n ++ [nextInTurn (turned gpioteConfigIndex n)] := by
  rw [nextInTurn_turned inside, inTurn, List.range_succ, List.map_append]
  rfl

theorem mem_inTurn_lt {channel : Nat} (member : channel ∈ inTurn gpioteConfigIndex n) :
    channel < 8 := by
  obtain ⟨k, _, rfl⟩ := List.mem_map.mp member
  exact Nat.mod_lt _ (by decide)

/-- Up to the eighth channel, the next ones are the ones from the index on. -/
theorem mem_inTurn_iff (room : gpioteConfigIndex + n ≤ 8) {channel : Nat} :
    channel ∈ inTurn gpioteConfigIndex n ↔
      gpioteConfigIndex ≤ channel ∧ channel < gpioteConfigIndex + n := by
  unfold inTurn
  rw [List.mem_map]
  constructor
  · rintro ⟨k, member, rfl⟩
    rw [List.mem_range] at member
    omega
  · rintro ⟨low, high⟩
    exact ⟨channel - gpioteConfigIndex, List.mem_range.mpr (by omega), by omega⟩

/-- Past the eighth channel, the first is among the next ones. -/
theorem zero_mem_inTurn (inside : gpioteConfigIndex ≤ 8) (past : 8 < gpioteConfigIndex + n) :
    0 ∈ inTurn gpioteConfigIndex n :=
  List.mem_map.mpr ⟨8 - gpioteConfigIndex, List.mem_range.mpr (by omega), by omega⟩

/-- Eight channels in turn are distinct. -/
theorem inTurn_nodup (few : n ≤ 8) : (inTurn gpioteConfigIndex n).Nodup := by
  refine List.Nodup.map_on (fun k member other otherMember same => ?_) List.nodup_range
  rw [List.mem_range] at member otherMember
  omega

/-! ### One call -/

namespace Call

/-- **A call that has come so far**: it has configured the next `n` channels in turn and no other, and
left the rest of the books alone. -/
structure Reached (board : Board) (n : Nat) (call : Call) : Prop where
  configured : call.configured = inTurn board.ppi.gpioteConfigIndex n
  index : call.board.ppi.gpioteConfigIndex = turned board.ppi.gpioteConfigIndex n
  firstFree : call.board.ppi.firstFreeChannel = board.ppi.firstFreeChannel
  shortcut : call.board.ppi.shortcut = board.ppi.shortcut
  inputPin : call.board.ppi.inputPin = board.ppi.inputPin
  free : call.board.channels.freeChannels = board.channels.freeChannels
  others : ∀ channel, channel ∉ call.configured →
    call.board.channels.gpiote.config channel = board.channels.gpiote.config channel ∧
      call.board.tasks channel = board.tasks channel
  reads : ∀ read ∈ call.reads, read = .analogPin (board.ppi.inputPin - 14)

theorem reached_start (board : Board) : Reached board 0 ⟨board, [], []⟩ where
  configured := rfl
  index := rfl
  firstFree := rfl
  shortcut := rfl
  inputPin := rfl
  free := rfl
  others := fun _ _ => ⟨rfl, rfl⟩
  reads := fun _ member => absurd member List.not_mem_nil

namespace Reached

variable (description : UInt32 → UInt32) {board : Board} {n : Nat} {call : Call}
  (reached : Reached board n call)

include reached

/-- A call that configures one channel more. -/
theorem one_more (inside : board.ppi.gpioteConfigIndex ≤ 8) {next : Call}
    (configured : next.configured =
      call.configured ++ [nextInTurn call.board.ppi.gpioteConfigIndex])
    (index : next.board.ppi.gpioteConfigIndex = nextInTurn call.board.ppi.gpioteConfigIndex + 1)
    (firstFree : next.board.ppi.firstFreeChannel = call.board.ppi.firstFreeChannel)
    (shortcut : next.board.ppi.shortcut = call.board.ppi.shortcut)
    (inputPin : next.board.ppi.inputPin = call.board.ppi.inputPin)
    (free : next.board.channels.freeChannels = call.board.channels.freeChannels)
    (others : ∀ channel, channel ≠ nextInTurn call.board.ppi.gpioteConfigIndex →
      next.board.channels.gpiote.config channel = call.board.channels.gpiote.config channel ∧
        next.board.tasks channel = call.board.tasks channel)
    (reads : next.reads = call.reads) : Reached board (n + 1) next where
  configured := by
    rw [configured, reached.configured, reached.index, ← inTurn_succ inside]
  index := by
    rw [index, reached.index]
    rfl
  firstFree := firstFree.trans reached.firstFree
  shortcut := shortcut.trans reached.shortcut
  inputPin := inputPin.trans reached.inputPin
  free := free.trans reached.free
  others := by
    intro channel apart
    rw [configured, List.mem_append, List.mem_singleton, not_or] at apart
    obtain ⟨config, tasks⟩ := reached.others channel apart.1
    obtain ⟨nextConfig, nextTasks⟩ := others channel apart.2
    exact ⟨nextConfig.trans config, nextTasks.trans tasks⟩
  reads := by
    rw [reads]
    exact reached.reads

theorem configureGPIOEvent (inside : board.ppi.gpioteConfigIndex ≤ 8) (event : EventType) :
    Reached board (n + 1) (call.configureGPIOEvent description event) :=
  reached.one_more inside rfl rfl rfl rfl rfl rfl
    (fun _ apart => ⟨Function.update_of_ne apart .., rfl⟩) rfl

theorem configureGPIOTask (inside : board.ppi.gpioteConfigIndex ≤ 8) (task : TaskType) :
    Reached board (n + 1) (call.configureGPIOTask description task) := by
  refine reached.one_more inside rfl rfl rfl rfl rfl rfl (fun channel apart => ⟨?_, ?_⟩) rfl
  · exact (Function.update_of_ne apart ..).trans (Function.update_of_ne apart ..)
  · exact Function.update_of_ne apart ..

theorem configureCompEvent : Reached board n call.configureCompEvent := by
  unfold Call.configureCompEvent
  dsimp only
  split_ifs
  · exact reached
  · obtain ⟨configured, index, firstFree, shortcut, inputPin, free, others, reads⟩ := reached
    refine ⟨configured, index, firstFree, shortcut, inputPin, free, others, fun read member => ?_⟩
    rcases List.mem_append.mp member with before | this
    · exact reads read before
    · rw [List.mem_singleton.mp this, inputPin]

/-- A channel that has been configured may be enabled. -/
theorem enableSensing (member : call.board.ppi.eventIndex ∈ call.configured) :
    Reached board n call.enableSensing := by
  obtain ⟨configured, index, firstFree, shortcut, inputPin, free, others, reads⟩ := reached
  refine ⟨configured, index, firstFree, shortcut, inputPin, free, fun channel apart => ?_, reads⟩
  have elsewhere : channel ≠ call.board.ppi.eventIndex := by
    rintro rfl
    exact apart member
  obtain ⟨config, tasks⟩ := others channel apart
  exact ⟨(Function.update_of_ne elsewhere ..).trans config, tasks⟩

end Reached

section Switch

variable (description : UInt32 → UInt32) {board : Board} {n : Nat} {call : Call} (event : EventEnd)
  (task : TaskType) (timer nfc : Bool)

/-- The inner `switch` reaches the connection of a task that is recognised, with a channel of GPIOTE for
a pin. -/
theorem switchTask_some (reached : Reached board n call) (inside : board.ppi.gpioteConfigIndex ≤ 8)
    (configured : call.configured = event.gpiote)
    (timers : task.peripheral = .timer → timer = true) (nfcs : task.peripheral = .nfc → nfc = true) :
    ∃ next taskEnd, call.switchTask description event task timer nfc =
        some (next.connect event taskEnd) ∧
      Reached board (n + task.peripheral.pins) next ∧
      next.configured = event.gpiote ++ taskEnd.gpiote ∧
      next.board.ppi.eventIndex = call.board.ppi.eventIndex := by
  cases kind : task.peripheral with
  | timer =>
    refine ⟨call, if task.index = 0 then .timerStart else .timerStop, ?_, reached, ?_, rfl⟩
    · simp only [switchTask, kind, timers kind, if_true]
    · rw [configured]
      split_ifs <;> exact (List.append_nil _).symm
  | gpio =>
    refine ⟨call.configureGPIOTask description task,
      .gpioteOut (nextInTurn call.board.ppi.gpioteConfigIndex), ?_,
      reached.configureGPIOTask description inside task, ?_, rfl⟩
    · simp only [switchTask, kind]
      rfl
    · rw [← configured]
      rfl
  | nfc =>
    refine ⟨call, if task.index = 0 then .nfcStartSense else .nfcStopSense, ?_, reached, ?_, rfl⟩
    · simp only [switchTask, kind, nfcs kind, if_true]
    · rw [configured]
      split_ifs <;> exact (List.append_nil _).symm
  | comp => cases task <;> cases kind
  | power => cases task <;> cases kind

/-- It recognises no task of the timer, or none of NFC, where the event has no case for it. -/
theorem switchTask_none (refused : task.peripheral = .timer ∧ timer = false ∨
    task.peripheral = .nfc ∧ nfc = false) :
    call.switchTask description event task timer nfc = none := by
  rcases refused with ⟨kind, none⟩ | ⟨kind, none⟩ <;> simp only [switchTask, kind, none] <;> rfl

end Switch

end Call

namespace Board

variable (description : UInt32 → UInt32) {board : Board} {event : EventType} {task : TaskType}

/-- A call is refused without a change where no channel of PPI is left or the task is not recognised. -/
theorem setShortcut_refused
    (refused : board.ppi.firstFreeChannel = 20 ∨ ¬ Recognised event task) :
    board.setShortcut description event task = (⟨board, [], []⟩, 0) := by
  by_cases full : board.ppi.firstFreeChannel = 20
  · exact if_pos full
  · obtain ⟨same, notPin⟩ := Classical.not_imp.mp (refused.resolve_left full)
    unfold setShortcut
    dsimp only
    rw [if_neg full]
    cases kind : event.peripheral with
    | timer =>
      rw [kind] at same
      dsimp only
      rw [Call.switchTask_none description _ _ _ _ (.inl ⟨same.symm, rfl⟩)]
      rfl
    | gpio => exact absurd kind notPin
    | nfc =>
      rw [kind] at same
      dsimp only
      rw [Call.switchTask_none description _ _ _ _ (.inr ⟨same.symm, rfl⟩)]
      rfl
    | comp =>
      rw [kind] at same
      cases task <;> cases same
    | power =>
      rw [kind] at same
      cases task <;> cases same

/-- Any other call reaches the connection of a shortcut, whose sides are the channels it has
configured. -/
theorem setShortcut_connects (inside : board.ppi.gpioteConfigIndex ≤ 8)
    (room : board.ppi.firstFreeChannel ≠ 20) (recognised : Recognised event task) :
    ∃ (next : Call) (eventEnd : EventEnd) (taskEnd : TaskEnd),
      board.setShortcut description event task =
        Call.finish ⟨board, [], []⟩ (some (next.connect eventEnd taskEnd)) ∧
      Call.Reached board (event.peripheral.pins + task.peripheral.pins) next ∧
      next.configured = eventEnd.gpiote ++ taskEnd.gpiote := by
  have start := Call.reached_start board
  have same : ∀ peripheral, event.peripheral = peripheral → peripheral ≠ .gpio →
      task.peripheral ≠ peripheral := by
    rintro _ rfl notPin same
    exact notPin (recognised same.symm)
  unfold setShortcut
  dsimp only
  rw [if_neg room]
  cases kind : event.peripheral with
  | timer =>
    obtain ⟨next, taskEnd, done, reached, configured, _⟩ := Call.switchTask_some description
      .timerCompare task false true start inside rfl (fun this => absurd this (same _ kind (by decide))) (fun _ => rfl)
    exact ⟨next, _, taskEnd, by dsimp only; rw [done], reached, configured⟩
  | gpio =>
    obtain ⟨next, taskEnd, done, reached, configured, index⟩ := Call.switchTask_some description
      (.gpioteIn (nextInTurn board.ppi.gpioteConfigIndex)) task true true
      (start.configureGPIOEvent description inside event) inside rfl (fun _ => rfl) (fun _ => rfl)
    have member : next.board.ppi.eventIndex ∈ next.configured := by
      rw [configured, index]
      exact List.mem_append_left _ (List.mem_singleton_self _)
    refine ⟨next.enableSensing, _, taskEnd, ?_, reached.enableSensing member, configured⟩
    refine (congrArg (fun this => Call.finish _ (this.map Call.enableSensing)) done).trans ?_
    rfl
  | comp =>
    obtain ⟨next, taskEnd, done, reached, configured, _⟩ := Call.switchTask_some description
      (.lpcomp (detectMode event.index)) task true true start.configureCompEvent inside
      (by unfold Call.configureCompEvent; dsimp only; split_ifs <;> rfl) (fun _ => rfl) (fun _ => rfl)
    exact ⟨next, _, taskEnd, by dsimp only; rw [done]; rfl, reached, configured⟩
  | nfc =>
    obtain ⟨next, taskEnd, done, reached, configured, _⟩ := Call.switchTask_some description
      .nfcFieldDetected task true false start inside rfl (fun _ => rfl)
      (fun this => absurd this (same _ kind (by decide)))
    exact ⟨next, _, taskEnd, by dsimp only; rw [done], reached, configured⟩
  | power =>
    obtain ⟨next, taskEnd, done, reached, configured, _⟩ := Call.switchTask_some description
      .powerWarning task true true start inside rfl (fun _ => rfl) (fun _ => rfl)
    exact ⟨next, _, taskEnd, by dsimp only; rw [done], reached, configured⟩

end Board

/-! ### Runs -/

/-- A shortcut has the channel of GPIOTE. -/
def Ppi.Uses (ppi : Ppi) (channel : Nat) : Prop :=
  ∃ i ends, ppi.shortcut i = some ends ∧ channel ∈ ends.1.gpiote ++ ends.2.gpiote

/-- A call of the program. -/
inductive BoardInput where
  | attachInterrupt (ulPin : UInt32) (callback : Nat) (ulMode : UInt32)
  | detachInterrupt (ulPin : UInt32)
  | setInputPin (pin : UInt32)
  | setOutputPin (pin : UInt32)
  | setShortcut (event : EventType) (task : TaskType)

namespace Board

variable (description : UInt32 → UInt32)

/-- One call. -/
def step (board : Board) : BoardInput → Board
  | .attachInterrupt ulPin callback ulMode =>
      { board with
        channels := (board.channels.attachInterrupt description ulPin callback ulMode).1 }
  | .detachInterrupt ulPin => { board with channels := board.channels.detachInterrupt ulPin }
  | .setInputPin pin => { board with ppi := { board.ppi with inputPin := pin } }
  | .setOutputPin pin => { board with ppi := { board.ppi with outputPin := pin } }
  | .setShortcut event task => (board.setShortcut description event task).1.board

/-- **A call of `setShortcut` that returns 1**: it takes the next channels of GPIOTE in turn, one for each
pin, changes the registers of no other, and connects them through a channel of PPI that has no shortcut. -/
structure Grants (board : Board) (event : EventType) (task : TaskType) (call : Call) : Prop where
  room : board.ppi.firstFreeChannel < 20
  fresh : board.ppi.shortcut board.ppi.firstFreeChannel = none
  firstFree : call.board.ppi.firstFreeChannel = board.ppi.firstFreeChannel + 1
  configured : call.configured =
    inTurn board.ppi.gpioteConfigIndex (event.peripheral.pins + task.peripheral.pins)
  distinct : call.configured.Nodup
  index : call.board.ppi.gpioteConfigIndex =
    turned board.ppi.gpioteConfigIndex (event.peripheral.pins + task.peripheral.pins)
  connected : ∃ ends : EventEnd × TaskEnd, ends.1.gpiote ++ ends.2.gpiote = call.configured ∧
    call.board.ppi.shortcut =
      Function.update board.ppi.shortcut board.ppi.firstFreeChannel (some ends)
  free : call.board.channels.freeChannels = board.channels.freeChannels
  others : ∀ channel, channel ∉ call.configured →
    call.board.channels.gpiote.config channel = board.channels.gpiote.config channel ∧
      call.board.tasks channel = board.tasks channel

/-- **What each call does.** `attachInterrupt` hands out the first channel that is not busy. `setShortcut`
returns 0 and takes nothing, or returns 1 and takes what it is to take, whatever `attachInterrupt` has
handed out; the elements it reads are in their tables, those of `analog_pin` for an analog pin. -/
def Designed (board : Board) : BoardInput → Prop
  | .attachInterrupt ulPin callback ulMode =>
      let result := (board.channels.attachInterrupt description ulPin callback ulMode).2
      (∀ channel, result = some channel → channel < 8 ∧ ¬ board.channels.Busy channel ∧
        ∀ before < channel, board.channels.Busy before) ∧
      (result = none → ∀ channel < 8, board.channels.Busy channel)
  | .setShortcut event task =>
      let outcome := board.setShortcut description event task
      (outcome.2 = 0 ∧ outcome.1 = ⟨board, [], []⟩ ∨
        outcome.2 = 1 ∧ board.Grants event task outcome.1) ∧
      ∀ read ∈ outcome.1.reads, (∀ i, read = .analogPin i →
        14 ≤ board.ppi.inputPin ∧ board.ppi.inputPin ≤ 19) → read.InRange
  | _ => True

/-- **What is to hold of each call**: no channel of a live interrupt is configured by PPI, and no channel
of a shortcut is handed out or configured. -/
def Apart (board : Board) : BoardInput → Prop
  | .attachInterrupt ulPin callback ulMode => ∀ channel,
      (board.channels.attachInterrupt description ulPin callback ulMode).2 = some channel →
        ¬ board.ppi.Uses channel
  | .setShortcut event task => ∀ channel ∈ (board.setShortcut description event task).1.configured,
      ¬ board.channels.Busy channel ∧ ¬ board.ppi.Uses channel
  | _ => True

/-- **The condition on a call.** A pin is attached before PPI has taken a channel of GPIOTE; a shortcut
that is recognised, as long as a channel of PPI is left, finds its next channels not busy and before the
end. -/
def KeepsApart (board : Board) : BoardInput → Prop
  | .attachInterrupt _ _ _ => board.ppi.gpioteConfigIndex = 0
  | .setShortcut event task => board.ppi.firstFreeChannel ≠ 20 → Recognised event task →
      board.ppi.gpioteConfigIndex + (event.peripheral.pins + task.peripheral.pins) ≤ 8 ∧
      ∀ channel, board.ppi.gpioteConfigIndex ≤ channel →
        channel < board.ppi.gpioteConfigIndex + (event.peripheral.pins + task.peripheral.pins) →
        ¬ board.channels.Busy channel
  | _ => True

/-- What holds in every state: the indices are in bounds, and the channels of PPI from the first free one
on have no shortcut. -/
structure Counted (board : Board) : Prop where
  index : board.ppi.gpioteConfigIndex ≤ 8
  firstFree : board.ppi.firstFreeChannel ≤ 20
  unused : ∀ i, board.ppi.firstFreeChannel ≤ i → board.ppi.shortcut i = none

/-- What else holds in every state of a run that keeps the channels apart: the shortcuts have the channels
of GPIOTE before the index, and no interrupt has one of these. -/
structure Separate (board : Board) : Prop extends board.Counted where
  uses : ∀ channel, board.ppi.Uses channel ↔ channel < board.ppi.gpioteConfigIndex
  idle : ∀ channel < board.ppi.gpioteConfigIndex, ¬ board.channels.Busy channel

/-! ### `attachInterrupt` and `detachInterrupt` -/

section Interrupts

variable (channels : Channels) (ulPin : UInt32) (callback : Nat) (ulMode : UInt32)

theorem attach_result : (channels.attachInterrupt description ulPin callback ulMode).2 =
    if channels.freeChannel < 8 then some channels.freeChannel else none := by
  split_ifs with room
  · rw [@ChannelState.attach_room ⟨channels, fun _ => none⟩ description ulPin callback ulMode room]
  · have full : channels.freeChannel = numberOfGpioTe :=
      Nat.le_antisymm findSlot_le (Nat.le_of_not_lt room)
    rw [@ChannelState.attach_full ⟨channels, fun _ => none⟩ description ulPin callback ulMode full]

/-- Where the first channel is not busy, it is the one that is handed out. -/
theorem freeChannel_zero (idle : ¬ channels.Busy 0) : channels.freeChannel = 0 :=
  Nat.eq_zero_of_not_pos fun before => idle (Channels.freeChannel_first before)

/-- No channel becomes busy when a pin is detached. -/
theorem detach_busy {channel : Nat} (busy : (channels.detachInterrupt ulPin).Busy channel) :
    channels.Busy channel := by
  unfold Channels.detachInterrupt at busy
  dsimp only at busy
  split_ifs at busy
  · exact busy
  · unfold Channels.Busy at busy
    dsimp only at busy
    by_cases here : channel = channels.slotOf ulPin
    · rw [here, Function.update_self] at busy
      cases busy
    · rwa [Function.update_of_ne here] at busy

end Interrupts

/-! ### `setShortcut` -/

section Shortcut

variable {board : Board} {event : EventType} {task : TaskType}

/-- A shortcut has two sides. -/
theorem pins_le (event task : Peripheral) : event.pins + task.pins ≤ 2 := by
  unfold Peripheral.pins
  split_ifs <;> decide

/-- **A call is granted** where a channel of PPI is left and the task is recognised. -/
theorem setShortcut_grants (counted : board.Counted) (room : board.ppi.firstFreeChannel ≠ 20)
    (recognised : Recognised event task) :
    (board.setShortcut description event task).2 = 1 ∧
      board.Grants event task (board.setShortcut description event task).1 := by
  obtain ⟨next, eventEnd, taskEnd, done, reached, ends⟩ :=
    setShortcut_connects description counted.index room recognised
  have few : event.peripheral.pins + task.peripheral.pins ≤ 8 :=
    Nat.le_trans (pins_le ..) (by decide)
  rw [done]
  refine ⟨rfl, ?_⟩
  constructor
  · exact Nat.lt_of_le_of_ne counted.firstFree room
  · exact counted.unused _ (Nat.le_refl _)
  · exact congrArg (· + 1) reached.firstFree
  · exact reached.configured
  · show next.configured.Nodup
    rw [reached.configured]
    exact inTurn_nodup few
  · exact reached.index
  · refine ⟨(eventEnd, taskEnd), ends.symm, ?_⟩
    show Function.update next.board.ppi.shortcut next.board.ppi.firstFreeChannel _ = _
    rw [reached.shortcut, reached.firstFree]
  · exact reached.free
  · exact reached.others

/-- **A call of `setShortcut`** is refused or granted. -/
theorem setShortcut_cases (counted : board.Counted) (event : EventType) (task : TaskType) :
    (board.ppi.firstFreeChannel = 20 ∨ ¬ Recognised event task) ∧
        board.setShortcut description event task = (⟨board, [], []⟩, 0) ∨
      (board.ppi.firstFreeChannel ≠ 20 ∧ Recognised event task) ∧
        (board.setShortcut description event task).2 = 1 ∧
        board.Grants event task (board.setShortcut description event task).1 := by
  by_cases refused : board.ppi.firstFreeChannel = 20 ∨ ¬ Recognised event task
  · exact .inl ⟨refused, setShortcut_refused description refused⟩
  · rw [not_or, not_not] at refused
    exact .inr ⟨refused, setShortcut_grants description counted refused.1 refused.2⟩

/-- The channels of the shortcuts after a call that is granted. -/
theorem Grants.uses_iff {call : Call} (grants : board.Grants event task call) (channel : Nat) :
    call.board.ppi.Uses channel ↔ board.ppi.Uses channel ∨ channel ∈ call.configured := by
  obtain ⟨ends, same, shortcut⟩ := grants.connected
  unfold Ppi.Uses
  rw [shortcut]
  constructor
  · rintro ⟨i, others, there, member⟩
    by_cases here : i = board.ppi.firstFreeChannel
    · rw [here, Function.update_self] at there
      obtain rfl := Option.some.inj there
      exact .inr (same ▸ member)
    · rw [Function.update_of_ne here] at there
      exact .inl ⟨i, others, there, member⟩
  · rintro (⟨i, others, there, member⟩ | member)
    · have apart : i ≠ board.ppi.firstFreeChannel := by
        rintro rfl
        rw [grants.fresh] at there
        cases there
      exact ⟨i, others, by rw [Function.update_of_ne apart]; exact there, member⟩
    · exact ⟨_, ends, Function.update_self .., same.symm ▸ member⟩

theorem Grants.counted {call : Call} (grants : board.Grants event task call)
    (counted : board.Counted) : call.board.Counted := by
  obtain ⟨ends, _, shortcut⟩ := grants.connected
  constructor
  · rw [grants.index]
    exact turned_le counted.index _
  · rw [grants.firstFree]
    exact grants.room
  · intro i behind
    rw [grants.firstFree] at behind
    rw [shortcut, Function.update_of_ne (by omega)]
    exact counted.unused i (by omega)

/-- The elements that a call reads. -/
theorem setShortcut_reads (counted : board.Counted) :
    ∀ read ∈ (board.setShortcut description event task).1.reads, (∀ i, read = .analogPin i →
      14 ≤ board.ppi.inputPin ∧ board.ppi.inputPin ≤ 19) → read.InRange := by
  by_cases refused : board.ppi.firstFreeChannel = 20 ∨ ¬ Recognised event task
  · rw [setShortcut_refused description refused]
    exact fun _ member => absurd member List.not_mem_nil
  · rw [not_or, not_not] at refused
    obtain ⟨next, eventEnd, taskEnd, done, reached, ends⟩ :=
      setShortcut_connects description counted.index refused.1 refused.2
    have inside : ∀ channel ∈ eventEnd.gpiote ++ taskEnd.gpiote, channel < 8 := by
      intro channel member
      rw [← ends, reached.configured] at member
      exact mem_inTurn_lt member
    rw [done]
    intro read member analog
    rcases List.mem_append.mp member with before | member
    · obtain rfl := reached.reads read before
      obtain ⟨low, high⟩ := analog _ rfl
      have distance : (board.ppi.inputPin - 14).toNat = board.ppi.inputPin.toNat - 14 :=
        UInt32.toNat_sub_of_le _ _ low
      have bound : board.ppi.inputPin.toNat ≤ 19 := UInt32.le_iff_toNat_le.mp high
      show (board.ppi.inputPin - 14).toNat < 6
      omega
    · rcases List.mem_cons.mp member with rfl | member
      · show next.board.ppi.firstFreeChannel < 20
        rw [reached.firstFree]
        exact Nat.lt_of_le_of_ne counted.firstFree refused.1
      · rcases List.mem_append.mp member with looked | looked <;>
          obtain ⟨channel, side, rfl⟩ := List.mem_map.mp looked
        · exact inside channel (List.mem_append_left _ side)
        · exact inside channel (List.mem_append_right _ side)

end Shortcut

/-! ### One step -/

variable {board : Board}

/-- **One call** leaves the indices in bounds. -/
theorem step_counted (input : BoardInput) (counted : board.Counted) :
    (board.step description input).Counted := by
  cases input with
  | attachInterrupt ulPin callback ulMode => exact ⟨counted.index, counted.firstFree, counted.unused⟩
  | detachInterrupt ulPin => exact ⟨counted.index, counted.firstFree, counted.unused⟩
  | setInputPin pin => exact ⟨counted.index, counted.firstFree, counted.unused⟩
  | setOutputPin pin => exact ⟨counted.index, counted.firstFree, counted.unused⟩
  | setShortcut event task =>
    show (board.setShortcut description event task).1.board.Counted
    rcases setShortcut_cases description counted event task with ⟨_, refused⟩ | ⟨_, _, grants⟩
    · rw [refused]
      exact counted
    · exact grants.counted counted

/-- **One call** does what it is designed to do. -/
theorem step_designed (input : BoardInput) (counted : board.Counted) :
    board.Designed description input := by
  cases input with
  | attachInterrupt ulPin callback ulMode =>
    unfold Designed
    dsimp only
    rw [attach_result]
    split_ifs with room
    · refine ⟨fun channel same => ?_, fun none => by cases none⟩
      obtain rfl := Option.some.inj same
      exact ⟨room, Channels.freeChannel_idle room, fun before below => Channels.freeChannel_first below⟩
    · refine ⟨fun channel same => (by cases same), fun _ channel inside => ?_⟩
      exact Channels.freeChannel_first (Nat.lt_of_lt_of_le inside (Nat.le_of_not_lt room))
  | setShortcut event task =>
    refine ⟨?_, setShortcut_reads description counted⟩
    rcases setShortcut_cases description counted event task with ⟨_, refused⟩ | ⟨_, grants⟩
    · rw [refused]
      exact .inl ⟨rfl, rfl⟩
    · exact .inr grants
  | detachInterrupt ulPin => trivial
  | setInputPin pin => trivial
  | setOutputPin pin => trivial

/-- **A call of `attachInterrupt`** hands out no channel of a shortcut exactly when PPI has taken none. -/
theorem attach_apart_iff (separate : board.Separate) (ulPin : UInt32) (callback : Nat)
    (ulMode : UInt32) : board.Apart description (.attachInterrupt ulPin callback ulMode) ↔
      board.ppi.gpioteConfigIndex = 0 := by
  unfold Apart
  dsimp only
  rw [attach_result]
  constructor
  · intro apart
    by_contra taken
    have below : 0 < board.ppi.gpioteConfigIndex := Nat.pos_of_ne_zero taken
    have first := freeChannel_zero _ (separate.idle 0 below)
    rw [first, if_pos (by decide)] at apart
    exact apart 0 rfl ((separate.uses 0).mpr below)
  · intro none channel _ uses
    have below := (separate.uses channel).mp uses
    omega

/-- **A call of `setShortcut`** takes no channel that is taken exactly when its next ones are before the
end and not busy. -/
theorem shortcut_apart_iff (separate : board.Separate) (event : EventType) (task : TaskType) :
    board.Apart description (.setShortcut event task) ↔ board.KeepsApart (.setShortcut event task) := by
  unfold Apart KeepsApart
  dsimp only
  rcases setShortcut_cases description separate.toCounted event task with
    ⟨why, refused⟩ | ⟨granted, _, grants⟩
  · rw [refused]
    refine iff_of_true (fun _ member => absurd member List.not_mem_nil) fun room recognised => ?_
    rcases why with full | notRecognised
    · exact absurd full room
    · exact absurd recognised notRecognised
  · rw [grants.configured]
    have few := pins_le event.peripheral task.peripheral
    generalize event.peripheral.pins + task.peripheral.pins = n at *
    constructor
    · intro apart _ _
      have room : board.ppi.gpioteConfigIndex + n ≤ 8 := by
        by_contra past
        have again := zero_mem_inTurn separate.index (Nat.lt_of_not_le past)
        exact (apart 0 again).2 ((separate.uses 0).mpr (by omega))
      refine ⟨room, fun channel low high => (apart channel ?_).1⟩
      exact (mem_inTurn_iff room).mpr ⟨low, high⟩
    · intro keeps channel member
      obtain ⟨room, idle⟩ := keeps granted.1 granted.2
      obtain ⟨low, high⟩ := (mem_inTurn_iff room).mp member
      refine ⟨idle channel low high, fun uses => ?_⟩
      have below := (separate.uses channel).mp uses
      omega

theorem apart_iff (input : BoardInput) (separate : board.Separate) :
    board.Apart description input ↔ board.KeepsApart input := by
  cases input with
  | attachInterrupt ulPin callback ulMode =>
    exact attach_apart_iff description separate ulPin callback ulMode
  | setShortcut event task => exact shortcut_apart_iff description separate event task
  | detachInterrupt ulPin => exact Iff.rfl
  | setInputPin pin => exact Iff.rfl
  | setOutputPin pin => exact Iff.rfl

/-- A call that meets the condition leaves the channels apart. -/
theorem step_separate (input : BoardInput) (separate : board.Separate)
    (keeps : board.KeepsApart input) : (board.step description input).Separate := by
  have counted := step_counted description input separate.toCounted
  have uses := separate.uses
  have idle := separate.idle
  cases input with
  | attachInterrupt ulPin callback ulMode =>
    refine ⟨counted, uses, fun channel below => ?_⟩
    have none : board.ppi.gpioteConfigIndex = 0 := keeps
    have below : channel < board.ppi.gpioteConfigIndex := below
    omega
  | detachInterrupt ulPin =>
    exact ⟨counted, uses, fun channel below busy => idle channel below (detach_busy _ ulPin busy)⟩
  | setInputPin pin => exact ⟨counted, uses, idle⟩
  | setOutputPin pin => exact ⟨counted, uses, idle⟩
  | setShortcut event task =>
    show (board.setShortcut description event task).1.board.Separate
    rcases setShortcut_cases description separate.toCounted event task with
      ⟨_, refused⟩ | ⟨granted, _, grants⟩
    · rw [refused]
      exact separate
    · obtain ⟨room, next⟩ := keeps granted.1 granted.2
      have index := grants.index.trans (turned_eq room)
      refine ⟨counted, fun channel => ?_, fun channel below busy => ?_⟩
      · rw [grants.uses_iff, grants.configured, mem_inTurn_iff room, uses, index]
        omega
      · have busy : board.channels.Busy channel := by
          unfold Channels.Busy at busy ⊢
          rwa [grants.free] at busy
        rw [index] at below
        by_cases before : channel < board.ppi.gpioteConfigIndex
        · exact idle channel before busy
        · exact next channel (Nat.le_of_not_lt before) below busy

/-- Nothing is taken. -/
theorem initial_separate (a0 ledBuiltin : UInt32) : (initial a0 ledBuiltin).Separate where
  index := Nat.zero_le _
  firstFree := Nat.zero_le _
  unused := fun _ _ => rfl
  uses := by
    refine fun channel => iff_of_false ?_ (Nat.not_lt_zero _)
    rintro ⟨_, _, none, _⟩
    cases none
  idle := fun _ below => absurd below (Nat.not_lt_zero _)

end Board

/-- **What the two users of GPIOTE do in every run**: each call does what it is designed to do, and no call
takes a channel that is taken exactly when every call meets the condition. -/
theorem ppi_shares_iff (description : UInt32 → UInt32) (a0 ledBuiltin : UInt32)
    (inputs : List BoardInput) :
    EachStep (Board.step description) (Board.Designed description) (.initial a0 ledBuiltin) inputs ∧
    (EachStep (Board.step description) (Board.Apart description) (.initial a0 ledBuiltin) inputs ↔
      EachStep (Board.step description) Board.KeepsApart (.initial a0 ledBuiltin) inputs) := by
  have legal : EachStep (Board.step description) (fun _ _ => True) (.initial a0 ledBuiltin) inputs :=
    eachStep_of_forall (fun _ _ => trivial) _ _
  have start := Board.initial_separate a0 ledBuiltin
  have exactly : ∀ (board : Board) (input : BoardInput), board.Separate → True →
      (board.Apart description input ↔ board.KeepsApart input) :=
    fun board input separate _ => Board.apart_iff description input separate
  constructor
  · exact eachStep_of_invariant
      (fun board input counted _ => Board.step_counted description input counted)
      (fun board input counted _ => Board.step_designed description input counted)
      start.toCounted legal
  · exact eachStep_congr
      (fun board input separate _ apart => Board.step_separate description input separate
        ((exactly board input separate trivial).mp apart))
      exactly start legal

/-- **The two tables know nothing of each other, and PPI starts again at the first channel.** A pin is
attached, and a shortcut of another pin takes its channel; the fifth shortcut between two pins takes the
channels of the first. -/
theorem ppi_takes_again :
    ¬ EachStep (Board.step id) (Board.Apart id) (.initial 14 9)
      [.attachInterrupt 3 1 2, .setShortcut .pinHigh .nfcStartSense] ∧
    ¬ EachStep (Board.step id) (Board.Apart id) (.initial 14 9)
      [.setShortcut .pinHigh .pinSet, .setShortcut .pinHigh .pinSet, .setShortcut .pinHigh .pinSet,
        .setShortcut .pinHigh .pinSet, .setShortcut .pinHigh .pinSet] := by
  constructor
  · rintro ⟨_, apart, _⟩
    exact (apart 0 (List.mem_singleton_self _)).1 rfl
  · rintro ⟨_, _, _, _, apart, _⟩
    exact (apart 0 (List.mem_cons_self ..)).2 ⟨0, (.gpioteIn 0, .gpioteOut 1), rfl, List.mem_cons_self ..⟩

end PrimoCore.Core
