/-
**Runs of the persistent storage.**

The commands that are accepted wait in a ring. Whatever is called between the events while they are carried
out, and however often an operation of the flash is refused or fails, they are performed one after the other,
in the order of the calls, and each is notified once.

* `Registry` — the modules lie one behind the other, before the swap page.
* `Pstorage.queue` — the commands that wait, the one at hand first.
* `Stage` — nothing is to be done, the command at the front is carried out, or it has failed.
* `Pstorage.Inv`, `step_inv` — the invariant of the runs.
* `pstorage_right` — **after every legal run the flash holds what the commands notified so far make of it**,
  in the order of the calls, but for the pages of the command at hand.
-/

import PrimoCore.Lib.Ring
import PrimoCore.Lib.Run
import PrimoCore.Storage.PageSwap

namespace PrimoCore.Storage

open PrimoCore.Lib

/-! ### What is accepted -/

/-- The notification of a command. -/
def Cmd.told (cmd : Cmd) (result : UInt32) : Notification :=
  ⟨cmd.storageAddr, cmd.opCode, result, cmd.pDataAddr, cmd.size⟩

/-- What commands make of the flash, one after the other. -/
def performAll (flash : Memory UInt8) (cmds : List Cmd) : Memory UInt8 :=
  cmds.foldl (fun contents cmd => cmd.perform contents) flash

/-- The command of a call. -/
def Input.cmd : Input → Option Cmd
  | .store dest src size offset _ => some ⟨.store, size, offset, dest, some src⟩
  | .update dest src size offset _ => some ⟨.update, size, offset, dest, some src⟩
  | .clear dest size _ => some ⟨.clear, size, 0, dest, none⟩
  | .register _ | .complete _ _ | .otherEvent _ _ => none

namespace Pstorage

variable (swapAddr : Nat) (store : Pstorage)

/-- The command that a call is answered to have put into the queue. -/
def accepts (input : Input) : List Cmd :=
  if (store.called swapAddr input).2 = nrfSuccess then input.cmd.toList else []

/-- The commands that a run puts into the queue. -/
def accepted : Pstorage → List Input → List Cmd
  | _, [] => []
  | store, input :: rest => store.accepts swapAddr input ++ accepted (store.step swapAddr input) rest

/-- The commands that wait, the one at hand first. -/
def queue : List Cmd := counted cmdQueueSize store.cmd store.rp store.count

/-- A handle that `pstorage_block_identifier_get` gives for a module. -/
def Block (id : Handle) : Prop :=
  id.moduleId < store.nextAppInstance ∧ ∃ blockNum < (store.appTable id.moduleId).blockCount,
    id.blockId = (store.appTable id.moduleId).baseId + blockNum * store.moduleBlockSize id

/-- What the calls ask of their callers: a handle of a block, a size in words, and for an update an offset
that leads to no other page than the one the block begins in. The event of another client comes when no
operation of the storage runs. -/
def Legal : Input → Prop
  | .register _ | .complete _ _ => True
  | .store dest _ size _ _ => store.Block dest ∧ size % 4 = 0
  | .update dest _ size offset _ => store.Block dest ∧ size % 4 = 0 ∧
      dest.blockId / pageSize = (dest.blockId + offset) / pageSize
  | .clear dest _ _ => store.Block dest
  | .otherEvent _ _ => store.running = none

instance decidableBlock (id : Handle) : Decidable (store.Block id) := inferInstanceAs (Decidable (_ ∧ _))

instance decidableLegal : (input : Input) → Decidable (store.Legal input)
  | .register _ | .complete _ _ => isTrue trivial
  | .store _ _ _ _ _ | .update _ _ _ _ _ => inferInstanceAs (Decidable (_ ∧ _))
  | .clear dest _ _ => store.decidableBlock dest
  | .otherEvent _ _ => inferInstanceAs (Decidable (store.running = none))

end Pstorage

/-! ### The modules -/

/-- **The modules lie one behind the other**, each in pages of its own, before the swap page. -/
structure Registry (swapAddr : Nat) (initialized : Bool) (nextAppInstance nextPageAddr : Nat)
    (appTable : Memory Module) : Prop where
  initialized : initialized = true
  few : nextAppInstance ≤ numOfPages
  registered : ∀ id, (appTable id).cb = true ↔ id < nextAppInstance
  placed : ∀ id < nextAppInstance, (appTable id).Placed swapAddr
  blocks : ∀ id < nextAppInstance, (appTable id).blockSize % 4 = 0 ∧
    (appTable id).blockSize ≤ pageSize ∧ (appTable id).baseId < (appTable id).stop
  aligned : nextPageAddr % pageSize = 0
  swapAligned : swapAddr % pageSize = 0
  near : swapAddr ≤ nextPageAddr + numOfPages * pageSize
  inside : nextPageAddr ≤ swapAddr
  behind : ∀ id < nextAppInstance, ((appTable id).stop - 1) / pageSize < nextPageAddr / pageSize
  apart : ∀ first second, first < second → second < nextAppInstance →
    ((appTable first).stop - 1) / pageSize < (appTable second).baseId / pageSize

/-! ### Stages -/

namespace Pstorage

/-- Something is promised of a byte, by every module. -/
def Keeps (swapAddr : Nat) (store : Pstorage) (address : Nat) : Prop :=
  ∀ id < store.nextAppInstance, (store.appTable id).Keeps swapAddr address

end Pstorage

/-- **What the storage is about**, with what the commands performed so far make of the flash, and their
notifications. -/
inductive Stage (swapAddr : Nat) (store : Pstorage) (contents : Memory UInt8)
    (told : List Notification) : Prop
  | idle (state : store.state = .idle) (empty : store.count = 0) (free : store.running = none)
      (accepted : store.flashApiErrBusy = false) (notified : store.notified = told)
      (agrees : ∀ address, store.Keeps swapAddr address → store.flash address = contents address)
  | working {cmd : Cmd} {start : Memory UInt8} (nonempty : store.count ≠ 0) (here : store.current = cmd)
      (phase : Phase swapAddr (store.appTable cmd.storageAddr.moduleId) cmd start store)
      (issued : store.running = some (store.op swapAddr) ∧ store.flashApiErrBusy = false ∨
        store.running = none ∧ store.flashApiErrBusy = true)
      (size : store.appDataSize = cmd.size) (notified : store.notified = told)
      (agrees : ∀ address, store.Keeps swapAddr address → start address = contents address)
  | failed {cmd : Cmd} {result : UInt32} (state : store.state = .error) (nonempty : store.count ≠ 0)
      (here : store.current = cmd) (free : store.running = none) (unsuccessful : result ≠ nrfSuccess)
      (notified : store.notified = told ++ [cmd.told result])
      (agrees : ∀ address, store.Keeps swapAddr address →
        address / pageSize < cmd.firstPage ∨ cmd.lastPage < address / pageSize →
          store.flash address = contents address)

/-- The modules and the queue. -/
structure Pstorage.Static (swapAddr : Nat) (store : Pstorage) : Prop where
  registry : Registry swapAddr store.moduleInitialized store.nextAppInstance store.nextPageAddr store.appTable
  rp : store.rp < cmdQueueSize
  count : store.count ≤ cmdQueueSize
  fits : ∀ cmd ∈ store.queue, cmd.storageAddr.moduleId < store.nextAppInstance ∧
    (store.appTable cmd.storageAddr.moduleId).Fits cmd

/-- **The invariant of the runs.** -/
structure Pstorage.Inv (swapAddr : Nat) (flash : Memory UInt8) (store : Pstorage)
    (accepted : List Cmd) : Prop where
  static : store.Static swapAddr
  stage : ∃ done, accepted = done ++ store.queue ∧
    Stage swapAddr store (performAll flash done) (done.map (·.told nrfSuccess))

/-! ### The queue -/

section Queue

variable {swapAddr : Nat} {store : Pstorage} (static : store.Static swapAddr)

include static

/-- The command at hand is the first one of the queue. -/
theorem queue_cons (nonempty : store.count ≠ 0) : ∃ rest, store.queue = store.current :: rest := by
  obtain ⟨count, more⟩ := Nat.exists_eq_succ_of_ne_zero nonempty
  have few : count < cmdQueueSize := Nat.lt_of_succ_le (more ▸ static.count)
  unfold Pstorage.queue
  rw [more, counted_pop static.rp few store.current]
  exact ⟨_, rfl⟩

/-- The command at hand is one for an area of a module. -/
theorem current_fits (nonempty : store.count ≠ 0) :
    store.current.storageAddr.moduleId < store.nextAppInstance ∧
      (store.appTable store.current.storageAddr.moduleId).Fits store.current := by
  obtain ⟨rest, queue⟩ := queue_cons static nonempty
  exact static.fits _ (queue ▸ List.mem_cons_self)

end Queue

namespace Pstorage.SameQueue

variable {swapAddr : Nat} {before after : Pstorage} (same : before.SameQueue after)

include same

theorem queue : after.queue = before.queue := by
  unfold Pstorage.queue
  rw [same.cmd, same.rp, same.count]

theorem current : after.current = before.current := by
  unfold Pstorage.current
  rw [same.cmd, same.rp]

theorem keeps (address : Nat) : after.Keeps swapAddr address ↔ before.Keeps swapAddr address := by
  unfold Pstorage.Keeps
  rw [same.nextAppInstance, same.appTable]

theorem static (static : before.Static swapAddr) : after.Static swapAddr where
  registry := by
    rw [same.moduleInitialized, same.nextAppInstance, same.nextPageAddr, same.appTable]
    exact static.registry
  rp := same.rp ▸ static.rp
  count := same.count ▸ static.count
  fits := by
    rw [same.queue, same.nextAppInstance, same.appTable]
    exact static.fits

end Pstorage.SameQueue

/-! ### The end of a step -/

section Ends

variable {swapAddr : Nat} {store : Pstorage} {cmd : Cmd} {start contents : Memory UInt8}
  {told : List Notification} (static : store.Static swapAddr) (nonempty : store.count ≠ 0)
  (here : store.current = cmd) (size : store.appDataSize = cmd.size) (notified : store.notified = told)
  (agrees : ∀ address, store.Keeps swapAddr address → start address = contents address) (answer : UInt32)

/-- What a step leads to, with the queue it leaves. -/
structure Reaches (swapAddr : Nat) (result : Pstorage) (queue : List Cmd) (contents : Memory UInt8)
    (told : List Notification) : Prop where
  static : result.Static swapAddr
  queue : result.queue = queue
  stage : Stage swapAddr result contents told

include static nonempty here size notified agrees

/-- The command at hand fails. -/
theorem fails (free : store.running = none)
    (phase : Phase swapAddr (store.appTable cmd.storageAddr.moduleId) cmd start store) {result : UInt32}
    (unsuccessful : result ≠ nrfSuccess) :
    Reaches swapAddr (store.appNotifyErrorStateTransit result) store.queue contents told := by
  have fits := here ▸ current_fits static nonempty
  refine ⟨⟨static.registry, static.rp, static.count, static.fits⟩, rfl, ?_⟩
  refine .failed rfl nonempty here free unsuccessful ?_ fun address keeps outside => ?_
  · show store.notified ++ [_] = _
    rw [here, size, notified]
    rfl
  · exact (phase_outside fits.2 phase (keeps _ fits.1) outside).trans (agrees address keeps)

/-- The operation of the state is issued. -/
theorem flashCall_reaches (free : store.running = none) (accepted : store.flashApiErrBusy = false)
    (phase : Phase swapAddr (store.appTable cmd.storageAddr.moduleId) cmd start store) :
    Reaches swapAddr (store.flashCall (store.op swapAddr) answer) store.queue contents told := by
  unfold Pstorage.flashCall
  split
  · exact ⟨⟨static.registry, static.rp, static.count, static.fits⟩, rfl,
      .working nonempty here phase (.inl ⟨rfl, accepted⟩) size notified agrees⟩
  · next unsuccessful =>
    split
    · exact ⟨⟨static.registry, static.rp, static.count, static.fits⟩, rfl,
        .working nonempty here phase (.inr ⟨free, rfl⟩) size notified agrees⟩
    · exact fails static nonempty here size notified agrees free phase unsuccessful

theorem issues_reaches {result : Pstorage}
    (issues : Issues swapAddr (store.appTable cmd.storageAddr.moduleId) cmd start store answer result) :
    Reaches swapAddr result store.queue contents told := by
  cases issues with
  | intro same phase free accepted =>
    rw [← same.appTable] at phase
    have reached := flashCall_reaches (same.static static) (same.count ▸ nonempty) (same.current.trans here)
      (same.appDataSize.trans size) (same.notified.trans notified)
      (fun address keeps => agrees address ((same.keeps address).mp keeps)) answer free accepted phase
    exact ⟨reached.static, reached.queue.trans same.queue, reached.stage⟩

end Ends

section Dequeue

variable {swapAddr : Nat} {store : Pstorage} {contents : Memory UInt8} {told : List Notification}
  (static : store.Static swapAddr) (free : store.running = none)
  (accepted : store.flashApiErrBusy = false) (notified : store.notified = told)
  (agrees : ∀ address, store.Keeps swapAddr address → store.flash address = contents address)
  (answer : UInt32)

include static free accepted notified agrees

/-- The command at the front begins. -/
theorem process_reaches (nonempty : store.count ≠ 0) :
    Reaches swapAddr (store.cmdProcess swapAddr answer) store.queue contents told := by
  have fits := current_fits static nonempty
  have placed := static.registry.placed _ fits.1
  have issues := begins placed fits.2 rfl free accepted answer rfl
  exact @issues_reaches swapAddr { store with appDataSize := store.current.size } _ _ contents told
    ⟨static.registry, static.rp, static.count, static.fits⟩ nonempty rfl rfl notified agrees answer _ issues

/-- What is left is begun, if anything is left. -/
theorem dequeue_reaches (state : store.state = .idle) :
    Reaches swapAddr (store.cmdQueueDequeue swapAddr answer) store.queue contents told := by
  unfold Pstorage.cmdQueueDequeue
  split
  · next nonempty => exact process_reaches static free accepted notified agrees answer nonempty
  · next empty => exact ⟨static, rfl, .idle state (not_not.mp empty) free accepted notified agrees⟩

end Dequeue

section Performed

variable {swapAddr : Nat} {store : Pstorage} {cmd : Cmd} {start contents : Memory UInt8}
  {told : List Notification} (static : store.Static swapAddr) (nonempty : store.count ≠ 0)
  (here : store.current = cmd) (size : store.appDataSize = cmd.size) (notified : store.notified = told)
  (agrees : ∀ address, store.Keeps swapAddr address → start address = contents address) (answer : UInt32)

include static nonempty here size notified agrees

/-- The command at hand has been performed, and leaves the queue. -/
theorem ends_reaches {rest : List Cmd} (queue : store.queue = cmd :: rest) (free : store.running = none)
    (accepted : store.flashApiErrBusy = false)
    (performed : ∀ address, (store.appTable cmd.storageAddr.moduleId).Keeps swapAddr address →
      store.flash address = cmd.perform start address) :
    Reaches swapAddr (store.commandEndProcedureRun swapAddr answer) rest (cmd.perform contents)
      (told ++ [cmd.told nrfSuccess]) := by
  have fits := here ▸ current_fits static nonempty
  obtain ⟨count, more⟩ := Nat.exists_eq_succ_of_ne_zero nonempty
  have few : count < cmdQueueSize := Nat.lt_of_succ_le (more ▸ static.count)
  have rp := static.rp
  have wraps : (if store.rp + 1 = cmdQueueSize then 0 else store.rp + 1) = (store.rp + 1) % cmdQueueSize := by
    unfold cmdQueueSize at *
    split <;> omega
  have left : ({ (store.appNotify nrfSuccess).commandQueueElementConsume with
      state := .idle, numOfCommandRetries := 0, numOfBytesWritten := 0 } : Pstorage).queue = rest := by
    have popped : counted cmdQueueSize store.cmd store.rp (count + 1) = store.cmd store.rp :: _ :=
      counted_pop rp few ⟨.invalid, 0, 0, ⟨numOfPages, 0⟩, none⟩
    unfold Pstorage.queue at queue
    rw [more, popped] at queue
    rw [← (List.cons.inj queue).2, ← wraps, ← Nat.succ_sub_one count, ← more]
    rfl
  have kept : ({ (store.appNotify nrfSuccess).commandQueueElementConsume with
      state := .idle, numOfCommandRetries := 0, numOfBytesWritten := 0 } : Pstorage).Static swapAddr := by
    refine ⟨static.registry, ?_, Nat.le_trans (Nat.sub_le _ _) static.count, ?_⟩
    · show (if store.rp + 1 = cmdQueueSize then 0 else store.rp + 1) < cmdQueueSize
      rw [wraps]
      exact Nat.mod_lt _ (by decide)
    · rw [left]
      exact fun other member => static.fits other (queue ▸ List.mem_cons_of_mem _ member)
  have notifies : store.notified ++ [⟨store.current.storageAddr, store.current.opCode, nrfSuccess,
      store.current.pDataAddr, store.appDataSize⟩] = told ++ [cmd.told nrfSuccess] := by
    rw [here, size, notified]
    rfl
  have holds : ∀ address, store.Keeps swapAddr address →
      store.flash address = cmd.perform contents address := by
    intro address keeps
    refine (performed address (keeps _ fits.1)).trans ?_
    unfold Cmd.perform
    rw [agrees address keeps]
  exact left ▸ dequeue_reaches kept free accepted notifies holds answer rfl

end Performed

/-! ### Events -/

theorem performAll_concat (flash : Memory UInt8) (done : List Cmd) (cmd : Cmd) :
    performAll flash (done ++ [cmd]) = cmd.perform (performAll flash done) := List.foldl_append

theorem Reaches.inv {swapAddr : Nat} {flash : Memory UInt8} {result : Pstorage} {done queue accepted : List Cmd}
    (reaches : Reaches swapAddr result queue (performAll flash done) (done.map (·.told nrfSuccess)))
    (all : accepted = done ++ queue) : result.Inv swapAddr flash accepted :=
  ⟨reaches.static, done, reaches.queue ▸ all, reaches.stage⟩

section Events

variable {swapAddr : Nat} {flash start : Memory UInt8} {store : Pstorage} {cmd : Cmd}
  {done accepted : List Cmd} (static : store.Static swapAddr) (nonempty : store.count ≠ 0)
  (here : store.current = cmd) (size : store.appDataSize = cmd.size)
  (notified : store.notified = done.map (·.told nrfSuccess))
  (agrees : ∀ address, store.Keeps swapAddr address → start address = performAll flash done address)
  (all : accepted = done ++ store.queue) (answer : UInt32)

include static nonempty here size notified agrees all

theorem proceeds_inv {result : Pstorage}
    (proceeds : Proceeds swapAddr (store.appTable cmd.storageAddr.moduleId) cmd start store answer result) :
    result.Inv swapAddr flash accepted := by
  cases proceeds with
  | issues issues => exact (issues_reaches static nonempty here size notified agrees answer issues).inv all
  | ends same performed free busy =>
    obtain ⟨rest, queue⟩ := queue_cons static nonempty
    rw [here] at queue
    rw [← same.appTable] at performed
    have reached := ends_reaches (same.static static) (same.count ▸ nonempty) (same.current.trans here)
      (same.appDataSize.trans size) (same.notified.trans notified)
      (fun address keeps => agrees address ((same.keeps address).mp keeps)) answer
      (same.queue.trans queue) free busy performed
    rw [← performAll_concat] at reached
    have told : done.map (·.told nrfSuccess) ++ [cmd.told nrfSuccess] =
        (done ++ [cmd]).map (·.told nrfSuccess) := by
      rw [List.map_append]
      rfl
    rw [told] at reached
    refine reached.inv ?_
    rw [all, queue, List.append_assoc]
    rfl

/-- An operation of the command at hand fails. -/
theorem failure_inv (free : store.running = none) (busy : store.flashApiErrBusy = false)
    (phase : Phase swapAddr (store.appTable cmd.storageAddr.moduleId) cmd start store) :
    (store.flashOperationFailureRun swapAddr answer).Inv swapAddr flash accepted := by
  have fits := here ▸ current_fits static nonempty
  have same : store.SameQueue { store with numOfCommandRetries := store.numOfCommandRetries + 1 } :=
    ⟨rfl, rfl, rfl, rfl, rfl, rfl, rfl, rfl, rfl⟩
  unfold Pstorage.flashOperationFailureRun
  dsimp only
  split
  · split
    · next state =>
      have issues := @smStateChange_issues swapAddr _ cmd fits.2 start
        { store with numOfCommandRetries := store.numOfCommandRetries + 1 } here free busy answer phase state
      exact proceeds_inv static nonempty here size notified agrees all answer
        (.issues (issues.of_same answer same))
    · next state =>
      have issues := @swapSubStateStateChange_issues swapAddr _ cmd start
        { store with numOfCommandRetries := store.numOfCommandRetries + 1 } free busy answer phase
        (not_not.mp state)
      exact proceeds_inv static nonempty here size notified agrees all answer
        (.issues (issues.of_same answer same))
  · exact (fails (same.static static) nonempty here size notified agrees free phase (by decide)).inv all

end Events

section Inv

variable {swapAddr : Nat} {flash : Memory UInt8} {store : Pstorage} {accepted : List Cmd}

/-- While a command is carried out the handler is awake. -/
theorem Phase.awake {owner : Module} {cmd : Cmd} {start : Memory UInt8}
    (phase : Phase swapAddr owner cmd start store) : store.state ≠ .idle ∧ store.state ≠ .error := by
  unfold Phase at phase
  constructor <;> intro state <;> rw [state] at phase <;> exact phase

theorem sysEventHandler_awake (awake : store.state ≠ .idle ∧ store.state ≠ .error) (success : Bool)
    (answer : UInt32) : store.sysEventHandler swapAddr success answer =
      if success ∨ store.flashApiErrBusy then store.flashOperationSuccessRun swapAddr answer
      else store.flashOperationFailureRun swapAddr answer := by
  unfold Pstorage.sysEventHandler
  rw [if_pos awake]
  cases success with
  | true => rw [if_pos rfl, if_pos (.inl rfl)]
  | false =>
    rw [if_neg Bool.false_ne_true]
    by_cases busy : store.flashApiErrBusy = true
    · rw [if_neg (not_not.mpr busy), if_pos (.inr busy)]
    · rw [if_pos busy, if_neg (fun either => either.elim Bool.false_ne_true busy)]

/-- **An operation of the storage is done.** -/
theorem complete_inv (inv : store.Inv swapAddr flash accepted) (success : Bool) (answer : UInt32) :
    (store.complete swapAddr success answer).Inv swapAddr flash accepted := by
  obtain ⟨static, done, all, stage⟩ := inv
  unfold Pstorage.complete
  split
  · exact ⟨static, done, all, stage⟩
  · next op running =>
    cases stage with
    | idle state empty free => exact absurd (running.symm.trans free) (by simp)
    | failed state nonempty here free => exact absurd (running.symm.trans free) (by simp)
    | @working cmd start nonempty here phase issued size notified agrees =>
      obtain ⟨runs, busy⟩ := issued.resolve_right fun refused => by
        rw [refused.1] at running
        cases running
      have fits := here ▸ current_fits static nonempty
      have placed := static.registry.placed _ fits.1
      have is : op = store.op swapAddr := Option.some.inj (running.symm.trans runs)
      subst is
      dsimp only
      rw [sysEventHandler_awake (by exact phase.awake)]
      cases success with
      | true =>
        rw [if_pos (.inl rfl)]
        have proceeds := @done_proceeds swapAddr _ cmd fits.2 start
          { store with flash := (store.op swapAddr).apply store.flash, running := none } here rfl busy answer
          (op_done placed fits.2 here phase)
        exact @proceeds_inv swapAddr flash start
          { store with flash := (store.op swapAddr).apply store.flash, running := none } cmd done accepted
          ⟨static.registry, static.rp, static.count, static.fits⟩ nonempty here size notified agrees all answer
          _ proceeds
      | false =>
        rw [if_neg (fun either => either.elim Bool.false_ne_true fun is =>
          Bool.false_ne_true (busy.symm.trans is))]
        exact @failure_inv swapAddr flash start { store with running := none } cmd done accepted
          ⟨static.registry, static.rp, static.count, static.fits⟩ nonempty here size notified agrees all answer
          rfl busy phase

/-- **The event of an operation of another client.** -/
theorem otherEvent_inv (inv : store.Inv swapAddr flash accepted) (free : store.running = none)
    (success : Bool) (answer : UInt32) :
    (store.sysEventHandler swapAddr success answer).Inv swapAddr flash accepted := by
  have asleep : ∀ {state : State}, store.state = state → state = .idle ∨ state = .error →
      store.sysEventHandler swapAddr success answer = store := by
    intro state is rests
    unfold Pstorage.sysEventHandler
    rw [if_neg]
    rintro ⟨notIdle, notError⟩
    exact rests.elim (fun idle => notIdle (is.trans idle)) fun error => notError (is.trans error)
  have ⟨static, done, all, stage⟩ := inv
  cases stage with
  | idle state =>
    rw [asleep state (.inl rfl)]
    exact inv
  | failed state =>
    rw [asleep state (.inr rfl)]
    exact inv
  | working nonempty here phase issued size notified agrees =>
    have busy := (issued.resolve_left fun runs => by
      rw [free] at runs
      cases runs.1).2
    have fits := here ▸ current_fits static nonempty
    rw [sysEventHandler_awake phase.awake, if_pos (.inr busy)]
    exact proceeds_inv static nonempty here size notified agrees all answer
      (.issues (busy_issues fits.2 here free answer phase busy))

end Inv

/-! ### Calls -/

section Calls

variable {swapAddr : Nat} {flash : Memory UInt8} {store : Pstorage} {accepted : List Cmd}

/-- The operation of a state depends on the command at hand only. -/
theorem op_congr {cmds : Memory Cmd} {count : Nat} (same : cmds store.rp = store.current) :
    ({ store with cmd := cmds, count := count } : Pstorage).op swapAddr = store.op swapAddr := by
  have current : ({ store with cmd := cmds, count := count } : Pstorage).current = store.current := same
  unfold Pstorage.op Pstorage.swapOp
  rw [current]

/-- **A command is put into the queue**, or there is no room for it. -/
theorem enqueue_inv (inv : store.Inv swapAddr flash accepted) {cmd : Cmd}
    (fits : cmd.storageAddr.moduleId < store.nextAppInstance ∧
      (store.appTable cmd.storageAddr.moduleId).Fits cmd) (answer : UInt32) :
    (store.cmdQueueEnqueue swapAddr cmd answer).1.Inv swapAddr flash
      (accepted ++ if (store.cmdQueueEnqueue swapAddr cmd answer).2 = nrfSuccess then [cmd] else []) := by
  have ⟨static, done, all, stage⟩ := inv
  unfold Pstorage.cmdQueueEnqueue
  split
  · next few =>
    have room : store.count < cmdQueueSize := Nat.lt_of_le_of_ne static.count few
    have rp := static.rp
    have wraps : (if store.rp + store.count ≥ cmdQueueSize then store.rp + store.count - cmdQueueSize
        else store.rp + store.count) = (store.rp + store.count) % cmdQueueSize := by
      unfold cmdQueueSize at *
      split <;> omega
    dsimp only
    rw [wraps, if_pos rfl]
    have queue : counted cmdQueueSize
        (Function.update store.cmd ((store.rp + store.count) % cmdQueueSize) cmd) store.rp (store.count + 1) =
          store.queue ++ [cmd] := counted_push room cmd
    have kept : ({ store with
        cmd := Function.update store.cmd ((store.rp + store.count) % cmdQueueSize) cmd
        count := store.count + 1 } : Pstorage).Static swapAddr := by
      refine ⟨static.registry, rp, room, fun other member => ?_⟩
      have member : other ∈ store.queue ++ [cmd] := by
        rw [← queue]
        exact member
      rcases List.mem_append.mp member with old | new
      · exact static.fits other old
      · rw [List.mem_singleton.mp new]
        exact fits
    have all' : accepted ++ [cmd] = done ++ counted cmdQueueSize
        (Function.update store.cmd ((store.rp + store.count) % cmdQueueSize) cmd) store.rp (store.count + 1) := by
      rw [queue, all, List.append_assoc]
    have current : store.count ≠ 0 →
        Function.update store.cmd ((store.rp + store.count) % cmdQueueSize) cmd store.rp = store.current := by
      intro nonempty
      refine Function.update_of_ne (fun same => nonempty ?_) _ _
      unfold cmdQueueSize at *
      omega
    cases stage with
    | idle state empty free busy notified agrees =>
      rw [if_pos state]
      exact (process_reaches kept free busy notified agrees answer (Nat.succ_ne_zero _)).inv all'
    | working nonempty here phase issued size notified agrees =>
      rw [if_neg phase.awake.1]
      refine ⟨kept, done, all', .working (Nat.succ_ne_zero _) ((current nonempty).trans here) phase ?_ size
        notified agrees⟩
      rw [op_congr (current nonempty)]
      exact issued
    | failed state nonempty here free unsuccessful notified agrees =>
      rw [if_neg (by rw [state]; decide)]
      exact ⟨kept, done, all', .failed state (Nat.succ_ne_zero _) ((current nonempty).trans here) free
        unsuccessful notified agrees⟩
  · have refused : ¬ nrfErrorNoMem = nrfSuccess := by decide
    dsimp only
    rw [if_neg refused, List.append_nil]
    exact inv

theorem argumentError_none {block : Handle} {memory size offset : Nat}
    (none : store.argumentError block memory size offset = none) :
    size ≠ 0 ∧ size + offset ≤ store.moduleBlockSize block ∧ offset % 4 = 0 ∧ block.blockId % 4 = 0 := by
  unfold Pstorage.argumentError Pstorage.sizeOut Pstorage.offsetOut Pstorage.isWordAligned at none
  split_ifs at none with _ _ _ size offset aligned
  simp only [decide_eq_true_eq, not_or, not_not, Nat.not_lt] at size offset aligned
  exact ⟨size.1, offset, aligned.2⟩

/-- A write that passes the checks is one for an area of its module. -/
theorem fits_of_arguments (static : store.Static swapAddr) {cmd : Cmd} {memory : Nat}
    (writes : cmd.opCode = .store ∨ cmd.opCode = .update) (block : store.Block cmd.storageAddr)
    (words : cmd.size % 4 = 0)
    (samePage : cmd.opCode ≠ .store → cmd.storageAddr.blockId / pageSize = cmd.firstPage)
    (none : store.argumentError cmd.storageAddr memory cmd.size cmd.offset = none) :
    cmd.storageAddr.moduleId < store.nextAppInstance ∧
      (store.appTable cmd.storageAddr.moduleId).Fits cmd := by
  obtain ⟨known, blockNum, few, place⟩ := block
  obtain ⟨nonempty, inside, offset, aligned⟩ := argumentError_none none
  obtain ⟨-, small, -⟩ := static.registry.blocks _ known
  have upTo := Nat.mul_le_mul_right (store.moduleBlockSize cmd.storageAddr) (Nat.succ_le_of_lt few)
  rw [Nat.succ_mul, Nat.mul_comm (store.appTable cmd.storageAddr.moduleId).blockCount] at upTo
  unfold Pstorage.moduleBlockSize at *
  refine ⟨known, ?_, ?_, Nat.lt_of_lt_of_le known static.registry.few, nonempty, ?_, ?_, ?_, ?_, ?_, samePage⟩
  · exact writes.imp_right .inl
  · omega
  · unfold Cmd.stop Module.stop
    omega
  · unfold Cmd.first
    omega
  · unfold Cmd.stop
    omega
  · intro _
    omega
  · intro clears
    rw [clears] at writes
    exact absurd writes (by decide)

/-- So is a clear. -/
theorem clear_fits (static : store.Static swapAddr) {dest : Handle} {size : Nat} (block : store.Block dest)
    (aligned : dest.blockId % 4 = 0) (whole : size % (store.appTable dest.moduleId).blockSize = 0)
    (nonempty : size ≠ 0) (inside : dest.blockId + size ≤ (store.appTable dest.moduleId).stop) :
    dest.moduleId < store.nextAppInstance ∧
      (store.appTable dest.moduleId).Fits ⟨.clear, size, 0, dest, none⟩ := by
  obtain ⟨known, blockNum, few, place⟩ := block
  obtain ⟨words, -⟩ := static.registry.blocks _ known
  have sizeWords : size % 4 = 0 :=
    Nat.mod_eq_zero_of_dvd ((Nat.dvd_of_mod_eq_zero words).trans (Nat.dvd_of_mod_eq_zero whole))
  refine ⟨known, .inr (.inr rfl), ?_, Nat.lt_of_lt_of_le known static.registry.few, nonempty, inside, aligned, ?_,
    fun other => absurd rfl other, fun _ => rfl, fun _ => rfl⟩
  · exact place ▸ Nat.le_add_right _ _
  · unfold Cmd.stop
    dsimp only
    omega

theorem argumentError_some {block : Handle} {memory size offset : Nat} {error : UInt32}
    (some : store.argumentError block memory size offset = some error) : error ≠ nrfSuccess := by
  unfold Pstorage.argumentError at some
  split_ifs at some
  all_goals
    rw [← Option.some.inj some]
    decide

/-- A write is checked, and put into the queue. -/
theorem write_inv (inv : store.Inv swapAddr flash accepted) {cmd : Cmd} {memory : Nat}
    (writes : cmd.opCode = .store ∨ cmd.opCode = .update) (block : store.Block cmd.storageAddr)
    (words : cmd.size % 4 = 0)
    (samePage : cmd.opCode ≠ .store → cmd.storageAddr.blockId / pageSize = cmd.firstPage)
    (answer : UInt32) {result : Pstorage × UInt32}
    (is : result = match store.argumentError cmd.storageAddr memory cmd.size cmd.offset with
      | some error => (store, error)
      | none => store.cmdQueueEnqueue swapAddr cmd answer) :
    result.1.Inv swapAddr flash (accepted ++ if result.2 = nrfSuccess then [cmd] else []) := by
  cases checked : store.argumentError cmd.storageAddr memory cmd.size cmd.offset with
  | some error =>
    rw [checked] at is
    rw [is, if_neg (argumentError_some checked), List.append_nil]
    exact inv
  | none =>
    rw [checked] at is
    rw [is]
    exact enqueue_inv inv (fits_of_arguments inv.static writes block words samePage checked) answer

theorem clear_inv (inv : store.Inv swapAddr flash accepted) {dest : Handle} (block : store.Block dest)
    (size : Nat) (answer : UInt32) :
    (store.pstorageClear swapAddr dest size answer).1.Inv swapAddr flash
      (accepted ++ if (store.pstorageClear swapAddr dest size answer).2 = nrfSuccess then
        [⟨.clear, size, 0, dest, none⟩] else []) := by
  have refused : ∀ error : UInt32, error ≠ nrfSuccess →
      store.Inv swapAddr flash (accepted ++ if error = nrfSuccess then
        [(⟨.clear, size, 0, dest, none⟩ : Cmd)] else []) := by
    intro error unsuccessful
    rw [if_neg unsuccessful, List.append_nil]
    exact inv
  have invalidState := refused nrfErrorInvalidState (by decide)
  have invalidParam := refused nrfErrorInvalidParam (by decide)
  have invalidAddr := refused nrfErrorInvalidAddr (by decide)
  unfold Pstorage.pstorageClear
  dsimp only
  split
  · exact invalidState
  · split
    · exact invalidParam
    · split
      · exact invalidParam
      · split
        · exact invalidAddr
        · next aligned =>
          split
          · exact invalidParam
          · split
            · exact invalidParam
            · next size =>
              split
              · exact invalidParam
              · next inside =>
                rw [not_or, not_not] at size
                unfold Pstorage.isWordAligned at aligned
                rw [not_not, decide_eq_true_eq] at aligned
                exact enqueue_inv inv
                  (clear_fits inv.static block aligned size.1 size.2 (Nat.le_of_not_lt inside)) answer

/-- A module is registered behind the others. -/
theorem Registry.register {initialized : Bool} {nextAppInstance nextPageAddr : Nat} {appTable : Memory Module}
    (registry : Registry swapAddr initialized nextAppInstance nextPageAddr appTable) {param : ModuleParam}
    (cb : param.cb = true) (small : param.blockSize ≤ pageSize) (big : minBlockSize ≤ param.blockSize)
    (some : param.blockCount ≠ 0)
    (room : nextPageAddr + param.blockCount * param.blockSize ≤ swapAddr) (words : param.blockSize % 4 = 0)
    (few : nextAppInstance ≠ numOfPages) :
    Registry swapAddr initialized (nextAppInstance + 1)
      (nextPageAddr + (param.blockSize * param.blockCount + pageSize - 1) / pageSize * pageSize)
      (Function.update appTable nextAppInstance
        ⟨param.cb, nextPageAddr, param.blockSize, param.blockCount⟩) := by
  have positive : 0 < param.blockSize * param.blockCount :=
    Nat.mul_pos (Nat.lt_of_lt_of_le (by decide) big) (Nat.pos_of_ne_zero some)
  have area : (param.blockSize * param.blockCount) % 4 = 0 := by
    rw [Nat.mul_mod, words, Nat.zero_mul, Nat.zero_mod]
  rw [Nat.mul_comm param.blockCount] at room
  generalize areaSize : param.blockSize * param.blockCount = size at *
  have aligned := registry.aligned
  have swapAligned := registry.swapAligned
  have near := registry.near
  have older : ∀ id, id < nextAppInstance + 1 → id ≠ nextAppInstance → id < nextAppInstance :=
    fun id below other => Nat.lt_of_le_of_ne (Nat.le_of_lt_succ below) other
  have new : (⟨param.cb, nextPageAddr, param.blockSize, param.blockCount⟩ : Module).stop =
      nextPageAddr + size := congrArg (nextPageAddr + ·) areaSize
  constructor
  · exact registry.initialized
  · exact Nat.lt_of_le_of_ne registry.few few
  · intro id
    by_cases here : id = nextAppInstance
    · rw [here, Function.update_self]
      exact iff_of_true cb (Nat.lt_succ_self _)
    · rw [Function.update_of_ne here, registry.registered id]
      exact ⟨Nat.lt_succ_of_lt, fun below => older id below here⟩
  · intro id below
    by_cases here : id = nextAppInstance
    · rw [here, Function.update_self]
      refine ⟨swapAligned, aligned, near, new ▸ room, ?_⟩
      rw [new]
      unfold pageSize at *
      omega
    · rw [Function.update_of_ne here]
      exact registry.placed id (older id below here)
  · intro id below
    by_cases here : id = nextAppInstance
    · rw [here, Function.update_self, new]
      exact ⟨words, small, by dsimp only; omega⟩
    · rw [Function.update_of_ne here]
      exact registry.blocks id (older id below here)
  · unfold pageSize at *
    omega
  · exact swapAligned
  · omega
  · unfold pageSize at *
    omega
  · intro id below
    by_cases here : id = nextAppInstance
    · rw [here, Function.update_self, new]
      unfold pageSize at *
      omega
    · rw [Function.update_of_ne here]
      refine Nat.lt_of_lt_of_le (registry.behind id (older id below here)) (Nat.div_le_div_right ?_)
      exact Nat.le_add_right _ _
  · intro first second order below
    have earlier : first ≠ nextAppInstance := Nat.ne_of_lt (Nat.lt_of_lt_of_le order (Nat.le_of_lt_succ below))
    rw [Function.update_of_ne earlier]
    by_cases here : second = nextAppInstance
    · rw [here, Function.update_self]
      exact registry.behind first (here ▸ order)
    · rw [Function.update_of_ne here]
      exact registry.apart first second order (older second below here)

/-- What is registered behind the others changes nothing for them. -/
theorem Stage.register {contents : Memory UInt8} {told : List Notification}
    (stage : Stage swapAddr store contents told) (static : store.Static swapAddr) {table : Memory Module}
    (older : ∀ id < store.nextAppInstance, table id = store.appTable id) (nextPageAddr : Nat) :
    Stage swapAddr { store with
      appTable := table
      nextPageAddr := nextPageAddr
      nextAppInstance := store.nextAppInstance + 1 } contents told := by
  have keeps : ∀ address, ({ store with
      appTable := table
      nextPageAddr := nextPageAddr
      nextAppInstance := store.nextAppInstance + 1 } : Pstorage).Keeps swapAddr address →
        store.Keeps swapAddr address := by
    intro address keeps id known
    rw [← older id known]
    exact keeps id (Nat.lt_succ_of_lt known)
  cases stage with
  | idle state empty free accepted notified agrees =>
    exact .idle state empty free accepted notified fun address kept => agrees address (keeps address kept)
  | failed state nonempty here free unsuccessful notified agrees =>
    exact .failed state nonempty here free unsuccessful notified
      fun address kept => agrees address (keeps address kept)
  | @working cmd start nonempty here phase issued size notified agrees =>
    refine @Stage.working swapAddr _ contents told cmd start nonempty here ?_ issued size notified
      fun address kept => agrees address (keeps address kept)
    have fits := here ▸ current_fits static nonempty
    dsimp only
    rw [older _ fits.1]
    exact phase

theorem register_inv (inv : store.Inv swapAddr flash accepted) (param : ModuleParam) :
    (store.pstorageRegister swapAddr param).1.Inv swapAddr flash accepted := by
  unfold Pstorage.pstorageRegister
  split
  · exact inv
  · split
    · exact inv
    · next cb =>
      split
      · exact inv
      · next small =>
        split
        · exact inv
        · next room =>
          split
          · exact inv
          · next words =>
            split
            · exact inv
            · next few =>
              obtain ⟨static, done, all, stage⟩ := inv
              rw [not_or, Nat.not_lt, Nat.not_lt] at small
              rw [not_or, Nat.not_lt] at room
              have older : ∀ id < store.nextAppInstance, Function.update store.appTable store.nextAppInstance
                  ⟨param.cb, store.nextPageAddr, param.blockSize, param.blockCount⟩ id = store.appTable id :=
                fun id known => Function.update_of_ne (Nat.ne_of_lt known) _ _
              refine ⟨⟨?_, static.rp, static.count, ?_⟩, done, all, stage.register static older _⟩
              · exact static.registry.register (not_not.mp cb) small.1 small.2 room.1 room.2 (not_not.mp words) few
              · intro cmd member
                obtain ⟨known, fits⟩ := static.fits cmd member
                refine ⟨Nat.lt_succ_of_lt known, ?_⟩
                dsimp only
                rw [older _ known]
                exact fits

end Calls

/-! ### Runs -/

section Runs

variable {swapAddr : Nat} {flash : Memory UInt8} {store : Pstorage} {accepted : List Cmd}

/-- **One step keeps the invariant**, with the command it puts into the queue. -/
theorem step_inv (inv : store.Inv swapAddr flash accepted) {input : Input} (legal : store.Legal input) :
    (store.step swapAddr input).Inv swapAddr flash (accepted ++ store.accepts swapAddr input) := by
  unfold Pstorage.step Pstorage.accepts
  cases input with
  | register param =>
    have kept := register_inv inv param
    have nothing : (if (store.called swapAddr (.register param)).2 = nrfSuccess then
        (Input.register param).cmd.toList else []) = [] := ite_self _
    rw [nothing, List.append_nil]
    unfold Pstorage.called
    dsimp only
    split
    · next registered =>
      rw [registered] at kept
      exact kept
    · next refused =>
      rw [refused] at kept
      exact kept
  | store dest src size offset answer =>
    exact write_inv inv (.inl rfl) legal.1 legal.2 (fun other => absurd rfl other) answer rfl
  | update dest src size offset answer =>
    exact write_inv inv (.inr rfl) legal.1 legal.2.1 (fun _ => legal.2.2) answer rfl
  | clear dest size answer => exact clear_inv inv legal size answer
  | complete success answer =>
    have nothing : (if nrfSuccess = nrfSuccess then (Input.complete success answer).cmd.toList else []) = [] :=
      if_pos rfl
    unfold Pstorage.called
    dsimp only
    rw [nothing, List.append_nil]
    exact complete_inv inv success answer
  | otherEvent success answer =>
    have nothing : (if nrfSuccess = nrfSuccess then (Input.otherEvent success answer).cmd.toList else []) = [] :=
      if_pos rfl
    unfold Pstorage.called
    dsimp only
    rw [nothing, List.append_nil]
    exact otherEvent_inv inv legal success answer

theorem run_inv (inv : store.Inv swapAddr flash accepted) {inputs : List Input}
    (legal : EachStep (Pstorage.step swapAddr) Pstorage.Legal store inputs) :
    (run (Pstorage.step swapAddr) store inputs).Inv swapAddr flash
      (accepted ++ store.accepted swapAddr inputs) := by
  induction inputs generalizing store accepted with
  | nil =>
    unfold Pstorage.accepted
    rw [List.append_nil]
    exact inv
  | cons input rest ih =>
    unfold Pstorage.accepted
    rw [run_cons, ← List.append_assoc]
    exact ih (step_inv inv legal.1) legal.2

theorem init_inv {pageEnd : Nat} (pages : numOfPages < pageEnd) (flash : Memory UInt8) :
    (Pstorage.init (dataStartAddr pageEnd) flash).Inv (dataEndAddr pageEnd) flash [] := by
  have none : ∀ id, ¬ id < 0 := fun id => Nat.not_lt_zero id
  refine ⟨⟨?_, (by decide : 0 < cmdQueueSize), Nat.zero_le _, fun cmd member => absurd member List.not_mem_nil⟩, [], rfl,
    .idle rfl rfl rfl rfl rfl fun _ _ => rfl⟩
  constructor
  · rfl
  · exact Nat.zero_le _
  · exact fun id => iff_of_false Bool.false_ne_true (none id)
  · exact fun id known => absurd known (none id)
  · exact fun id known => absurd known (none id)
  · exact Nat.mul_mod_left _ _
  · exact Nat.mul_mod_left _ _
  · show (pageEnd - 1) * pageSize ≤ (pageEnd - numOfPages - 1) * pageSize + numOfPages * pageSize
    rw [← Nat.add_mul]
    unfold numOfPages at *
    exact Nat.mul_le_mul_right _ (by omega)
  · show (pageEnd - numOfPages - 1) * pageSize ≤ (pageEnd - 1) * pageSize
    unfold numOfPages
    exact Nat.mul_le_mul_right _ (by omega)
  · exact fun id known => absurd known (none id)
  · exact fun first second _ known => absurd known (none second)

end Runs

/-! ### The result -/

section Result

variable {pageEnd : Nat} {flash : Memory UInt8} {store : Pstorage} {accepted : List Cmd}

/-- The bytes below the data pages and behind the swap page, and those of the areas of the modules. -/
def Pstorage.Holds (pageEnd : Nat) (store : Pstorage) (address : Nat) : Prop :=
  address < dataStartAddr pageEnd ∨ dataEndAddr pageEnd + pageSize ≤ address ∨
    ∃ id < store.nextAppInstance, (store.appTable id).baseId ≤ address ∧ address < (store.appTable id).stop

/-- The pages of the command that is carried out, or has failed. -/
def Pstorage.AtHand (store : Pstorage) (address : Nat) : Prop :=
  store.state ≠ .idle ∧ store.current.firstPage ≤ address / pageSize ∧
    address / pageSize ≤ store.current.lastPage

/-- **What the storage promises**: of the commands accepted, those done are notified, each once and in the
order of the calls, and the flash is what they make of it; the others wait. After an error the command at
the front has been notified of it. -/
structure StoreRight (pageEnd : Nat) (flash : Memory UInt8) (accepted done : List Cmd) (store : Pstorage) :
    Prop where
  order : accepted = done ++ store.queue
  idle : store.state = .idle → store.queue = []
  notified : store.state ≠ .error → store.notified = done.map (·.told nrfSuccess)
  failed : store.state = .error → ∃ cmd rest result, store.queue = cmd :: rest ∧ result ≠ nrfSuccess ∧
    store.notified = done.map (·.told nrfSuccess) ++ [cmd.told result]
  agrees : ∀ address, store.Holds pageEnd address → ¬ store.AtHand address →
    store.flash address = performAll flash done address

/-- The data pages end where the swap page begins. -/
theorem data_pages (pages : numOfPages < pageEnd) :
    dataStartAddr pageEnd + numOfPages * pageSize = dataEndAddr pageEnd := by
  unfold dataStartAddr dataEndAddr
  rw [← Nat.add_mul]
  unfold numOfPages at *
  congr 1
  omega

/-- Of the bytes of the areas of the modules, and of those outside the pages of the storage, something is
promised by every module. -/
theorem keeps_of_holds (pages : numOfPages < pageEnd) {initialized : Bool} {nextAppInstance nextPageAddr : Nat}
    {appTable : Memory Module}
    (registry : Registry (dataEndAddr pageEnd) initialized nextAppInstance nextPageAddr appTable)
    {address : Nat} (holds : address < dataStartAddr pageEnd ∨ dataEndAddr pageEnd + pageSize ≤ address ∨
      ∃ id < nextAppInstance, (appTable id).baseId ≤ address ∧ address < (appTable id).stop)
    {id : Nat} (known : id < nextAppInstance) : (appTable id).Keeps (dataEndAddr pageEnd) address := by
  have placed := registry.placed id known
  have area := (registry.blocks id known).2.2
  obtain ⟨swapAligned, aligned, near, inside, words⟩ := placed
  have spread := data_pages pages
  rcases holds with below | behind | ⟨other, otherKnown, first, stop⟩
  · unfold numOfPages at *
    constructor
    · unfold pageSize at *
      omega
    · intro outside
      omega
  · constructor
    · unfold pageSize at *
      omega
    · intro _
      unfold pageSize at *
      omega
  · have otherInside := (registry.placed other otherKnown).inside
    constructor
    · unfold pageSize at *
      omega
    · intro outside samePage
      rcases Nat.lt_trichotomy id other with before | same | after
      · have apart := registry.apart id other before otherKnown
        have := Nat.div_le_div_right (c := pageSize) first
        omega
      · subst same
        omega
      · have apart := registry.apart other id after known
        have base := Nat.div_le_div_right (c := pageSize) (Nat.le_sub_one_of_lt area)
        have other := Nat.div_le_div_right (c := pageSize) (Nat.le_sub_one_of_lt stop)
        omega

theorem Pstorage.Inv.right (pages : numOfPages < pageEnd)
    (inv : store.Inv (dataEndAddr pageEnd) flash accepted) :
    ∃ done, StoreRight pageEnd flash accepted done store := by
  obtain ⟨static, done, all, stage⟩ := inv
  have keeps : ∀ address, store.Holds pageEnd address → store.Keeps (dataEndAddr pageEnd) address :=
    fun address holds id known => keeps_of_holds pages static.registry holds known
  refine ⟨done, all, ?_, ?_, ?_, ?_⟩
  · intro idle
    cases stage with
    | idle _ empty =>
      exact List.eq_nil_of_length_eq_zero ((counted_length ..).trans empty)
    | working _ _ phase => exact absurd idle phase.awake.1
    | failed error => exact absurd (idle.symm.trans error) (by decide)
  · intro fine
    cases stage with
    | idle _ _ _ _ notified => exact notified
    | working _ _ _ _ _ notified => exact notified
    | failed error => exact absurd error fine
  · intro error
    cases stage with
    | idle idle => exact absurd (idle.symm.trans error) (by decide)
    | working _ _ phase => exact absurd error phase.awake.2
    | failed _ nonempty here _ unsuccessful notified =>
      obtain ⟨rest, queue⟩ := queue_cons static nonempty
      exact ⟨_, rest, _, here ▸ queue, unsuccessful, notified⟩
  · intro address holds away
    cases stage with
    | idle _ _ _ _ _ agrees => exact agrees address (keeps address holds)
    | @working cmd start nonempty here phase _ _ _ agrees =>
      have fits := here ▸ current_fits static nonempty
      have outside : address / pageSize < cmd.firstPage ∨ cmd.lastPage < address / pageSize := by
        by_contra inside
        rw [not_or, Nat.not_lt, Nat.not_lt] at inside
        exact away ⟨phase.awake.1, here ▸ inside.1, here ▸ inside.2⟩
      exact (phase_outside fits.2 phase (keeps address holds _ fits.1) outside).trans
        (agrees address (keeps address holds))
    | @failed cmd result error _ here _ _ _ agrees =>
      refine agrees address (keeps address holds) ?_
      by_contra inside
      rw [not_or, Nat.not_lt, Nat.not_lt] at inside
      exact away ⟨by rw [error]; decide, here ▸ inside.1, here ▸ inside.2⟩

/-- **The flash holds what was stored.** Whatever is called between the events, and however the operations of the
flash end: the commands accepted are performed in the order of the calls, each is notified once, and what the
commands done so far make of the flash is there, but for the pages of the command at hand. -/
theorem pstorage_right (pages : numOfPages < pageEnd) (flash : Memory UInt8) {inputs : List Input}
    (legal : EachStep (Pstorage.step (dataEndAddr pageEnd)) Pstorage.Legal
      (Pstorage.init (dataStartAddr pageEnd) flash) inputs) :
    ∃ done, StoreRight pageEnd flash
      ((Pstorage.init (dataStartAddr pageEnd) flash).accepted (dataEndAddr pageEnd) inputs) done
      (run (Pstorage.step (dataEndAddr pageEnd)) (Pstorage.init (dataStartAddr pageEnd) flash) inputs) :=
  Pstorage.Inv.right pages (run_inv (init_inv pages flash) legal)

/-- An update is called while a store waits that the stack has refused; the erase of the swap page fails once. -/
theorem pstorage_right_update : ∃ done, StoreRight 128 (fun _ => 0xFF)
    ((Pstorage.init (dataStartAddr 128) fun _ => 0xFF).accepted (dataEndAddr 128)
      [.register ⟨true, 16, 2⟩, .store ⟨0, dataStartAddr 128⟩ ⟨0, fun _ => 7⟩ 8 4 nrfErrorBusy,
        .update ⟨0, dataStartAddr 128 + 16⟩ ⟨0, fun _ => 9⟩ 4 8 nrfSuccess, .otherEvent true nrfSuccess,
        .complete true nrfSuccess, .complete false nrfSuccess, .complete true nrfSuccess]) done
    (run (Pstorage.step (dataEndAddr 128)) (Pstorage.init (dataStartAddr 128) fun _ => 0xFF)
      [.register ⟨true, 16, 2⟩, .store ⟨0, dataStartAddr 128⟩ ⟨0, fun _ => 7⟩ 8 4 nrfErrorBusy,
        .update ⟨0, dataStartAddr 128 + 16⟩ ⟨0, fun _ => 9⟩ 4 8 nrfSuccess, .otherEvent true nrfSuccess,
        .complete true nrfSuccess, .complete false nrfSuccess, .complete true nrfSuccess]) :=
  pstorage_right (by decide) _ (by decide +kernel)

end Result

end PrimoCore.Storage
