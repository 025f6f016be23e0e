/-
**The persistent storage comes to rest.**

As long as the operations of the flash succeed, every event leads on: to the next operation upon the page, to
the next page, or to the next command.

* `Pstorage.event` — the event that comes next; `Pstorage.settle` — where it leads.
* `Pstorage.left` — what is left of the command at hand.
* `Advances`, `success_advances` — **an event of success leaves less of the command**, or ends it.
* `pstorage_drains` — from wherever the storage has got to, all the commands accepted are performed.
-/

import Mathlib.Data.Prod.Lex
import PrimoCore.Lib.Terminates
import PrimoCore.Storage.StoreRuns

namespace PrimoCore.Storage

open PrimoCore.Lib

/-- The order of the operations upon a page. -/
def SwapSubState.rank : SwapSubState → Nat
  | .restoreHead => 4
  | .eraseSwap => 3
  | .writeDataToSwap => 2
  | .eraseDataPage => 1
  | .restoreTail => 0

namespace Pstorage

variable (swapAddr : Nat) (store : Pstorage)

/-- The next event, of success: that of the operation that runs or, when the stack was busy, that of another
client. The stack accepts what is issued then. -/
def event : Input :=
  if store.running.isSome then .complete true nrfSuccess else .otherEvent true nrfSuccess

def settle : Pstorage := store.step swapAddr store.event

/-- What is left of the command at hand. -/
def left : Nat :=
  match store.state with
  | .dataEraseWithSwap =>
      1 + store.swapSubState.rank + 5 * (store.lastPageId + 1 - store.currentPageId)
  | .dataErase => 1 + 5 * (store.lastPageId + 1 - store.currentPageId)
  | .store | .idle | .error => 0

/-- What is left: of the commands, of the one at hand, and whether its operation is still to be accepted. -/
def remaining : Nat ×ₗ Nat :=
  toLex (store.count, 2 * store.left + if store.running.isSome then 0 else 1)

end Pstorage

/-! ### Operations that are accepted -/

section Accepted

variable {swapAddr : Nat} {store : Pstorage}

theorem flashCall_success (op : FlashOp) :
    store.flashCall op nrfSuccess = { store with running := some op } := if_pos rfl

theorem swapSubStateStateChange_success (newState : SwapSubState) :
    store.swapSubStateStateChange swapAddr newState nrfSuccess = { store with
      swapSubState := newState
      running := some (({ store with swapSubState := newState } : Pstorage).swapOp swapAddr) } := by
  rw [Pstorage.swapSubStateStateChange_eq, flashCall_success]

/-- A change of the state leaves the queue, and the storage in the state. -/
theorem smStateChange_success {newState : State} (awake : newState ≠ .idle ∧ newState ≠ .error) :
    (store.smStateChange swapAddr newState nrfSuccess).count = store.count ∧
      (store.smStateChange swapAddr newState nrfSuccess).state = newState ∧
        (store.smStateChange swapAddr newState nrfSuccess).running.isSome = true := by
  cases newState with
  | idle => exact absurd rfl awake.1
  | error => exact absurd rfl awake.2
  | store =>
    unfold Pstorage.smStateChange Pstorage.storeCmdFlashWriteExecute Pstorage.flashWrite
    simp only [flashCall_success]
    split
    · exact ⟨rfl, rfl, rfl⟩
    · exact ⟨rfl, rfl, rfl⟩
  | dataErase => exact ⟨rfl, rfl, rfl⟩
  | dataEraseWithSwap =>
    unfold Pstorage.smStateChange Pstorage.stateDataEraseSwapEntryRun
    simp only [swapSubStateStateChange_success]
    split
    · exact ⟨rfl, rfl, rfl⟩
    · exact ⟨rfl, rfl, rfl⟩

/-- The next command leaves the queue, and does not fail. -/
theorem cmdProcess_success (fine : store.state ≠ .error) :
    (store.cmdProcess swapAddr nrfSuccess).count = store.count ∧
      (store.cmdProcess swapAddr nrfSuccess).state ≠ .error := by
  have changed : ∀ {before : Pstorage} {newState : State}, before.count = store.count →
      newState ≠ .idle ∧ newState ≠ .error →
        (before.smStateChange swapAddr newState nrfSuccess).count = store.count ∧
          (before.smStateChange swapAddr newState nrfSuccess).state ≠ .error := by
    intro before newState count awake
    obtain ⟨kept, state, -⟩ := @smStateChange_success swapAddr before newState awake
    refine ⟨kept.trans count, ?_⟩
    rw [state]
    exact awake.2
  have erases : (({ store with appDataSize := store.current.size } : Pstorage).clearOperationExecute swapAddr
      nrfSuccess).count = store.count ∧ (({ store with appDataSize := store.current.size } :
        Pstorage).clearOperationExecute swapAddr nrfSuccess).state ≠ .error := by
    unfold Pstorage.clearOperationExecute
    dsimp only
    split
    · exact changed rfl (by decide)
    · split
      · exact changed rfl (by decide)
      · exact changed rfl (by decide)
  unfold Pstorage.cmdProcess
  dsimp only
  split
  · exact changed rfl (by decide)
  · exact erases
  · exact erases
  · exact ⟨rfl, fine⟩
  · exact ⟨rfl, fine⟩

/-- The end of a command takes it from the queue. -/
theorem commandEndProcedureRun_success :
    (store.commandEndProcedureRun swapAddr nrfSuccess).count = store.count - 1 ∧
      (store.commandEndProcedureRun swapAddr nrfSuccess).state ≠ .error := by
  have asleep : State.idle ≠ .error := by decide
  unfold Pstorage.commandEndProcedureRun Pstorage.stateIdleEntryRun Pstorage.cmdQueueDequeue
  dsimp only
  split
  · obtain ⟨count, state⟩ := @cmdProcess_success swapAddr
      { (store.appNotify nrfSuccess).commandQueueElementConsume with
        state := .idle, numOfCommandRetries := 0, numOfBytesWritten := 0 } asleep
    exact ⟨count, state⟩
  · exact ⟨rfl, asleep⟩

end Accepted

/-! ### Less is left -/

/-- Less is left of the command at hand, or it ends. -/
inductive Advances (swapAddr : Nat) (store : Pstorage) : Pstorage → Prop
  | sooner {result : Pstorage} (count : result.count = store.count) (fine : result.state ≠ .error)
      (lower : result.left < store.left) : Advances swapAddr store result
  | ends {next : Pstorage} (count : next.count = store.count) :
      Advances swapAddr store (next.commandEndProcedureRun swapAddr nrfSuccess)

section Less

variable {swapAddr : Nat} {store next : Pstorage}

theorem Advances.lowers {result : Pstorage} (advances : Advances swapAddr store result)
    (nonempty : store.count ≠ 0) : result.state ≠ .error ∧
      (result.count < store.count ∨ result.count = store.count ∧ result.left < store.left) := by
  cases advances with
  | sooner count fine lower => exact ⟨fine, .inr ⟨count, lower⟩⟩
  | ends count =>
    obtain ⟨fewer, fine⟩ := commandEndProcedureRun_success
    refine ⟨fine, .inl ?_⟩
    rw [fewer, count]
    exact Nat.sub_one_lt nonempty

/-- What is left behind an operation of a sub state. -/
theorem swaps_advances (count : next.count = store.count) (state : next.state = .dataEraseWithSwap)
    (newState : SwapSubState)
    (lower : 1 + newState.rank + 5 * (next.lastPageId + 1 - next.currentPageId) < store.left) :
    Advances swapAddr store (next.swapSubStateStateChange swapAddr newState nrfSuccess) := by
  rw [swapSubStateStateChange_success]
  refine .sooner count ?_ ?_
  · show next.state ≠ .error
    rw [state]
    decide
  · unfold Pstorage.left
    dsimp only
    rw [state]
    exact lower

/-- What is left behind the last page. -/
theorem clearPostProcessingRun_advances (count : next.count = store.count) (erases : 0 < store.left) :
    Advances swapAddr store (next.clearPostProcessingRun swapAddr nrfSuccess) := by
  unfold Pstorage.clearPostProcessingRun
  split
  · exact .ends count
  · obtain ⟨kept, state, -⟩ := @smStateChange_success swapAddr next .store (by decide)
    refine .sooner (kept.trans count) ?_ ?_
    · show (next.smStateChange swapAddr .store nrfSuccess).state ≠ .error
      rw [state]
      decide
    · show (next.smStateChange swapAddr .store nrfSuccess).left < store.left
      unfold Pstorage.left at *
      rw [state]
      exact erases

theorem left_swap (state : store.state = .dataEraseWithSwap) :
    store.left = 1 + store.swapSubState.rank + 5 * (store.lastPageId + 1 - store.currentPageId) := by
  unfold Pstorage.left
  rw [state]

theorem left_erase (state : store.state = .dataErase) :
    store.left = 1 + 5 * (store.lastPageId + 1 - store.currentPageId) := by
  unfold Pstorage.left
  rw [state]

/-- The head is back. -/
theorem headRestoreStateRun_advances (state : store.state = .dataEraseWithSwap)
    (sub : store.swapSubState = .restoreHead) :
    Advances swapAddr store (store.headRestoreStateRun swapAddr nrfSuccess) := by
  have left := left_swap state
  rw [sub] at left
  unfold Pstorage.headRestoreStateRun
  dsimp only
  split
  · refine swaps_advances (by rfl) (by exact state) _ ?_
    rw [left]
    exact Nat.add_lt_add_right (by decide) _
  · split
    · refine swaps_advances (by rfl) (by exact state) _ ?_
      rw [left]
      exact Nat.add_lt_add_right (by decide) _
    · split
      · refine swaps_advances (by rfl) (by exact state) _ ?_
        rw [left]
        exact Nat.add_lt_add_right (by decide) _
      · exact clearPostProcessingRun_advances rfl (by omega)

/-- A page is erased. -/
theorem dataPageEraseStateRun_advances (state : store.state = .dataEraseWithSwap)
    (sub : store.swapSubState = .eraseDataPage) (page : store.currentPageId ≤ store.lastPageId) :
    Advances swapAddr store (store.dataPageEraseStateRun swapAddr nrfSuccess) := by
  have left := left_swap state
  rw [sub] at left
  have later : ∀ newState : SwapSubState,
      1 + newState.rank + 5 * (store.lastPageId + 1 - (store.currentPageId + 1)) < store.left := by
    intro newState
    have bound : newState.rank ≤ 4 := by cases newState <;> decide
    have one : SwapSubState.eraseDataPage.rank = 1 := rfl
    omega
  unfold Pstorage.dataPageEraseStateRun
  dsimp only
  split
  · exact swaps_advances (by rfl) (by exact state) _ (later _)
  · split
    · exact swaps_advances (by rfl) (by exact state) _ (later _)
    · split
      · split
        · exact swaps_advances (by rfl) (by exact state) _ (later _)
        · exact swaps_advances (by rfl) (by exact state) _ (later _)
      · exact clearPostProcessingRun_advances rfl (by omega)

variable {owner : Module} {cmd : Cmd} {start : Memory UInt8} (fits : owner.Fits cmd)
  (here : store.current = cmd)

include fits here

/-- The page that has been erased is one of the command. -/
theorem page_le (phase : SwapDone swapAddr owner cmd start store) (sub : store.swapSubState = .eraseDataPage) :
    store.currentPageId ≤ store.lastPageId := by
  have last : store.lastPageId = cmd.lastPage := by
    unfold Pstorage.lastPageId
    rw [here]
    rfl
  have order := firstPage_le fits
  unfold SwapDone at phase
  rw [sub] at phase
  rcases phase with ⟨page, -⟩ | ⟨⟨tail, -⟩ | whole, -⟩
  · omega
  · have page := tail.page
    omega
  · rcases whole.last with ⟨page, -⟩ | ⟨page, -⟩
    · omega
    · omega

/-- **An event of success leaves less of the command**, or ends it. -/
theorem success_advances (accepted : store.flashApiErrBusy = false)
    (done : Done swapAddr owner cmd start store) :
    Advances swapAddr store (store.flashOperationSuccessRun swapAddr nrfSuccess) := by
  have notBusy : ¬ store.flashApiErrBusy = true := fun busy => Bool.false_ne_true (accepted.symm.trans busy)
  unfold Done at done
  unfold Pstorage.flashOperationSuccessRun
  cases state : store.state <;> rw [state] at done
  case idle => exact done.elim
  case error => exact done.elim
  case store =>
    have written : store.current.size - store.numOfBytesWritten = 0 := by
      rw [here, done.1, Nat.sub_self]
    show Advances swapAddr store (store.storeSubStateSmRun swapAddr nrfSuccess)
    unfold Pstorage.storeSubStateSmRun
    rw [if_neg notBusy, if_pos written]
    exact .ends rfl
  case dataErase =>
    obtain ⟨-, -, -, -, last, -⟩ := done
    have page : store.currentPageId ≤ store.lastPageId := by
      unfold Pstorage.lastPageId
      rw [here]
      exact last
    have left := left_erase state
    show Advances swapAddr store (store.eraseSubStateSmRun swapAddr nrfSuccess)
    unfold Pstorage.eraseSubStateSmRun
    rw [if_neg notBusy, state]
    dsimp only
    split
    · exact clearPostProcessingRun_advances rfl (by omega)
    · have awake : State.dataErase ≠ .error := by decide
      refine .sooner rfl awake ?_
      rw [left]
      show 1 + 5 * (store.lastPageId + 1 - (store.currentPageId + 1)) < _
      omega
  case dataEraseWithSwap =>
    obtain ⟨-, -, phase⟩ := done
    have left := left_swap state
    show Advances swapAddr store (store.swapSubStateSmRun swapAddr nrfSuccess)
    unfold Pstorage.swapSubStateSmRun
    rw [if_neg notBusy]
    cases sub : store.swapSubState with
    | eraseSwap =>
      rw [sub] at left
      refine swaps_advances (by rfl) (by exact state) _ ?_
      rw [left]
      exact Nat.add_lt_add_right (by decide) _
    | writeDataToSwap =>
      rw [sub] at left
      show Advances swapAddr store (store.dataToSwapWriteStateRun swapAddr nrfSuccess)
      unfold Pstorage.dataToSwapWriteStateRun
      split
      · refine swaps_advances (by rfl) (by exact state) _ ?_
        rw [left]
        exact Nat.add_lt_add_right (by decide) _
      · refine swaps_advances (by rfl) (by exact state) _ ?_
        rw [left]
        exact Nat.add_lt_add_right (by decide) _
    | eraseDataPage => exact dataPageEraseStateRun_advances state sub (page_le fits here phase sub)
    | restoreTail => exact clearPostProcessingRun_advances rfl (by omega)
    | restoreHead => exact headRestoreStateRun_advances state sub

end Less

/-! ### Until nothing is left -/

section Settles

variable {swapAddr : Nat} {flash : Memory UInt8} {store : Pstorage} {accepted : List Cmd}

/-- What the stack did not accept before is accepted. -/
theorem busy_accepted (awake : store.state ≠ .idle ∧ store.state ≠ .error) (busy : store.flashApiErrBusy = true) :
    (store.flashOperationSuccessRun swapAddr nrfSuccess).count = store.count ∧
      (store.flashOperationSuccessRun swapAddr nrfSuccess).state ≠ .error ∧
        (store.flashOperationSuccessRun swapAddr nrfSuccess).left = store.left ∧
          (store.flashOperationSuccessRun swapAddr nrfSuccess).running.isSome = true := by
  unfold Pstorage.flashOperationSuccessRun
  cases state : store.state with
  | idle => exact absurd state awake.1
  | error => exact absurd state awake.2
  | store =>
    have again := @smStateChange_success swapAddr
      { store with state := .store, flashApiErrBusy := false } .store (by decide)
    have nothing : store.left = 0 := by
      unfold Pstorage.left
      rw [state]
    show (store.storeSubStateSmRun swapAddr nrfSuccess).count = _ ∧ _
    unfold Pstorage.storeSubStateSmRun Pstorage.mainStateErrBusyProcess
    rw [if_pos busy, nothing]
    dsimp only
    rw [state]
    refine ⟨again.1, ?_, ?_, again.2.2⟩
    · rw [again.2.1]
      decide
    · unfold Pstorage.left
      rw [again.2.1]
  | dataErase =>
    have left := left_erase state
    show (store.eraseSubStateSmRun swapAddr nrfSuccess).count = _ ∧ _
    unfold Pstorage.eraseSubStateSmRun Pstorage.mainStateErrBusyProcess
    rw [if_pos busy]
    dsimp only
    have awake : State.dataErase ≠ .error := by decide
    rw [state, left]
    exact ⟨rfl, awake, rfl, rfl⟩
  | dataEraseWithSwap =>
    have left := left_swap state
    show (store.swapSubStateSmRun swapAddr nrfSuccess).count = _ ∧ _
    unfold Pstorage.swapSubStateSmRun
    rw [if_pos busy, swapSubStateStateChange_success]
    refine ⟨rfl, ?_, ?_, rfl⟩
    · show store.state ≠ .error
      rw [state]
      decide
    · rw [left]
      exact left_swap state

/-- **An event leaves fewer commands**, or less of the one at hand. -/
theorem settle_lowers (inv : store.Inv swapAddr flash accepted) (fine : store.state ≠ .error)
    (works : store.state ≠ .idle) : (store.settle swapAddr).state ≠ .error ∧
      (store.settle swapAddr).remaining < store.remaining := by
  obtain ⟨static, done, -, stage⟩ := inv
  cases stage with
  | idle idle => exact absurd idle works
  | failed error => exact absurd error fine
  | @working cmd start nonempty here phase issued =>
    have fits := here ▸ current_fits static nonempty
    have placed := static.registry.placed _ fits.1
    rcases issued with ⟨runs, accepted⟩ | ⟨free, busy⟩
    · have run : store.settle swapAddr =
          ({ store with flash := (store.op swapAddr).apply store.flash, running := none } :
            Pstorage).flashOperationSuccessRun swapAddr nrfSuccess := by
        unfold Pstorage.settle Pstorage.event Pstorage.step
        rw [runs]
        show store.complete swapAddr true nrfSuccess = _
        unfold Pstorage.complete
        rw [runs]
        dsimp only
        rw [sysEventHandler_awake (by exact phase.awake), if_pos (.inl rfl)]
        rfl
      have advances := @success_advances swapAddr
        { store with flash := (store.op swapAddr).apply store.flash, running := none } _ cmd start fits.2 here
        accepted (op_done placed fits.2 here phase)
      rw [← run] at advances
      obtain ⟨fine, fewer | ⟨count, lower⟩⟩ := advances.lowers nonempty
      · exact ⟨fine, Prod.Lex.toLex_lt_toLex.mpr (.inl fewer)⟩
      · have lower : (store.settle swapAddr).left < store.left := lower
        refine ⟨fine, Prod.Lex.toLex_lt_toLex.mpr (.inr ⟨count, ?_⟩)⟩
        dsimp only
        split <;> omega
    · have run : store.settle swapAddr = store.flashOperationSuccessRun swapAddr nrfSuccess := by
        unfold Pstorage.settle Pstorage.event Pstorage.step
        rw [free]
        show store.sysEventHandler swapAddr true nrfSuccess = _
        rw [sysEventHandler_awake phase.awake, if_pos (.inl rfl)]
      obtain ⟨count, fine, left, accepted⟩ := @busy_accepted swapAddr store phase.awake busy
      rw [← run] at count fine left accepted
      refine ⟨fine, Prod.Lex.toLex_lt_toLex.mpr (.inr ⟨count, ?_⟩)⟩
      dsimp only
      rw [left, accepted, free, if_pos rfl]
      exact Nat.lt_succ_self _

/-- The events are no calls. -/
theorem settle_inv (inv : store.Inv swapAddr flash accepted) :
    (store.settle swapAddr).Inv swapAddr flash accepted := by
  have nothing : store.accepts swapAddr store.event = [] := by
    unfold Pstorage.accepts Pstorage.event
    split <;> exact ite_self _
  have legal : store.Legal store.event := by
    unfold Pstorage.event
    split
    · trivial
    · next free => exact Option.not_isSome_iff_eq_none.mp free
  have kept := step_inv inv legal
  rwa [nothing, List.append_nil] at kept

/-- **From wherever the storage has got to**, as long as it has not failed: when the operations of the flash
succeed from then on, every accepted command is performed and notified, in the order of the calls, and the
flash is what they make of it. -/
theorem pstorage_drains {pageEnd : Nat} (pages : numOfPages < pageEnd) (flash : Memory UInt8) {inputs : List Input}
    (legal : EachStep (Pstorage.step (dataEndAddr pageEnd)) Pstorage.Legal
      (Pstorage.init (dataStartAddr pageEnd) flash) inputs)
    (fine : (run (Pstorage.step (dataEndAddr pageEnd))
      (Pstorage.init (dataStartAddr pageEnd) flash) inputs).state ≠ .error) :
    ∃ count last, last = (Pstorage.settle (dataEndAddr pageEnd))^[count]
        (run (Pstorage.step (dataEndAddr pageEnd)) (Pstorage.init (dataStartAddr pageEnd) flash) inputs) ∧
      last.state = .idle ∧ StoreRight pageEnd flash
        ((Pstorage.init (dataStartAddr pageEnd) flash).accepted (dataEndAddr pageEnd) inputs)
        ((Pstorage.init (dataStartAddr pageEnd) flash).accepted (dataEndAddr pageEnd) inputs) last := by
  have reached := run_inv (init_inv pages flash) legal
  have lowers : ∀ store : Pstorage, store.Inv (dataEndAddr pageEnd) flash
      ((Pstorage.init (dataStartAddr pageEnd) flash).accepted (dataEndAddr pageEnd) inputs) ∧
        store.state ≠ .error → ¬ store.state = .idle →
          ((store.settle (dataEndAddr pageEnd)).Inv (dataEndAddr pageEnd) flash
            ((Pstorage.init (dataStartAddr pageEnd) flash).accepted (dataEndAddr pageEnd) inputs) ∧
              (store.settle (dataEndAddr pageEnd)).state ≠ .error) ∧
            (store.settle (dataEndAddr pageEnd)).remaining < store.remaining := by
    rintro store ⟨inv, fine⟩ works
    obtain ⟨fine, lower⟩ := settle_lowers inv fine works
    exact ⟨⟨settle_inv inv, fine⟩, lower⟩
  obtain ⟨count, ⟨inv, -⟩, idle⟩ := exists_iterate lowers ⟨reached, fine⟩
  obtain ⟨done, right⟩ := inv.right pages
  have all := right.order
  rw [right.idle idle, List.append_nil] at all
  subst all
  exact ⟨count, _, rfl, idle, right⟩

/-- Two commands, the first of which was refused by the stack and whose first operation failed. -/
theorem pstorage_drains_update : ∃ count last, last = (Pstorage.settle (dataEndAddr 128))^[count]
      (run (Pstorage.step (dataEndAddr 128)) (Pstorage.init (dataStartAddr 128) fun _ => 0xFF)
        [.register ⟨true, 16, 2⟩, .update ⟨0, dataStartAddr 128⟩ ⟨0, fun _ => 7⟩ 8 4 nrfErrorBusy,
          .clear ⟨0, dataStartAddr 128 + 16⟩ 16 nrfSuccess, .otherEvent true nrfSuccess,
          .complete false nrfSuccess]) ∧
    last.state = .idle ∧ StoreRight 128 (fun _ => 0xFF)
      ((Pstorage.init (dataStartAddr 128) fun _ => 0xFF).accepted (dataEndAddr 128)
        [.register ⟨true, 16, 2⟩, .update ⟨0, dataStartAddr 128⟩ ⟨0, fun _ => 7⟩ 8 4 nrfErrorBusy,
          .clear ⟨0, dataStartAddr 128 + 16⟩ 16 nrfSuccess, .otherEvent true nrfSuccess,
          .complete false nrfSuccess])
      ((Pstorage.init (dataStartAddr 128) fun _ => 0xFF).accepted (dataEndAddr 128)
        [.register ⟨true, 16, 2⟩, .update ⟨0, dataStartAddr 128⟩ ⟨0, fun _ => 7⟩ 8 4 nrfErrorBusy,
          .clear ⟨0, dataStartAddr 128 + 16⟩ 16 nrfSuccess, .otherEvent true nrfSuccess,
          .complete false nrfSuccess]) last :=
  pstorage_drains (by decide) _ (by decide +kernel) (by decide +kernel)

end Settles

end PrimoCore.Storage
