/-
**One command of the persistent storage.**

An update or a clear erases the pages of its area one after the other. What has to stay of the first and of
the last page is copied to the swap page before and back from it after; when the first page is the last one,
one copy serves both.

* `Cmd.perform` — what a command is to make of the flash.
* `Module.Keeps` — the bytes of which something is promised: not the swap page, and not what is left over
  of a page behind the area of the module.
* `Phase` — what holds of the flash while a command is carried out, for every state of the machine.
* `Proceeds` — the machine issues the next operation in such a state, or the command has been performed.
* `begins`, `op_done`, `done_proceeds` — **a command begins in such a state, and an operation that succeeds
  leads on to the next one**.
* `phase_outside` — the other pages are left alone.
-/

import PrimoCore.Storage.Pstorage

namespace PrimoCore.Storage

open PrimoCore.Lib

/-! ### What a command is to do -/

namespace Cmd

variable (cmd : Cmd)

/-- The first byte of the area of a command. -/
def first : Nat := cmd.storageAddr.blockId + cmd.offset

/-- The first byte behind it. -/
def stop : Nat := cmd.storageAddr.blockId + cmd.size + cmd.offset

def firstPage : Nat := cmd.first / pageSize

def lastPage : Nat := (cmd.stop - 1) / pageSize

/-- What is at `p_data_addr`. -/
def bytes : Memory UInt8 := fun index => cmd.pDataAddr.elim 0 fun data => data.bytes index

/-- **What a command makes of the flash.** -/
def perform (contents : Memory UInt8) : Memory UInt8 := fun address =>
  if cmd.first ≤ address ∧ address < cmd.stop then
    match cmd.opCode with
    | .store => contents address &&& cmd.bytes (address - cmd.first)
    | .update => cmd.bytes (address - cmd.first)
    | .clear => 0xFF
    | .invalid | .load => contents address
  else contents address

end Cmd

namespace Module

variable (swapAddr : Nat) (owner : Module)

/-- The first byte behind the blocks of a module. -/
def stop : Nat := owner.baseId + owner.blockSize * owner.blockCount

/-- A module has its pages before the swap page. -/
structure Placed : Prop where
  swapAligned : swapAddr % pageSize = 0
  aligned : owner.baseId % pageSize = 0
  near : swapAddr ≤ owner.baseId + numOfPages * pageSize
  inside : owner.stop ≤ swapAddr
  words : owner.stop % 4 = 0

/-- Something is promised of a byte. -/
def Keeps (address : Nat) : Prop :=
  address / pageSize ≠ swapAddr / pageSize ∧
    (owner.stop ≤ address → address / pageSize ≠ (owner.stop - 1) / pageSize)

/-- A command for an area of the module. What erases has to begin in the page its block begins in. -/
structure Fits (cmd : Cmd) : Prop where
  opCode : cmd.opCode = .store ∨ cmd.opCode = .update ∨ cmd.opCode = .clear
  base : owner.baseId ≤ cmd.storageAddr.blockId
  notRaw : cmd.storageAddr.moduleId < numOfPages
  nonempty : cmd.size ≠ 0
  inside : cmd.stop ≤ owner.stop
  firstWord : cmd.first % 4 = 0
  stopWord : cmd.stop % 4 = 0
  small : cmd.opCode ≠ .clear → cmd.size + cmd.offset ≤ pageSize
  whole : cmd.opCode = .clear → cmd.offset = 0
  samePage : cmd.opCode ≠ .store → cmd.storageAddr.blockId / pageSize = cmd.firstPage

end Module

/-! ### The operations of a state -/

namespace Pstorage

variable (swapAddr : Nat) (store : Pstorage)

/-- The operation of a sub state. -/
def swapOp : FlashOp :=
  match store.swapSubState with
  | .eraseSwap => .pageErase (swapAddr / pageSize)
  | .writeDataToSwap => .write swapAddr (.flash (store.currentPageId * pageSize)) (pageSize / 4)
  | .eraseDataPage => .pageErase store.currentPageId
  | .restoreTail =>
      .write store.current.stop (.flash (swapAddr + store.current.stop % pageSize)) store.tailWordSize
  | .restoreHead =>
      .write ((store.currentPageId - 1) * pageSize) (.flash swapAddr) store.headWordSize

/-- The operation of a state. -/
def op : FlashOp :=
  match store.state with
  | .store => .write store.current.first (.ram store.current.bytes) (store.current.size / 4)
  | .dataErase => .pageErase store.currentPageId
  | _ => store.swapOp swapAddr

theorem swapSubStateStateChange_eq (newState : SwapSubState) (answer : UInt32) :
    store.swapSubStateStateChange swapAddr newState answer =
      ({ store with swapSubState := newState }).flashCall
        (({ store with swapSubState := newState } : Pstorage).swapOp swapAddr) answer := by
  cases newState <;> rfl

/-- The variables that only the calls and the end of a command change. -/
structure SameQueue (before after : Pstorage) : Prop where
  rp : after.rp = before.rp
  count : after.count = before.count
  cmd : after.cmd = before.cmd
  nextAppInstance : after.nextAppInstance = before.nextAppInstance
  nextPageAddr : after.nextPageAddr = before.nextPageAddr
  appTable : after.appTable = before.appTable
  appDataSize : after.appDataSize = before.appDataSize
  moduleInitialized : after.moduleInitialized = before.moduleInitialized
  notified : after.notified = before.notified

end Pstorage

/-! ### Phases -/

section Phases

variable (swapAddr : Nat) (owner : Module) (cmd : Cmd) (start : Memory UInt8)

/-- The flash holds what it held at the start, but for a range that is erased. -/
def Erased (flash : Memory UInt8) (first stop : Nat) : Prop :=
  ∀ address, owner.Keeps swapAddr address →
    flash address = if first ≤ address ∧ address < stop then 0xFF else start address

/-- The swap page holds what a page held at the start. -/
def Copied (flash : Memory UInt8) (page : Nat) : Prop :=
  ∀ offset < pageSize, owner.Keeps swapAddr (page * pageSize + offset) →
    flash (swapAddr + offset) = start (page * pageSize + offset)

/-- What is to be restored behind the area. -/
def TailSize (store : Pstorage) : Prop :=
  store.tailWordSize = 0 ∧ (cmd.stop % pageSize = 0 ∨ cmd.stop = owner.stop) ∨
    store.tailWordSize ≠ 0 ∧ cmd.stop % pageSize ≠ 0 ∧
      cmd.stop + 4 * store.tailWordSize = min owner.stop ((cmd.stop / pageSize + 1) * pageSize)

/-- The first page has a head that is still to be saved, or to be restored. -/
structure HeadPending (headWordSize : Nat) (tailSwapDone singlePageOperation : Bool) : Prop where
  size : 4 * headWordSize = cmd.first % pageSize
  nonzero : headWordSize ≠ 0
  later : cmd.firstPage + 1 < cmd.lastPage → tailSwapDone = false ∧ singlePageOperation = false

/-- The last page is the one at hand, and has a tail. -/
structure TailPending (currentPageId headWordSize tailWordSize : Nat) : Prop where
  page : currentPageId = cmd.lastPage
  first : cmd.first ≤ currentPageId * pageSize
  head : headWordSize = 0
  tail : tailWordSize ≠ 0

/-- A page is at hand of which nothing is to be kept. -/
structure WholePage (currentPageId headWordSize tailWordSize : Nat) (tailSwapDone : Bool) : Prop where
  first : cmd.first ≤ currentPageId * pageSize
  head : headWordSize = 0
  last : currentPageId < cmd.lastPage ∧ (tailWordSize ≠ 0 → tailSwapDone = false) ∨
    currentPageId = cmd.lastPage ∧ tailWordSize = 0

/-- The page at hand is the first one, with its head, or the last one, with its tail. -/
def Saves (store : Pstorage) : Prop :=
  store.currentPageId = cmd.firstPage ∧
      HeadPending cmd store.headWordSize store.tailSwapDone store.singlePageOperation ∨
    TailPending cmd store.currentPageId store.headWordSize store.tailWordSize ∧
      (store.tailSwapDone = true ∨ store.singlePageOperation = true)

def SwapPhase (store : Pstorage) : Prop :=
  match store.swapSubState with
  | .eraseSwap => Saves cmd store ∧
      Erased swapAddr owner start store.flash cmd.first (store.currentPageId * pageSize)
  | .writeDataToSwap => Saves cmd store ∧
      Erased swapAddr owner start store.flash cmd.first (store.currentPageId * pageSize) ∧
        ∀ address, address / pageSize = swapAddr / pageSize → store.flash address = 0xFF
  | .eraseDataPage =>
      (store.currentPageId = cmd.firstPage ∧
          HeadPending cmd store.headWordSize store.tailSwapDone store.singlePageOperation ∧
            Copied swapAddr owner start store.flash store.currentPageId ∨
        TailPending cmd store.currentPageId store.headWordSize store.tailWordSize ∧
          store.tailSwapDone = true ∧ Copied swapAddr owner start store.flash store.currentPageId ∨
        WholePage cmd store.currentPageId store.headWordSize store.tailWordSize store.tailSwapDone) ∧
      Erased swapAddr owner start store.flash cmd.first (store.currentPageId * pageSize)
  | .restoreHead => store.currentPageId = cmd.firstPage + 1 ∧
      HeadPending cmd store.headWordSize store.tailSwapDone store.singlePageOperation ∧
        Copied swapAddr owner start store.flash cmd.firstPage ∧
          Erased swapAddr owner start store.flash (cmd.firstPage * pageSize) (store.currentPageId * pageSize)
  | .restoreTail => store.tailWordSize ≠ 0 ∧ Copied swapAddr owner start store.flash cmd.lastPage ∧
      Erased swapAddr owner start store.flash cmd.first ((cmd.lastPage + 1) * pageSize)

/-- What the operation of a sub state leads to. -/
def SwapDone (store : Pstorage) : Prop :=
  match store.swapSubState with
  | .eraseSwap => Saves cmd store ∧
      Erased swapAddr owner start store.flash cmd.first (store.currentPageId * pageSize) ∧
        ∀ address, address / pageSize = swapAddr / pageSize → store.flash address = 0xFF
  | .writeDataToSwap => Saves cmd store ∧
      Erased swapAddr owner start store.flash cmd.first (store.currentPageId * pageSize) ∧
        Copied swapAddr owner start store.flash store.currentPageId
  | .eraseDataPage =>
      (store.currentPageId = cmd.firstPage ∧
          HeadPending cmd store.headWordSize store.tailSwapDone store.singlePageOperation ∧
            Copied swapAddr owner start store.flash cmd.firstPage ∧
              Erased swapAddr owner start store.flash (cmd.firstPage * pageSize)
                ((store.currentPageId + 1) * pageSize)) ∨
        (TailPending cmd store.currentPageId store.headWordSize store.tailWordSize ∧
          store.tailSwapDone = true ∧ Copied swapAddr owner start store.flash store.currentPageId ∨
        WholePage cmd store.currentPageId store.headWordSize store.tailWordSize store.tailSwapDone) ∧
          Erased swapAddr owner start store.flash cmd.first ((store.currentPageId + 1) * pageSize)
  | .restoreHead => store.currentPageId = cmd.firstPage + 1 ∧
      HeadPending cmd store.headWordSize store.tailSwapDone store.singlePageOperation ∧
        Copied swapAddr owner start store.flash cmd.firstPage ∧
          Erased swapAddr owner start store.flash cmd.first (store.currentPageId * pageSize)
  | .restoreTail => Erased swapAddr owner start store.flash cmd.first cmd.stop

/-- **What holds while a command is carried out.** -/
def Phase (store : Pstorage) : Prop :=
  match store.state with
  | .store => store.numOfBytesWritten = cmd.size ∧
      (cmd.opCode = .store ∧ (∀ address, owner.Keeps swapAddr address →
          store.flash address = start address) ∨
        cmd.opCode = .update ∧ Erased swapAddr owner start store.flash cmd.first cmd.stop)
  | .dataErase => cmd.opCode ≠ .store ∧ store.tailWordSize = 0 ∧
      (cmd.stop % pageSize = 0 ∨ cmd.stop = owner.stop) ∧
        cmd.first ≤ store.currentPageId * pageSize ∧ store.currentPageId ≤ cmd.lastPage ∧
          Erased swapAddr owner start store.flash cmd.first (store.currentPageId * pageSize)
  | .dataEraseWithSwap => cmd.opCode ≠ .store ∧ TailSize owner cmd store ∧
      SwapPhase swapAddr owner cmd start store
  | .idle | .error => False

/-- What the operation of a state leads to. -/
def Done (store : Pstorage) : Prop :=
  match store.state with
  | .store => store.numOfBytesWritten = cmd.size ∧ ∀ address, owner.Keeps swapAddr address →
      store.flash address = cmd.perform start address
  | .dataErase => cmd.opCode ≠ .store ∧ store.tailWordSize = 0 ∧
      (cmd.stop % pageSize = 0 ∨ cmd.stop = owner.stop) ∧
        cmd.first ≤ store.currentPageId * pageSize ∧ store.currentPageId ≤ cmd.lastPage ∧
          Erased swapAddr owner start store.flash cmd.first ((store.currentPageId + 1) * pageSize)
  | .dataEraseWithSwap => cmd.opCode ≠ .store ∧ TailSize owner cmd store ∧
      SwapDone swapAddr owner cmd start store
  | .idle | .error => False

end Phases

/-! ### Proceeding -/

section Proceeding

variable (swapAddr : Nat) (owner : Module) (cmd : Cmd) (start : Memory UInt8)

/-- The next operation is issued. -/
inductive Issues (store : Pstorage) (answer : UInt32) : Pstorage → Prop
  | intro {next : Pstorage} (same : store.SameQueue next) (phase : Phase swapAddr owner cmd start next)
      (free : next.running = none) (accepted : next.flashApiErrBusy = false) :
      Issues store answer (next.flashCall (next.op swapAddr) answer)

/-- **What an event leads to**: the next operation is issued, or the command has been performed. -/
inductive Proceeds (store : Pstorage) (answer : UInt32) : Pstorage → Prop
  | issues {result : Pstorage} (issues : Issues swapAddr owner cmd start store answer result) :
      Proceeds store answer result
  | ends {next : Pstorage} (same : store.SameQueue next)
      (performed : ∀ address, owner.Keeps swapAddr address →
        next.flash address = cmd.perform start address)
      (free : next.running = none) (accepted : next.flashApiErrBusy = false) :
      Proceeds store answer (next.commandEndProcedureRun swapAddr answer)

end Proceeding

section Command

variable {swapAddr : Nat} {owner : Module} {cmd : Cmd} (placed : owner.Placed swapAddr)
  (fits : owner.Fits cmd) {start : Memory UInt8} {store : Pstorage} (here : store.current = cmd)
  (free : store.running = none) (accepted : store.flashApiErrBusy = false) (answer : UInt32)

include fits in
/-- Where the area of a command lies. -/
theorem Module.Fits.bounds : cmd.first < cmd.stop ∧ cmd.stop = cmd.first + cmd.size ∧
    owner.baseId ≤ cmd.first := by
  have nonempty := fits.nonempty
  have base := fits.base
  unfold Cmd.first Cmd.stop
  omega

include placed fits in
/-- The pages of a command are not the swap page. -/
theorem lastPage_lt : cmd.lastPage < swapAddr / pageSize := by
  have order := fits.bounds.1
  have inside := fits.inside
  have below := placed.inside
  have aligned := placed.swapAligned
  unfold Cmd.lastPage
  unfold pageSize at *
  omega

include fits in
theorem firstPage_le : cmd.firstPage ≤ cmd.lastPage := by
  have order := fits.bounds.1
  exact Nat.div_le_div_right (by omega)

include fits in
/-- Of what lies behind the area in its last page, something is promised only of the tail. -/
theorem inside_of_keeps {address : Nat} (keeps : owner.Keeps swapAddr address)
    (page : address / pageSize = cmd.lastPage) : address < owner.stop := by
  by_contra outside
  refine keeps.2 (Nat.le_of_not_lt outside) ?_
  have order := fits.bounds.1
  have inside := fits.inside
  unfold Cmd.lastPage at page
  unfold pageSize at *
  omega

namespace Pstorage.SameQueue

variable {before between after : Pstorage}

theorem refl (store : Pstorage) : store.SameQueue store := ⟨rfl, rfl, rfl, rfl, rfl, rfl, rfl, rfl, rfl⟩

theorem trans (first : before.SameQueue between) (second : between.SameQueue after) :
    before.SameQueue after where
  rp := second.rp.trans first.rp
  count := second.count.trans first.count
  cmd := second.cmd.trans first.cmd
  nextAppInstance := second.nextAppInstance.trans first.nextAppInstance
  nextPageAddr := second.nextPageAddr.trans first.nextPageAddr
  appTable := second.appTable.trans first.appTable
  appDataSize := second.appDataSize.trans first.appDataSize
  moduleInitialized := second.moduleInitialized.trans first.moduleInitialized
  notified := second.notified.trans first.notified

end Pstorage.SameQueue

/-- Only the queue of the state before matters. -/
theorem Issues.of_same {before result : Pstorage}
    (issues : Issues swapAddr owner cmd start store answer result) (same : before.SameQueue store) :
    Issues swapAddr owner cmd start before answer result := by
  cases issues with
  | intro next phase free accepted => exact .intro (same.trans next) phase free accepted

theorem Proceeds.of_same {before result : Pstorage}
    (proceeds : Proceeds swapAddr owner cmd start store answer result) (same : before.SameQueue store) :
    Proceeds swapAddr owner cmd start before answer result := by
  cases proceeds with
  | issues issues => exact .issues (issues.of_same answer same)
  | ends next performed free accepted => exact .ends (same.trans next) performed free accepted

namespace Pstorage

/-- The words of a store are issued in one write. -/
theorem storeCmdFlashWriteExecute_eq (small : store.current.size ≤ pageSize) :
    store.storeCmdFlashWriteExecute answer =
      ({ store with numOfBytesWritten := store.current.size }).flashCall
        (.write store.current.first (.ram store.current.bytes) (store.current.size / 4)) answer := by
  unfold storeCmdFlashWriteExecute flashWrite flashCall
  rw [if_neg (Nat.not_lt.mpr small)]
  split
  · rfl
  · split <;> rfl

end Pstorage

/-! ### The store -/

include fits in
theorem size_le (wrote : cmd.opCode ≠ .clear) : cmd.size ≤ pageSize :=
  Nat.le_trans (Nat.le_add_right _ _) (fits.small wrote)

include fits here free accepted in
/-- A store begins; so does the second half of an update. -/
theorem store_begins
    (standing : cmd.opCode = .store ∧ (∀ address, owner.Keeps swapAddr address →
        store.flash address = start address) ∨
      cmd.opCode = .update ∧ Erased swapAddr owner start store.flash cmd.first cmd.stop) :
    Issues swapAddr owner cmd start store answer (store.storeOperationExecute swapAddr answer) := by
  have wrote : cmd.opCode ≠ .clear := by
    rcases standing with ⟨is, -⟩ | ⟨is, -⟩ <;> rw [is] <;> decide
  have small : store.current.size ≤ pageSize := by
    rw [here]
    exact size_le fits wrote
  have issued : store.storeOperationExecute swapAddr answer =
      ({ store with state := .store, numOfBytesWritten := store.current.size } : Pstorage).flashCall
        (.write store.current.first (.ram store.current.bytes) (store.current.size / 4)) answer :=
    @Pstorage.storeCmdFlashWriteExecute_eq { store with state := .store } answer small
  rw [issued]
  refine .intro ⟨rfl, rfl, rfl, rfl, rfl, rfl, rfl, rfl, rfl⟩ ?_ free accepted
  exact ⟨congrArg Cmd.size here, standing⟩

include here free accepted in
/-- The area of a command has been erased. -/
theorem erased_proceeds (fits : owner.Fits cmd) (erases : cmd.opCode ≠ .store)
    (erased : Erased swapAddr owner start store.flash cmd.first cmd.stop) :
    Proceeds swapAddr owner cmd start store answer (store.clearPostProcessingRun swapAddr answer) := by
  unfold Pstorage.clearPostProcessingRun
  rw [here]
  rcases fits.opCode with is | is | is
  · exact absurd is erases
  · rw [if_neg (not_not.mpr is)]
    exact .issues (store_begins fits here free accepted answer (.inr ⟨is, erased⟩))
  · rw [if_pos (by rw [is]; decide)]
    refine .ends (.refl store) (fun address keeps => ?_) free accepted
    rw [erased address keeps]
    unfold Cmd.perform
    rw [is]

/-! ### Pages -/

include placed in
theorem swapPage {offset : Nat} (inside : offset < pageSize) :
    (swapAddr + offset) / pageSize = swapAddr / pageSize := by
  have aligned := placed.swapAligned
  unfold pageSize at *
  omega

/-- What happens in the swap page does not matter to the others. -/
theorem Erased.congr {flash flash' : Memory UInt8} {first stop : Nat}
    (erased : Erased swapAddr owner start flash first stop)
    (same : ∀ address, address / pageSize ≠ swapAddr / pageSize → flash' address = flash address) :
    Erased swapAddr owner start flash' first stop :=
  fun address keeps => (same address keeps.1).trans (erased address keeps)

include placed in
/-- What happens elsewhere does not matter to the swap page. -/
theorem Copied.congr {flash flash' : Memory UInt8} {page : Nat}
    (copied : Copied swapAddr owner start flash page)
    (same : ∀ address, address / pageSize = swapAddr / pageSize → flash' address = flash address) :
    Copied swapAddr owner start flash' page :=
  fun offset inside keeps => (same _ (swapPage placed inside)).trans (copied offset inside keeps)

/-- A page behind what is erased already. -/
theorem Erased.pageErase {flash : Memory UInt8} {first page : Nat}
    (erased : Erased swapAddr owner start flash first (page * pageSize)) (reaches : first ≤ page * pageSize) :
    Erased swapAddr owner start ((FlashOp.pageErase page).apply flash) first ((page + 1) * pageSize) := by
  intro address keeps
  show (if address / pageSize = page then 0xFF else flash address) = _
  unfold pageSize at *
  by_cases there : address / 4096 = page
  · rw [if_pos there, if_pos (by omega)]
  · rw [if_neg there, erased address keeps]
    exact if_congr (by omega) rfl rfl

/-- The first page, with its head. -/
theorem Erased.firstPage {flash : Memory UInt8} {first page : Nat}
    (erased : Erased swapAddr owner start flash first (page * pageSize)) (reaches : page * pageSize ≤ first) :
    Erased swapAddr owner start ((FlashOp.pageErase page).apply flash) (page * pageSize)
      ((page + 1) * pageSize) := by
  intro address keeps
  show (if address / pageSize = page then 0xFF else flash address) = _
  unfold pageSize at *
  by_cases there : address / 4096 = page
  · rw [if_pos there, if_pos (by omega)]
  · rw [if_neg there, erased address keeps, if_neg (by omega), if_neg (by omega)]

include placed in
/-- What is not erased yet is copied. -/
theorem Erased.copied {flash : Memory UInt8} {first page : Nat}
    (erased : Erased swapAddr owner start flash first (page * pageSize))
    (blank : ∀ address, address / pageSize = swapAddr / pageSize → flash address = 0xFF) :
    Copied swapAddr owner start
      ((FlashOp.write swapAddr (.flash (page * pageSize)) (pageSize / 4)).apply flash) page := by
  intro offset inside keeps
  have written : swapAddr ≤ swapAddr + offset ∧ swapAddr + offset < swapAddr + 4 * (pageSize / 4) := by
    unfold pageSize at *
    omega
  show (if _ then flash (swapAddr + offset) &&& flash (page * pageSize + (swapAddr + offset - swapAddr))
    else _) = _
  rw [if_pos written, blank _ (swapPage placed inside), Nat.add_sub_cancel_left, erased _ keeps,
    if_neg (by omega)]
  exact UInt8.neg_one_and

include fits in
/-- A command with no tail is through with its last page. -/
theorem Erased.whole {flash : Memory UInt8}
    (erased : Erased swapAddr owner start flash cmd.first ((cmd.lastPage + 1) * pageSize))
    (ends : cmd.stop % pageSize = 0 ∨ cmd.stop = owner.stop) :
    Erased swapAddr owner start flash cmd.first cmd.stop := by
  intro address keeps
  rw [erased address keeps]
  refine if_congr ⟨fun ⟨above, below⟩ => ⟨above, ?_⟩, fun ⟨above, below⟩ => ⟨above, ?_⟩⟩ rfl rfl
  · by_contra behind
    have order := fits.bounds.1
    have page : address / pageSize = cmd.lastPage := by
      unfold Cmd.lastPage pageSize at *
      omega
    have inside := inside_of_keeps fits keeps page
    unfold Cmd.lastPage pageSize at *
    omega
  · unfold Cmd.lastPage pageSize
    omega

/-- The head of the first page comes back. -/
theorem Erased.restoreHead {flash : Memory UInt8} {words : Nat}
    (erased : Erased swapAddr owner start flash (cmd.firstPage * pageSize) ((cmd.firstPage + 1) * pageSize))
    (copied : Copied swapAddr owner start flash cmd.firstPage) (size : 4 * words = cmd.first % pageSize) :
    Erased swapAddr owner start
      ((FlashOp.write (cmd.firstPage * pageSize) (.flash swapAddr) words).apply flash) cmd.first
      ((cmd.firstPage + 1) * pageSize) := by
  intro address keeps
  show (if _ then flash address &&& flash (swapAddr + (address - cmd.firstPage * pageSize)) else _) = _
  have split : cmd.first = cmd.firstPage * pageSize + 4 * words := by
    unfold Cmd.firstPage pageSize at *
    omega
  rw [← split]
  by_cases head : cmd.firstPage * pageSize ≤ address ∧ address < cmd.first
  · have offset : cmd.firstPage * pageSize + (address - cmd.firstPage * pageSize) = address := by omega
    have inside : address - cmd.firstPage * pageSize < pageSize := by
      unfold Cmd.firstPage pageSize at *
      omega
    have below : address < (cmd.firstPage + 1) * pageSize := by
      rw [Nat.succ_mul]
      omega
    have copy := copied _ inside (by rwa [offset])
    rw [if_pos head, copy, offset, erased address keeps, if_pos ⟨head.1, below⟩, if_neg (by omega)]
    exact UInt8.neg_one_and
  · rw [if_neg head, erased address keeps]
    exact if_congr (by omega) rfl rfl

include fits in
/-- The tail of the last page comes back. -/
theorem Erased.restoreTail {flash : Memory UInt8}
    (erased : Erased swapAddr owner start flash cmd.first ((cmd.lastPage + 1) * pageSize))
    (copied : Copied swapAddr owner start flash cmd.lastPage) (tail : TailSize owner cmd store)
    (nonzero : store.tailWordSize ≠ 0) :
    Erased swapAddr owner start
      ((FlashOp.write cmd.stop (.flash (swapAddr + cmd.stop % pageSize)) store.tailWordSize).apply flash)
      cmd.first cmd.stop := by
  obtain ⟨zero, -⟩ | ⟨-, inner, size⟩ := tail
  · exact absurd zero nonzero
  have order := fits.bounds.1
  have page : cmd.stop = cmd.lastPage * pageSize + cmd.stop % pageSize := by
    unfold Cmd.lastPage pageSize at *
    omega
  intro address keeps
  show (if _ then flash address &&& flash (swapAddr + cmd.stop % pageSize + (address - cmd.stop)) else _) = _
  by_cases tail : cmd.stop ≤ address ∧ address < cmd.stop + 4 * store.tailWordSize
  · have below : address < (cmd.lastPage + 1) * pageSize := by
      unfold Cmd.lastPage pageSize at *
      omega
    have offset : cmd.lastPage * pageSize + (cmd.stop % pageSize + (address - cmd.stop)) = address := by omega
    have inside : cmd.stop % pageSize + (address - cmd.stop) < pageSize := by
      unfold pageSize at *
      omega
    have copy := copied _ inside (by rwa [offset])
    rw [if_pos tail, Nat.add_assoc, copy, offset, erased address keeps, if_pos ⟨by omega, below⟩,
      if_neg (by omega)]
    exact UInt8.neg_one_and
  · rw [if_neg tail, erased address keeps]
    refine if_congr ⟨fun ⟨above, below⟩ => ⟨above, ?_⟩, fun ⟨above, below⟩ => ⟨above, ?_⟩⟩ rfl rfl
    · by_contra behind
      have last : address / pageSize = cmd.lastPage := by
        unfold Cmd.lastPage pageSize at *
        omega
      have inside := inside_of_keeps fits keeps last
      unfold Cmd.lastPage pageSize at *
      omega
    · unfold Cmd.lastPage pageSize at *
      omega

/-! ### The swap machine -/

variable (state : store.state = .dataEraseWithSwap) (erases : cmd.opCode ≠ .store)
  (tail : TailSize owner cmd store)

theorem phase_swap (state : store.state = .dataEraseWithSwap) :
    Phase swapAddr owner cmd start store ↔ cmd.opCode ≠ .store ∧ TailSize owner cmd store ∧
      SwapPhase swapAddr owner cmd start store := by
  unfold Phase
  rw [state]

theorem op_swap (state : store.state = .dataEraseWithSwap) : store.op swapAddr = store.swapOp swapAddr := by
  unfold Pstorage.op
  rw [state]

include free accepted state erases tail in
/-- A sub state is entered. -/
theorem swap_issues {newState : SwapSubState}
    (phase : SwapPhase swapAddr owner cmd start { store with swapSubState := newState }) :
    Issues swapAddr owner cmd start store answer
      (store.swapSubStateStateChange swapAddr newState answer) := by
  have entered : ({ store with swapSubState := newState } : Pstorage).state = .dataEraseWithSwap := state
  rw [Pstorage.swapSubStateStateChange_eq, ← op_swap entered]
  refine .intro ⟨rfl, rfl, rfl, rfl, rfl, rfl, rfl, rfl, rfl⟩ ?_ free accepted
  exact (phase_swap entered).mpr ⟨erases, tail, phase⟩

include here in
theorem isTailDataPageSwapRequired_iff : store.isTailDataPageSwapRequired = true ↔
    store.tailWordSize ≠ 0 ∧ store.currentPageId = cmd.lastPage := by
  unfold Pstorage.isTailDataPageSwapRequired Pstorage.lastPageId
  rw [here, decide_eq_true_iff]
  rfl

include here in
theorem isPageEraseRequired_iff : store.isPageEraseRequired = true ↔
    store.currentPageId < cmd.lastPage ∨
      store.currentPageId = cmd.lastPage ∧ store.tailWordSize = 0 := by
  unfold Pstorage.isPageEraseRequired Pstorage.lastPageId
  rw [here, decide_eq_true_iff]
  rfl

/-- With no tail the area ends with a page, or with the blocks of the module. -/
theorem TailSize.none (tail : TailSize owner cmd store) (zero : store.tailWordSize = 0) :
    cmd.stop % pageSize = 0 ∨ cmd.stop = owner.stop := by
  rcases tail with ⟨-, ends⟩ | ⟨nonzero, -⟩
  · exact ends
  · exact absurd zero nonzero

include free accepted state erases tail in
/-- The page has been copied, and is erased next. -/
theorem dataToSwapWrite_issues (saves : Saves cmd store)
    (erased : Erased swapAddr owner start store.flash cmd.first (store.currentPageId * pageSize))
    (copied : Copied swapAddr owner start store.flash store.currentPageId) :
    Issues swapAddr owner cmd start store answer (store.dataToSwapWriteStateRun swapAddr answer) := by
  unfold Pstorage.dataToSwapWriteStateRun
  split
  · next single =>
    have entered : SwapPhase swapAddr owner cmd start
        { store with tailSwapDone := true, swapSubState := .eraseDataPage } := by
      refine ⟨?_, erased⟩
      rcases saves with ⟨page, head⟩ | ⟨pending, -⟩
      · refine .inl ⟨page, ⟨head.size, head.nonzero, fun more => ?_⟩, copied⟩
        exact absurd ((head.later more).2.symm.trans single) Bool.false_ne_true
      · exact .inr (.inl ⟨⟨pending.page, pending.first, pending.head, pending.tail⟩, rfl, copied⟩)
    have issued := @swap_issues swapAddr owner cmd start { store with tailSwapDone := true } free accepted
      answer state erases tail _ entered
    exact issued.of_same answer ⟨rfl, rfl, rfl, rfl, rfl, rfl, rfl, rfl, rfl⟩
  · next several =>
    refine swap_issues free accepted answer state erases tail ⟨?_, erased⟩
    rcases saves with ⟨page, head⟩ | ⟨pending, marked⟩
    · exact .inl ⟨page, head, copied⟩
    · exact .inr (.inl ⟨pending, marked.resolve_right several, copied⟩)

include fits here free accepted state erases tail in
/-- The head has been restored. -/
theorem headRestore_proceeds (page : store.currentPageId = cmd.firstPage + 1)
    (head : HeadPending cmd store.headWordSize store.tailSwapDone store.singlePageOperation)
    (copied : Copied swapAddr owner start store.flash cmd.firstPage)
    (erased : Erased swapAddr owner start store.flash cmd.first (store.currentPageId * pageSize)) :
    Proceeds swapAddr owner cmd start store answer (store.headRestoreStateRun swapAddr answer) := by
  have reaches : cmd.first ≤ store.currentPageId * pageSize := by
    rw [page]
    unfold Cmd.firstPage pageSize
    omega
  have order := firstPage_le fits
  unfold Pstorage.headRestoreStateRun
  split
  · next required =>
    obtain ⟨nonzero, last⟩ := (isTailDataPageSwapRequired_iff here).mp required
    have entered : SwapPhase swapAddr owner cmd start
        { store with headWordSize := 0, tailSwapDone := true, swapSubState := .eraseSwap } :=
      ⟨.inr ⟨⟨last, reaches, rfl, nonzero⟩, .inl rfl⟩, erased⟩
    have issued := @swap_issues swapAddr owner cmd start
      { store with headWordSize := 0, tailSwapDone := true } free accepted answer state erases tail _ entered
    exact .issues (issued.of_same answer ⟨rfl, rfl, rfl, rfl, rfl, rfl, rfl, rfl, rfl⟩)
  · next noSwap =>
    split
    · next required =>
      have entered : SwapPhase swapAddr owner cmd start
          { store with headWordSize := 0, swapSubState := .eraseDataPage } := by
        refine ⟨.inr (.inr ⟨reaches, rfl, ?_⟩), erased⟩
        rcases (isPageEraseRequired_iff here).mp required with inner | last
        · exact .inl ⟨inner, fun _ => (head.later (page ▸ inner)).1⟩
        · exact .inr last
      have issued := @swap_issues swapAddr owner cmd start { store with headWordSize := 0 } free accepted
        answer state erases tail _ entered
      exact .issues (issued.of_same answer ⟨rfl, rfl, rfl, rfl, rfl, rfl, rfl, rfl, rfl⟩)
    · next noErase =>
      have behind : cmd.lastPage = cmd.firstPage := by
        rw [isTailDataPageSwapRequired_iff here] at noSwap
        rw [isPageEraseRequired_iff here] at noErase
        omega
      rw [page, ← behind] at erased
      split
      · next nonzero =>
        rw [← behind] at copied
        exact .issues (swap_issues free accepted answer state erases tail ⟨nonzero, copied, erased⟩)
      · next zero =>
        exact erased_proceeds here free accepted answer fits erases
          (erased.whole fits (tail.none (not_not.mp zero)))

include free accepted state erases tail in
/-- The first page has been erased, and its head is restored next. -/
theorem firstPageErase_issues (page : store.currentPageId = cmd.firstPage)
    (head : HeadPending cmd store.headWordSize store.tailSwapDone store.singlePageOperation)
    (copied : Copied swapAddr owner start store.flash cmd.firstPage)
    (erased : Erased swapAddr owner start store.flash (cmd.firstPage * pageSize)
      ((store.currentPageId + 1) * pageSize)) :
    Issues swapAddr owner cmd start store answer (store.dataPageEraseStateRun swapAddr answer) := by
  unfold Pstorage.dataPageEraseStateRun
  dsimp only
  rw [if_pos head.nonzero]
  have entered : SwapPhase swapAddr owner cmd start
      { store with currentPageId := store.currentPageId + 1, swapSubState := .restoreHead } :=
    ⟨congrArg Nat.succ page, head, copied, erased⟩
  have issued := @swap_issues swapAddr owner cmd start
    { store with currentPageId := store.currentPageId + 1 } free accepted answer state erases tail _ entered
  exact issued.of_same answer ⟨rfl, rfl, rfl, rfl, rfl, rfl, rfl, rfl, rfl⟩

include here free accepted state erases tail in
/-- The last page has been erased, and its tail is restored next. -/
theorem lastPageErase_issues
    (pending : TailPending cmd store.currentPageId store.headWordSize store.tailWordSize)
    (done : store.tailSwapDone = true)
    (copied : Copied swapAddr owner start store.flash store.currentPageId)
    (erased : Erased swapAddr owner start store.flash cmd.first ((store.currentPageId + 1) * pageSize)) :
    Issues swapAddr owner cmd start store answer (store.dataPageEraseStateRun swapAddr answer) := by
  unfold Pstorage.dataPageEraseStateRun
  dsimp only
  have behind : ¬ ({ store with currentPageId := store.currentPageId + 1 } : Pstorage).isPageEraseRequired =
      true := by
    rw [@isPageEraseRequired_iff cmd { store with currentPageId := store.currentPageId + 1 } here]
    have page := pending.page
    dsimp only
    omega
  rw [if_neg (not_not.mpr pending.head), if_neg behind, if_pos pending.tail, if_neg (not_not.mpr done)]
  rw [pending.page] at copied erased
  have entered : SwapPhase swapAddr owner cmd start
      { store with currentPageId := store.currentPageId + 1, swapSubState := .restoreTail } :=
    ⟨pending.tail, copied, erased⟩
  have issued := @swap_issues swapAddr owner cmd start
    { store with currentPageId := store.currentPageId + 1 } free accepted answer state erases tail _ entered
  exact issued.of_same answer ⟨rfl, rfl, rfl, rfl, rfl, rfl, rfl, rfl, rfl⟩

include fits here free accepted state erases tail in
/-- A page has been erased of which nothing is kept. -/
theorem wholePageErase_proceeds
    (whole : WholePage cmd store.currentPageId store.headWordSize store.tailWordSize store.tailSwapDone)
    (erased : Erased swapAddr owner start store.flash cmd.first ((store.currentPageId + 1) * pageSize)) :
    Proceeds swapAddr owner cmd start store answer (store.dataPageEraseStateRun swapAddr answer) := by
  have reaches : cmd.first ≤ (store.currentPageId + 1) * pageSize :=
    Nat.le_trans whole.first (Nat.mul_le_mul_right pageSize (Nat.le_succ _))
  unfold Pstorage.dataPageEraseStateRun
  dsimp only
  rw [if_neg (not_not.mpr whole.head)]
  split
  · next required =>
    have more := (@isPageEraseRequired_iff cmd { store with currentPageId := store.currentPageId + 1 }
      here).mp required
    have entered : SwapPhase swapAddr owner cmd start
        { store with currentPageId := store.currentPageId + 1, swapSubState := .eraseDataPage } := by
      refine ⟨.inr (.inr ⟨reaches, whole.head, more.imp_left fun inner => ⟨inner, ?_⟩⟩), erased⟩
      rcases whole.last with ⟨-, undone⟩ | ⟨-, zero⟩
      · exact undone
      · exact fun nonzero => absurd zero nonzero
    have issued := @swap_issues swapAddr owner cmd start
      { store with currentPageId := store.currentPageId + 1 } free accepted answer state erases tail _ entered
    exact .issues (issued.of_same answer ⟨rfl, rfl, rfl, rfl, rfl, rfl, rfl, rfl, rfl⟩)
  · next none =>
    rw [@isPageEraseRequired_iff cmd { store with currentPageId := store.currentPageId + 1 } here] at none
    dsimp only at none
    split
    · next nonzero =>
      obtain ⟨inner, undone⟩ := whole.last.resolve_right fun last => nonzero last.2
      rw [if_pos (by rw [undone nonzero]; exact Bool.false_ne_true)]
      have entered : SwapPhase swapAddr owner cmd start
          { store with
            currentPageId := store.currentPageId + 1, tailSwapDone := true, swapSubState := .eraseSwap } :=
        ⟨.inr ⟨⟨by dsimp only; omega, reaches, whole.head, nonzero⟩, .inl rfl⟩, erased⟩
      have issued := @swap_issues swapAddr owner cmd start
        { store with currentPageId := store.currentPageId + 1, tailSwapDone := true } free accepted answer
        state erases tail _ entered
      exact .issues (issued.of_same answer ⟨rfl, rfl, rfl, rfl, rfl, rfl, rfl, rfl, rfl⟩)
    · next zero =>
      rw [not_not] at zero
      have last : store.currentPageId = cmd.lastPage := by
        rcases whole.last with ⟨inner, -⟩ | ⟨last, -⟩
        · omega
        · exact last
      rw [last] at erased
      have ended := @erased_proceeds swapAddr owner cmd start
        { store with currentPageId := store.currentPageId + 1 } here free accepted answer fits erases
        (erased.whole fits (tail.none zero))
      exact ended.of_same answer ⟨rfl, rfl, rfl, rfl, rfl, rfl, rfl, rfl, rfl⟩

include placed fits here tail in
/-- **The flash after an operation of the swap machine.** -/
theorem swapOp_done (phase : SwapPhase swapAddr owner cmd start store) :
    SwapDone swapAddr owner cmd start
      { store with flash := (store.swapOp swapAddr).apply store.flash, running := none } := by
  have swapPage := lastPage_lt placed fits
  have order := firstPage_le fits
  have ahead : cmd.firstPage * pageSize ≤ cmd.first := Nat.div_mul_le_self _ _
  unfold SwapPhase at phase
  unfold SwapDone Pstorage.swapOp
  cases sub : store.swapSubState with
  | eraseSwap =>
    rw [sub] at phase
    obtain ⟨saves, erased⟩ := phase
    exact ⟨saves, erased.congr fun address other => if_neg other, fun address page => if_pos page⟩
  | writeDataToSwap =>
    rw [sub] at phase
    obtain ⟨saves, erased, blank⟩ := phase
    refine ⟨saves, erased.congr fun address other => if_neg fun written => other ?_, erased.copied placed blank⟩
    have aligned := placed.swapAligned
    unfold pageSize at *
    omega
  | eraseDataPage =>
    rw [sub] at phase
    obtain ⟨⟨page, head, copied⟩ | ⟨pending, done, copied⟩ | whole, erased⟩ := phase
    · refine .inl ⟨page, head, ?_, ?_⟩
      · rw [page] at copied
        exact copied.congr placed fun address there => if_neg (by rw [there, page]; omega)
      · show Erased _ _ _ ((FlashOp.pageErase store.currentPageId).apply store.flash) _
          ((store.currentPageId + 1) * pageSize)
        rw [page] at erased ⊢
        exact erased.firstPage ahead
    · refine .inr ⟨.inl ⟨pending, done, ?_⟩, erased.pageErase pending.first⟩
      exact copied.congr placed fun address there => if_neg (by rw [there, pending.page]; omega)
    · exact .inr ⟨.inr whole, erased.pageErase whole.first⟩
  | restoreTail =>
    rw [sub] at phase
    obtain ⟨nonzero, copied, erased⟩ := phase
    rw [here]
    exact erased.restoreTail fits copied tail nonzero
  | restoreHead =>
    rw [sub] at phase
    obtain ⟨page, head, copied, erased⟩ := phase
    rw [page] at erased
    have before : store.currentPageId - 1 = cmd.firstPage := by omega
    refine ⟨page, head, ?_, ?_⟩
    · refine copied.congr placed fun address there => if_neg fun written => ?_
      have size := head.size
      unfold Cmd.firstPage pageSize at *
      omega
    · show Erased _ _ _ ((FlashOp.write ((store.currentPageId - 1) * pageSize) _ _).apply store.flash) _
        (store.currentPageId * pageSize)
      rw [before, page]
      exact erased.restoreHead copied head.size

include fits here free accepted state erases tail in
/-- **What the swap machine does next.** -/
theorem swapDone_proceeds (done : SwapDone swapAddr owner cmd start store) :
    Proceeds swapAddr owner cmd start store answer (store.swapSubStateSmRun swapAddr answer) := by
  unfold Pstorage.swapSubStateSmRun
  rw [if_neg (fun busy => Bool.false_ne_true (accepted.symm.trans busy))]
  unfold SwapDone at done
  cases sub : store.swapSubState <;> rw [sub] at done
  case eraseSwap => exact .issues (swap_issues free accepted answer state erases tail done)
  case writeDataToSwap =>
    exact .issues (dataToSwapWrite_issues free accepted answer state erases tail done.1 done.2.1 done.2.2)
  case eraseDataPage =>
    obtain ⟨page, head, copied, erased⟩ | ⟨⟨pending, done, copied⟩ | whole, erased⟩ := done
    · exact .issues (firstPageErase_issues free accepted answer state erases tail page head copied erased)
    · exact .issues
        (lastPageErase_issues here free accepted answer state erases tail pending done copied erased)
    · exact wholePageErase_proceeds fits here free accepted answer state erases tail whole erased
  case restoreTail => exact erased_proceeds here free accepted answer fits erases done
  case restoreHead =>
    obtain ⟨page, head, copied, erased⟩ := done
    exact headRestore_proceeds fits here free accepted answer state erases tail page head copied erased

/-! ### Events -/

omit state in
/-- The element at the read pointer is freed, whatever its size was made. -/
theorem commandEndProcedureRun_resize (store : Pstorage) (size : Nat) :
    ({ store with cmd := Function.update store.cmd store.rp { store.current with size := size } } :
      Pstorage).commandEndProcedureRun swapAddr answer = store.commandEndProcedureRun swapAddr answer := by
  unfold Pstorage.commandEndProcedureRun Pstorage.appNotify Pstorage.commandQueueElementConsume
    Pstorage.cmdQueueElementInit Pstorage.current
  dsimp only
  rw [Function.update_self, Function.update_idem]

include placed fits here in
/-- **The flash after an operation.** -/
theorem op_done (phase : Phase swapAddr owner cmd start store) :
    Done swapAddr owner cmd start
      { store with flash := (store.op swapAddr).apply store.flash, running := none } := by
  unfold Phase at phase
  unfold Done Pstorage.op
  cases state : store.state <;> rw [state] at phase
  case idle => exact phase
  case error => exact phase
  case store =>
    rw [here]
    obtain ⟨wrote, standing⟩ := phase
    refine ⟨wrote, fun address keeps => ?_⟩
    have area := fits.bounds.2.1
    have words : 4 * (cmd.size / 4) = cmd.size := by
      have first := fits.firstWord
      have stop := fits.stopWord
      omega
    show (if _ then store.flash address &&& cmd.bytes (address - cmd.first) else store.flash address) = _
    unfold Cmd.perform
    rw [words, ← area]
    split
    · next inside =>
      rcases standing with ⟨is, same⟩ | ⟨is, erased⟩
      · rw [is, same address keeps]
      · rw [is, erased address keeps, if_pos inside]
        exact UInt8.neg_one_and
    · next outside =>
      rcases standing with ⟨is, same⟩ | ⟨is, erased⟩
      · exact same address keeps
      · rw [erased address keeps, if_neg outside]
  case dataErase =>
    obtain ⟨erases, zero, ends, first, last, erased⟩ := phase
    exact ⟨erases, zero, ends, first, last, erased.pageErase first⟩
  case dataEraseWithSwap =>
    obtain ⟨erases, tail, phase⟩ := phase
    exact ⟨erases, tail, swapOp_done placed fits here tail phase⟩

include free accepted in
/-- The pages from the one at hand on are erased. -/
theorem dataErase_issues (state : store.state = .dataErase)
    (phase : Phase swapAddr owner cmd start store) :
    Issues swapAddr owner cmd start store answer (store.smStateChange swapAddr .dataErase answer) := by
  have op : store.op swapAddr = .pageErase store.currentPageId := by
    unfold Pstorage.op
    rw [state]
  have issued : store.smStateChange swapAddr .dataErase answer = store.flashCall (store.op swapAddr) answer := by
    have entered : ({ store with state := .dataErase } : Pstorage) = store := by rw [← state]
    rw [op]
    exact congrArg (fun next => next.flashCall (.pageErase store.currentPageId) answer) entered
  rw [issued]
  exact .intro (.refl store) phase free accepted

include fits here free accepted in
/-- **What an event of success leads to.** -/
theorem done_proceeds (done : Done swapAddr owner cmd start store) :
    Proceeds swapAddr owner cmd start store answer (store.flashOperationSuccessRun swapAddr answer) := by
  have notBusy : ¬ store.flashApiErrBusy = true := fun busy => Bool.false_ne_true (accepted.symm.trans busy)
  unfold Done at done
  unfold Pstorage.flashOperationSuccessRun
  cases state : store.state <;> rw [state] at done
  case idle => exact done.elim
  case error => exact done.elim
  case store =>
    obtain ⟨wrote, performed⟩ := done
    have written : store.current.size - store.numOfBytesWritten = 0 := by
      rw [here, wrote, Nat.sub_self]
    show Proceeds _ _ _ _ _ _ (store.storeSubStateSmRun swapAddr answer)
    unfold Pstorage.storeSubStateSmRun
    rw [if_neg notBusy, if_pos written, commandEndProcedureRun_resize]
    exact .ends (.refl store) performed free accepted
  case dataErase =>
    obtain ⟨erases, zero, ends, first, last, erased⟩ := done
    show Proceeds _ _ _ _ _ _ (store.eraseSubStateSmRun swapAddr answer)
    unfold Pstorage.eraseSubStateSmRun
    rw [if_neg notBusy]
    dsimp only
    have required := @isPageEraseRequired_iff cmd { store with currentPageId := store.currentPageId + 1 } here
    dsimp only at required
    split
    · next none =>
      rw [required] at none
      have page : store.currentPageId = cmd.lastPage := by omega
      rw [page] at erased
      have ended := @erased_proceeds swapAddr owner cmd start
        { store with currentPageId := store.currentPageId + 1 } here free accepted answer fits erases
        (erased.whole fits ends)
      exact ended.of_same answer ⟨rfl, rfl, rfl, rfl, rfl, rfl, rfl, rfl, rfl⟩
    · next more =>
      rw [not_not, required] at more
      have reaches : cmd.first ≤ (store.currentPageId + 1) * pageSize :=
        Nat.le_trans first (Nat.mul_le_mul_right pageSize (Nat.le_succ _))
      have phase : Phase swapAddr owner cmd start
          { store with currentPageId := store.currentPageId + 1 } := by
        unfold Phase
        dsimp only
        rw [state]
        exact ⟨erases, zero, ends, reaches, by omega, erased⟩
      have issued := @dataErase_issues swapAddr owner cmd start
        { store with currentPageId := store.currentPageId + 1 } free accepted answer state phase
      rw [state]
      exact .issues (issued.of_same answer ⟨rfl, rfl, rfl, rfl, rfl, rfl, rfl, rfl, rfl⟩)
  case dataEraseWithSwap =>
    exact swapDone_proceeds fits here free accepted answer state done.1 done.2.1 done.2.2

include fits here free accepted in
/-- The operation of a main state is issued again. -/
theorem smStateChange_issues (phase : Phase swapAddr owner cmd start store)
    (state : store.state ≠ .dataEraseWithSwap) :
    Issues swapAddr owner cmd start store answer
      (store.smStateChange swapAddr store.state answer) := by
  have standing := phase
  unfold Phase at standing
  cases is : store.state <;> rw [is] at standing
  case idle => exact standing.elim
  case error => exact standing.elim
  case store => exact store_begins fits here free accepted answer standing.2
  case dataErase => exact dataErase_issues free accepted answer is phase
  case dataEraseWithSwap => exact absurd is state

include free accepted in
/-- The operation of a sub state is issued again. -/
theorem swapSubStateStateChange_issues (phase : Phase swapAddr owner cmd start store)
    (state : store.state = .dataEraseWithSwap) :
    Issues swapAddr owner cmd start store answer
      (store.swapSubStateStateChange swapAddr store.swapSubState answer) := by
  obtain ⟨erases, tail, phase⟩ := (phase_swap state).mp phase
  exact swap_issues free accepted answer state erases tail phase

include fits here free in
/-- What the stack did not accept is issued again at the next event. -/
theorem busy_issues (phase : Phase swapAddr owner cmd start store) (busy : store.flashApiErrBusy = true) :
    Issues swapAddr owner cmd start store answer (store.flashOperationSuccessRun swapAddr answer) := by
  have same : store.SameQueue { store with flashApiErrBusy := false } :=
    ⟨rfl, rfl, rfl, rfl, rfl, rfl, rfl, rfl, rfl⟩
  by_cases swaps : store.state = .dataEraseWithSwap
  · have run : store.flashOperationSuccessRun swapAddr answer =
        ({ store with flashApiErrBusy := false } : Pstorage).swapSubStateStateChange swapAddr
          store.swapSubState answer := by
      unfold Pstorage.flashOperationSuccessRun Pstorage.swapSubStateSmRun
      rw [swaps]
      exact if_pos busy
    rw [run]
    have issued := @swapSubStateStateChange_issues swapAddr owner cmd start
      { store with flashApiErrBusy := false } free rfl answer phase swaps
    exact issued.of_same answer same
  · have run : store.flashOperationSuccessRun swapAddr answer =
        ({ store with flashApiErrBusy := false } : Pstorage).smStateChange swapAddr store.state answer := by
      have standing := phase
      unfold Phase at standing
      unfold Pstorage.flashOperationSuccessRun Pstorage.storeSubStateSmRun Pstorage.eraseSubStateSmRun
        Pstorage.mainStateErrBusyProcess
      cases is : store.state <;> rw [is] at standing
      case idle => exact standing.elim
      case error => exact standing.elim
      case dataEraseWithSwap => exact absurd is swaps
      all_goals exact if_pos busy
    rw [run]
    have issued := @smStateChange_issues swapAddr owner cmd fits start { store with flashApiErrBusy := false }
      here free rfl answer phase swaps
    exact issued.of_same answer same

include fits in
/-- The pages of the others are left alone. -/
theorem phase_outside (phase : Phase swapAddr owner cmd start store) {address : Nat}
    (keeps : owner.Keeps swapAddr address)
    (outside : address / pageSize < cmd.firstPage ∨ cmd.lastPage < address / pageSize) :
    store.flash address = start address := by
  have order := fits.bounds.1
  have pages := firstPage_le fits
  have elsewhere : ∀ {first stop : Nat}, Erased swapAddr owner start store.flash first stop →
      cmd.firstPage * pageSize ≤ first → stop ≤ (cmd.lastPage + 1) * pageSize →
      store.flash address = start address := by
    intro first stop erased above below
    rw [erased address keeps, if_neg]
    unfold pageSize at *
    omega
  have ahead : cmd.firstPage * pageSize ≤ cmd.first := Nat.div_mul_le_self _ _
  have behind : cmd.stop ≤ (cmd.lastPage + 1) * pageSize := by
    unfold Cmd.lastPage pageSize
    omega
  have upTo : ∀ {page : Nat}, page ≤ cmd.lastPage + 1 →
      page * pageSize ≤ (cmd.lastPage + 1) * pageSize := fun less => Nat.mul_le_mul_right pageSize less
  unfold Phase at phase
  cases state : store.state <;> rw [state] at phase
  case idle => exact phase.elim
  case error => exact phase.elim
  case store =>
    obtain ⟨-, ⟨-, same⟩ | ⟨-, erased⟩⟩ := phase
    · exact same address keeps
    · exact elsewhere erased ahead behind
  case dataErase =>
    obtain ⟨-, -, -, -, last, erased⟩ := phase
    exact elsewhere erased ahead (upTo (Nat.le_succ_of_le last))
  case dataEraseWithSwap =>
    obtain ⟨-, -, phase⟩ := phase
    have saved : Saves cmd store → store.currentPageId ≤ cmd.lastPage + 1 := by
      rintro (⟨page, -⟩ | ⟨pending, -⟩)
      · omega
      · exact Nat.le_succ_of_le (Nat.le_of_eq pending.page)
    unfold SwapPhase at phase
    cases sub : store.swapSubState <;> rw [sub] at phase
    case eraseSwap => exact elsewhere phase.2 ahead (upTo (saved phase.1))
    case writeDataToSwap => exact elsewhere phase.2.1 ahead (upTo (saved phase.1))
    case eraseDataPage =>
      refine elsewhere phase.2 ahead (upTo ?_)
      obtain ⟨page, -⟩ | ⟨pending, -⟩ | whole := phase.1
      · omega
      · exact Nat.le_succ_of_le (Nat.le_of_eq pending.page)
      · have last := whole.last
        omega
    case restoreTail => exact elsewhere phase.2.2 ahead (Nat.le_refl _)
    case restoreHead =>
      obtain ⟨page, -, -, erased⟩ := phase
      exact elsewhere erased (Nat.le_refl _) (upTo (by omega))

/-! ### Beginnings -/

theorem erased_start (flash : Memory UInt8) {first stop : Nat} (before : stop ≤ first) :
    Erased swapAddr owner flash flash first stop :=
  fun _ _ => (if_neg (by omega)).symm

include placed fits in
/-- The tail is what is left of the page, or of the blocks of the module. -/
theorem tailWordSizeCalculate_spec (more : cmd.stop ≠ owner.stop) :
    Pstorage.tailWordSizeCalculate cmd.stop owner.stop ≠ 0 ∧
      cmd.stop + 4 * Pstorage.tailWordSizeCalculate cmd.stop owner.stop =
        min owner.stop ((cmd.stop / pageSize + 1) * pageSize) := by
  have inside := fits.inside
  have stop := fits.stopWord
  have order := fits.bounds
  have words := placed.words
  have below := placed.inside
  have near := placed.near
  have aligned := placed.aligned
  have swapAligned := placed.swapAligned
  unfold Pstorage.tailWordSizeCalculate
  unfold numOfPages at near
  unfold pageSize at *
  dsimp only
  split <;> constructor <;> omega

include fits here free accepted in
/-- The entry of the swap machine. -/
theorem swapEntry_issues (state : store.state = .dataEraseWithSwap) (erases : cmd.opCode ≠ .store)
    (head : 4 * store.headWordSize = cmd.first % pageSize) (tail : TailSize owner cmd store)
    (part : ¬ (cmd.storageAddr.blockId % pageSize = 0 ∧ cmd.size = pageSize) ∧
      ¬ (cmd.storageAddr.blockId % pageSize = 0 ∧ cmd.stop = owner.stop ∧ cmd.offset = 0)) :
    Issues swapAddr owner cmd store.flash store answer
      (store.stateDataEraseSwapEntryRun swapAddr answer) := by
  have page := fits.samePage erases
  have nonempty := fits.nonempty
  have several : cmd.opCode ≠ .clear → cmd.size + cmd.offset ≤ pageSize := fits.small
  have whole := fits.whole
  unfold Pstorage.stateDataEraseSwapEntryRun
  rw [here]
  dsimp only
  split
  · next plain =>
    obtain ⟨noHead, apart⟩ := plain
    rw [decide_eq_true_iff] at apart
    refine Issues.of_same answer (swap_issues (by exact free) (by exact accepted) answer (by exact state)
      erases (by exact tail) ?_) ⟨rfl, rfl, rfl, rfl, rfl, rfl, rfl, rfl, rfl⟩
    refine ⟨.inr (.inr ⟨?_, noHead, .inl ⟨?_, fun _ => rfl⟩⟩), erased_start _ ?_⟩
    all_goals
      simp only [Cmd.firstPage, Cmd.lastPage, Cmd.first, Cmd.stop, pageSize] at *
      omega
  · next saves =>
    refine Issues.of_same answer (swap_issues (by exact free) (by exact accepted) answer (by exact state)
      erases (by exact tail) ?_) ⟨rfl, rfl, rfl, rfl, rfl, rfl, rfl, rfl, rfl⟩
    refine ⟨?_, erased_start _ ?_⟩
    · by_cases noHead : store.headWordSize = 0
      · have single : cmd.storageAddr.blockId / pageSize =
            (cmd.storageAddr.blockId + cmd.size - 1) / pageSize := by
          by_contra apart
          exact saves ⟨noHead, fun is => apart (of_decide_eq_true is)⟩
        have nonzero : store.tailWordSize ≠ 0 := by
          intro zero
          have ends := tail.none zero
          simp only [Cmd.firstPage, Cmd.first, Cmd.stop, pageSize] at *
          omega
        refine .inr ⟨⟨?_, ?_, noHead, nonzero⟩, .inr (decide_eq_true single)⟩
        all_goals
          simp only [Cmd.firstPage, Cmd.lastPage, Cmd.first, Cmd.stop, pageSize] at *
          omega
      · refine .inl ⟨page, head, noHead, fun more => ⟨rfl, decide_eq_false ?_⟩⟩
        by_cases clears : cmd.opCode = .clear
        · have start := whole clears
          simp only [Cmd.firstPage, Cmd.lastPage, Cmd.first, Cmd.stop, pageSize] at *
          omega
        · have small := several clears
          simp only [Cmd.firstPage, Cmd.lastPage, Cmd.first, Cmd.stop, pageSize] at *
          omega
    · dsimp only
      rw [page]
      exact Nat.div_mul_le_self _ _

include fits here free accepted in
/-- The swap machine begins. -/
theorem swap_begins (erases : cmd.opCode ≠ .store) (head : 4 * store.headWordSize = cmd.first % pageSize)
    (tail : TailSize owner cmd store)
    (part : ¬ (cmd.storageAddr.blockId % pageSize = 0 ∧ cmd.size = pageSize) ∧
      ¬ (cmd.storageAddr.blockId % pageSize = 0 ∧ cmd.stop = owner.stop ∧ cmd.offset = 0)) :
    Issues swapAddr owner cmd store.flash store answer
      (store.smStateChange swapAddr .dataEraseWithSwap answer) := by
  have entered := @swapEntry_issues swapAddr owner cmd fits { store with state := .dataEraseWithSwap } here
    free accepted answer rfl erases head tail part
  exact entered.of_same answer ⟨rfl, rfl, rfl, rfl, rfl, rfl, rfl, rfl, rfl⟩

include placed fits here free accepted in
/-- A clear begins; so does the first half of an update. -/
theorem clear_begins (table : store.appTable cmd.storageAddr.moduleId = owner) (erases : cmd.opCode ≠ .store) :
    Issues swapAddr owner cmd store.flash store answer (store.clearOperationExecute swapAddr answer) := by
  have page := fits.samePage erases
  have order := fits.bounds
  have firstWord := fits.firstWord
  have head : 4 * (cmd.first % pageSize / 4) = cmd.first % pageSize := by
    unfold pageSize
    omega
  unfold Pstorage.clearOperationExecute
  rw [here]
  dsimp only
  rw [table]
  split
  · next whole =>
    have aligned : cmd.storageAddr.blockId % pageSize = 0 ∧ cmd.offset = 0 ∧
        (cmd.stop % pageSize = 0 ∨ cmd.stop = owner.stop) := by
      rcases whole with ⟨aligned, size⟩ | ⟨aligned, stop, offset⟩ | raw
      · have offset : cmd.offset = 0 := by
          by_cases clears : cmd.opCode = .clear
          · exact fits.whole clears
          · have small := fits.small clears
            omega
        refine ⟨aligned, offset, .inl ?_⟩
        unfold Cmd.stop
        rw [size, offset, Nat.add_zero, Nat.add_mod_right, aligned]
      · exact ⟨aligned, offset, .inr stop⟩
      · exact absurd raw (Nat.ne_of_lt (Nat.lt_succ_of_lt fits.notRaw))
    obtain ⟨aligned, offset, ends⟩ := aligned
    have phase : Phase swapAddr owner cmd store.flash
        { store with
          state := .dataErase, tailWordSize := 0, currentPageId := cmd.storageAddr.blockId / pageSize } := by
      refine ⟨erases, rfl, ends, ?_, ?_, erased_start _ ?_⟩
      all_goals
        simp only [Cmd.firstPage, Cmd.lastPage, Cmd.first, Cmd.stop, pageSize] at *
        omega
    have issued := @dataErase_issues swapAddr owner cmd store.flash
      { store with
        state := .dataErase, tailWordSize := 0, currentPageId := cmd.storageAddr.blockId / pageSize }
      free accepted answer rfl phase
    exact issued.of_same answer ⟨rfl, rfl, rfl, rfl, rfl, rfl, rfl, rfl, rfl⟩
  · next part =>
    have part : ¬ (cmd.storageAddr.blockId % pageSize = 0 ∧ cmd.size = pageSize) ∧
        ¬ (cmd.storageAddr.blockId % pageSize = 0 ∧ cmd.stop = owner.stop ∧ cmd.offset = 0) :=
      ⟨fun is => part (.inl is), fun is => part (.inr (.inl is))⟩
    split
    · next more =>
      have calculated := tailWordSizeCalculate_spec placed fits more.1
      have entered := @swap_begins swapAddr owner cmd fits
        { store with
          headWordSize := cmd.first % pageSize / 4
          tailWordSize := Pstorage.tailWordSizeCalculate cmd.stop owner.stop }
        here free accepted answer erases head (.inr ⟨calculated.1, more.2, calculated.2⟩) part
      exact entered.of_same answer ⟨rfl, rfl, rfl, rfl, rfl, rfl, rfl, rfl, rfl⟩
    · next none =>
      have ends : cmd.stop % pageSize = 0 ∨ cmd.stop = owner.stop := by
        by_contra neither
        exact none ⟨fun stop => neither (.inr stop), fun page => neither (.inl page)⟩
      have entered := @swap_begins swapAddr owner cmd fits
        { store with headWordSize := cmd.first % pageSize / 4, tailWordSize := 0 }
        here free accepted answer erases head (.inl ⟨rfl, ends⟩) part
      exact entered.of_same answer ⟨rfl, rfl, rfl, rfl, rfl, rfl, rfl, rfl, rfl⟩

include placed fits here free accepted in
/-- **A command begins.** -/
theorem begins (table : store.appTable cmd.storageAddr.moduleId = owner) :
    Issues swapAddr owner cmd store.flash { store with appDataSize := cmd.size } answer
      (store.cmdProcess swapAddr answer) := by
  have size : store.current.size = cmd.size := congrArg Cmd.size here
  have current : ({ store with appDataSize := cmd.size } : Pstorage).current = cmd := here
  unfold Pstorage.cmdProcess
  rw [size]
  dsimp only
  rw [current]
  rcases fits.opCode with is | is | is
  · have standing : cmd.opCode = .store ∧ (∀ address, owner.Keeps swapAddr address →
        store.flash address = store.flash address) ∨
      cmd.opCode = .update ∧ Erased swapAddr owner store.flash store.flash cmd.first cmd.stop :=
      .inl ⟨is, fun _ _ => rfl⟩
    rw [is]
    exact @store_begins swapAddr owner cmd fits store.flash { store with appDataSize := cmd.size } here free
      accepted answer standing
  all_goals
    have erases : cmd.opCode ≠ .store := by
      rw [is]
      decide
    rw [is]
    exact @clear_begins swapAddr owner cmd placed fits { store with appDataSize := cmd.size } here free
      accepted answer table erases

end Command

end PrimoCore.Storage
