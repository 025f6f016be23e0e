/-
**The blocks of the persistent storage, and what is loaded from them.**

A module is given handles of its blocks by number. A load reads the flash at once, whatever the commands in the
queue are about.

* `storage_before_bootloader` — the pages of the storage end before the bootloader.
* `Pstorage.Area` — the bytes of a block.
* `Pstorage.step_modules`, `Pstorage.accepted_block` — the table of the modules changes with a registration only,
  so the block of a command that was accepted stays one.
* `BlocksRight`, `blocks_right` — **in every state of a run, a module is given exactly the handles of its blocks**;
  the blocks lie in the data pages, and no two overlap.
* `LoadRight`, `load_right` — **a load returns what the commands done so far have made of the flash**, of a block
  that the command at hand is not about; the status is the number of the commands that wait.
* `load_updated` — what an update has left, and no later command has touched, is read back.
-/

import PrimoCore.Storage.StoreRuns

namespace PrimoCore.Storage

open PrimoCore.Lib

/-- **The storage ends before the bootloader**, or with the flash when there is none. -/
theorem storage_before_bootloader {bootloaderAddr codeSize : Nat}
    (pages : numOfPages < flashPageEnd bootloaderAddr codeSize) :
    dataEndAddr (flashPageEnd bootloaderAddr codeSize) + pageSize ≤
      if bootloaderAddr ≠ 0xFFFFFFFF then bootloaderAddr else codeSize * pageSize := by
  have last : dataEndAddr (flashPageEnd bootloaderAddr codeSize) + pageSize =
      flashPageEnd bootloaderAddr codeSize * pageSize := by
    rw [dataEndAddr, ← Nat.succ_mul, Nat.succ_eq_add_one, Nat.sub_add_cancel (by omega)]
  rw [last, flashPageEnd]
  split_ifs
  · exact Nat.div_mul_le_self _ _
  · exact Nat.le_refl _

namespace Pstorage

/-- The bytes of a block. -/
def Area (store : Pstorage) (id : Handle) (address : Nat) : Prop :=
  id.blockId ≤ address ∧ address < id.blockId + store.moduleBlockSize id

/-- The handle a module is given when it is registered. -/
def base (store : Pstorage) (moduleId : Nat) : Handle := ⟨moduleId, (store.appTable moduleId).baseId⟩

/-- The handle of a block of a module. -/
def handle (store : Pstorage) (moduleId blockNum : Nat) : Handle :=
  ⟨moduleId, (store.appTable moduleId).baseId + blockNum * store.moduleBlockSize (store.base moduleId)⟩

end Pstorage

/-! ### Blocks -/

section Blocks

variable {swapAddr : Nat} {store : Pstorage} (static : store.Static swapAddr)

include static

omit static in
/-- A block lies in the area of its module. -/
theorem block_inside {id : Handle} (block : store.Block id) {address : Nat} (inside : store.Area id address) :
    (store.appTable id.moduleId).baseId ≤ address ∧ address < (store.appTable id.moduleId).stop := by
  obtain ⟨-, blockNum, few, place⟩ := block
  obtain ⟨first, last⟩ := inside
  have upTo := Nat.mul_le_mul_right (store.moduleBlockSize id) (Nat.succ_le_of_lt few)
  rw [Nat.succ_mul, Nat.mul_comm (store.appTable id.moduleId).blockCount] at upTo
  unfold Pstorage.moduleBlockSize Module.stop at *
  omega

omit static in
/-- A byte of a module is one of the block with one number. -/
theorem number_unique {size base number otherNumber address : Nat}
    (inside : base + number * size ≤ address ∧ address < base + number * size + size)
    (otherInside : base + otherNumber * size ≤ address ∧ address < base + otherNumber * size + size) :
    number = otherNumber := by
  rcases Nat.lt_trichotomy number otherNumber with before | same | after
  · have upTo := Nat.mul_le_mul_right size (Nat.succ_le_of_lt before)
    rw [Nat.succ_mul] at upTo
    omega
  · exact same
  · have upTo := Nat.mul_le_mul_right size (Nat.succ_le_of_lt after)
    rw [Nat.succ_mul] at upTo
    omega

/-- The module behind has its area behind. -/
theorem modules_apart {first second address : Nat} (order : first < second)
    (known : second < store.nextAppInstance) (inside : address < (store.appTable first).stop)
    (otherInside : (store.appTable second).baseId ≤ address) : False := by
  have apart := static.registry.apart first second order known
  have stop := Nat.div_le_div_right (c := pageSize) (Nat.le_sub_one_of_lt inside)
  have base := Nat.div_le_div_right (c := pageSize) otherInside
  omega

/-- **Two blocks do not overlap.** -/
theorem blocks_apart {id other : Handle} (block : store.Block id) (otherBlock : store.Block other)
    (differ : id ≠ other) (address : Nat) : ¬ (store.Area id address ∧ store.Area other address) := by
  rintro ⟨inside, otherInside⟩
  have here := block_inside block inside
  have there := block_inside otherBlock otherInside
  obtain ⟨moduleId, blockId⟩ := id
  obtain ⟨otherModule, otherId⟩ := other
  rcases Nat.lt_trichotomy moduleId otherModule with before | same | after
  · exact modules_apart static before otherBlock.1 here.2 there.1
  · subst same
    obtain ⟨-, blockNum, -, place⟩ := block
    obtain ⟨-, otherNum, -, otherPlace⟩ := otherBlock
    change blockId = (store.appTable moduleId).baseId + blockNum * (store.appTable moduleId).blockSize at place
    change otherId = (store.appTable moduleId).baseId + otherNum * (store.appTable moduleId).blockSize at otherPlace
    subst place otherPlace
    exact differ (by rw [number_unique inside otherInside])
  · exact modules_apart static after block.1 there.2 here.1

/-- **A module is given the handles of its blocks**, and no others. -/
theorem pstorageBlockIdentifierGet_iff (moduleId blockNum : Nat) (id : Handle) :
    store.pstorageBlockIdentifierGet (store.base moduleId) blockNum = .ok id ↔
      moduleId < store.nextAppInstance ∧ blockNum < (store.appTable moduleId).blockCount ∧
        id = store.handle moduleId blockNum := by
  have registry := static.registry
  unfold Pstorage.pstorageBlockIdentifierGet
  rw [if_neg (not_not.mpr registry.initialized)]
  by_cases known : moduleId < store.nextAppInstance
  · have few := Nat.lt_of_lt_of_le known registry.few
    have cb := (registry.registered moduleId).mpr known
    have area := (registry.blocks moduleId known).2.2
    have positive : 0 < store.moduleBlockSize (store.base moduleId) := by
      refine Nat.pos_of_ne_zero fun zero => ?_
      change (store.appTable moduleId).blockSize = 0 at zero
      rw [Module.stop, zero, Nat.zero_mul] at area
      omega
    have inside : store.moduleIdOut (store.base moduleId) = false := by
      simp [Pstorage.moduleIdOut, Pstorage.base, cb, few]
    have out : store.blockIdOut (store.handle moduleId blockNum) = true ↔
        ¬ blockNum < (store.appTable moduleId).blockCount := by
      have blocks : (store.appTable moduleId).blockCount * store.moduleBlockSize (store.base moduleId) ≤
          blockNum * store.moduleBlockSize (store.base moduleId) ↔
            (store.appTable moduleId).blockCount ≤ blockNum := Nat.mul_le_mul_right_iff positive
      rw [Nat.not_lt, ← blocks, Pstorage.blockIdOut, decide_eq_true_eq]
      exact Nat.add_le_add_iff_left
    rw [if_neg (by rw [inside]; exact Bool.false_ne_true)]
    dsimp only
    change (if store.blockIdOut (store.handle moduleId blockNum) = true then Except.error nrfErrorInvalidParam
      else .ok (store.handle moduleId blockNum)) = .ok id ↔ _
    split_ifs with refused
    · exact iff_of_false (fun same => by cases same) fun ⟨_, few, _⟩ => out.mp refused few
    · have few := not_not.mp (mt out.mpr refused)
      exact ⟨fun same => ⟨known, few, (Except.ok.inj same).symm⟩, fun ⟨_, _, same⟩ => by rw [same]⟩
  · have cb : (store.appTable moduleId).cb = false :=
      Bool.eq_false_iff.mpr fun registered => known ((registry.registered moduleId).mp registered)
    have outside : store.moduleIdOut (store.base moduleId) = true := by
      simp [Pstorage.moduleIdOut, Pstorage.base, cb]
    rw [if_pos outside]
    exact iff_of_false (fun same => by cases same) fun ⟨registered, _⟩ => known registered

end Blocks

/-! ### The table of the modules -/

namespace Pstorage

/-- The table of the modules, and how many are registered. -/
def modules (store : Pstorage) : Nat × Memory Module := (store.nextAppInstance, store.appTable)

section Modules

variable (swapAddr : Nat) (store : Pstorage) (answer : UInt32)

theorem flashCall_modules (op : FlashOp) : (store.flashCall op answer).modules = store.modules := by
  unfold flashCall
  split_ifs <;> rfl

theorem storeCmdFlashWriteExecute_modules :
    (store.storeCmdFlashWriteExecute answer).modules = store.modules := by
  unfold storeCmdFlashWriteExecute
  dsimp only
  split_ifs <;> exact flashCall_modules store answer _

theorem swapSubStateStateChange_modules (newState : SwapSubState) :
    (store.swapSubStateStateChange swapAddr newState answer).modules = store.modules := by
  cases newState <;> exact flashCall_modules _ answer _

theorem smStateChange_modules (newState : State) :
    (store.smStateChange swapAddr newState answer).modules = store.modules := by
  cases newState with
  | store => exact storeCmdFlashWriteExecute_modules _ answer
  | dataEraseWithSwap =>
    unfold smStateChange stateDataEraseSwapEntryRun
    dsimp only
    split_ifs <;> exact swapSubStateStateChange_modules swapAddr _ answer _
  | dataErase => exact flashCall_modules _ answer _
  | idle | error => rfl

theorem cmdProcess_modules : (store.cmdProcess swapAddr answer).modules = store.modules := by
  unfold cmdProcess clearOperationExecute
  dsimp only
  split
  · exact smStateChange_modules swapAddr _ answer _
  · split_ifs <;> exact smStateChange_modules swapAddr _ answer _
  · split_ifs <;> exact smStateChange_modules swapAddr _ answer _
  · rfl
  · rfl

theorem commandEndProcedureRun_modules :
    (store.commandEndProcedureRun swapAddr answer).modules = store.modules := by
  unfold commandEndProcedureRun stateIdleEntryRun cmdQueueDequeue
  dsimp only
  split_ifs
  · exact cmdProcess_modules swapAddr _ answer
  · rfl

theorem clearPostProcessingRun_modules :
    (store.clearPostProcessingRun swapAddr answer).modules = store.modules := by
  unfold clearPostProcessingRun
  split_ifs
  · exact commandEndProcedureRun_modules swapAddr store answer
  · exact smStateChange_modules swapAddr store answer .store

theorem headRestoreStateRun_modules :
    (store.headRestoreStateRun swapAddr answer).modules = store.modules := by
  unfold headRestoreStateRun
  dsimp only
  split_ifs
  all_goals first
    | exact swapSubStateStateChange_modules swapAddr _ answer _
    | exact clearPostProcessingRun_modules swapAddr store answer

theorem dataPageEraseStateRun_modules :
    (store.dataPageEraseStateRun swapAddr answer).modules = store.modules := by
  unfold dataPageEraseStateRun
  dsimp only
  split_ifs
  all_goals first
    | exact swapSubStateStateChange_modules swapAddr _ answer _
    | exact clearPostProcessingRun_modules swapAddr _ answer

theorem swapSubStateSmRun_modules :
    (store.swapSubStateSmRun swapAddr answer).modules = store.modules := by
  unfold swapSubStateSmRun
  dsimp only
  split
  · exact swapSubStateStateChange_modules swapAddr _ answer _
  · split
    · exact swapSubStateStateChange_modules swapAddr _ answer _
    · unfold dataToSwapWriteStateRun
      dsimp only
      rw [swapSubStateStateChange_modules]
      split_ifs <;> rfl
    · exact dataPageEraseStateRun_modules swapAddr store answer
    · exact clearPostProcessingRun_modules swapAddr store answer
    · exact headRestoreStateRun_modules swapAddr store answer

theorem flashOperationSuccessRun_modules :
    (store.flashOperationSuccessRun swapAddr answer).modules = store.modules := by
  unfold flashOperationSuccessRun
  split
  · unfold storeSubStateSmRun
    dsimp only
    split_ifs
    · exact smStateChange_modules swapAddr _ answer _
    · exact commandEndProcedureRun_modules swapAddr _ answer
    · exact storeCmdFlashWriteExecute_modules _ answer
  · unfold eraseSubStateSmRun
    dsimp only
    split_ifs
    · exact smStateChange_modules swapAddr _ answer _
    · exact smStateChange_modules swapAddr _ answer _
    · exact clearPostProcessingRun_modules swapAddr _ answer
  · exact swapSubStateSmRun_modules swapAddr store answer
  · rfl
  · rfl

theorem flashOperationFailureRun_modules :
    (store.flashOperationFailureRun swapAddr answer).modules = store.modules := by
  unfold flashOperationFailureRun
  dsimp only
  split_ifs
  · exact smStateChange_modules swapAddr _ answer _
  · exact swapSubStateStateChange_modules swapAddr _ answer _
  · rfl

theorem sysEventHandler_modules (success : Bool) :
    (store.sysEventHandler swapAddr success answer).modules = store.modules := by
  unfold sysEventHandler
  split_ifs
  · exact flashOperationSuccessRun_modules swapAddr store answer
  · exact flashOperationSuccessRun_modules swapAddr store answer
  · exact flashOperationFailureRun_modules swapAddr store answer
  · rfl

theorem cmdQueueEnqueue_modules (cmd : Cmd) :
    (store.cmdQueueEnqueue swapAddr cmd answer).1.modules = store.modules := by
  unfold cmdQueueEnqueue
  split
  · dsimp only
    split
    · exact cmdProcess_modules swapAddr _ answer
    · rfl
  · rfl

/-- **The table changes when a module is registered**, and at no other time. -/
theorem step_modules {input : Input} (other : ∀ param, input ≠ .register param) :
    (store.step swapAddr input).modules = store.modules := by
  cases input with
  | register param => exact absurd rfl (other param)
  | store dest src size offset answer =>
    show (store.pstorageStore swapAddr dest src size offset answer).1.modules = _
    unfold pstorageStore
    split
    · rfl
    · exact cmdQueueEnqueue_modules swapAddr store answer _
  | update dest src size offset answer =>
    show (store.pstorageUpdate swapAddr dest src size offset answer).1.modules = _
    unfold pstorageUpdate
    split
    · rfl
    · exact cmdQueueEnqueue_modules swapAddr store answer _
  | clear dest size answer =>
    show (store.pstorageClear swapAddr dest size answer).1.modules = _
    unfold pstorageClear
    dsimp only
    split_ifs
    all_goals first
      | rfl
      | exact cmdQueueEnqueue_modules swapAddr store answer _
  | complete success answer =>
    show (store.complete swapAddr success answer).modules = _
    unfold complete
    split
    · rfl
    · exact sysEventHandler_modules swapAddr _ answer success
  | otherEvent success answer => exact sysEventHandler_modules swapAddr store answer success

variable {store}

theorem Block.keep {id : Handle} (block : store.Block id) {after : Pstorage}
    (more : store.nextAppInstance ≤ after.nextAppInstance)
    (same : after.appTable id.moduleId = store.appTable id.moduleId) : after.Block id := by
  obtain ⟨known, blocks⟩ := block
  unfold Block moduleBlockSize at *
  rw [same]
  exact ⟨Nat.lt_of_lt_of_le known more, blocks⟩

theorem register_block (param : ModuleParam) {id : Handle} (block : store.Block id) :
    (store.pstorageRegister swapAddr param).1.Block id := by
  unfold pstorageRegister
  dsimp only
  split_ifs
  all_goals first
    | exact block
    | exact block.keep (Nat.le_succ _) (Function.update_of_ne (Nat.ne_of_lt block.1) _ _)

/-- **A block stays one.** -/
theorem step_block (input : Input) {id : Handle} (block : store.Block id) :
    (store.step swapAddr input).Block id := by
  by_cases registers : ∃ param, input = .register param
  · obtain ⟨param, rfl⟩ := registers
    have kept := register_block swapAddr param block
    unfold step called
    dsimp only
    split <;> next registered =>
      rw [registered] at kept
      exact kept
  · obtain ⟨known, table⟩ := Prod.mk.inj (step_modules swapAddr store fun param is => registers ⟨param, is⟩)
    exact block.keep (Nat.le_of_eq known.symm) (congrFun table _)

theorem run_block (inputs : List Input) {id : Handle} (block : store.Block id) :
    (run (step swapAddr) store inputs).Block id := by
  induction inputs generalizing store with
  | nil => exact block
  | cons input rest ih => exact ih (step_block swapAddr input block)

/-- **An accepted command is about a block**, then and from then on. -/
theorem accepted_block {inputs : List Input} (legal : EachStep (step swapAddr) Legal store inputs)
    {cmd : Cmd} (member : cmd ∈ store.accepted swapAddr inputs) :
    (run (step swapAddr) store inputs).Block cmd.storageAddr := by
  induction inputs generalizing store with
  | nil => exact absurd member List.not_mem_nil
  | cons input rest ih =>
    rcases List.mem_append.mp member with now | later
    · refine run_block swapAddr (input :: rest) ?_
      have ofCall : input.cmd = some cmd := by
        unfold accepts at now
        split at now
        · exact Option.mem_toList.mp now
        · exact absurd now List.not_mem_nil
      cases input with
      | store dest src size offset answer | update dest src size offset answer =>
        rw [← Option.some.inj ofCall]
        exact legal.1.1
      | clear dest size answer =>
        rw [← Option.some.inj ofCall]
        exact legal.1
      | register param | complete success answer | otherEvent success answer => cases ofCall
    · exact ih legal.2 later

end Modules

end Pstorage

/-! ### Loads -/

/-- A load that succeeds has read the flash in the area of its block. -/
theorem pstorageLoad_ok {store : Pstorage} {dest : Nat} {src : Handle} {size offset : Nat} {bytes : List UInt8}
    {note : Notification} (loaded : store.pstorageLoad dest src size offset = .ok (bytes, note)) :
    bytes = slice store.flash (src.blockId + offset) size ∧ size + offset ≤ store.moduleBlockSize src := by
  unfold Pstorage.pstorageLoad at loaded
  cases checked : store.argumentError src dest size offset with
  | some error =>
    rw [checked] at loaded
    cases loaded
  | none =>
    rw [checked] at loaded
    exact ⟨(Prod.mk.inj (Except.ok.inj loaded)).1.symm, (argumentError_none checked).2.1⟩

/-- Commands that are about other bytes leave a byte as it is. -/
theorem performAll_away {cmds : List Cmd} {address : Nat}
    (away : ∀ cmd ∈ cmds, ¬ (cmd.first ≤ address ∧ address < cmd.stop)) (flash : Memory UInt8) :
    performAll flash cmds address = flash address := by
  induction cmds generalizing flash with
  | nil => rfl
  | cons cmd rest ih =>
    have later : ∀ cmd ∈ rest, ¬ (cmd.first ≤ address ∧ address < cmd.stop) :=
      fun cmd member => away cmd (List.mem_cons_of_mem _ member)
    exact (ih later _).trans (if_neg (away cmd List.mem_cons_self))

theorem performAll_append (flash : Memory UInt8) (front back : List Cmd) :
    performAll flash (front ++ back) = performAll (performAll flash front) back := List.foldl_append

/-! ### Runs -/

/-- **What the handles of blocks promise.** -/
structure BlocksRight (pageEnd : Nat) (store : Pstorage) : Prop where
  handles : ∀ moduleId blockNum id,
    store.pstorageBlockIdentifierGet (store.base moduleId) blockNum = .ok id ↔
      moduleId < store.nextAppInstance ∧ blockNum < (store.appTable moduleId).blockCount ∧
        id = store.handle moduleId blockNum
  inside : ∀ id, store.Block id → ∀ address, store.Area id address →
    dataStartAddr pageEnd ≤ address ∧ address < dataEndAddr pageEnd
  apart : ∀ id other, store.Block id → store.Block other → id ≠ other →
    ∀ address, ¬ (store.Area id address ∧ store.Area other address)

/-- **What a load promises**, when these commands have been done: of a block that the command at hand is not
about, it returns what they have made of the flash. -/
structure LoadRight (flash : Memory UInt8) (done : List Cmd) (store : Pstorage) : Prop where
  status : store.pstorageAccessStatusGet = .ok store.queue.length
  load : ∀ dest src size offset bytes note, store.pstorageLoad dest src size offset = .ok (bytes, note) →
    store.Block src → (∀ address, store.Area src address → ¬ store.AtHand address) →
      bytes = slice (performAll flash done) (src.blockId + offset) size

/-- A load reads a flash that holds what was stored. -/
theorem StoreRight.loads {pageEnd swapAddr : Nat} {flash : Memory UInt8} {accepted done : List Cmd}
    {store : Pstorage} (right : StoreRight pageEnd flash accepted done store) (static : store.Static swapAddr) :
    LoadRight flash done store := by
  refine ⟨?_, fun dest src size offset bytes note loaded block away => ?_⟩
  · unfold Pstorage.pstorageAccessStatusGet Pstorage.queue
    rw [if_neg (not_not.mpr static.registry.initialized), counted_length]
  · obtain ⟨rfl, inside⟩ := pstorageLoad_ok loaded
    refine slice_congr fun index less => ?_
    have area : store.Area src (src.blockId + offset + index) := ⟨by omega, by omega⟩
    exact right.agrees _ (.inr (.inr ⟨src.moduleId, block.1, block_inside block area⟩)) (away _ area)

/-- A module with two blocks. The first one is updated, then the second one is cleared; all operations succeed. -/
def updateThenClear : List Input :=
  [.register ⟨true, 16, 2⟩, .update ⟨0, dataStartAddr 128⟩ ⟨0, fun _ => 9⟩ 4 8 nrfSuccess,
    .clear ⟨0, dataStartAddr 128 + 16⟩ 16 nrfSuccess] ++ List.replicate 11 (.complete true nrfSuccess)

section Runs

variable {pageEnd : Nat} (pages : numOfPages < pageEnd) (flash : Memory UInt8) {inputs : List Input}
  (legal : EachStep (Pstorage.step (dataEndAddr pageEnd)) Pstorage.Legal
    (Pstorage.init (dataStartAddr pageEnd) flash) inputs)

include pages legal

/-- **A module is given the handles of its blocks**, which lie in the data pages and do not overlap. -/
theorem blocks_right : BlocksRight pageEnd
    (run (Pstorage.step (dataEndAddr pageEnd)) (Pstorage.init (dataStartAddr pageEnd) flash) inputs) := by
  have static := (run_inv (init_inv pages flash) legal).static
  have spread := data_pages pages
  refine ⟨pstorageBlockIdentifierGet_iff static, fun id block address inside => ?_,
    fun id other block otherBlock differ address => blocks_apart static block otherBlock differ address⟩
  obtain ⟨first, last⟩ := block_inside block inside
  obtain ⟨-, -, near, below, -⟩ := static.registry.placed id.moduleId block.1
  omega

omit pages legal in
/-- While the first command is carried out, the handles are those of the two blocks. -/
theorem blocks_right_two : BlocksRight 128
    (run (Pstorage.step (dataEndAddr 128)) (Pstorage.init (dataStartAddr 128) fun _ => 0xFF)
      (updateThenClear.take 5)) :=
  blocks_right (by decide) _ (by decide +kernel)

/-- **A load returns what was stored**, up to the commands that wait. -/
theorem load_right : ∃ done,
    StoreRight pageEnd flash
      ((Pstorage.init (dataStartAddr pageEnd) flash).accepted (dataEndAddr pageEnd) inputs) done
      (run (Pstorage.step (dataEndAddr pageEnd)) (Pstorage.init (dataStartAddr pageEnd) flash) inputs) ∧
    LoadRight flash done
      (run (Pstorage.step (dataEndAddr pageEnd)) (Pstorage.init (dataStartAddr pageEnd) flash) inputs) := by
  have inv := run_inv (init_inv pages flash) legal
  obtain ⟨done, right⟩ := inv.right pages
  exact ⟨done, right, right.loads inv.static⟩

/-- **What was updated is read back**, once the storage has come to rest, if no later command is about it. -/
theorem load_updated
    (rests : (run (Pstorage.step (dataEndAddr pageEnd)) (Pstorage.init (dataStartAddr pageEnd) flash)
      inputs).state = .idle)
    {front back : List Cmd} {cmd : Cmd}
    (all : (Pstorage.init (dataStartAddr pageEnd) flash).accepted (dataEndAddr pageEnd) inputs =
      front ++ cmd :: back)
    (updates : cmd.opCode = .update) (untouched : ∀ later ∈ back, later.stop ≤ cmd.first ∨ cmd.stop ≤ later.first)
    {dest : Nat} {bytes : List UInt8} {note : Notification}
    (loaded : Pstorage.pstorageLoad (run (Pstorage.step (dataEndAddr pageEnd))
      (Pstorage.init (dataStartAddr pageEnd) flash) inputs) dest cmd.storageAddr cmd.size cmd.offset =
        .ok (bytes, note)) :
    bytes = slice cmd.bytes 0 cmd.size := by
  obtain ⟨done, right, loads⟩ := load_right pages flash legal
  have block := Pstorage.accepted_block (dataEndAddr pageEnd) legal
    (all ▸ List.mem_append_right front List.mem_cons_self)
  have order := right.order
  rw [right.idle rests, List.append_nil] at order
  rw [loads.load _ _ _ _ _ _ loaded block fun address _ atHand => atHand.1 rests, ← order, all,
    performAll_append]
  refine slice_congr fun index less => ?_
  have inside : cmd.first ≤ cmd.first + index ∧ cmd.first + index < cmd.stop :=
    ⟨Nat.le_add_right _ _, by unfold Cmd.first Cmd.stop; omega⟩
  have away : ∀ later ∈ back, ¬ (later.first ≤ cmd.first + index ∧ cmd.first + index < later.stop) := by
    rintro later member ⟨first, last⟩
    rcases untouched later member with before | behind <;> omega
  show performAll (cmd.perform _) back (cmd.first + index) = _
  rw [performAll_away away, Cmd.perform, if_pos inside, updates, Nat.add_sub_cancel_left, Nat.zero_add]

end Runs

/-- The update is read back from the first block. -/
theorem load_updated_first : ∃ bytes note, Pstorage.pstorageLoad
      (run (Pstorage.step (dataEndAddr 128)) (Pstorage.init (dataStartAddr 128) fun _ => 0xFF) updateThenClear)
      0 ⟨0, dataStartAddr 128⟩ 4 8 = .ok (bytes, note) ∧ bytes = [9, 9, 9, 9] := by
  refine ⟨_, _, rfl, ?_⟩
  exact @load_updated 128 (by decide) (fun _ => 0xFF) updateThenClear (by decide +kernel) (by decide +kernel) []
    [⟨.clear, 16, 0, ⟨0, dataStartAddr 128 + 16⟩, none⟩]
    ⟨.update, 4, 8, ⟨0, dataStartAddr 128⟩, some ⟨0, fun _ => 9⟩⟩ (by rfl) rfl
    (fun later member => by rw [List.mem_singleton.mp member]; decide) 0 _ _ rfl

end PrimoCore.Storage
