/-
**The persistent storage, `pstorage`.**

Modules register blocks of flash; `pstorage_store`, `pstorage_update` and `pstorage_clear` put commands
into a queue and return. The command at the front is carried out one flash operation after the other, each
issued when the event of the one before it arrives. The flash erases whole pages, so what an update or a
clear has to keep of a page goes to a swap page and comes back from it.

A call and the handling of an event are one step each: the handler does not interrupt a call.

* `FlashOp` — the operations of the flash, and what each makes of it.
* `Pstorage` — the variables of the module, the flash, the operation that runs, and who was told what.
* `sysEventHandler` — the state machine; `pstorageRegister`, `pstorageStore`, `pstorageUpdate`,
  `pstorageClear`, `pstorageLoad` — the calls.
* `Pstorage.step` — what can happen to it, one call or one event at a time.
-/

import Mathlib.Algebra.Group.Nat.Defs
import Mathlib.Logic.Function.Basic
import PrimoCore.Lib.Buffer

namespace PrimoCore.Storage

open PrimoCore.Lib

/-! ### The flash -/

/-- `PSTORAGE_FLASH_PAGE_SIZE`. -/
def pageSize : Nat := 4096

/-- Where a write takes its words from. -/
inductive Source where
  | ram (bytes : Memory UInt8)
  | flash (address : Nat)

/-- `sd_flash_page_erase` and `sd_flash_write`, with their arguments. -/
inductive FlashOp where
  | pageErase (page : Nat)
  | write (dst : Nat) (src : Source) (sizeInWords : Nat)

def Source.byte (source : Source) (flash : Memory UInt8) (offset : Nat) : UInt8 :=
  match source with
  | .ram bytes => bytes offset
  | .flash address => flash (address + offset)

/-- What an operation that succeeds makes of the flash: a write only clears bits. -/
def FlashOp.apply (op : FlashOp) (flash : Memory UInt8) : Memory UInt8 :=
  match op with
  | .pageErase page => fun address => if address / pageSize = page then 0xFF else flash address
  | .write dst src sizeInWords => fun address =>
      if dst ≤ address ∧ address < dst + 4 * sizeInWords then
        flash address &&& src.byte flash (address - dst)
      else flash address

/-! ### The variables -/

/-- `PSTORAGE_NUM_OF_PAGES`. -/
def numOfPages : Nat := 2

/-- `PSTORAGE_FLASH_PAGE_END`, from the address of the bootloader and the number of pages. -/
def flashPageEnd (bootloaderAddr codeSize : Nat) : Nat :=
  if bootloaderAddr ≠ 0xFFFFFFFF then bootloaderAddr / pageSize else codeSize

/-- `PSTORAGE_DATA_START_ADDR`. -/
def dataStartAddr (pageEnd : Nat) : Nat := (pageEnd - numOfPages - 1) * pageSize

/-- `PSTORAGE_DATA_END_ADDR`, which is `PSTORAGE_SWAP_ADDR`. -/
def dataEndAddr (pageEnd : Nat) : Nat := (pageEnd - 1) * pageSize

/-- `RAW_MODE_APP_ID`. -/
def rawModeAppId : Nat := numOfPages + 1

/-- `PSTORAGE_MIN_BLOCK_SIZE`. -/
def minBlockSize : Nat := 0x10

/-- `PSTORAGE_CMD_QUEUE_SIZE`. -/
def cmdQueueSize : Nat := 30

/-- `SD_CMD_MAX_TRIES`. -/
def sdCmdMaxTries : Nat := 1000

/-! The error codes of the calls and of the stack. -/

def nrfSuccess : UInt32 := 0
def nrfErrorNoMem : UInt32 := 4
def nrfErrorInvalidParam : UInt32 := 7
def nrfErrorInvalidState : UInt32 := 8
def nrfErrorTimeout : UInt32 := 13
def nrfErrorNull : UInt32 := 14
def nrfErrorInvalidAddr : UInt32 := 16
def nrfErrorBusy : UInt32 := 17

/-- `PSTORAGE_STORE_OP_CODE` and the others, and `INVALID_OPCODE`. -/
inductive OpCode where
  | invalid
  | store
  | load
  | clear
  | update
  deriving DecidableEq

/-- `pstorage_handle_t`. -/
structure Handle where
  moduleId : Nat
  blockId : Nat
  deriving DecidableEq

/-- A pointer to resident memory, which its owner leaves as it is until the command is notified. -/
structure Resident where
  address : Nat
  bytes : Memory UInt8

/-- `cmd_queue_element_t`. -/
structure Cmd where
  opCode : OpCode
  size : Nat
  offset : Nat
  storageAddr : Handle
  pDataAddr : Option Resident

/-- `pstorage_module_param_t`, and whether it has a callback. -/
structure ModuleParam where
  cb : Bool
  blockSize : Nat
  blockCount : Nat

/-- `pstorage_module_table_t`, and whether it has a callback. -/
structure Module where
  cb : Bool
  baseId : Nat
  blockSize : Nat
  blockCount : Nat

/-- `pstorage_state_t`. -/
inductive State where
  | idle
  | store
  | dataEraseWithSwap
  | dataErase
  | error
  deriving DecidableEq

/-- `flash_swap_sub_state_t`. -/
inductive SwapSubState where
  | eraseSwap
  | writeDataToSwap
  | eraseDataPage
  | restoreTail
  | restoreHead
  deriving DecidableEq

/-- A call of the callback of a module. -/
structure Notification where
  handle : Handle
  opCode : OpCode
  result : UInt32
  pData : Option Resident
  dataLen : Nat

/-- The variables of the module; the flash, the operation of the module that runs, and the notifications
so far. -/
structure Pstorage where
  rp : Nat
  count : Nat
  cmd : Memory Cmd
  nextAppInstance : Nat
  nextPageAddr : Nat
  state : State
  swapSubState : SwapSubState
  headWordSize : Nat
  tailWordSize : Nat
  currentPageId : Nat
  numOfCommandRetries : Nat
  appTable : Memory Module
  numOfBytesWritten : Nat
  appDataSize : Nat
  tailSwapDone : Bool
  singlePageOperation : Bool
  moduleInitialized : Bool
  flashApiErrBusy : Bool
  flash : Memory UInt8
  running : Option FlashOp
  notified : List Notification

namespace Pstorage

/-- `m_cmd_queue.cmd[m_cmd_queue.rp]`. -/
def current (store : Pstorage) : Cmd := store.cmd store.rp

/-- `cmd_queue_element_init`. -/
def cmdQueueElementInit (store : Pstorage) (index : Nat) : Pstorage :=
  { store with cmd := Function.update store.cmd index ⟨.invalid, 0, 0, ⟨numOfPages, 0⟩, none⟩ }

/-- `command_queue_element_consume`. -/
def commandQueueElementConsume (store : Pstorage) : Pstorage :=
  let store := store.cmdQueueElementInit store.rp
  { store with
    count := store.count - 1
    rp := if store.rp + 1 = cmdQueueSize then 0 else store.rp + 1 }

/-- `app_notify`, for the command at the read pointer. -/
def appNotify (store : Pstorage) (result : UInt32) : Pstorage :=
  let elem := store.current
  { store with
    notified := store.notified ++
      [⟨elem.storageAddr, elem.opCode, result, elem.pDataAddr, store.appDataSize⟩] }

/-- `app_notify_error_state_transit`. -/
def appNotifyErrorStateTransit (store : Pstorage) (result : UInt32) : Pstorage :=
  { store.appNotify result with state := .error }

/-! ### Flash operations

What the stack answers to the operation that a call or an event issues, if it issues one, is `answer`. -/

/-- A call of the flash functions, and `flash_api_err_code_process`. -/
def flashCall (store : Pstorage) (op : FlashOp) (answer : UInt32) : Pstorage :=
  if answer = nrfSuccess then { store with running := some op }
  else if answer = nrfErrorBusy then { store with flashApiErrBusy := true }
  else store.appNotifyErrorStateTransit answer

/-- `flash_write`. -/
def flashWrite (store : Pstorage) (dst : Nat) (src : Source) (sizeInWords : Nat) (answer : UInt32) :
    Pstorage := store.flashCall (.write dst src sizeInWords) answer

/-- `flash_page_erase`. -/
def flashPageErase (store : Pstorage) (pageNumber : Nat) (answer : UInt32) : Pstorage :=
  store.flashCall (.pageErase pageNumber) answer

/-- `store_cmd_flash_write_execute`. -/
def storeCmdFlashWriteExecute (store : Pstorage) (answer : UInt32) : Pstorage :=
  let cmd := store.current
  let bytes : Memory UInt8 := fun index => (cmd.pDataAddr.elim 0 fun data => data.bytes index)
  if cmd.size > pageSize then
    let offset := cmd.size - pageSize
    { store.flashWrite (cmd.storageAddr.blockId + cmd.offset + offset)
        (.ram fun index => bytes (offset + index)) (pageSize / 4) answer with
      numOfBytesWritten := pageSize }
  else
    { store.flashWrite (cmd.storageAddr.blockId + cmd.offset) (.ram bytes) (cmd.size / 4) answer with
      numOfBytesWritten := cmd.size }

variable (swapAddr : Nat)

/-- `swap_sub_state_state_change`, with the entry actions of the sub states. -/
def swapSubStateStateChange (store : Pstorage) (newState : SwapSubState) (answer : UInt32) : Pstorage :=
  let store := { store with swapSubState := newState }
  let cmd := store.current
  match newState with
  | .eraseSwap => store.flashPageErase (swapAddr / pageSize) answer
  | .writeDataToSwap =>
      store.flashWrite swapAddr (.flash (store.currentPageId * pageSize)) (pageSize / 4) answer
  | .eraseDataPage => store.flashPageErase store.currentPageId answer
  | .restoreTail =>
      let tailOffset := (cmd.storageAddr.blockId + cmd.size + cmd.offset) % pageSize
      store.flashWrite (cmd.storageAddr.blockId + cmd.size + cmd.offset) (.flash (swapAddr + tailOffset))
        store.tailWordSize answer
  | .restoreHead =>
      store.flashWrite ((store.currentPageId - 1) * pageSize) (.flash swapAddr) store.headWordSize answer

/-- `state_data_erase_swap_entry_run`. -/
def stateDataEraseSwapEntryRun (store : Pstorage) (answer : UInt32) : Pstorage :=
  let cmdBlockId := store.current.storageAddr.blockId
  let clearStartPageId := cmdBlockId / pageSize
  let clearEndPageId := (cmdBlockId + store.current.size - 1) / pageSize
  let store := { store with
    tailSwapDone := false
    currentPageId := clearStartPageId
    singlePageOperation := clearStartPageId = clearEndPageId }
  if store.headWordSize = 0 ∧ ¬ store.singlePageOperation then
    store.swapSubStateStateChange swapAddr .eraseDataPage answer
  else store.swapSubStateStateChange swapAddr .eraseSwap answer

/-- `sm_state_change`, with the entry actions but for `STATE_IDLE`, which `commandEndProcedureRun` enters. -/
def smStateChange (store : Pstorage) (newState : State) (answer : UInt32) : Pstorage :=
  let store := { store with state := newState }
  match newState with
  | .store => store.storeCmdFlashWriteExecute answer
  | .dataEraseWithSwap => store.stateDataEraseSwapEntryRun swapAddr answer
  | .dataErase => store.flashPageErase store.currentPageId answer
  | .idle | .error => store

/-! ### Commands -/

/-- `tail_word_size_calculate`. The addresses are passed as `pstorage_size_t`. -/
def tailWordSizeCalculate (cmdEndOfStorageAddress endOfStorageAddress : Nat) : Nat :=
  let cmdEndOfStorageAddress := cmdEndOfStorageAddress % 2 ^ 16
  let endOfStorageAddress := endOfStorageAddress % 2 ^ 16
  if endOfStorageAddress / pageSize = cmdEndOfStorageAddress / pageSize then
    (endOfStorageAddress - cmdEndOfStorageAddress) / 4
  else (pageSize - cmdEndOfStorageAddress % pageSize) / 4

/-- `clear_operation_execute`. -/
def clearOperationExecute (store : Pstorage) (answer : UInt32) : Pstorage :=
  let cmd := store.current
  let cmdBlockId := cmd.storageAddr.blockId
  let owner := store.appTable cmd.storageAddr.moduleId
  let endOfStorageAddress := owner.baseId + owner.blockSize * owner.blockCount
  let cmdEndOfStorageAddress := cmdBlockId + cmd.size + cmd.offset
  let store := { store with tailWordSize := 0 }
  if (cmdBlockId % pageSize = 0 ∧ cmd.size = pageSize) ∨
      (cmdBlockId % pageSize = 0 ∧ cmdEndOfStorageAddress = endOfStorageAddress ∧ cmd.offset = 0) ∨
      cmd.storageAddr.moduleId = rawModeAppId then
    let store := { store with currentPageId := cmdBlockId / pageSize }
    store.smStateChange swapAddr .dataErase answer
  else
    let store := { store with headWordSize := (cmdBlockId + cmd.offset) % pageSize / 4 }
    let store :=
      if cmdEndOfStorageAddress ≠ endOfStorageAddress ∧ cmdEndOfStorageAddress % pageSize ≠ 0 then
        { store with tailWordSize := tailWordSizeCalculate cmdEndOfStorageAddress endOfStorageAddress }
      else store
    store.smStateChange swapAddr .dataEraseWithSwap answer

/-- `store_operation_execute`. -/
def storeOperationExecute (store : Pstorage) (answer : UInt32) : Pstorage :=
  store.smStateChange swapAddr .store answer

/-- `cmd_process`. -/
def cmdProcess (store : Pstorage) (answer : UInt32) : Pstorage :=
  let store := { store with appDataSize := store.current.size }
  match store.current.opCode with
  | .store => store.storeOperationExecute swapAddr answer
  | .clear | .update => store.clearOperationExecute swapAddr answer
  | .invalid | .load => store

/-- `cmd_queue_dequeue`. -/
def cmdQueueDequeue (store : Pstorage) (answer : UInt32) : Pstorage :=
  if store.count ≠ 0 then store.cmdProcess swapAddr answer else store

/-- `state_idle_entry_run`. -/
def stateIdleEntryRun (store : Pstorage) (answer : UInt32) : Pstorage :=
  let store := { store with numOfCommandRetries := 0, numOfBytesWritten := 0 }
  store.cmdQueueDequeue swapAddr answer

/-- `command_end_procedure_run`. -/
def commandEndProcedureRun (store : Pstorage) (answer : UInt32) : Pstorage :=
  let store := (store.appNotify nrfSuccess).commandQueueElementConsume
  let store := { store with state := .idle }
  store.stateIdleEntryRun swapAddr answer

/-- `clear_post_processing_run`. -/
def clearPostProcessingRun (store : Pstorage) (answer : UInt32) : Pstorage :=
  if store.current.opCode ≠ .update then store.commandEndProcedureRun swapAddr answer
  else store.storeOperationExecute swapAddr answer

/-! ### Events -/

/-- The last page a command is executed upon. -/
def lastPageId (store : Pstorage) : Nat :=
  (store.current.storageAddr.blockId + store.current.size + store.current.offset - 1) / pageSize

/-- `is_tail_data_page_swap_required`. -/
def isTailDataPageSwapRequired (store : Pstorage) : Bool :=
  store.tailWordSize ≠ 0 ∧ store.currentPageId = store.lastPageId

/-- `is_page_erase_required`. -/
def isPageEraseRequired (store : Pstorage) : Bool :=
  store.currentPageId < store.lastPageId ∨ store.currentPageId = store.lastPageId ∧ store.tailWordSize = 0

/-- `head_restore_state_run`. -/
def headRestoreStateRun (store : Pstorage) (answer : UInt32) : Pstorage :=
  if store.isTailDataPageSwapRequired then
    let store := { store with headWordSize := 0, tailSwapDone := true }
    store.swapSubStateStateChange swapAddr .eraseSwap answer
  else if store.isPageEraseRequired then
    let store := { store with headWordSize := 0 }
    store.swapSubStateStateChange swapAddr .eraseDataPage answer
  else if store.tailWordSize ≠ 0 then store.swapSubStateStateChange swapAddr .restoreTail answer
  else store.clearPostProcessingRun swapAddr answer

/-- `data_page_erase_state_run`. -/
def dataPageEraseStateRun (store : Pstorage) (answer : UInt32) : Pstorage :=
  let store := { store with currentPageId := store.currentPageId + 1 }
  if store.headWordSize ≠ 0 then store.swapSubStateStateChange swapAddr .restoreHead answer
  else if store.isPageEraseRequired then store.swapSubStateStateChange swapAddr .eraseDataPage answer
  else if store.tailWordSize ≠ 0 then
    if ¬ store.tailSwapDone then
      let store := { store with tailSwapDone := true }
      store.swapSubStateStateChange swapAddr .eraseSwap answer
    else store.swapSubStateStateChange swapAddr .restoreTail answer
  else store.clearPostProcessingRun swapAddr answer

/-- `data_to_swap_write_state_run`. -/
def dataToSwapWriteStateRun (store : Pstorage) (answer : UInt32) : Pstorage :=
  let store := if store.singlePageOperation then { store with tailSwapDone := true } else store
  store.swapSubStateStateChange swapAddr .eraseDataPage answer

/-- `swap_sub_state_sm_run`. Each of its functions reissues an operation that the stack did not accept,
`swap_sub_state_err_busy_process`. -/
def swapSubStateSmRun (store : Pstorage) (answer : UInt32) : Pstorage :=
  if store.flashApiErrBusy then
    let store := { store with flashApiErrBusy := false }
    store.swapSubStateStateChange swapAddr store.swapSubState answer
  else
    match store.swapSubState with
    | .eraseSwap => store.swapSubStateStateChange swapAddr .writeDataToSwap answer
    | .writeDataToSwap => store.dataToSwapWriteStateRun swapAddr answer
    | .eraseDataPage => store.dataPageEraseStateRun swapAddr answer
    | .restoreTail => store.clearPostProcessingRun swapAddr answer
    | .restoreHead => store.headRestoreStateRun swapAddr answer

/-- `main_state_err_busy_process`. -/
def mainStateErrBusyProcess (store : Pstorage) (answer : UInt32) : Pstorage :=
  let store := { store with flashApiErrBusy := false }
  store.smStateChange swapAddr store.state answer

/-- `erase_sub_state_sm_run`. -/
def eraseSubStateSmRun (store : Pstorage) (answer : UInt32) : Pstorage :=
  if store.flashApiErrBusy then store.mainStateErrBusyProcess swapAddr answer
  else
    let store := { store with currentPageId := store.currentPageId + 1 }
    if ¬ store.isPageEraseRequired then store.clearPostProcessingRun swapAddr answer
    else store.smStateChange swapAddr store.state answer

/-- `store_sub_state_sm_run`. -/
def storeSubStateSmRun (store : Pstorage) (answer : UInt32) : Pstorage :=
  if store.flashApiErrBusy then store.mainStateErrBusyProcess swapAddr answer
  else
    let cmd := { store.current with size := store.current.size - store.numOfBytesWritten }
    let store := { store with cmd := Function.update store.cmd store.rp cmd }
    if cmd.size = 0 then store.commandEndProcedureRun swapAddr answer
    else store.storeCmdFlashWriteExecute answer

/-- `flash_operation_success_run`. -/
def flashOperationSuccessRun (store : Pstorage) (answer : UInt32) : Pstorage :=
  match store.state with
  | .store => store.storeSubStateSmRun swapAddr answer
  | .dataErase => store.eraseSubStateSmRun swapAddr answer
  | .dataEraseWithSwap => store.swapSubStateSmRun swapAddr answer
  | .idle | .error => store

/-- `flash_operation_failure_run`. -/
def flashOperationFailureRun (store : Pstorage) (answer : UInt32) : Pstorage :=
  let store := { store with numOfCommandRetries := store.numOfCommandRetries + 1 }
  if store.numOfCommandRetries ≠ sdCmdMaxTries then
    if store.state ≠ .dataEraseWithSwap then store.smStateChange swapAddr store.state answer
    else store.swapSubStateStateChange swapAddr store.swapSubState answer
  else store.appNotifyErrorStateTransit nrfErrorTimeout

/-- `pstorage_sys_event_handler`, for `NRF_EVT_FLASH_OPERATION_SUCCESS` and
`NRF_EVT_FLASH_OPERATION_ERROR`; other events are not for it. -/
def sysEventHandler (store : Pstorage) (success : Bool) (answer : UInt32) : Pstorage :=
  if store.state ≠ .idle ∧ store.state ≠ .error then
    if success then store.flashOperationSuccessRun swapAddr answer
    else if ¬ store.flashApiErrBusy then store.flashOperationFailureRun swapAddr answer
    else store.flashOperationSuccessRun swapAddr answer
  else store

/-! ### Calls -/

/-- `pstorage_init`, on a flash, where the data starts. -/
def init (dataStartAddr : Nat) (flash : Memory UInt8) : Pstorage where
  rp := 0
  count := 0
  cmd := fun _ => ⟨.invalid, 0, 0, ⟨numOfPages, 0⟩, none⟩
  nextAppInstance := 0
  nextPageAddr := dataStartAddr
  state := .idle
  swapSubState := .eraseSwap
  headWordSize := 0
  tailWordSize := 0
  currentPageId := 0
  numOfCommandRetries := 0
  appTable := fun _ => ⟨false, 0, 0, 0⟩
  numOfBytesWritten := 0
  appDataSize := 0
  tailSwapDone := false
  singlePageOperation := false
  moduleInitialized := true
  flashApiErrBusy := false
  flash := flash
  running := none
  notified := []

/-- `pstorage_register`. -/
def pstorageRegister (store : Pstorage) (param : ModuleParam) : Pstorage × Except UInt32 Handle :=
  if ¬ store.moduleInitialized then (store, .error nrfErrorInvalidState)
  else if ¬ param.cb then (store, .error nrfErrorNull)
  else if param.blockSize > pageSize ∨ param.blockSize < minBlockSize then
    (store, .error nrfErrorInvalidParam)
  else if param.blockCount = 0 ∨ store.nextPageAddr + param.blockCount * param.blockSize > swapAddr then
    (store, .error nrfErrorInvalidParam)
  else if ¬ param.blockSize % 4 = 0 then (store, .error nrfErrorInvalidParam)
  else if store.nextAppInstance = numOfPages then (store, .error nrfErrorNoMem)
  else
    let blockId : Handle := ⟨store.nextAppInstance, store.nextPageAddr⟩
    let pageCount := (param.blockSize * param.blockCount + pageSize - 1) / pageSize
    ({ store with
        appTable := Function.update store.appTable store.nextAppInstance
          ⟨param.cb, blockId.blockId, param.blockSize, param.blockCount⟩
        nextPageAddr := store.nextPageAddr + pageCount * pageSize
        nextAppInstance := store.nextAppInstance + 1 }, .ok blockId)

/-- `MODULE_BLOCK_SIZE`. -/
def moduleBlockSize (store : Pstorage) (id : Handle) : Nat := (store.appTable id.moduleId).blockSize

/-- `MODULE_ID_RANGE_CHECK`, failed. -/
def moduleIdOut (store : Pstorage) (id : Handle) : Bool :=
  id.moduleId ≥ numOfPages ∨ ¬ (store.appTable id.moduleId).cb

/-- `BLOCK_ID_RANGE_CHECK`, failed. -/
def blockIdOut (store : Pstorage) (id : Handle) : Bool :=
  id.blockId ≥ (store.appTable id.moduleId).baseId +
    (store.appTable id.moduleId).blockCount * store.moduleBlockSize id

/-- `SIZE_CHECK`, failed. -/
def sizeOut (store : Pstorage) (id : Handle) (size : Nat) : Bool :=
  size = 0 ∨ size > store.moduleBlockSize id

/-- `OFFSET_CHECK`, failed. -/
def offsetOut (store : Pstorage) (id : Handle) (offset size : Nat) : Bool :=
  size + offset > store.moduleBlockSize id

/-- `is_word_aligned`. -/
def isWordAligned (address : Nat) : Bool := address % 4 = 0

/-- `pstorage_block_identifier_get`. -/
def pstorageBlockIdentifierGet (store : Pstorage) (baseId : Handle) (blockNum : Nat) :
    Except UInt32 Handle :=
  if ¬ store.moduleInitialized then .error nrfErrorInvalidState
  else if store.moduleIdOut baseId then .error nrfErrorInvalidParam
  else
    let tempId := { baseId with blockId := baseId.blockId + blockNum * store.moduleBlockSize baseId }
    if store.blockIdOut tempId then .error nrfErrorInvalidParam else .ok tempId

/-- `cmd_queue_enqueue`. -/
def cmdQueueEnqueue (store : Pstorage) (cmd : Cmd) (answer : UInt32) : Pstorage × UInt32 :=
  if store.count ≠ cmdQueueSize then
    let writeIndex := store.rp + store.count
    let writeIndex := if writeIndex ≥ cmdQueueSize then writeIndex - cmdQueueSize else writeIndex
    let store := { store with
      cmd := Function.update store.cmd writeIndex cmd
      count := store.count + 1 }
    (if store.state = .idle then store.cmdProcess swapAddr answer else store, nrfSuccess)
  else (store, nrfErrorNoMem)

/-- The checks of the arguments of `pstorage_store`, `pstorage_update` and `pstorage_load`: the code of
the first that fails. -/
def argumentError (store : Pstorage) (block : Handle) (memory size offset : Nat) : Option UInt32 :=
  if ¬ store.moduleInitialized then some nrfErrorInvalidState
  else if store.moduleIdOut block then some nrfErrorInvalidParam
  else if store.blockIdOut block then some nrfErrorInvalidParam
  else if store.sizeOut block size then some nrfErrorInvalidParam
  else if store.offsetOut block offset size then some nrfErrorInvalidParam
  else if ¬ isWordAligned memory ∨ ¬ isWordAligned offset ∨ ¬ isWordAligned block.blockId then
    some nrfErrorInvalidAddr
  else none

/-- `pstorage_store`. -/
def pstorageStore (store : Pstorage) (dest : Handle) (src : Resident) (size offset : Nat)
    (answer : UInt32) : Pstorage × UInt32 :=
  match store.argumentError dest src.address size offset with
  | some error => (store, error)
  | none => store.cmdQueueEnqueue swapAddr ⟨.store, size, offset, dest, some src⟩ answer

/-- `pstorage_update`. -/
def pstorageUpdate (store : Pstorage) (dest : Handle) (src : Resident) (size offset : Nat)
    (answer : UInt32) : Pstorage × UInt32 :=
  match store.argumentError dest src.address size offset with
  | some error => (store, error)
  | none => store.cmdQueueEnqueue swapAddr ⟨.update, size, offset, dest, some src⟩ answer

/-- `pstorage_load`, to an address, with what its callback is told. -/
def pstorageLoad (store : Pstorage) (dest : Nat) (src : Handle) (size offset : Nat) :
    Except UInt32 (List UInt8 × Notification) :=
  match store.argumentError src dest size offset with
  | some error => .error error
  | none =>
      let bytes := slice store.flash (src.blockId + offset) size
      .ok (bytes, ⟨src, .load, nrfSuccess, some ⟨dest, fun index => bytes.getD index 0⟩, size⟩)

/-- `pstorage_clear`. The difference of the addresses is one of `uint32_t`. -/
def pstorageClear (store : Pstorage) (dest : Handle) (size : Nat) (answer : UInt32) :
    Pstorage × UInt32 :=
  let owner := store.appTable dest.moduleId
  if ¬ store.moduleInitialized then (store, nrfErrorInvalidState)
  else if store.moduleIdOut dest then (store, nrfErrorInvalidParam)
  else if store.blockIdOut dest then (store, nrfErrorInvalidParam)
  else if ¬ isWordAligned dest.blockId then (store, nrfErrorInvalidAddr)
  else if ¬ (dest.blockId + 2 ^ 32 - owner.baseId) % 2 ^ 32 % owner.blockSize = 0 then
    (store, nrfErrorInvalidParam)
  else if size % owner.blockSize ≠ 0 ∨ size = 0 then (store, nrfErrorInvalidParam)
  else if dest.blockId + size > owner.baseId + owner.blockSize * owner.blockCount then
    (store, nrfErrorInvalidParam)
  else store.cmdQueueEnqueue swapAddr ⟨.clear, size, 0, dest, none⟩ answer

/-- `pstorage_access_status_get`. -/
def pstorageAccessStatusGet (store : Pstorage) : Except UInt32 Nat :=
  if ¬ store.moduleInitialized then .error nrfErrorInvalidState else .ok store.count

end Pstorage

/-- What can happen to the storage: a call that no event interrupts, the end of the operation of its own that
runs, or the event of an operation of somebody else, each with what the stack answers to the operation it
issues. -/
inductive Input where
  | register (param : ModuleParam)
  | store (dest : Handle) (src : Resident) (size offset : Nat) (answer : UInt32)
  | update (dest : Handle) (src : Resident) (size offset : Nat) (answer : UInt32)
  | clear (dest : Handle) (size : Nat) (answer : UInt32)
  | complete (success : Bool) (answer : UInt32)
  | otherEvent (success : Bool) (answer : UInt32)

namespace Pstorage

variable (swapAddr : Nat)

/-- The operation that runs is done, and its event is handled. -/
def complete (store : Pstorage) (success : Bool) (answer : UInt32) : Pstorage :=
  match store.running with
  | none => store
  | some op =>
      let store := { store with
        flash := if success then op.apply store.flash else store.flash
        running := none }
      store.sysEventHandler swapAddr success answer

/-- The next state, and the code that a call returns. -/
def called (store : Pstorage) : Input → Pstorage × UInt32
  | .register param =>
      match store.pstorageRegister swapAddr param with
      | (store, .ok _) => (store, nrfSuccess)
      | (store, .error error) => (store, error)
  | .store dest src size offset answer => store.pstorageStore swapAddr dest src size offset answer
  | .update dest src size offset answer => store.pstorageUpdate swapAddr dest src size offset answer
  | .clear dest size answer => store.pstorageClear swapAddr dest size answer
  | .complete success answer => (store.complete swapAddr success answer, nrfSuccess)
  | .otherEvent success answer => (store.sysEventHandler swapAddr success answer, nrfSuccess)

def step (store : Pstorage) (input : Input) : Pstorage := (store.called swapAddr input).1

end Pstorage

end PrimoCore.Storage
