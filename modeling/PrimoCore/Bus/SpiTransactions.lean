/-
**The interrupts around SPI transactions.**

`beginTransaction`, `endTransaction` and `usingInterrupt` switch the interrupts of the processor off
and on. The first two are called in pairs, which may lie in one another.

* `SPIClass.beginTransaction`, `endTransaction`, `usingInterrupt` — the code, with the registers of
  the device.
* `Bracketed` — the sequences in which each `beginTransaction` has its `endTransaction`.
* `SpiCall.sets` — what a call leaves the interrupts as, whatever they were; `Bracketed.last_sets_eq`
  — the last call that does so is no `beginTransaction`.
* `interrupts_left_iff` — **a sequence leaves the interrupts as it found them exactly when** no call
  sets them, or the last one that does sets them to what they were.
-/

import Mathlib.Tactic.SplitIfs
import PrimoCore.Lib.Run

namespace PrimoCore.Bus

open PrimoCore.Lib

/-- The registers of the processor that mask interrupts. -/
structure Cpu where
  primask : Bool
  faultmask : Bool

namespace Cpu

/-- `intStatus`. -/
def intStatus (cpu : Cpu) : UInt8 :=
  if cpu.primask then 0 else if cpu.faultmask then 0 else 1

/-- `noInterrupts`. -/
def noInterrupts (cpu : Cpu) : Cpu := { cpu with primask := true }

/-- `interrupts`. -/
def interrupts (cpu : Cpu) : Cpu := { cpu with primask := false }

end Cpu

/-- `SPISettings`. -/
structure SPISettings where
  interfaceClock : UInt32
  bitOrder : UInt8
  dataMode : UInt8

/-- The registers of the device that are written here. -/
structure SpiRegisters where
  pselSck : UInt32
  pselMosi : UInt32
  pselMiso : UInt32
  frequency : UInt32
  config : UInt32
  enable : UInt32

/-- `SPIClass`. -/
structure SPIClass where
  registers : SpiRegisters
  pinMiso : UInt8
  pinSck : UInt8
  pinMosi : UInt8
  order : UInt8
  interruptMode : UInt8
  interruptMask : UInt32
  interruptSave : UInt8
  inTransactionFlag : UInt8

/-- The processor and the object. -/
structure SpiHost where
  cpu : Cpu
  spi : SPIClass

namespace SPIClass

/-- `end`. -/
def ends (spi : SPIClass) : SPIClass :=
  { spi with registers := { spi.registers with enable := spi.registers.enable &&& ~~~1 } }

/-- `setBitOrder`; `LSBFIRST` is 0. -/
def setBitOrder (spi : SPIClass) (order : UInt8) : SPIClass :=
  { spi with
    registers := { spi.registers with
      config := if order = 0 then spi.registers.config ||| 1 else spi.registers.config &&& ~~~1 }
    order := order }

/-- What `setDataMode` makes of `CONFIG`, with `CPOL` in bit 2 and `CPHA` in bit 1. -/
def dataModeConfig (config : UInt32) (mode : UInt8) : UInt32 :=
  if mode = 1 then (config &&& ~~~4) ||| 4
  else if mode = 2 then (config ||| 4) &&& ~~~2
  else if mode = 3 then (config ||| 4) ||| 4
  else (config &&& ~~~4) &&& ~~~2

/-- Modes 1 and 3 are one to the device: both set `CPOL`, and leave `CPHA` as it was. -/
theorem dataModeConfig_odd (config : UInt32) :
    dataModeConfig config 1 = dataModeConfig config 3 ∧
      dataModeConfig config 1 &&& 2 = config &&& 2 := by
  have first : dataModeConfig config 1 = (config &&& ~~~4) ||| 4 := rfl
  have third : dataModeConfig config 3 = (config ||| 4) ||| 4 := rfl
  have cpol : UInt32.toBitVec 4 = 4#32 := rfl
  have cpha : UInt32.toBitVec 2 = 2#32 := rfl
  have apart : ∀ bit < 32, (4#32).getLsbD bit = true → (2#32).getLsbD bit = false := by decide +kernel
  rw [first, third]
  refine ⟨UInt32.eq_of_toBitVec_eq (BitVec.eq_of_getLsbD_eq fun bit inside => ?_),
    UInt32.eq_of_toBitVec_eq (BitVec.eq_of_getLsbD_eq fun bit inside => ?_)⟩
  · simp only [UInt32.toBitVec_or, UInt32.toBitVec_and, UInt32.toBitVec_not, BitVec.getLsbD_or,
      BitVec.getLsbD_and, BitVec.getLsbD_not, inside, cpol, decide_true]
    cases (4#32).getLsbD bit <;> simp
  · simp only [UInt32.toBitVec_or, UInt32.toBitVec_and, UInt32.toBitVec_not, BitVec.getLsbD_or,
      BitVec.getLsbD_and, BitVec.getLsbD_not, inside, cpol, cpha, decide_true]
    cases set : (4#32).getLsbD bit with
    | false => simp
    | true => simp [apart bit inside set]

/-- `setDataMode`. -/
def setDataMode (spi : SPIClass) (mode : UInt8) : SPIClass :=
  { spi with registers := { spi.registers with config := dataModeConfig spi.registers.config mode } }

/-- What `setClockDivider` makes of `FREQUENCY`. -/
def dividerFrequency (frequency : UInt32) (div : UInt16) : UInt32 :=
  if div = 6 then 0x80000000
  else if div = 12 then 0x40000000
  else if div = 24 then 0x20000000
  else if div = 48 then 0x10000000
  else if div = 96 then 0x08000000
  else if div = 192 then 0x04000000
  else if div = 384 then 0x02000000
  else frequency

/-- `setClockDivider`. -/
def setClockDivider (spi : SPIClass) (div : UInt16) : SPIClass :=
  { spi with
    registers := { spi.registers with frequency := dividerFrequency spi.registers.frequency div } }

/-- The divider that `beginTransaction` takes for a clock. -/
def clockDivider (interfaceClock : UInt32) : UInt16 :=
  if interfaceClock < 182000 then 384
  else if interfaceClock < 375000 then 192
  else if interfaceClock < 750000 then 96
  else if interfaceClock < 1500000 then 48
  else if interfaceClock < 3000000 then 24
  else if interfaceClock < 6000000 then 12
  else 6

/-- The pins that `beginTransaction` selects. `description` is `g_APinDescription`, with the pins of
the chip. -/
def selectPins (description : UInt8 → UInt32) (spi : SPIClass) : SPIClass :=
  { spi with
    registers := { spi.registers with
      pselSck := description spi.pinSck
      pselMosi := description spi.pinMosi
      pselMiso := description spi.pinMiso } }

/-- The lines of `beginTransaction` that set up the device. -/
def setUp (description : UInt8 → UInt32) (spi : SPIClass) (settings : SPISettings) : SPIClass :=
  let spi := spi.ends.selectPins description
  let spi := spi.setClockDivider (clockDivider settings.interfaceClock)
  let spi := spi.setDataMode settings.dataMode
  let spi := spi.setBitOrder settings.bitOrder
  { spi with registers := { spi.registers with enable := 1 } }

/-- `beginTransaction`. -/
def beginTransaction (description : UInt8 → UInt32) (host : SpiHost) (settings : SPISettings) :
    SpiHost :=
  let spi := { host.spi with interruptSave := host.cpu.intStatus }
  let cpu := host.cpu.noInterrupts
  { cpu := cpu, spi := { spi.setUp description settings with inTransactionFlag := 1 } }

/-- `endTransaction`. -/
def endTransaction (host : SpiHost) : SpiHost where
  cpu := host.cpu.interrupts
  spi := { host.spi with inTransactionFlag := 0 }

/-- `usingInterrupt`. -/
def usingInterrupt (description : UInt8 → UInt32) (host : SpiHost) (intNum : UInt8) : SpiHost :=
  let irestore := host.cpu.intStatus
  let cpu := host.cpu.noInterrupts
  -- the return leaves the interrupts off
  if 19 < intNum then ⟨cpu, host.spi⟩
  else
    let spi := { host.spi with interruptMode := 1, interruptMask := description intNum }
    ⟨if irestore ≠ 0 then cpu.interrupts else cpu, spi⟩

end SPIClass

/-! ### Sequences of calls -/

inductive SpiCall where
  | usingInterrupt (intNum : UInt8)
  | beginTransaction (settings : SPISettings)
  | endTransaction

/-- **Sequences in which the transactions are bracketed**: each is ended, after those begun in it. -/
inductive Bracketed : List SpiCall → Prop
  | nil : Bracketed []
  | usingInterrupt {rest : List SpiCall} (intNum : UInt8) :
      Bracketed rest → Bracketed (.usingInterrupt intNum :: rest)
  | transaction {inside rest : List SpiCall} (settings : SPISettings) : Bracketed inside → Bracketed rest →
      Bracketed (.beginTransaction settings :: inside ++ .endTransaction :: rest)

namespace SpiHost

/-- One call. -/
def step (description : UInt8 → UInt32) (host : SpiHost) : SpiCall → SpiHost
  | .usingInterrupt intNum => SPIClass.usingInterrupt description host intNum
  | .beginTransaction settings => SPIClass.beginTransaction description host settings
  | .endTransaction => SPIClass.endTransaction host

/-- **The calls leave the interrupts as they found them.** -/
def LeavesInterrupts (description : UInt8 → UInt32) (host : SpiHost) (calls : List SpiCall) : Prop :=
  (run (step description) host calls).cpu.intStatus = host.cpu.intStatus

end SpiHost

namespace SpiCall

/-- **What `intStatus` is after a call**, if the call does not leave it as it was. -/
def sets : SpiCall → Option UInt8
  | .usingInterrupt intNum => if 19 < intNum then some 0 else none
  | .beginTransaction _ => some 0
  | .endTransaction => some 1

/-- The same, of the calls that a sequence may end with: `endTransaction` enables the interrupts, and
`usingInterrupt` with a number above 19 disables them. -/
def leaves : SpiCall → Option UInt8
  | .usingInterrupt intNum => sets (.usingInterrupt intNum)
  | .beginTransaction _ => none
  | .endTransaction => sets .endTransaction

end SpiCall

/-! ### What the calls do -/

namespace SpiHost

variable (description : UInt8 → UInt32)

/-- No call touches `FAULTMASK`. -/
theorem step_faultmask (host : SpiHost) (call : SpiCall) :
    (host.step description call).cpu.faultmask = host.cpu.faultmask := by
  cases call with
  | usingInterrupt intNum =>
    unfold step SPIClass.usingInterrupt
    dsimp only
    split_ifs <;> rfl
  | beginTransaction settings => rfl
  | endTransaction => rfl

theorem run_faultmask (host : SpiHost) (calls : List SpiCall) :
    (run (step description) host calls).cpu.faultmask = host.cpu.faultmask := by
  induction calls generalizing host with
  | nil => rfl
  | cons call rest ih => rw [run_cons, ih, step_faultmask]

/-- **One call** sets the interrupts, or leaves them. -/
theorem step_intStatus {host : SpiHost} (call : SpiCall) (clear : host.cpu.faultmask = false) :
    (host.step description call).cpu.intStatus = call.sets.getD host.cpu.intStatus := by
  cases call with
  | usingInterrupt intNum =>
    unfold step SPIClass.usingInterrupt SpiCall.sets
    dsimp only
    by_cases above : 19 < intNum
    · rw [if_pos above, if_pos above]
      rfl
    · rw [if_neg above, if_neg above, Option.getD_none]
      cases masked : host.cpu.primask <;>
        simp [Cpu.intStatus, Cpu.interrupts, Cpu.noInterrupts, masked, clear]
  | beginTransaction settings => rfl
  | endTransaction =>
    unfold step SPIClass.endTransaction SpiCall.sets Cpu.interrupts Cpu.intStatus
    simp [clear]

/-- With `FAULTMASK` set, the interrupts are off. -/
theorem intStatus_of_faultmask {cpu : Cpu} (set : cpu.faultmask = true) : cpu.intStatus = 0 := by
  unfold Cpu.intStatus
  rw [if_pos set, ite_self]

end SpiHost

/-- **The last call that sets the interrupts** is no `beginTransaction`. -/
theorem Bracketed.last_sets_eq {calls : List SpiCall} (bracketed : Bracketed calls) :
    (calls.filterMap SpiCall.sets).getLast? = (calls.filterMap SpiCall.leaves).getLast? := by
  induction bracketed with
  | nil => rfl
  | usingInterrupt intNum _ ih =>
    have same : SpiCall.leaves (.usingInterrupt intNum) = SpiCall.sets (.usingInterrupt intNum) := rfl
    rw [List.filterMap_cons, List.filterMap_cons, same]
    cases SpiCall.sets (.usingInterrupt intNum) with
    | none => exact ih
    | some status => rw [List.getLast?_cons, List.getLast?_cons, ih]
  | transaction settings _ _ _ ih =>
    have ends : ∀ sets : SpiCall → Option UInt8, sets .endTransaction = some 1 → ∀ before rest,
        ((before ++ SpiCall.endTransaction :: rest).filterMap sets).getLast? =
          some ((rest.filterMap sets).getLast?.getD 1) := by
      intro sets enabled before rest
      rw [List.filterMap_append, List.filterMap_cons_some enabled, List.getLast?_append,
        List.getLast?_cons]
      rfl
    rw [ends SpiCall.sets rfl, ends SpiCall.leaves rfl, ih]

/-- **A sequence leaves the interrupts as it found them exactly when** no call sets them, or the last
one that does sets them to what they were; or when `FAULTMASK` is set, so that they stay off. -/
theorem interrupts_left_iff (description : UInt8 → UInt32) (host : SpiHost) {calls : List SpiCall}
    (bracketed : Bracketed calls) :
    host.LeavesInterrupts description calls ↔
      host.cpu.faultmask = true ∨
        ∀ status ∈ (calls.filterMap SpiCall.leaves).getLast?, status = host.cpu.intStatus := by
  unfold SpiHost.LeavesInterrupts
  by_cases set : host.cpu.faultmask = true
  · refine iff_of_true ?_ (.inl set)
    rw [SpiHost.intStatus_of_faultmask set,
      SpiHost.intStatus_of_faultmask ((SpiHost.run_faultmask description host calls).trans set)]
  · have clear : host.cpu.faultmask = false := (Bool.not_eq_true _).mp set
    have after : (run (SpiHost.step description) host calls).cpu.intStatus =
        (calls.filterMap SpiCall.sets).getLast?.getD host.cpu.intStatus :=
      @run_observe _ _ _ _ (fun host => host.cpu.intStatus) _ (fun host => host.cpu.faultmask = false)
        (fun host call clear => (SpiHost.step_faultmask description host call).trans clear)
        (fun host call clear => SpiHost.step_intStatus description call clear) host clear calls
    rw [after, bracketed.last_sets_eq, or_iff_right set]
    cases (calls.filterMap SpiCall.leaves).getLast? with
    | none => exact iff_of_true rfl fun status absent => nomatch absent
    | some status => simp

/-- The object before its first transaction, with the interrupts on or off. -/
def SpiHost.atRest (masked : Bool) : SpiHost :=
  ⟨⟨masked, false⟩, ⟨⟨0, 0, 0, 0, 0, 0⟩, 12, 13, 11, 1, 0, 0, 0, 0⟩⟩

/-- The default settings. -/
def SPISettings.default : SPISettings := ⟨4000000, 1, 0⟩

/-- A transaction in a transaction leaves the interrupts on that were on. -/
theorem interrupts_left_iff_nested : (SpiHost.atRest false).LeavesInterrupts UInt8.toUInt32
    [.usingInterrupt 3, .beginTransaction .default, .beginTransaction .default, .endTransaction,
      .endTransaction] :=
  (interrupts_left_iff UInt8.toUInt32 (.atRest false)
    (.usingInterrupt 3 (.transaction .default (.transaction .default .nil .nil) .nil))).mpr
    (.inr fun _ last => (Option.some.inj last).symm)

/-- A transaction enables the interrupts that were off, and `usingInterrupt(20)` leaves those off that
were on. -/
theorem interrupts_not_left :
    ¬ (SpiHost.atRest true).LeavesInterrupts UInt8.toUInt32 [.beginTransaction .default, .endTransaction] ∧
      ¬ (SpiHost.atRest false).LeavesInterrupts UInt8.toUInt32 [.usingInterrupt 20] := by
  unfold SpiHost.LeavesInterrupts
  decide

end PrimoCore.Bus
