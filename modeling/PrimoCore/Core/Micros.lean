/-
**The microseconds of `micros`.**

SysTick runs down from 63999 to 0 at 64 MHz and asks for its handler when it reaches zero; the handler counts
the milliseconds. `micros` reads the counter, the pending flag and the milliseconds, three registers that
change between the reads, until two passes agree, and returns what the first of the two gives.

* `SysTick.registers` — the registers at every clock, for any times at which the handler runs.
* `registers_eq` — what they hold, from the clock and the times alone.
* `MicrosCall.value_eq` — what a call returns: the microseconds of its read of the counter, and a thousand more where
  the handler has run between the two reads that follow.
* `micros_tear_free_iff` — **calls return the microseconds of an instant while they run exactly when** the
  handler does not run between these two reads, or the call is so long that the value is one of its own.
-/

import Mathlib.Algebra.Group.Nat.Defs
import Mathlib.Data.List.Chain
import Mathlib.Data.List.Forall2
import Mathlib.Tactic.SplitIfs

namespace PrimoCore.Core

/-! ### SysTick and its handler -/

/-- `VARIANT_MCK`, the clocks of a second. -/
def variantMck : UInt32 := 64000000

/-- `SysTick->LOAD`, which `init` sets from the clocks of a millisecond. -/
def load : UInt32 := variantMck / 1000 - 1

/-- `SysTick->VAL`, the pending flag of `SCB->ICSR`, and `_ulTickCount`. -/
structure Registers where
  val : UInt32
  pendstset : Bool
  ulTickCount : UInt32

namespace Registers

/-- One clock: the counter runs down, asks for the handler when it reaches zero, and reloads after it. -/
def clock (registers : Registers) : Registers :=
  if registers.val = 0 then { registers with val := load }
  else { registers with
    val := registers.val - 1
    pendstset := registers.pendstset || registers.val == 1 }

/-- `SysTick_Handler`, and the pending flag that its entry clears. -/
def sysTickHandler (registers : Registers) : Registers :=
  { registers with
    pendstset := false
    ulTickCount := registers.ulTickCount + 1 }

end Registers

/-- The clocks at which the handler runs: once for each time that the counter reaches zero, after it does
and before it does so again. -/
structure SysTick where
  served : Nat → Nat
  later : ∀ index, 64000 * index + 63999 < served index
  before : ∀ index, served index < 64000 * (index + 1) + 63999

/-- The registers at a clock, from `SysTick_Config` on. -/
def SysTick.registers (sysTick : SysTick) : Nat → Registers
  | 0 => ⟨load, false, 0⟩
  | now + 1 =>
      let counted := (sysTick.registers now).clock
      if ∃ index ≤ now, sysTick.served index = now + 1 then counted.sysTickHandler else counted

/-! ### The reads of `micros` -/

/-- The clocks at which a pass reads the counter, the pending flag and the milliseconds. -/
structure Sample where
  val : Nat
  pend : Nat
  count : Nat

/-- What a pass reads. -/
structure Reading where
  ticks : UInt32
  pend : UInt32
  count : UInt32

def SysTick.read (sysTick : SysTick) (sample : Sample) : Reading where
  ticks := (sysTick.registers sample.val).val
  pend := if (sysTick.registers sample.pend).pendstset then 1 else 0
  count := (sysTick.registers sample.count).ulTickCount

namespace Reading

/-- The condition of the loop: the pass before and this one do not agree. -/
def retry (reading next : Reading) : Bool :=
  reading.pend != next.pend || reading.count != next.count || reading.ticks < next.ticks

/-- The factor that, with the shift, stands for the division by the clocks of a microsecond. -/
def scale : UInt32 := 1048576 / (variantMck / 1000000)

/-- The value that is returned. -/
def micros (reading : Reading) : UInt32 :=
  (reading.count + reading.pend) * 1000 + (((load - reading.ticks) * scale) >>> (20 : UInt32))

/-- The loop, from the pass before: nothing where its passes are not the ones given. -/
def loop (reading : Reading) : List Reading → Option UInt32
  | [] => none
  | next :: rest =>
      if reading.retry next then next.loop rest
      else if rest.isEmpty then some reading.micros else none

end Reading

/-- **`micros`**, whose passes read at the clocks given. -/
def SysTick.micros (sysTick : SysTick) : List Sample → Option UInt32
  | [] => none
  | first :: rest => (sysTick.read first).loop (rest.map sysTick.read)

/-- The reads of a pass, in their order. -/
def Sample.InOrder (sample : Sample) : Prop :=
  sample.val < sample.pend ∧ sample.pend < sample.count

/-- The next pass: after this one, and less than a period from one read of the counter to the other. -/
def Sample.Follows (sample next : Sample) : Prop :=
  sample.count < next.val ∧ next.val < sample.val + 64000

/-- **A call of `micros` that returns**: the clocks between which it runs, its passes, of which the last but
one is the one it uses, and the value. -/
structure MicrosCall (sysTick : SysTick) where
  start : Nat
  finish : Nat
  retried : List Sample
  used : Sample
  last : Sample
  value : UInt32
  inOrder : ∀ sample ∈ retried ++ [used, last], sample.InOrder
  follows : (retried ++ [used, last]).IsChain Sample.Follows
  during : ∀ sample ∈ retried ++ [used, last], start ≤ sample.val ∧ sample.count ≤ finish
  returns : sysTick.micros (retried ++ [used, last]) = some value

variable {sysTick : SysTick}

namespace MicrosCall

/-- The value is the microseconds of an instant, and the instant lies between the call and its return. -/
def Shows (call : MicrosCall sysTick) (instant : Nat) : Prop :=
  call.start ≤ instant ∧ instant ≤ call.finish ∧ call.value.toNat = instant / 64 % 2 ^ 32

/-- The product that is scaled fits in 32 bits. -/
def Fits (call : MicrosCall sysTick) : Prop :=
  (load - (sysTick.read call.used).ticks).toNat * Reading.scale.toNat < 2 ^ 32

/-- The handler runs after the pass that is used has read the pending flag, and before it has read the
milliseconds. -/
def Torn (call : MicrosCall sysTick) : Prop :=
  ∃ index, call.used.pend < sysTick.served index ∧ sysTick.served index ≤ call.used.count

/-- The reads are not torn, or the millisecond too many is reached before the call returns, or a time that
agrees with it in 32 bits has not passed when the call begins. -/
def Whole (call : MicrosCall sysTick) : Prop :=
  ¬ call.Torn ∨ call.used.val / 64 + 1000 ≤ call.finish / 64 ∨
    call.start / 64 + 2 ^ 32 ≤ call.used.val / 64 + 1000

end MicrosCall

/-! ### What the registers hold -/

namespace SysTick

/-- How many times the counter has reached zero. -/
def reached (now : Nat) : Nat := (now + 1) / 64000

/-- How many times the handler has run: all of them, or all but the last. -/
def handled (sysTick : SysTick) (now : Nat) : Nat :=
  if 0 < reached now ∧ sysTick.served (reached now - 1) ≤ now then reached now else reached now - 1

/-- The handler runs while the last time is the one it is to serve. -/
theorem reached_served (sysTick : SysTick) (index : Nat) : reached (sysTick.served index) = index + 1 := by
  have later := sysTick.later index
  have before := sysTick.before index
  unfold reached
  omega

/-- The handler runs at a clock exactly when that is the clock at which it serves the last time. -/
theorem exists_served_iff (sysTick : SysTick) (now : Nat) : (∃ index ≤ now, sysTick.served index = now + 1) ↔
    0 < reached (now + 1) ∧ sysTick.served (reached (now + 1) - 1) = now + 1 := by
  constructor
  · rintro ⟨index, -, served⟩
    rw [← served, reached_served]
    exact ⟨index.succ_pos, rfl⟩
  · rintro ⟨positive, served⟩
    have later := sysTick.later (reached (now + 1) - 1)
    exact ⟨_, by omega, served⟩

/-- One clock: the counter reaches zero once more, or it does not. -/
theorem reached_succ (now : Nat) : reached (now + 1) = reached now ∧ now % 64000 ≠ 63998 ∨
    reached (now + 1) = reached now + 1 ∧ now + 1 = 64000 * reached now + 63999 := by
  unfold reached
  omega

/-- By the time the counter reaches zero again, the handler has served all the times before. -/
theorem handled_last (sysTick : SysTick) {now : Nat} (zero : now + 1 = 64000 * reached now + 63999) :
    sysTick.handled now = reached now := by
  have before := sysTick.before (reached now - 1)
  unfold handled
  split_ifs with served
  · rfl
  · omega

/-- One clock: the handler runs once more, or it does not. -/
theorem handled_succ (sysTick : SysTick) (now : Nat) : sysTick.handled (now + 1) =
    if ∃ index ≤ now, sysTick.served index = now + 1 then sysTick.handled now + 1
    else sysTick.handled now := by
  simp only [exists_served_iff]
  obtain ⟨same, -⟩ | ⟨more, zero⟩ := reached_succ now
  · rw [same]
    unfold handled
    rw [same]
    split_ifs <;> omega
  · have later := sysTick.later (reached now)
    have unserved : ¬ sysTick.served (reached now) ≤ now + 1 := by omega
    rw [handled_last sysTick zero, if_neg (by rw [more]; intro serves; exact unserved serves.2.le)]
    unfold handled
    rw [more, if_neg fun serves => unserved serves.2]
    rfl

/-- One clock of a counter that holds a number. -/
theorem clock_ofNat {number : Nat} (small : number < 64000) (pendst : Bool) (count : UInt32) :
    (Registers.mk (UInt32.ofNat number) pendst count).clock =
      if number = 0 then ⟨load, pendst, count⟩
      else ⟨UInt32.ofNat (number - 1), pendst || number == 1, count⟩ := by
  have value : (UInt32.ofNat number).toNat = number :=
    UInt32.toNat_ofNat_of_lt' (Nat.lt_trans small (by decide))
  have zero : UInt32.ofNat number = 0 ↔ number = 0 := by rw [← UInt32.toNat_inj, value]; rfl
  have one : UInt32.ofNat number = 1 ↔ number = 1 := by rw [← UInt32.toNat_inj, value]; rfl
  unfold Registers.clock
  simp only [zero]
  split_ifs with reload
  · rfl
  · have down : UInt32.ofNat number - 1 = UInt32.ofNat (number - 1) := by
      rw [UInt32.ofNat_sub (by omega)]
      rfl
    simp only [down, beq_eq_decide, one]

/-- **What the registers hold**: the counter has run down from the last reload, and the milliseconds lack the
one that is pending. -/
theorem registers_eq (sysTick : SysTick) (now : Nat) : sysTick.registers now =
    ⟨UInt32.ofNat (63999 - now % 64000), decide (sysTick.handled now < reached now),
      UInt32.ofNat (sysTick.handled now)⟩ := by
  induction now with
  | zero => rfl
  | succ now ih =>
    have run : (sysTick.registers now).clock = ⟨UInt32.ofNat (63999 - (now + 1) % 64000),
        decide (sysTick.handled now < reached (now + 1)), UInt32.ofNat (sysTick.handled now)⟩ := by
      rw [ih, clock_ofNat (by omega)]
      obtain ⟨same, inside⟩ | ⟨more, zero⟩ := reached_succ now
      · split_ifs with reload
        · rw [same, show (now + 1) % 64000 = 0 by omega]
          rfl
        · have pends : ((63999 - now % 64000) == 1) = false := by simp; omega
          rw [same, pends, Bool.or_false, show 63999 - (now + 1) % 64000 = 63999 - now % 64000 - 1 by omega]
      · rw [if_neg (by omega), show 63999 - now % 64000 = 1 by omega, more, handled_last sysTick zero,
          show (now + 1) % 64000 = 63999 by omega]
        simp
    unfold registers
    dsimp only
    rw [run, handled_succ]
    split_ifs with serves
    · have last : ¬ sysTick.handled now + 1 < reached (now + 1) := by
        obtain ⟨positive, served⟩ := (exists_served_iff sysTick now).mp serves
        have handled := handled_succ sysTick now
        rw [if_pos serves] at handled
        rw [← handled, SysTick.handled, if_pos ⟨positive, served.le⟩]
        exact lt_irrefl _
      simp [Registers.sysTickHandler, last]
    · rfl

theorem read_ticks (sysTick : SysTick) (sample : Sample) :
    (sysTick.read sample).ticks.toNat = 63999 - sample.val % 64000 := by
  unfold read
  dsimp only
  rw [registers_eq]
  exact UInt32.toNat_ofNat_of_lt' (Nat.lt_of_le_of_lt (Nat.sub_le _ _) (by decide))

end SysTick

/-! ### What a call returns -/

/-- A loop that ends with a pass ends where it would from the pass before. -/
theorem Reading.loop_append {passes : List Reading} {first used last : Reading} {value : UInt32}
    (returns : first.loop (passes ++ [used, last]) = some value) : used.loop [last] = some value := by
  induction passes generalizing first with
  | nil =>
    rw [List.nil_append, loop] at returns
    split_ifs at returns with retry
    · exact returns
    · contradiction
  | cons next passes ih =>
    rw [List.cons_append, loop] at returns
    split_ifs at returns with retry empty
    · exact ih returns
    · simp at empty

namespace MicrosCall

/-- The loop ends because the last two passes agree, and returns the first of the two. -/
theorem agrees (call : MicrosCall sysTick) :
    (sysTick.read call.used).retry (sysTick.read call.last) = false ∧
      call.value = (sysTick.read call.used).micros := by
  have ends : (sysTick.read call.used).loop [sysTick.read call.last] = some call.value := by
    have returns := call.returns
    cases passes : call.retried with
    | nil => rwa [passes] at returns
    | cons first retried =>
      rw [passes, List.cons_append, SysTick.micros, List.map_append] at returns
      exact Reading.loop_append returns
  rw [Reading.loop] at ends
  split_ifs at ends with retry
  · exact absurd ends (by simp [Reading.loop])
  · exact ⟨by simpa using retry, by simpa using ends.symm⟩

/-- The pass that is used, and the read of the counter after it, lie in one run of the counter. -/
theorem one_period (call : MicrosCall sysTick) : call.used.val < call.used.pend ∧ call.used.pend < call.used.count ∧
    call.used.count < call.last.val ∧ call.last.val / 64000 = call.used.val / 64000 := by
  obtain ⟨pend, count⟩ := call.inOrder call.used (by simp)
  obtain ⟨later, soon⟩ : call.used.Follows call.last :=
    (List.isChain_cons_cons.mp (List.isChain_append.mp call.follows).2.1).1
  have ticks : ¬ (sysTick.read call.used).ticks < (sysTick.read call.last).ticks := by
    have agrees := call.agrees.1
    unfold Reading.retry at agrees
    simp only [Bool.or_eq_false_iff, decide_eq_false_iff_not] at agrees
    exact agrees.2
  rw [UInt32.lt_iff_toNat_lt, SysTick.read_ticks, SysTick.read_ticks] at ticks
  exact ⟨pend, count, later, by omega⟩

/-- **The milliseconds**, with the one that is pending: those of the clock, and one more where the reads are
torn. -/
theorem counted_eq (call : MicrosCall sysTick) [Decidable call.Torn] :
    sysTick.handled call.used.count +
      (if sysTick.handled call.used.pend < SysTick.reached call.used.pend then 1 else 0) =
      call.used.val / 64000 + if call.Torn then 1 else 0 := by
  obtain ⟨pend, count, last, period⟩ := call.one_period
  have reachedPend : SysTick.reached call.used.pend = call.used.val / 64000 := by
    unfold SysTick.reached
    omega
  have reachedCount : SysTick.reached call.used.count = call.used.val / 64000 := by
    unfold SysTick.reached
    omega
  have torn : call.Torn ↔ 0 < call.used.val / 64000 ∧
      call.used.pend < sysTick.served (call.used.val / 64000 - 1) ∧
      sysTick.served (call.used.val / 64000 - 1) ≤ call.used.count := by
    constructor
    · rintro ⟨index, after, done⟩
      have served := sysTick.reached_served index
      have index_eq : index + 1 = call.used.val / 64000 := by
        unfold SysTick.reached at served reachedPend reachedCount
        omega
      rw [← index_eq]
      exact ⟨index.succ_pos, after, done⟩
    · rintro ⟨-, between⟩
      exact ⟨_, between⟩
  simp only [torn, SysTick.handled, reachedPend, reachedCount]
  split_ifs <;> omega

/-- The counter, scaled: the microseconds since the last reload, and the product that gives them fits. -/
theorem scaled_eq (sysTick : SysTick) (sample : Sample) :
    (load - (sysTick.read sample).ticks).toNat * Reading.scale.toNat = sample.val % 64000 * 16384 := by
  have ticks := sysTick.read_ticks sample
  have below : (sysTick.read sample).ticks ≤ load := by
    rw [UInt32.le_iff_toNat_le, ticks]
    exact Nat.sub_le _ _
  rw [UInt32.toNat_sub_of_le _ _ below, ticks, show load.toNat = 63999 from rfl,
    show Reading.scale.toNat = 16384 from rfl]
  omega

/-- **The product of a call fits in 32 bits.** -/
theorem fits (call : MicrosCall sysTick) : call.Fits := by
  have remainder := Nat.mod_lt call.used.val (y := 64000) (by omega)
  unfold Fits
  rw [scaled_eq]
  omega

/-- **What a call returns.** -/
theorem value_eq (call : MicrosCall sysTick) [Decidable call.Torn] :
    call.value.toNat = (call.used.val / 64 + if call.Torn then 1000 else 0) % 2 ^ 32 := by
  have counted := call.counted_eq
  have small := call.fits
  unfold Fits at small
  have count : (sysTick.read call.used).count.toNat = sysTick.handled call.used.count % 2 ^ 32 := by
    unfold SysTick.read
    dsimp only
    rw [SysTick.registers_eq]
    exact UInt32.toNat_ofNat'
  have pend : (sysTick.read call.used).pend.toNat =
      if sysTick.handled call.used.pend < SysTick.reached call.used.pend then 1 else 0 := by
    unfold SysTick.read
    dsimp only
    rw [SysTick.registers_eq]
    simp only [decide_eq_true_eq]
    split_ifs <;> rfl
  rw [call.agrees.2, Reading.micros]
  simp only [UInt32.toNat_add, UInt32.toNat_mul, UInt32.toNat_shiftRight]
  rw [Nat.mod_eq_of_lt small, scaled_eq, count, pend]
  have milliseconds : ((sysTick.handled call.used.count % 2 ^ 32 +
      if sysTick.handled call.used.pend < SysTick.reached call.used.pend then 1 else 0) % 2 ^ 32 * 1000) % 2 ^ 32 =
      ((call.used.val / 64000 + if call.Torn then 1 else 0) * 1000) % 2 ^ 32 := by
    rw [← counted]
    simp [Nat.add_mod, Nat.mul_mod]
  have microseconds : (call.used.val % 64000 * 16384) >>> (UInt32.toNat 20 % 32) = call.used.val % 64000 / 64 := by
    rw [Nat.shiftRight_eq_div_pow, show UInt32.toNat 20 % 32 = 20 from rfl]
    omega
  rw [show UInt32.toNat 1000 = 1000 from rfl, milliseconds, microseconds, Nat.mod_add_mod]
  congr 1
  split_ifs <;> omega

/-- **A call is right exactly when** its reads are whole. -/
theorem exists_shows_iff (call : MicrosCall sysTick) : (∃ instant, call.Shows instant) ↔ call.Whole := by
  classical
  obtain ⟨started, -⟩ := call.during call.used (by simp)
  obtain ⟨-, finished⟩ := call.during call.last (by simp)
  obtain ⟨pend, count, last, -⟩ := call.one_period
  obtain ⟨lastPend, lastCount⟩ := call.inOrder call.last (by simp)
  unfold Shows Whole
  rw [value_eq]
  split_ifs with torn
  · constructor
    · rintro ⟨instant, after, within, same⟩
      right
      by_contra! neither
      omega
    · rintro (whole | long | passed)
      · exact absurd torn whole
      · exact ⟨64 * (call.used.val / 64 + 1000), by omega, by omega, by omega⟩
      -- The instant is the first one of its microsecond, or the call begins within it.
      · exact ⟨max call.start (64 * (call.used.val / 64 + 1000 - 2 ^ 32)), by omega, by omega, by omega⟩
  · exact iff_of_true ⟨call.used.val, started, by omega, rfl⟩ (Or.inl torn)

end MicrosCall

/-- **Calls one after the other return the microseconds of instants that follow one another, exactly when**
each is whole. -/
theorem micros_tear_free_iff (calls : List (MicrosCall sysTick))
    (successive : calls.IsChain fun call next => call.finish ≤ next.start) :
    ((∃ instants : List Nat, List.Forall₂ MicrosCall.Shows calls instants ∧ instants.IsChain (· ≤ ·)) ∧
      ∀ call ∈ calls, call.Fits) ↔ ∀ call ∈ calls, call.Whole := by
  constructor
  · rintro ⟨⟨instants, right, -⟩, -⟩
    clear successive
    induction right with
    | nil => simp
    | cons head _ ih => exact List.forall_mem_cons.mpr ⟨(MicrosCall.exists_shows_iff _).mp ⟨_, head⟩, ih⟩
  · intro whole
    refine ⟨?_, fun call _ => call.fits⟩
    choose! instant right using fun call member => (MicrosCall.exists_shows_iff call).mpr (whole call member)
    refine ⟨calls.map instant, ?_, ?_⟩
    · exact List.forall₂_map_right_iff.mpr (List.forall₂_same.mpr right)
    · rw [List.isChain_map]
      refine successive.imp_of_mem_imp fun call next here there ordered => ?_
      exact ((right call here).2.1.trans ordered).trans (right next there).1

/-- The handler runs seven clocks before the counter reaches zero again. -/
def lateHandler : SysTick where
  served index := 64000 * index + 127992
  later index := by omega
  before index := by omega

/-- A call before the counter reaches zero. -/
def earlyCall : MicrosCall lateHandler where
  start := 0
  finish := 7
  retried := []
  used := ⟨1, 2, 3⟩
  last := ⟨4, 5, 6⟩
  value := 0
  inOrder := by simp [Sample.InOrder]
  follows := by simp [Sample.Follows]
  during := by simp
  returns := by
    simp only [SysTick.micros, SysTick.read, SysTick.registers_eq, List.nil_append, List.map_cons, List.map_nil]
    rfl

/-- A call whose second pass comes after the counter has reloaded, with the handler still to run. -/
def reloadCall : MicrosCall lateHandler where
  start := 7
  finish := 64007
  retried := [⟨63990, 63991, 63992⟩]
  used := ⟨64001, 64002, 64003⟩
  last := ⟨64004, 64005, 64006⟩
  value := 1000
  inOrder := by simp [Sample.InOrder]
  follows := by simp [Sample.Follows]
  during := by simp
  returns := by
    simp only [SysTick.micros, SysTick.read, SysTick.registers_eq, List.cons_append, List.nil_append,
      List.map_cons, List.map_nil]
    rfl

theorem early_reload_tear_free :
    (∃ instants : List Nat, List.Forall₂ MicrosCall.Shows [earlyCall, reloadCall] instants ∧ instants.IsChain (· ≤ ·)) ∧
      ∀ call ∈ [earlyCall, reloadCall], call.Fits := by
  refine (micros_tear_free_iff [earlyCall, reloadCall] (by simp [earlyCall, reloadCall])).mpr ?_
  have untorn : ∀ call : MicrosCall lateHandler, call.used.count < 127992 → ¬ call.Torn := by
    rintro call early ⟨index, -, served⟩
    change 64000 * index + 127992 ≤ _ at served
    omega
  intro call member
  obtain rfl | rfl : call = earlyCall ∨ call = reloadCall := by simpa using member
  · exact Or.inl (untorn earlyCall (by decide))
  · exact Or.inl (untorn reloadCall (by decide))

/-- The handler runs between the two reads of the first pass, and the counter reaches zero between the first
two of the second: both passes find the flag set, and the same millisecond. -/
def tornCall : MicrosCall lateHandler where
  start := 127990
  finish := 128000
  retried := []
  used := ⟨127990, 127991, 127993⟩
  last := ⟨127994, 127999, 128000⟩
  value := 2999
  inOrder := by simp [Sample.InOrder]
  follows := by simp [Sample.Follows]
  during := by simp
  returns := by
    simp only [SysTick.micros, SysTick.read, SysTick.registers_eq, List.nil_append, List.map_cons, List.map_nil]
    rfl

/-- A call returns 2999 microseconds, though 2000 have passed. -/
theorem tornCall_millisecond_ahead : ¬ ∃ instant, tornCall.Shows instant := by
  rintro ⟨instant, started, finished, same⟩
  have value : tornCall.value.toNat = 2999 := rfl
  have finish : tornCall.finish = 128000 := rfl
  omega

end PrimoCore.Core
