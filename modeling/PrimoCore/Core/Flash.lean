/-
**The flash functions of `SoftDeviceManager`.**

`flashErasePage` and `flashWriteArray` issue an operation and wait for its event, which arrives in an
interrupt and sets one variable. The stack runs one operation at a time and refuses what it is asked for
meanwhile; the operations of `pstorage` send their events to the same handler. Main code and interrupts
interleave at every access of the variable.

* `socEvtHandler`, `FlashSystem.step` — the code, one access at a time, the stack and its events.
* `FlashSystem.Fine` — what the functions are to do in every state.
* `FlashSystem.KeepsOrder` — the orders of events that do no harm.
* `flash_always_fine` — **in a run that keeps this order, every state is fine.**
* `disorder_harms` — a step that does not keep it can lead to a state that is not, with no further step
  of another client.
-/

import PrimoCore.Lib.Run
import Mathlib.Data.List.Basic

namespace PrimoCore.Core

open PrimoCore.Lib

/-- Who issues operations. -/
inductive Client where
  | driver
  | pstorage
  deriving DecidableEq

/-- `sd_flash_page_erase` and `sd_flash_write`, with their arguments. -/
inductive FlashCall where
  | pageErase (page : UInt32)
  | write (flashAddress : UInt32) (buf : List UInt32)

/-- What `flashErasePage` asks for. -/
def flashErasePage (codePageSize page : UInt32) : FlashCall := .pageErase (page / codePageSize)

/-- What `flashWriteArray` asks for. -/
def flashWriteArray (flashAddress : UInt32) (buf : List UInt32) : FlashCall := .write flashAddress buf

/-- The system events the handler tells apart. -/
inductive SocEvent where
  | flashOperationSuccess
  | flashOperationError
  | other

/-- `socEvtHandler`, on `_flashOperationPending`. -/
def socEvtHandler (evt : SocEvent) (flashOperationPending : UInt8) : UInt8 :=
  match evt with
  | .flashOperationSuccess => 0
  | .flashOperationError => 2
  | .other => flashOperationPending

/-- Where main code stands: outside the functions, before the call to the stack, in the inner loop, at
the condition of the outer loop, or just returned. -/
inductive Pc where
  | outside
  | calling (call : FlashCall)
  | waiting (call : FlashCall)
  | deciding (call : FlashCall)
  | returned (call : FlashCall)

def Pc.Inside : Pc → Prop
  | .outside | .returned _ => False
  | _ => True

/-- Main code and the stack: the operation that runs, the events of those that are done and not yet
handled, and whether an operation of the call in hand has succeeded. -/
structure FlashSystem where
  pc : Pc
  pending : UInt8
  running : Option (Client × FlashCall)
  events : List ((Client × FlashCall) × Bool)
  succeeded : Bool

/-- What can happen: a function is entered, main code takes its next step, with a stack that is willing
or not, `pstorage` issues an operation, one is done, its event is handled, or another system event is. -/
inductive FlashInput where
  | enter (call : FlashCall)
  | main (willing : Bool)
  | pstorage (call : FlashCall)
  | complete (success : Bool)
  | deliver
  | otherEvent

namespace FlashSystem

/-- The stack runs an operation of a client, if none runs yet. -/
def accept (system : FlashSystem) (client : Client) (call : FlashCall) : FlashSystem :=
  match system.running with
  | none => { system with running := some (client, call) }
  | some _ => system

/-- The next step of `flashErasePage` or `flashWriteArray`. The return code of the call is not read. -/
def main (system : FlashSystem) (willing : Bool) : FlashSystem :=
  match system.pc with
  | .outside | .returned _ => system
  | .calling call =>
      let after := if willing then system.accept .driver call else system
      { after with pc := .waiting call }
  | .waiting call => if system.pending = 1 then system else { system with pc := .deciding call }
  | .deciding call =>
      if system.pending = 2 then { system with pc := .calling call }
      else { system with pc := .returned call }

/-- A function is entered, where main code is in none. -/
def enter (system : FlashSystem) (call : FlashCall) : FlashSystem :=
  match system.pc with
  | .outside | .returned _ => { system with pc := .calling call, pending := 1, succeeded := false }
  | _ => system

/-- The operation that runs is done. -/
def complete (system : FlashSystem) (success : Bool) : FlashSystem :=
  match system.running with
  | none => system
  | some operation =>
      { system with running := none, events := system.events ++ [(operation, success)] }

/-- The oldest event is handled. -/
def deliver (system : FlashSystem) : FlashSystem :=
  match system.events with
  | [] => system
  | ((client, _), success) :: rest =>
      let evt := if success then SocEvent.flashOperationSuccess else .flashOperationError
      { system with
        events := rest
        pending := socEvtHandler evt system.pending
        succeeded := system.succeeded || (decide (client = .driver) && success) }

def step (system : FlashSystem) : FlashInput → FlashSystem
  | .enter call => system.enter call
  | .main willing => system.main willing
  | .pstorage call => system.accept .pstorage call
  | .complete success => system.complete success
  | .deliver => system.deliver
  | .otherEvent => { system with pending := socEvtHandler .other system.pending }

/-- No operation has been issued. -/
def booted : FlashSystem := ⟨.outside, 0, none, [], false⟩

/-- The operations whose events are to come, in order, with their outcomes as far as they are done. -/
def flight (system : FlashSystem) : List (Client × Option Bool) :=
  system.events.map (fun event => (event.1.1, some event.2)) ++
    system.running.toList.map fun operation => (operation.1, none)

/-- An operation of the driver is among them. -/
def InFlight (system : FlashSystem) : Prop := ∃ outcome, (Client.driver, outcome) ∈ system.flight

/-- **What the functions are to do**: they have returned only after an operation of theirs has succeeded,
with none in flight, and they wait only while one is in flight. -/
structure Fine (system : FlashSystem) : Prop where
  returned : ∀ call, system.pc = .returned call → system.succeeded = true ∧ ¬ system.InFlight
  waiting : ∀ call, system.pc = .waiting call → system.pending = 1 → system.InFlight

/-- A call that the stack accepts. -/
def Accepted (system : FlashSystem) (willing : Bool) : Prop := willing = true ∧ system.running = none

/-- **The condition on a step.** The first call is accepted. No call is accepted after a success of the
call in hand that is not yet acted on. No success of `pstorage` is handled inside the functions, unless
the call in hand is done as well. -/
def KeepsOrder (system : FlashSystem) : FlashInput → Prop
  | .main willing => ∀ call, system.pc = .calling call →
      (system.pending = 1 → system.Accepted willing) ∧
        (system.Accepted willing → system.pending ≠ 0 ∧ (.driver, some true) ∉ system.flight)
  | .deliver => system.pc.Inside → system.flight.head? = some (.pstorage, some true) →
      system.succeeded = true ∧ ¬ system.InFlight
  | _ => True

instance (pc : Pc) : Decidable pc.Inside :=
  match pc with
  | .outside | .returned _ => isFalse id
  | .calling _ | .waiting _ | .deciding _ => isTrue trivial

instance (system : FlashSystem) : Decidable system.InFlight :=
  decidable_of_iff (∃ operation ∈ system.flight, operation.1 = .driver)
    ⟨fun ⟨(_, outcome), member, driver⟩ => ⟨outcome, by cases driver; exact member⟩,
      fun ⟨_, member⟩ => ⟨_, member, rfl⟩⟩

instance (system : FlashSystem) (willing : Bool) : Decidable (system.Accepted willing) :=
  have : Decidable (system.running = none) := Option.decidableEqNone _
  inferInstanceAs (Decidable (_ ∧ _))

instance (system : FlashSystem) (input : FlashInput) : Decidable (system.KeepsOrder input) :=
  match input with
  | .main willing =>
      match at_pc : system.pc with
      | .calling call =>
          decidable_of_iff ((system.pending = 1 → system.Accepted willing) ∧
              (system.Accepted willing → system.pending ≠ 0 ∧ (.driver, some true) ∉ system.flight))
            ⟨fun keeps _ _ => keeps, fun keeps => keeps call at_pc⟩
      | .outside | .waiting _ | .deciding _ | .returned _ =>
          isTrue fun _ calls => absurd (at_pc.symm.trans calls) (by simp)
  | .deliver => inferInstanceAs (Decidable (_ → _ → _))
  | .enter _ | .pstorage _ | .complete _ | .otherEvent => isTrue trivial

/-! ### The operations in flight -/

variable {system : FlashSystem}

theorem flight_accept (free : system.running = none) (client : Client) (call : FlashCall) :
    (system.accept client call).flight = system.flight ++ [(client, none)] := by
  unfold accept flight
  rw [free]
  simp

theorem accept_busy (busy : system.running ≠ none) (client : Client) (call : FlashCall) :
    system.accept client call = system := by
  unfold accept
  split
  · contradiction
  · rfl

/-- What is done changes its outcome, and stays in flight. -/
theorem flight_complete {operation : Client × FlashCall} (runs : system.running = some operation)
    (success : Bool) : ∃ before, system.flight = before ++ [(operation.1, none)] ∧
      (system.complete success).flight = before ++ [(operation.1, some success)] := by
  refine ⟨system.events.map fun event => (event.1.1, some event.2), ?_, ?_⟩
  · unfold flight
    rw [runs]
    rfl
  · unfold complete flight
    rw [runs]
    simp

theorem complete_idle (free : system.running = none) (success : Bool) :
    system.complete success = system := by
  unfold complete
  rw [free]

theorem flight_deliver {client : Client} {call : FlashCall} {success : Bool}
    {rest : List ((Client × FlashCall) × Bool)}
    (oldest : system.events = ((client, call), success) :: rest) :
    system.flight = (client, some success) :: system.deliver.flight := by
  unfold deliver flight
  rw [oldest]
  rfl

theorem deliver_nothing (none : system.events = []) : system.deliver = system := by
  unfold deliver
  rw [none]

/-- The operations in flight are those of a list and one more. -/
theorem inFlight_of_append {after : FlashSystem} {client : Client} {outcome : Option Bool}
    {before : List (Client × Option Bool)} (flight : after.flight = before ++ [(client, outcome)]) :
    after.InFlight ↔ (∃ outcome, (Client.driver, outcome) ∈ before) ∨ client = .driver := by
  unfold InFlight
  rw [flight]
  constructor
  · rintro ⟨found, member⟩
    rcases List.mem_append.mp member with inBefore | last
    · exact .inl ⟨found, inBefore⟩
    · exact .inr (congrArg Prod.fst (List.mem_singleton.mp last)).symm
  · rintro (⟨found, inBefore⟩ | rfl)
    · exact ⟨found, List.mem_append_left _ inBefore⟩
    · exact ⟨outcome, List.mem_append_right _ (List.mem_singleton_self _)⟩

theorem inFlight_complete (system : FlashSystem) (success : Bool) :
    (system.complete success).InFlight ↔ system.InFlight := by
  cases runs : system.running with
  | none => rw [complete_idle runs]
  | some operation =>
    obtain ⟨before, flight, after⟩ := flight_complete runs success
    rw [inFlight_of_append flight, inFlight_of_append after]

theorem inFlight_accept_pstorage (call : FlashCall) :
    (system.accept .pstorage call).InFlight ↔ system.InFlight := by
  by_cases free : system.running = none
  · rw [inFlight_of_append (flight_accept free .pstorage call)]
    exact or_iff_left (by decide)
  · rw [accept_busy free]

/-- No operation of the driver follows one that has succeeded. -/
def SuccessLast (flight : List (Client × Option Bool)) : Prop :=
  flight.Pairwise fun first later => first = (.driver, some true) → later.1 ≠ .driver

theorem SuccessLast.complete (last : SuccessLast system.flight) (success : Bool) :
    SuccessLast (system.complete success).flight := by
  cases runs : system.running with
  | none =>
    rw [complete_idle runs]
    exact last
  | some operation =>
    obtain ⟨before, flight, after⟩ := flight_complete runs success
    unfold SuccessLast at *
    rw [flight, List.pairwise_append] at last
    rw [after, List.pairwise_append]
    refine ⟨last.1, List.pairwise_singleton _ _, fun first member later single => ?_⟩
    have follows := last.2.2 first member (operation.1, none) (List.mem_singleton_self _)
    rw [List.mem_singleton.mp single]
    exact follows

theorem SuccessLast.accept (last : SuccessLast system.flight) (client : Client) (call : FlashCall)
    (clear : client = .driver → system.running = none → (.driver, some true) ∉ system.flight) :
    SuccessLast (system.accept client call).flight := by
  by_cases free : system.running = none
  · unfold SuccessLast at *
    rw [flight_accept free, List.pairwise_append]
    refine ⟨last, List.pairwise_singleton _ _, fun first member later single own => ?_⟩
    rw [List.mem_singleton.mp single]
    intro driver
    rw [own] at member
    exact clear driver free member
  · rw [accept_busy free]
    exact last

/-! ### The invariant -/

/-- What holds in every state of a run that keeps the order: outside the functions and before their first
call nothing is in flight; the variable is 0 only once the call in hand is done, and is 1 in the inner
loop only while an operation is in flight. -/
structure Inv (system : FlashSystem) : Prop where
  quiet : ¬ system.pc.Inside → ¬ system.InFlight
  fresh : ∀ call, system.pc = .calling call → system.pending = 1 → ¬ system.InFlight
  done : system.pc.Inside → system.pending = 0 → system.succeeded = true ∧ ¬ system.InFlight
  waits : ∀ call, system.pc = .waiting call → system.pending = 1 → system.InFlight
  decides : ∀ call, system.pc = .deciding call → system.pending ≠ 1
  returned : ∀ call, system.pc = .returned call → system.succeeded = true
  known : system.pending = 0 ∨ system.pending = 1 ∨ system.pending = 2
  last : SuccessLast system.flight

theorem Inv.fine (inv : system.Inv) : system.Fine := by
  refine ⟨fun call returned => ⟨inv.returned call returned, inv.quiet ?_⟩, inv.waits⟩
  rw [returned]
  exact id

theorem booted_inv : booted.Inv := by
  constructor <;> simp [booted, InFlight, flight, SuccessLast, Pc.Inside]

/-- The invariant only depends on main code, its variable, and what is in flight. -/
theorem Inv.congr (inv : system.Inv) {after : FlashSystem} (pc : after.pc = system.pc)
    (pending : after.pending = system.pending) (succeeded : after.succeeded = system.succeeded)
    (inFlight : after.InFlight ↔ system.InFlight) (last : SuccessLast after.flight) : after.Inv where
  quiet := by rw [pc, inFlight]; exact inv.quiet
  fresh := by rw [pc, pending, inFlight]; exact inv.fresh
  done := by rw [pc, pending, succeeded, inFlight]; exact inv.done
  waits := by rw [pc, pending, inFlight]; exact inv.waits
  decides := by rw [pc, pending]; exact inv.decides
  returned := by rw [pc, succeeded]; exact inv.returned
  known := by rw [pending]; exact inv.known
  last := last

section Places

variable {call : FlashCall} (known : system.pending = 0 ∨ system.pending = 1 ∨ system.pending = 2)
  (last : SuccessLast system.flight)

include known last

theorem inv_of_outside (outside : ¬ system.pc.Inside) (quiet : ¬ system.InFlight)
    (returned : ∀ call, system.pc = .returned call → system.succeeded = true) : system.Inv where
  quiet := fun _ => quiet
  fresh := fun _ _ _ => quiet
  done := fun inside => absurd inside outside
  waits := fun _ waits => by rw [waits] at outside; exact absurd trivial outside
  decides := fun _ decides => by rw [decides] at outside; exact absurd trivial outside
  returned := returned
  known := known
  last := last

variable (done : system.pending = 0 → system.succeeded = true ∧ ¬ system.InFlight)

include done

theorem inv_of_calling (calls : system.pc = .calling call)
    (fresh : system.pending = 1 → ¬ system.InFlight) : system.Inv where
  quiet := fun outside => by rw [calls] at outside; exact absurd trivial outside
  fresh := fun _ _ => fresh
  done := fun _ => done
  waits := fun _ waits => by rw [calls] at waits; cases waits
  decides := fun _ decides => by rw [calls] at decides; cases decides
  returned := fun _ returned => by rw [calls] at returned; cases returned
  known := known
  last := last

theorem inv_of_waiting (waits : system.pc = .waiting call)
    (inFlight : system.pending = 1 → system.InFlight) : system.Inv where
  quiet := fun outside => by rw [waits] at outside; exact absurd trivial outside
  fresh := fun _ calls => by rw [waits] at calls; cases calls
  done := fun _ => done
  waits := fun _ _ => inFlight
  decides := fun _ decides => by rw [waits] at decides; cases decides
  returned := fun _ returned => by rw [waits] at returned; cases returned
  known := known
  last := last

theorem inv_of_deciding (decides : system.pc = .deciding call) (settled : system.pending ≠ 1) :
    system.Inv where
  quiet := fun outside => by rw [decides] at outside; exact absurd trivial outside
  fresh := fun _ calls => by rw [decides] at calls; cases calls
  done := fun _ => done
  waits := fun _ waits => by rw [decides] at waits; cases waits
  decides := fun _ _ => settled
  returned := fun _ returned => by rw [decides] at returned; cases returned
  known := known
  last := last

end Places

/-! ### The steps -/

theorem Inv.enter (inv : system.Inv) (call : FlashCall) : (system.enter call).Inv := by
  have entered : ¬ system.pc.Inside →
      (FlashSystem.mk (.calling call) 1 system.running system.events false).Inv := by
    intro outside
    have quiet := inv.quiet outside
    exact inv_of_calling (.inr (.inl rfl)) inv.last (fun zero => by cases zero) rfl fun _ => quiet
  unfold FlashSystem.enter
  split
  · next outside => exact entered (by rw [outside]; exact id)
  · next outside => exact entered (by rw [outside]; exact id)
  · exact inv

theorem main_outside (outside : ¬ system.pc.Inside) (willing : Bool) :
    system.main willing = system := by
  unfold FlashSystem.main
  cases place : system.pc with
  | outside => rfl
  | returned call => rfl
  | calling call => rw [place] at outside; exact absurd trivial outside
  | waiting call => rw [place] at outside; exact absurd trivial outside
  | deciding call => rw [place] at outside; exact absurd trivial outside

section Main

variable {call : FlashCall} {willing : Bool}

theorem main_accepted (calls : system.pc = .calling call) (accepted : system.Accepted willing) :
    system.main willing = { system.accept .driver call with pc := .waiting call } := by
  unfold FlashSystem.main
  rw [calls]
  dsimp only
  rw [if_pos accepted.1]

theorem main_refused (calls : system.pc = .calling call) (refused : ¬ system.Accepted willing) :
    system.main willing = { system with pc := .waiting call } := by
  unfold FlashSystem.main
  rw [calls]
  dsimp only
  split_ifs with yes
  · rw [accept_busy (fun free => refused ⟨yes, free⟩)]
  · rfl

theorem main_waiting (waits : system.pc = .waiting call) : system.main willing =
    if system.pending = 1 then system else { system with pc := .deciding call } := by
  unfold FlashSystem.main
  rw [waits]

theorem main_deciding (decides : system.pc = .deciding call) : system.main willing =
    if system.pending = 2 then { system with pc := .calling call }
    else { system with pc := .returned call } := by
  unfold FlashSystem.main
  rw [decides]

theorem accept_pending (system : FlashSystem) (client : Client) (call : FlashCall) :
    (system.accept client call).pending = system.pending := by
  unfold accept
  split <;> rfl

/-- The call to the stack. -/
theorem Inv.calls (inv : system.Inv) (calling : system.pc = .calling call)
    (keeps : system.KeepsOrder (.main willing)) : (system.main willing).Inv := by
  obtain ⟨first, later⟩ := keeps call calling
  by_cases accepted : system.Accepted willing
  · obtain ⟨nonzero, clear⟩ := later accepted
    have inFlight : (system.accept .driver call).InFlight :=
      (inFlight_of_append (flight_accept accepted.2 .driver call)).mpr (.inr rfl)
    have last := inv.last.accept .driver call fun _ _ => clear
    have known := inv.known
    have pending := accept_pending system .driver call
    rw [main_accepted calling accepted]
    rw [← pending] at known nonzero
    exact inv_of_waiting known last (fun zero => absurd zero nonzero) rfl fun _ => inFlight
  · have inside : system.pc.Inside := by rw [calling]; exact trivial
    rw [main_refused calling accepted]
    exact inv_of_waiting inv.known inv.last (inv.done inside) rfl fun one => absurd (first one) accepted

theorem Inv.main (inv : system.Inv) (keeps : system.KeepsOrder (.main willing)) :
    (system.main willing).Inv := by
  by_cases inside : system.pc.Inside
  · have done := inv.done inside
    cases place : system.pc with
    | outside => rw [place] at inside; exact inside.elim
    | returned call => rw [place] at inside; exact inside.elim
    | calling call => exact inv.calls place keeps
    | waiting call =>
      rw [main_waiting place]
      split_ifs with one
      · exact inv
      · exact inv_of_deciding inv.known inv.last done rfl one
    | deciding call =>
      have settled := inv.decides call place
      rw [main_deciding place]
      split_ifs with two
      · exact inv_of_calling inv.known inv.last done rfl fun one => absurd one settled
      · have zero : system.pending = 0 :=
          inv.known.resolve_right fun either => either.elim settled two
        obtain ⟨succeeded, quiet⟩ := done zero
        exact inv_of_outside inv.known inv.last id quiet fun _ _ => succeeded
  · rw [main_outside inside]
    exact inv

end Main

theorem accept_pc (system : FlashSystem) (client : Client) (call : FlashCall) :
    (system.accept client call).pc = system.pc ∧
      (system.accept client call).succeeded = system.succeeded := by
  unfold accept
  split <;> exact ⟨rfl, rfl⟩

theorem Inv.pstorage (inv : system.Inv) (call : FlashCall) : (system.accept .pstorage call).Inv :=
  inv.congr (accept_pc ..).1 (accept_pending ..) (accept_pc ..).2 (inFlight_accept_pstorage call)
    (inv.last.accept .pstorage call fun driver => by cases driver)

theorem Inv.complete (inv : system.Inv) (success : Bool) : (system.complete success).Inv := by
  have inFlight := inFlight_complete system success
  have last := inv.last.complete success
  cases runs : system.running with
  | none =>
    rw [complete_idle runs]
    exact inv
  | some operation =>
    have after : system.complete success =
        { system with running := none, events := system.events ++ [(operation, success)] } := by
      unfold FlashSystem.complete
      rw [runs]
    rw [after] at inFlight last ⊢
    exact inv.congr rfl rfl rfl inFlight last

/-- What an event that is handled leaves. -/
theorem deliver_spec {client : Client} {call : FlashCall} {success : Bool}
    {rest : List ((Client × FlashCall) × Bool)}
    (oldest : system.events = ((client, call), success) :: rest) :
    system.deliver = ⟨system.pc, if success then 0 else 2, system.running, rest,
      system.succeeded || (decide (client = .driver) && success)⟩ := by
  unfold deliver
  rw [oldest]
  cases success <;> rfl

/-- What an event of `pstorage` that is handled leaves in flight. -/
theorem inFlight_deliver_pstorage {call : FlashCall} {success : Bool}
    {rest : List ((Client × FlashCall) × Bool)}
    (oldest : system.events = ((.pstorage, call), success) :: rest) :
    system.deliver.InFlight ↔ system.InFlight := by
  unfold InFlight
  rw [flight_deliver oldest]
  simp

/-- A success that is handled in order: the call in hand is done. -/
theorem Inv.success (inv : system.Inv) {client : Client} {call : FlashCall}
    {rest : List ((Client × FlashCall) × Bool)}
    (oldest : system.events = ((client, call), true) :: rest) (keeps : system.KeepsOrder .deliver)
    (inside : system.pc.Inside) : system.deliver.succeeded = true ∧ ¬ system.deliver.InFlight := by
  have flight := flight_deliver oldest
  cases client with
  | driver =>
    have last := inv.last
    unfold SuccessLast at last
    rw [flight, List.pairwise_cons] at last
    refine ⟨?_, fun ⟨outcome, member⟩ => last.1 _ member rfl rfl⟩
    rw [deliver_spec oldest]
    exact Bool.or_true _
  | pstorage =>
    obtain ⟨succeeded, quiet⟩ := keeps inside (by rw [flight]; rfl)
    rw [inFlight_deliver_pstorage oldest]
    refine ⟨?_, quiet⟩
    rw [deliver_spec oldest, succeeded]
    rfl

theorem Inv.deliver (inv : system.Inv) (keeps : system.KeepsOrder .deliver) : system.deliver.Inv := by
  cases oldest : system.events with
  | nil =>
    rw [deliver_nothing oldest]
    exact inv
  | cons event rest =>
    obtain ⟨⟨client, call⟩, success⟩ := event
    have flight := flight_deliver oldest
    have after := deliver_spec oldest
    have pc : system.deliver.pc = system.pc := by rw [after]
    have pending : system.deliver.pending = if success then 0 else 2 := by rw [after]
    have settled : system.deliver.pending ≠ 1 := by rw [pending]; cases success <;> decide
    have last := inv.last
    unfold SuccessLast at last
    rw [flight, List.pairwise_cons] at last
    constructor
    · rw [pc]
      rintro outside ⟨outcome, member⟩
      exact inv.quiet outside ⟨outcome, by rw [flight]; exact List.mem_cons_of_mem _ member⟩
    · exact fun _ _ one => absurd one settled
    · intro inside zero
      cases success with
      | false =>
        rw [pending] at zero
        cases zero
      | true => exact inv.success oldest keeps (by rw [← pc]; exact inside)
    · exact fun _ _ one => absurd one settled
    · exact fun _ _ => settled
    · intro call returned
      rw [pc] at returned
      rw [after, inv.returned call returned]
      rfl
    · rw [pending]
      cases success
      · exact .inr (.inr rfl)
      · exact .inl rfl
    · exact last.2

/-- **One step** that keeps the order keeps the invariant. -/
theorem Inv.step (inv : system.Inv) {input : FlashInput} (keeps : system.KeepsOrder input) :
    (system.step input).Inv := by
  cases input with
  | enter call => exact inv.enter call
  | main willing => exact inv.main keeps
  | pstorage call => exact inv.pstorage call
  | complete success => exact inv.complete success
  | deliver => exact inv.deliver keeps
  | otherEvent => exact inv

/-! ### Why the order is needed -/

/-- Main code, with a stack that refuses, and the events there are can lead to a state that is not
fine. -/
def Harmed (system : FlashSystem) : Prop :=
  ∃ inputs : List FlashInput, (∀ input ∈ inputs, input = .main false ∨ input = .deliver) ∧
    ¬ Always FlashSystem.step Fine system inputs

theorem harmed_of_not_fine (wrong : ¬ system.Fine) : system.Harmed :=
  ⟨[], fun _ none => absurd none List.not_mem_nil, wrong⟩

theorem Harmed.of_step {input : FlashInput} (quiet : input = .main false ∨ input = .deliver)
    (harmed : (system.step input).Harmed) : system.Harmed := by
  obtain ⟨inputs, each, wrong⟩ := harmed
  refine ⟨input :: inputs, ?_, fun always => wrong always.2⟩
  intro other member
  rcases List.mem_cons.mp member with rfl | member
  · exact quiet
  · exact each other member

theorem not_accepted_false : ¬ system.Accepted false := fun accepted => by cases accepted.1

/-- Where the variable is 0 too early, main code returns. -/
theorem harmed_of_zero (inside : system.pc.Inside) (zero : system.pending = 0)
    (early : ¬ (system.succeeded = true ∧ ¬ system.InFlight)) : system.Harmed := by
  have notOne : system.pending ≠ 1 := by rw [zero]; decide
  have notTwo : system.pending ≠ 2 := by rw [zero]; decide
  have decided : ∀ call, ({ system with pc := .deciding call } : FlashSystem).Harmed := by
    intro call
    refine Harmed.of_step (.inl rfl) (harmed_of_not_fine fun fine => early ?_)
    have returns := fine.returned call
    rw [FlashSystem.step, main_deciding rfl, if_neg notTwo] at returns
    exact returns rfl
  have waited : ∀ call, ({ system with pc := .waiting call } : FlashSystem).Harmed := by
    intro call
    refine Harmed.of_step (.inl rfl) ?_
    rw [FlashSystem.step, main_waiting rfl, if_neg notOne]
    exact decided call
  cases place : system.pc with
  | outside => rw [place] at inside; exact inside.elim
  | returned call => rw [place] at inside; exact inside.elim
  | calling call =>
    refine Harmed.of_step (.inl rfl) ?_
    rw [FlashSystem.step, main_refused place not_accepted_false]
    exact waited call
  | waiting call =>
    have same : { system with pc := .waiting call } = system := by rw [← place]
    exact same ▸ waited call
  | deciding call =>
    have same : { system with pc := .deciding call } = system := by rw [← place]
    exact same ▸ decided call

/-- Where an operation is issued after a success that is not yet handled, main code returns while it is
in flight. -/
theorem harmed_of_success {operation : FlashCall} (inside : system.pc.Inside)
    (runs : system.running = some (.driver, operation))
    (success : (.driver, some true) ∈ system.flight) : system.Harmed := by
  induction events : system.events generalizing system with
  | nil =>
    unfold flight at success
    rw [events, runs] at success
    simp at success
  | cons event rest ih =>
    obtain ⟨⟨client, call⟩, done⟩ := event
    have after := deliver_spec events
    have flight := flight_deliver events
    have inFlight : system.deliver.InFlight := by
      refine ⟨none, ?_⟩
      rw [after]
      show _ ∈ _ ++ system.running.toList.map _
      rw [runs]
      simp
    refine Harmed.of_step (.inr rfl) ?_
    have pc : system.deliver.pc = system.pc := by rw [after]
    by_cases handled : (client, some done) = (Client.driver, some true)
    · have pending : system.deliver.pending = 0 := by
        cases handled
        rw [after]
        rfl
      exact harmed_of_zero (by rw [← pc] at inside; exact inside) pending
        fun ⟨_, quiet⟩ => quiet inFlight
    · rw [flight] at success
      refine ih (by rw [← pc] at inside; exact inside) ?_ ?_ ?_
      · show system.deliver.running = _
        rw [after, runs]
      · exact (List.mem_cons.mp success).resolve_left fun same => handled same.symm
      · show system.deliver.events = _
        rw [after]

/-- **A step that does not keep the order does harm**: with no further step of another client, main code
can reach a state that is not fine. -/
theorem disorder_harms (inv : system.Inv) (input : FlashInput) (disorder : ¬ system.KeepsOrder input) :
    (system.step input).Harmed := by
  cases input with
  | main willing =>
    obtain ⟨call, broken⟩ := not_forall.mp disorder
    obtain ⟨calls, broken⟩ := Classical.not_imp.mp broken
    have inside : (system.step (.main willing)).pc.Inside := by
      by_cases accepted : system.Accepted willing
      · rw [FlashSystem.step, main_accepted calls accepted]
        exact trivial
      · rw [FlashSystem.step, main_refused calls accepted]
        exact trivial
    by_cases accepted : system.Accepted willing
    · have issued : system.step (.main willing) =
          { system.accept .driver call with pc := .waiting call } := main_accepted calls accepted
      have flight : (system.step (.main willing)).flight = system.flight ++ [(.driver, none)] := by
        rw [issued]
        exact flight_accept accepted.2 .driver call
      by_cases zero : system.pending = 0
      · refine harmed_of_zero inside ?_ fun ⟨_, quiet⟩ =>
          quiet ((inFlight_of_append flight).mpr (.inr rfl))
        rw [issued]
        exact (accept_pending ..).trans zero
      · have runs : (system.step (.main willing)).running = some (.driver, call) := by
          rw [issued]
          show (system.accept .driver call).running = _
          unfold accept
          rw [accepted.2]
        refine harmed_of_success inside runs ?_
        rw [flight]
        refine List.mem_append_left _ (Classical.byContradiction fun clear => broken ?_)
        exact ⟨fun _ => accepted, fun _ => ⟨zero, clear⟩⟩
    · have one : system.pending = 1 := Classical.byContradiction fun other =>
        broken ⟨fun one => absurd one other, fun yes => absurd yes accepted⟩
      rw [FlashSystem.step, main_refused calls accepted]
      exact harmed_of_not_fine fun fine => inv.fresh call calls one (fine.waiting call rfl one)
  | deliver =>
    obtain ⟨inside, broken⟩ := Classical.not_imp.mp disorder
    obtain ⟨oldest, early⟩ := Classical.not_imp.mp broken
    cases events : system.events with
    | nil =>
      unfold flight at oldest
      rw [events] at oldest
      cases runs : system.running <;> rw [runs] at oldest <;> simp at oldest
    | cons event rest =>
      obtain ⟨⟨client, operation⟩, success⟩ := event
      have after := deliver_spec events
      rw [flight_deliver events] at oldest
      obtain ⟨rfl, rfl⟩ : client = .pstorage ∧ success = true := by simpa using oldest
      rw [FlashSystem.step]
      refine harmed_of_zero ?_ ?_ ?_
      · rw [after]
        exact inside
      · rw [after]
        rfl
      · rw [inFlight_deliver_pstorage events, after]
        simpa using early
  | enter call => exact absurd trivial disorder
  | pstorage call => exact absurd trivial disorder
  | complete success => exact absurd trivial disorder
  | otherEvent => exact absurd trivial disorder

end FlashSystem

/-- **In a run whose steps keep the order, every state is fine.** -/
theorem flash_always_fine (inputs : List FlashInput)
    (ordered : EachStep FlashSystem.step FlashSystem.KeepsOrder .booted inputs) :
    Always FlashSystem.step FlashSystem.Fine .booted inputs := by
  have always : Always FlashSystem.step FlashSystem.Inv .booted inputs :=
    always_of_eachStep (fun _ _ inv keeps => inv.step keeps) FlashSystem.booted_inv ordered
  exact always.imp fun _ inv => inv.fine

/-- A page is erased: the first operation fails, the second call finds the stack busy with an operation of
`pstorage`, which fails as well, and the third one succeeds. An operation of `pstorage` has been done before. -/
theorem flash_always_fine_retries : Always FlashSystem.step FlashSystem.Fine .booted
    [.pstorage (.pageErase 1), .complete true, .deliver,
      .enter (flashErasePage 4096 8192), .main true, .complete false, .deliver, .main true, .main true,
      .pstorage (.write 4096 [7]), .main true, .complete false, .deliver, .main true, .main true,
      .main true, .complete true, .deliver, .main true, .main true] :=
  flash_always_fine _ (by decide)

/-- **Another client's success ends the wait**: the stack is busy and refuses the call, and the function
returns with the event of the other operation. -/
theorem flash_returns_early :
    ¬ ∀ inputs : List FlashInput, Always FlashSystem.step FlashSystem.Fine .booted inputs := by
  intro always
  have fine := (always [.pstorage (.pageErase 1), .enter (flashErasePage 4096 8192), .main true,
    .complete true, .deliver, .main true, .main true]).last
  exact absurd (fine.returned _ rfl).1 (by decide)

end PrimoCore.Core
