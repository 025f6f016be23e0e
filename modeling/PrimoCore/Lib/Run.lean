/-
**Runs of a step function.**

A system is a step function on states and inputs; a run is the list of states it passes through on a
list of inputs.

* `Always step holds` — `holds` in every state of the run, the first and the last one included.
* `EachStep step meets` — every step of the run meets `meets`, read at the state before the step and
  the input of the step.
* `always_of_eachStep`, `eachStep_of_invariant` — **the run rule**: what one step preserves, a whole
  run preserves.
* `eachStep_congr`, `always_iff_eachStep` — **the exact run rule**: two step conditions that agree
  wherever the invariant holds agree along whole runs. A property that one step keeps exactly when the
  step meets a condition holds in every state of a run exactly when every step meets it.
* `always_iff_of_invariant`, `always_and_eachStep_iff`, `always_and_iff_of_invariant` — the same under an
  invariant, and where the steps are to have a property of their own.
* `run_simulates` — **the simulation rule**: a relation between two systems that legal steps keep.
* `run_observe` — what the last input that sets a value has set is what a run leaves.
-/

import Mathlib.Logic.Basic

namespace PrimoCore.Lib

variable {State Input : Type*} (step : State → Input → State)

/-- The state a list of inputs leads to. -/
def run (start : State) (inputs : List Input) : State :=
  inputs.foldl step start

/-- `holds` in every state of the run, the first and the last one included. -/
def Always (holds : State → Prop) : State → List Input → Prop
  | state, [] => holds state
  | state, input :: rest => holds state ∧ Always holds (step state input) rest

/-- Every step of the run meets `meets`, read at the state before the step. -/
def EachStep (meets : State → Input → Prop) : State → List Input → Prop
  | _, [] => True
  | state, input :: rest => meets state input ∧ EachStep meets (step state input) rest

variable {step}

instance decidableEachStep {meets : State → Input → Prop} [∀ state input, Decidable (meets state input)]
    (start : State) (inputs : List Input) : Decidable (EachStep step meets start inputs) :=
  match inputs with
  | [] => isTrue trivial
  | input :: rest =>
      have : Decidable (EachStep step meets (step start input) rest) :=
        decidableEachStep (step start input) rest
      inferInstanceAs (Decidable (_ ∧ _))

instance decidableAlways {holds : State → Prop} [DecidablePred holds]
    (start : State) (inputs : List Input) : Decidable (Always step holds start inputs) :=
  match inputs with
  | [] => inferInstanceAs (Decidable (holds start))
  | input :: rest =>
      have : Decidable (Always step holds (step start input) rest) :=
        decidableAlways (step start input) rest
      inferInstanceAs (Decidable (_ ∧ _))

@[simp] theorem run_nil (start : State) : run step start [] = start := rfl

@[simp] theorem run_cons (start : State) (input : Input) (rest : List Input) :
    run step start (input :: rest) = run step (step start input) rest := rfl

@[simp] theorem eachStep_nil (meets : State → Input → Prop) (start : State) :
    EachStep step meets start [] := trivial

@[simp] theorem eachStep_cons {meets : State → Input → Prop} {start : State} {input : Input}
    {rest : List Input} : EachStep step meets start (input :: rest) ↔
      meets start input ∧ EachStep step meets (step start input) rest := Iff.rfl

theorem run_append (start : State) (front back : List Input) :
    run step start (front ++ back) = run step (run step start front) back := List.foldl_append

theorem eachStep_append {meets : State → Input → Prop} {start : State} {front back : List Input} :
    EachStep step meets start (front ++ back) ↔
      EachStep step meets start front ∧ EachStep step meets (run step start front) back := by
  induction front generalizing start with
  | nil => exact (and_iff_right trivial).symm
  | cons input rest ih => exact (and_congr_right fun _ => ih).trans and_assoc.symm

/-- A run's property holds in its first state. -/
theorem Always.head {holds : State → Prop} {start : State} {inputs : List Input}
    (always : Always step holds start inputs) : holds start := by
  cases inputs with
  | nil => exact always
  | cons input rest => exact always.1

/-- A run's property holds in its last state. -/
theorem Always.last {holds : State → Prop} {start : State} {inputs : List Input}
    (always : Always step holds start inputs) : holds (run step start inputs) := by
  induction inputs generalizing start with
  | nil => exact always
  | cons input rest ih => exact ih always.2

theorem Always.imp {holds weaker : State → Prop} {start : State} {inputs : List Input}
    (always : Always step holds start inputs) (imp : ∀ state, holds state → weaker state) :
    Always step weaker start inputs := by
  induction inputs generalizing start with
  | nil => exact imp start always
  | cons input rest ih => exact ⟨imp start always.1, ih always.2⟩

theorem eachStep_of_forall {meets : State → Input → Prop} (all : ∀ state input, meets state input)
    (start : State) (inputs : List Input) : EachStep step meets start inputs := by
  induction inputs generalizing start with
  | nil => trivial
  | cons input rest ih => exact ⟨all start input, ih _⟩

/-- A condition on the inputs alone. -/
theorem eachStep_iff_forall {allowed : Input → Prop} {start : State} {inputs : List Input} :
    EachStep step (fun _ input => allowed input) start inputs ↔ ∀ input ∈ inputs, allowed input := by
  induction inputs generalizing start with
  | nil => simp
  | cons input rest ih => simp only [eachStep_cons, ih, List.forall_mem_cons]

theorem eachStep_and {first second : State → Input → Prop} {start : State} {inputs : List Input} :
    EachStep step (fun state input => first state input ∧ second state input) start inputs ↔
      EachStep step first start inputs ∧ EachStep step second start inputs := by
  induction inputs generalizing start with
  | nil => simp
  | cons input rest ih =>
    simp only [eachStep_cons, ih]
    exact ⟨fun ⟨⟨a, b⟩, c, d⟩ => ⟨⟨a, c⟩, b, d⟩, fun ⟨⟨a, c⟩, b, d⟩ => ⟨⟨a, b⟩, c, d⟩⟩

/-- From a good first state, a property holds always exactly when every step leads to it. -/
theorem always_iff_next {holds : State → Prop} {start : State} {inputs : List Input}
    (base : holds start) : Always step holds start inputs ↔
      EachStep step (fun state input => holds (step state input)) start inputs := by
  induction inputs generalizing start with
  | nil => exact ⟨fun _ => trivial, fun _ => base⟩
  | cons input rest ih =>
    constructor
    · rintro ⟨_, tail⟩
      exact ⟨tail.head, (ih tail.head).mp tail⟩
    · rintro ⟨next, tail⟩
      exact ⟨base, (ih next).mpr tail⟩

/-- **The last write stands.** Where each input sets what is observed or keeps it, a run leaves what
the last one that sets it has set. -/
theorem run_observe {Value : Type*} {observe : State → Value} {sets : Input → Option Value}
    {inv : State → Prop} (keep : ∀ state input, inv state → inv (step state input))
    (each : ∀ state input, inv state → observe (step state input) = (sets input).getD (observe state))
    {start : State} (base : inv start) (inputs : List Input) :
    observe (run step start inputs) = (inputs.filterMap sets).getLast?.getD (observe start) := by
  induction inputs generalizing start with
  | nil => rfl
  | cons input rest ih =>
    rw [run_cons, ih (keep _ _ base), each _ _ base]
    cases written : sets input with
    | none => rw [List.filterMap_cons_none written, Option.getD_none]
    | some value =>
      rw [List.filterMap_cons_some written, List.getLast?_cons, Option.getD_some, Option.getD_some]

/-- **The run rule.** What every legal step preserves holds in every state of a legal run. -/
theorem always_of_eachStep {holds : State → Prop} {legal : State → Input → Prop}
    (keep : ∀ state input, holds state → legal state input → holds (step state input))
    {start : State} {inputs : List Input} (base : holds start)
    (each : EachStep step legal start inputs) : Always step holds start inputs := by
  induction inputs generalizing start with
  | nil => exact base
  | cons input rest ih => exact ⟨base, ih (keep _ _ base each.1) each.2⟩

/-- **The simulation rule.** A relation between two systems that legal steps keep holds after every legal
run. -/
theorem run_simulates {Abstract : Type*} {step' : Abstract → Input → Abstract}
    {relates : State → Abstract → Prop} {legal : Abstract → Input → Prop}
    (keep : ∀ state abstract input, relates state abstract → legal abstract input →
      relates (step state input) (step' abstract input))
    {start : State} {start' : Abstract} {inputs : List Input} (base : relates start start')
    (each : EachStep step' legal start' inputs) :
    relates (run step start inputs) (run step' start' inputs) := by
  induction inputs generalizing start start' with
  | nil => exact base
  | cons input rest ih => exact ih (keep _ _ _ base each.1) each.2

/-- What legal steps preserve, and what it says of a legal step, holds at every step of a legal run. -/
theorem eachStep_of_invariant {inv : State → Prop} {legal shown : State → Input → Prop}
    (keep : ∀ state input, inv state → legal state input → inv (step state input))
    (shows : ∀ state input, inv state → legal state input → shown state input)
    {start : State} {inputs : List Input} (base : inv start)
    (each : EachStep step legal start inputs) : EachStep step shown start inputs := by
  induction inputs generalizing start with
  | nil => trivial
  | cons input rest ih =>
    exact ⟨shows _ _ base each.1, ih (keep _ _ base each.1) each.2⟩

/-- **The exact run rule, for two step conditions.** Under an invariant that a legal step meeting
the first condition keeps, two conditions that agree at every legal step agree along every legal
run. -/
theorem eachStep_congr {inv : State → Prop} {legal first second : State → Input → Prop}
    (keep : ∀ state input, inv state → legal state input → first state input →
      inv (step state input))
    (same : ∀ state input, inv state → legal state input →
      (first state input ↔ second state input))
    {start : State} {inputs : List Input} (base : inv start)
    (each : EachStep step legal start inputs) :
    EachStep step first start inputs ↔ EachStep step second start inputs := by
  induction inputs generalizing start with
  | nil => simp
  | cons input rest ih =>
    obtain ⟨here, after⟩ := each
    have agree := same start input base here
    constructor
    · rintro ⟨now, later⟩
      exact ⟨agree.mp now, (ih (keep _ _ base here now) after).mp later⟩
    · rintro ⟨now, later⟩
      exact ⟨agree.mpr now, (ih (keep _ _ base here (agree.mpr now)) after).mpr later⟩

/-- **The exact run rule, under an invariant.** A property holds in every state of a run exactly when every
step meets a condition, if a step that keeps the property keeps the invariant, and the condition is the right
one wherever the invariant holds. -/
theorem always_iff_of_invariant {inv holds : State → Prop} {legal meets : State → Input → Prop}
    (keep : ∀ state input, inv state → legal state input → holds (step state input) →
      inv (step state input))
    (exact_step : ∀ state input, inv state → legal state input →
      (holds (step state input) ↔ meets state input))
    {start : State} {inputs : List Input} (good : holds start) (base : inv start)
    (each : EachStep step legal start inputs) :
    Always step holds start inputs ↔ EachStep step meets start inputs := by
  rw [always_iff_next good]
  exact eachStep_congr keep exact_step base each

/-- The same, where each step is to be fair as well. -/
theorem always_and_iff_of_invariant {inv holds : State → Prop} {legal fair meets : State → Input → Prop}
    (keep : ∀ state input, inv state → legal state input →
      holds (step state input) ∧ fair state input → inv (step state input))
    (exact_step : ∀ state input, inv state → legal state input →
      (holds (step state input) ∧ fair state input ↔ meets state input))
    {start : State} {inputs : List Input} (good : holds start) (base : inv start)
    (each : EachStep step legal start inputs) :
    Always step holds start inputs ∧ EachStep step fair start inputs ↔
      EachStep step meets start inputs := by
  rw [always_iff_next good, ← eachStep_and]
  exact eachStep_congr keep exact_step base each

/-- **The exact run rule.** If a legal step from a good state leads to a good state exactly when it
meets a condition, every state of a legal run is good exactly when every step meets it. -/
theorem always_iff_eachStep {holds : State → Prop} {legal meets : State → Input → Prop}
    (exact_step : ∀ state input, holds state → legal state input →
      (holds (step state input) ↔ meets state input))
    {start : State} {inputs : List Input} (base : holds start)
    (each : EachStep step legal start inputs) :
    Always step holds start inputs ↔ EachStep step meets start inputs :=
  always_iff_of_invariant (fun _ _ _ _ next => next) exact_step base base each

/-- **The exact run rule, with a property of the steps.** As `always_iff_eachStep`, where each step is
to be fair as well. -/
theorem always_and_eachStep_iff {holds : State → Prop} {legal fair meets : State → Input → Prop}
    (exact_step : ∀ state input, holds state → legal state input →
      (holds (step state input) ∧ fair state input ↔ meets state input))
    {start : State} {inputs : List Input} (base : holds start)
    (each : EachStep step legal start inputs) :
    Always step holds start inputs ∧ EachStep step fair start inputs ↔
      EachStep step meets start inputs :=
  always_and_iff_of_invariant (fun _ _ _ _ next => next.1) exact_step base base each

end PrimoCore.Lib
