import Mathlib.Data.Option.Basic
import Mathlib.Data.List.Basic
import Mathlib.Tactic.Common

namespace Transition

/-- A machine takes labelled steps. A label that it cannot take gives no state. -/
structure Machine (State Act : Type) where
  start : State
  step : State → Act → Option State

namespace Machine

variable {State Act : Type} (machine : Machine State Act)

/-- A run takes the steps of a list in order. -/
def run : State → List Act → Option State
  | state, [] => some state
  | state, act :: rest => (machine.step state act).bind fun next => run next rest

/-- Every step of the run meets the guard in the state before it. -/
def Meets (guard : State → Act → Prop) : State → List Act → Prop
  | _, [] => True
  | state, act :: rest =>
      guard state act ∧ ∀ next, machine.step state act = some next → Meets guard next rest

/-- The property holds after every run from the start whose steps meet the guard. -/
def Always (guard : State → Act → Prop) (property : State → Prop) : Prop :=
  ∀ acts last, machine.run machine.start acts = some last →
    machine.Meets guard machine.start acts → property last

/-- The guard that every step meets. -/
def anyStep (_ : State) (_ : Act) : Prop := True

@[simp] theorem run_nil (state : State) : machine.run state [] = some state := rfl

theorem run_cons {state : State} {act : Act} {rest : List Act} {last : State} :
    machine.run state (act :: rest) = some last ↔
      ∃ next, machine.step state act = some next ∧ machine.run next rest = some last := by
  simp only [run, Option.bind_eq_some_iff]

theorem run_append {state : State} {first second : List Act} {last : State} :
    machine.run state (first ++ second) = some last ↔
      ∃ middle, machine.run state first = some middle ∧ machine.run middle second = some last := by
  induction first generalizing state with
  | nil => simp
  | cons act rest ih =>
      rw [List.cons_append, run_cons]
      constructor
      · rintro ⟨next, stepped, continued⟩
        obtain ⟨middle, reached, finished⟩ := ih.mp continued
        exact ⟨middle, (run_cons machine).mpr ⟨next, stepped, reached⟩, finished⟩
      · rintro ⟨middle, reached, finished⟩
        obtain ⟨next, stepped, continued⟩ := (run_cons machine).mp reached
        exact ⟨next, stepped, ih.mpr ⟨middle, continued, finished⟩⟩

theorem meets_append {guard : State → Act → Prop} {state middle : State}
    {first second : List Act} (reached : machine.run state first = some middle)
    (met : machine.Meets guard state (first ++ second)) :
    machine.Meets guard state first ∧ machine.Meets guard middle second := by
  induction first generalizing state with
  | nil =>
      cases reached
      exact ⟨trivial, met⟩
  | cons act rest ih =>
      obtain ⟨next, stepped, continued⟩ := (run_cons machine).mp reached
      have tail := ih continued (met.2 next stepped)
      refine ⟨⟨met.1, fun other same => ?_⟩, tail.2⟩
      rw [stepped] at same
      cases same
      exact tail.1

theorem meets_anyStep (state : State) (acts : List Act) :
    machine.Meets anyStep state acts := by
  induction acts generalizing state with
  | nil => trivial
  | cons act rest ih => exact ⟨trivial, fun next _ => ih next⟩

/-- A run that meets a guard meets every weaker one. -/
theorem Meets.mono {machine : Machine State Act} {guard weaker : State → Act → Prop}
    (weakens : ∀ state act, guard state act → weaker state act) {state : State} {acts : List Act}
    (met : machine.Meets guard state acts) : machine.Meets weaker state acts := by
  induction acts generalizing state with
  | nil => trivial
  | cons act rest ih =>
      exact ⟨weakens state act met.1, fun next stepped => ih (met.2 next stepped)⟩

/-- A decidable guard can be evaluated along a run. -/
instance decidableMeets (guard : State → Act → Prop) [∀ state act, Decidable (guard state act)] :
    ∀ state acts, Decidable (machine.Meets guard state acts)
  | _, [] => isTrue trivial
  | state, act :: rest =>
      match stepped : machine.step state act with
      | none => decidable_of_iff (guard state act)
          ⟨fun met => ⟨met, fun next same => by rw [stepped] at same; cases same⟩, fun met => met.1⟩
      | some next =>
          have := decidableMeets guard next rest
          decidable_of_iff (guard state act ∧ machine.Meets guard next rest)
            ⟨fun met => ⟨met.1, fun other same => by
                rw [stepped] at same; cases same; exact met.2⟩,
              fun met => ⟨met.1, met.2 next stepped⟩⟩

/-- What one guarded step keeps, a guarded run keeps. -/
theorem run_guarded {guard : State → Act → Prop} {invariant : State → Prop}
    (kept : ∀ state act next, invariant state → guard state act →
      machine.step state act = some next → invariant next)
    {first last : State} {acts : List Act} (holds : invariant first)
    (reached : machine.run first acts = some last) (met : machine.Meets guard first acts) :
    invariant last := by
  induction acts generalizing first with
  | nil =>
      cases reached
      exact holds
  | cons act rest ih =>
      obtain ⟨next, stepped, continued⟩ := (run_cons machine).mp reached
      exact ih (kept first act next holds met.1 stepped) continued (met.2 next stepped)

/-- What one step keeps, a run keeps. -/
theorem run_invariant {invariant : State → Prop}
    (kept : ∀ state act next, invariant state → machine.step state act = some next →
      invariant next)
    {first last : State} {acts : List Act} (holds : invariant first)
    (reached : machine.run first acts = some last) : invariant last :=
  machine.run_guarded (fun state act next held _ => kept state act next held)
    holds reached (machine.meets_anyStep first acts)

/-- An invariant of the start that every guarded step keeps always holds. -/
theorem always_of_invariant {guard : State → Act → Prop} {invariant property : State → Prop}
    (initial : invariant machine.start)
    (kept : ∀ state act next, invariant state → guard state act →
      machine.step state act = some next → invariant next)
    (enough : ∀ state, invariant state → property state) : machine.Always guard property :=
  fun _ last reached met => enough last (machine.run_guarded kept initial reached met)

/-- A log is good exactly when every step of its run meets the guard. -/
theorem run_log_iff {Entry : Type} {log : State → List Entry} {good : Entry → Prop}
    {guard : State → Act → Prop} {invariant : State → Prop}
    (logged : ∀ state act next, invariant state → machine.step state act = some next →
      invariant next ∧ ∃ entries, log next = log state ++ entries ∧
        ((∀ entry ∈ entries, good entry) ↔ guard state act))
    {first last : State} {acts : List Act} (holds : invariant first)
    (reached : machine.run first acts = some last) :
    (∀ entry ∈ log last, good entry) ↔
      (∀ entry ∈ log first, good entry) ∧ machine.Meets guard first acts := by
  induction acts generalizing first with
  | nil =>
      cases reached
      exact (and_iff_left trivial).symm
  | cons act rest ih =>
      obtain ⟨next, stepped, continued⟩ := (run_cons machine).mp reached
      obtain ⟨held, entries, added, exact⟩ := logged first act next holds stepped
      rw [ih held continued, added, List.forall_mem_append, exact, and_assoc]
      apply and_congr_right'
      apply and_congr_right'
      constructor
      · intro met other same
        rw [stepped] at same
        cases same
        exact met
      · intro met
        exact met next stepped

/-- A decidable check of the last state of a run gives that state. -/
theorem exists_of_check {state : State} {acts : List Act} {check : State → Bool}
    (checked : (machine.run state acts).any check = true) :
    ∃ last, machine.run state acts = some last ∧ check last = true := by
  rwa [Option.any_eq_true] at checked

end Machine

/-- A simulation maps each concrete step to a run of the abstract machine. -/
structure Simulation {State Act State' Act' : Type} (concrete : Machine State Act)
    (abstract : Machine State' Act') where
  view : State → State'
  plan : State → Act → List Act'
  simulates : ∀ state act next, concrete.step state act = some next →
    abstract.run (view state) (plan state act) = some (view next)

/-- A simulation maps each concrete run to an abstract run. -/
theorem Simulation.run {State Act State' Act' : Type} {concrete : Machine State Act}
    {abstract : Machine State' Act'} (simulation : Simulation concrete abstract)
    {first last : State} {acts : List Act} (reached : concrete.run first acts = some last) :
    ∃ acts', abstract.run (simulation.view first) acts' = some (simulation.view last) := by
  induction acts generalizing first with
  | nil =>
      cases reached
      exact ⟨[], rfl⟩
  | cons act rest ih =>
      obtain ⟨next, stepped, continued⟩ := (concrete.run_cons).mp reached
      obtain ⟨tail, finished⟩ := ih continued
      exact ⟨simulation.plan first act ++ tail,
        (abstract.run_append).mpr ⟨_, simulation.simulates first act next stepped, finished⟩⟩

end Transition
