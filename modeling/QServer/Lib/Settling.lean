import QServer.Lib.Machine

/-
This file is about machines that come to rest when they take only some of their steps.
-/

namespace Transition.Machine

variable {State Act : Type} {machine : Machine State Act} {own : Act → Prop}
  {final : State → Prop}

/-- The own steps come to an end within the bound, and they end in a final state only. -/
def Settles (machine : Machine State Act) (own : Act → Prop) (final : State → Prop) (bound : Nat)
    (state : State) : Prop :=
  ∀ acts last, machine.run state acts = some last → (∀ act ∈ acts, own act) →
    acts.length ≤ bound ∧ (final last ∨ ∃ act next, own act ∧ machine.step last act = some next)

section Measured

variable {invariant : State → Prop} {measure : State → Nat}

/-- A measure that falls in every own step pays for the steps. -/
theorem length_le_measure
    (falls : ∀ state act next, invariant state → own act → machine.step state act = some next →
      invariant next ∧ measure next < measure state)
    {first last : State} {acts : List Act} (holds : invariant first)
    (reached : machine.run first acts = some last) (owned : ∀ act ∈ acts, own act) :
    invariant last ∧ acts.length + measure last ≤ measure first := by
  induction acts generalizing first with
  | nil =>
      cases reached
      exact ⟨holds, by simp⟩
  | cons act rest ih =>
      obtain ⟨next, stepped, continued⟩ := machine.run_cons.mp reached
      obtain ⟨kept, fallen⟩ := falls first act next holds (owned act List.mem_cons_self) stepped
      obtain ⟨held, paid⟩ :=
        ih kept continued fun other member => owned other (List.mem_cons_of_mem act member)
      refine ⟨held, ?_⟩
      rw [List.length_cons]
      omega

/-- Own steps that make a measure fall and go on up to a final state settle. -/
theorem settles_of_measure
    (falls : ∀ state act next, invariant state → own act → machine.step state act = some next →
      invariant next ∧ measure next < measure state)
    (goesOn : ∀ state, invariant state →
      final state ∨ ∃ act next, own act ∧ machine.step state act = some next)
    {state : State} (holds : invariant state) {bound : Nat} (bounded : measure state ≤ bound) :
    machine.Settles own final bound state := by
  intro acts last reached owned
  obtain ⟨held, paid⟩ := length_le_measure falls holds reached owned
  exact ⟨by omega, goesOn last held⟩

end Measured

end Transition.Machine
