import QServer.Lib.Machine
import Mathlib.Order.Defs.PartialOrder

namespace Transition

variable {State Act Time : Type}

/-- A machine that reads a clock. Some steps read the clock, and it never goes back. -/
def Machine.clocked [LE Time] [DecidableLE Time] (machine : Machine State Act)
    (read : Act → Option Time) (begun : Time) : Machine (State × Time) Act where
  start := (machine.start, begun)
  step moment act :=
    match read act with
    | none => (machine.step moment.1 act).map fun next => (next, moment.2)
    | some now =>
        if moment.2 ≤ now then (machine.step moment.1 act).map fun next => (next, now) else none

namespace Machine

variable [Preorder Time] [DecidableLE Time] {machine : Machine State Act}
  {read : Act → Option Time} {begun : Time}
  {moment next last : State × Time} {act : Act}

/-- A step under the clock is a step, and the time that it reads is the new time. -/
theorem clocked_cases (stepped : (machine.clocked read begun).step moment act = some next) :
    machine.step moment.1 act = some next.1 ∧ moment.2 ≤ next.2 ∧
      ∀ now ∈ read act, next.2 = now := by
  cases reads : read act with
  | none =>
      simp only [clocked, reads, Option.map_eq_some_iff] at stepped
      obtain ⟨state, stepped, rfl⟩ := stepped
      exact ⟨stepped, le_refl _, by simp⟩
  | some now =>
      simp only [clocked, reads, Option.ite_none_right_eq_some, Option.map_eq_some_iff] at stepped
      obtain ⟨later, state, stepped, rfl⟩ := stepped
      exact ⟨stepped, later, by simp⟩

/-- A step that reads no time can be taken whenever the machine can take it. -/
theorem clocked_step {state : State} (silent : read act = none)
    (stepped : machine.step moment.1 act = some state) :
    (machine.clocked read begun).step moment act = some (state, moment.2) := by
  simp only [clocked, silent, stepped, Option.map_some]

/-- A step that reads a time can be taken when that time has not passed. -/
theorem clocked_step_read {state : State} {now : Time} (reads : read act = some now)
    (later : moment.2 ≤ now) (stepped : machine.step moment.1 act = some state) :
    (machine.clocked read begun).step moment act = some (state, now) := by
  simp only [clocked, reads, if_pos later, stepped, Option.map_some]

/-- The clock of a run never goes back. -/
theorem clocked_le {acts : List Act}
    (reached : (machine.clocked read begun).run moment acts = some last) : moment.2 ≤ last.2 := by
  induction acts generalizing moment with
  | nil =>
      cases reached
      exact le_refl _
  | cons act rest ih =>
      obtain ⟨next, stepped, continued⟩ := (run_cons _).mp reached
      exact le_trans (clocked_cases stepped).2.1 (ih continued)

/-- What each allowed step at the time of the clock keeps, a run of allowed steps keeps. -/
theorem clocked_invariant {invariant : State × Time → Prop} {allowed : Act → Prop}
    (kept : ∀ moment act next, invariant moment → allowed act →
      machine.step moment.1 act = some next.1 → moment.2 ≤ next.2 →
      (∀ now ∈ read act, next.2 = now) → invariant next)
    {acts : List Act} (holds : invariant moment)
    (reached : (machine.clocked read begun).run moment acts = some last)
    (all : ∀ act ∈ acts, allowed act) : invariant last := by
  induction acts generalizing moment with
  | nil =>
      cases reached
      exact holds
  | cons act rest ih =>
      rw [List.forall_mem_cons] at all
      obtain ⟨next, stepped, continued⟩ := (run_cons _).mp reached
      obtain ⟨moved, order, reads⟩ := clocked_cases stepped
      exact ih (kept moment act next holds all.1 moved order reads) continued all.2

end Machine

end Transition
