import QServer.Lib.Machine

namespace Transition

/-- A call enters a routine. No caller is the main program, and the number counts the calls. -/
structure StackCall (κ : Type) where
  number : Nat
  caller : Option κ
  entered : κ
  deriving DecidableEq

/-- The open calls with the last one first, and the number of all calls. -/
structure CallStack (κ : Type) where
  frames : List (StackCall κ)
  made : Nat

inductive StackAct (κ : Type)
  | enter (routine : κ)
  | leave

namespace CallStack

variable {κ : Type} (stack : CallStack κ)

def empty : CallStack κ := ⟨[], 0⟩

/-- The routine of the last open call runs, and the main program without one. -/
def running : Option κ := stack.frames.head?.map StackCall.entered

def enter (routine : κ) : CallStack κ :=
  ⟨⟨stack.made, stack.running, routine⟩ :: stack.frames, stack.made + 1⟩

/-- The running routine leaves the call that entered it. -/
def leave : Option (CallStack κ) :=
  match stack.frames with
  | [] => none
  | _ :: rest => some { stack with frames := rest }

def step : StackAct κ → Option (CallStack κ)
  | .enter routine => some (stack.enter routine)
  | .leave => stack.leave

end CallStack

/-- Every order of calls that enter a routine and returns from the last open call. -/
def callStack (κ : Type) : Machine (CallStack κ) (StackAct κ) := ⟨CallStack.empty, CallStack.step⟩

namespace CallStack

variable {κ : Type} {stack next : CallStack κ} {call : StackCall κ} {rest : List (StackCall κ)}

/-- Each call was made by the routine of the open call below it. -/
def Linked : List (StackCall κ) → Prop
  | [] => True
  | call :: rest => call.caller = rest.head?.map StackCall.entered ∧ Linked rest

theorem enter_running (routine : κ) : (stack.enter routine).running = some routine := rfl

theorem leave_eq (top : stack.frames = call :: rest) :
    stack.leave = some { stack with frames := rest } := by
  rw [leave, top]

theorem Linked.enter (linked : Linked stack.frames) (routine : κ) :
    Linked (stack.enter routine).frames :=
  ⟨rfl, linked⟩

/-- After a return the caller of the call runs. -/
theorem Linked.running_of_leave (linked : Linked stack.frames) (top : stack.frames = call :: rest) :
    ({ stack with frames := rest } : CallStack κ).running = call.caller := by
  rw [top] at linked
  exact linked.1.symm

theorem Linked.leave (linked : Linked stack.frames) (top : stack.frames = call :: rest) :
    Linked rest := by
  rw [top] at linked
  exact linked.2

end CallStack

end Transition
