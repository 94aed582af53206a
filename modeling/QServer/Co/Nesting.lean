import QServer.Lib.CallStack
import QServer.Co.CoPool

/-
This file proves where control goes on when coroutines resume each other. All resumes save their
continuation in `CoPool::main`.
-/

namespace QServer
open Transition

/-- A call of `Resume` or `ResumeWithMsg` that switches to a coroutine. -/
abbrev ResumeCall := StackCall CoPtr

/-- A coroutine yields or ends: the last call that entered it, and the call after which control
goes on. -/
structure SwitchBack where
  entered : Option ResumeCall
  continued : ResumeCall

def SwitchBack.Right (back : SwitchBack) : Prop := back.entered = some back.continued

/-- The pool, `CoPool::main` and the running coroutine, with a record of the switches. -/
structure SwapRun (Body Msg : Type) where
  pool : CoPool Body Msg
  main : Option ResumeCall
  running : Option CoPtr
  -- Who made the calls of `Yield`, the resumes with the last one first, and the switches back.
  yielders : List CoPtr
  calls : List ResumeCall
  backs : List SwitchBack

/-- What the running context does. -/
inductive SwapAct (Body Msg : Type)
  | newCoroutine (task : Body)
  | resume (coId : CoId) (timeOut : Bool)
  | resumeWithMsg (coId : CoId) (msg : Msg)
  | yield
  | finish

namespace SwapRun

variable {Body Msg : Type} (run : SwapRun Body Msg)

def start : SwapRun Body Msg := ⟨CoPool.empty, none, none, [], [], []⟩

/-- The last call that entered the coroutine. -/
def lastEntry (ptr : CoPtr) : Option ResumeCall := run.calls.find? fun call => call.entered = ptr

/-- The coroutine that starts, or the one whose saved call of `Yield` returns. -/
def owner (ptr : CoPtr) : Option (YieldCall × Int) → CoPtr
  | none => ptr
  | some (call, _) => (run.yielders[call.number]?).getD ptr

/-- The `swapcontext` of a resume saves the running context in `main`. -/
def resumed : Option (CoPool Body Msg × CoPtr) → Option (SwapRun Body Msg)
  -- Without a coroutine the call returns -1 at once.
  | none => some run
  | some (marked, ptr) => (marked.enter ptr).bind fun entered =>
      let call : ResumeCall := ⟨run.calls.length, run.running, run.owner ptr entered.2⟩
      -- A running coroutine is not suspended, and nobody resumes it.
      if call.caller = some call.entered then none
      else some
        { run with
          pool := entered.1
          main := some call
          running := some call.entered
          calls := call :: run.calls }

/-- Control goes on from `main`, which keeps its context. -/
def switchBack (ptr : CoPtr) (pool : CoPool Body Msg) : Option (SwapRun Body Msg) :=
  run.main.map fun call =>
    { run with pool, running := call.caller, backs := run.backs ++ [⟨run.lastEntry ptr, call⟩] }

/-- `Yield` returns -1 at once when it finds no coroutine. The times of a call play no part here. -/
def yield (ptr : CoPtr) : Option (SwapRun Body Msg) :=
  match run.pool.yield (run.pool.object ptr).coId ⟨run.yielders.length, 0, 0⟩ with
  | none => some run
  | some pool => switchBack { run with yielders := run.yielders ++ [ptr] } ptr pool

/-- The destructor of `CoYield` frees the coroutine, and the link of its context is `main`. -/
def finish (ptr : CoPtr) : Option (SwapRun Body Msg) :=
  run.switchBack ptr (run.pool.freeCoroutine (run.pool.object ptr).coId)

def step : SwapAct Body Msg → Option (SwapRun Body Msg)
  | .newCoroutine task => some { run with pool := (run.pool.newCoroutine task).1 }
  | .resume coId timeOut => run.resumed (run.pool.resume coId timeOut)
  | .resumeWithMsg coId msg => run.resumed (run.pool.resumeWithMsg coId msg)
  | .yield => run.running.bind run.yield
  | .finish => run.running.bind run.finish

/-- Each coroutine that the main context resumed has yielded or ended since. -/
def MainDue : Prop :=
  ∀ call ∈ run.calls, call.caller = none → ∃ back ∈ run.backs, back.entered = some call

/-- Each switch back goes on after the call that entered, up to the main context. -/
structure Disciplined : Prop where
  right : ∀ back ∈ run.backs, back.Right
  main : run.MainDue → run.running = none

/-- The coroutine has made no resume since it was entered. -/
def Undivided (ptr : CoPtr) : Prop :=
  ∀ call ∈ run.calls.takeWhile fun call => call.entered ≠ ptr, call.caller ≠ some ptr

end SwapRun

/-- The pool with every program of the main context and its coroutines. -/
def swapMachine (Body Msg : Type) : Machine (SwapRun Body Msg) (SwapAct Body Msg) :=
  ⟨SwapRun.start, SwapRun.step⟩

/-- A coroutine that yields or ends has resumed no other one since it was entered. -/
def Unnested {Body Msg : Type} (run : SwapRun Body Msg) : SwapAct Body Msg → Prop
  | .yield => ∀ ptr, run.running = some ptr →
      run.pool.findCoId (run.pool.object ptr).coId ≠ none → run.Undivided ptr
  | .finish => ∀ ptr, run.running = some ptr → run.Undivided ptr
  | _ => True

namespace SwapRun

variable {Body Msg : Type} {run next : SwapRun Body Msg} {ptr : CoPtr}

/-- The slot holds the last call, which entered the running coroutine or was made by it. -/
structure Slotted (run : SwapRun Body Msg) : Prop where
  slot : run.main = run.calls.head?
  last : ∀ ptr, run.running = some ptr →
    ∃ call ∈ run.main, call.entered = ptr ∨ call.caller = some ptr
  numbered : ∀ call ∈ run.calls, call.number < run.calls.length
  others : ∀ call ∈ run.calls, call.caller ≠ some call.entered
  known : ∀ back ∈ run.backs, ∀ call, back.entered = some call → call ∈ run.calls

theorem Slotted.start : (start : SwapRun Body Msg).Slotted := by
  constructor
  · rfl
  · intro ptr running
    cases running
  · intro call member
    cases member
  · intro call member
    cases member
  · intro back member
    cases member

/-- All that a resume can do. -/
theorem resumed_cases {target : Option (CoPool Body Msg × CoPtr)}
    (resumed : run.resumed target = some next) :
    next = run ∨ ∃ pool entered, run.running ≠ some entered ∧ next =
      { run with
        pool
        main := some ⟨run.calls.length, run.running, entered⟩
        running := some entered
        calls := ⟨run.calls.length, run.running, entered⟩ :: run.calls } := by
  cases target with
  | none =>
      cases resumed
      exact Or.inl rfl
  | some target =>
      obtain ⟨entered, _, resumed⟩ := Option.bind_eq_some_iff.mp resumed
      obtain ⟨other, same⟩ := Option.ite_none_left_eq_some.mp resumed
      cases same
      exact Or.inr ⟨entered.1, run.owner target.2 entered.2, other, rfl⟩

theorem Slotted.resumed (slotted : run.Slotted) {target : Option (CoPool Body Msg × CoPtr)}
    (resumed : run.resumed target = some next) : next.Slotted := by
  rcases resumed_cases resumed with rfl | ⟨pool, entered, other, rfl⟩
  · exact slotted
  · constructor
    · rfl
    · intro ptr running
      cases running
      exact ⟨_, rfl, Or.inl rfl⟩
    · intro call member
      rcases List.mem_cons.mp member with rfl | old
      · exact Nat.lt_succ_self _
      · exact Nat.lt_succ_of_lt (slotted.numbered call old)
    · intro call member
      rcases List.mem_cons.mp member with rfl | old
      · exact other
      · exact slotted.others call old
    · intro back member call same
      exact List.mem_cons_of_mem _ (slotted.known back member call same)

/-- Control goes back to the caller of the last call. -/
theorem Slotted.switchBack (slotted : run.Slotted) {pool : CoPool Body Msg}
    (switched : run.switchBack ptr pool = some next) : next.Slotted := by
  obtain ⟨call, slot, rfl⟩ := Option.map_eq_some_iff.mp switched
  constructor
  · exact slotted.slot
  · intro caller running
    exact ⟨call, slot, Or.inr running⟩
  · exact slotted.numbered
  · exact slotted.others
  · intro back member entry same
    rcases List.mem_append.mp member with old | new
    · exact slotted.known back old entry same
    · rw [List.mem_singleton.mp new] at same
      exact List.mem_of_find?_eq_some same

theorem Slotted.setYielders (slotted : run.Slotted) (yielders : List CoPtr) :
    ({ run with yielders } : SwapRun Body Msg).Slotted :=
  ⟨slotted.slot, slotted.last, slotted.numbered, slotted.others, slotted.known⟩

/-- The slot holds the call that entered the coroutine exactly if it has made no resume since. -/
theorem Slotted.right_iff (slotted : run.Slotted) (running : run.running = some ptr)
    {call : ResumeCall} (slot : run.main = some call) :
    (⟨run.lastEntry ptr, call⟩ : SwitchBack).Right ↔ run.Undivided ptr := by
  obtain ⟨same, inside, origin⟩ := slotted.last ptr running
  rw [slot, Option.mem_some] at inside
  subst inside
  have first : run.calls = call :: run.calls.tail := by
    rw [slotted.slot] at slot
    exact (List.cons_head?_tail slot).symm
  unfold SwitchBack.Right lastEntry Undivided
  rw [first]
  by_cases here : call.entered = ptr
  · rw [List.find?_cons_of_pos (by simpa using here),
      List.takeWhile_cons_of_neg (by simpa using here)]
    apply iff_of_true
    · rfl
    · intro other member
      cases member
  · -- The coroutine runs again after a resume of its own.
    have own : call.caller = some ptr := origin.resolve_left here
    rw [List.find?_cons_of_neg (by simpa using here),
      List.takeWhile_cons_of_pos (by simpa using here)]
    apply iff_of_false
    · intro found
      exact here (by simpa using List.find?_some found)
    · intro silent
      exact silent call List.mem_cons_self own

theorem switchBack_some {pool : CoPool Body Msg} (switched : run.switchBack ptr pool = some next) :
    ∃ call, run.main = some call ∧
      next = { run with
        pool
        running := call.caller
        backs := run.backs ++ [⟨run.lastEntry ptr, call⟩] } := by
  obtain ⟨call, slot, rfl⟩ := Option.map_eq_some_iff.mp switched
  exact ⟨call, slot, rfl⟩

/-- A `Yield` finds no coroutine, or it switches back. -/
theorem yield_cases (yielded : run.yield ptr = some next) :
    (run.pool.findCoId (run.pool.object ptr).coId = none ∧ next = run) ∨
      run.pool.findCoId (run.pool.object ptr).coId ≠ none ∧ ∃ pool,
        switchBack { run with yielders := run.yielders ++ [ptr] } ptr pool = some next := by
  unfold yield at yielded
  cases active : run.pool.findCoId (run.pool.object ptr).coId with
  | none =>
      rw [CoPool.yield, active] at yielded
      cases yielded
      exact Or.inl ⟨rfl, rfl⟩
  | some place =>
      rw [CoPool.yield, active] at yielded
      exact Or.inr ⟨Option.some_ne_none place, _, yielded⟩

/-- A switch back logs one return, which is right when nobody else was resumed meanwhile. -/
theorem Slotted.logged (slotted : run.Slotted) (running : run.running = some ptr)
    {pool : CoPool Body Msg} {yielders : List CoPtr}
    (switched : ({ run with yielders } : SwapRun Body Msg).switchBack ptr pool = some next) :
    next.Slotted ∧ ∃ backs, next.backs = run.backs ++ backs ∧
      ((∀ back ∈ backs, back.Right) ↔ run.Undivided ptr) := by
  have kept := (slotted.setYielders yielders).switchBack switched
  obtain ⟨call, slot, rfl⟩ := switchBack_some switched
  refine ⟨kept, _, rfl, ?_⟩
  rw [List.forall_mem_singleton]
  exact slotted.right_iff running slot

theorem Slotted.step (slotted : run.Slotted) {act : SwapAct Body Msg}
    (stepped : run.step act = some next) :
    next.Slotted ∧ ∃ backs, next.backs = run.backs ++ backs ∧
      ((∀ back ∈ backs, back.Right) ↔ Unnested run act) := by
  have silent : Unnested run act → next.Slotted → next.backs = run.backs →
      next.Slotted ∧ ∃ backs, next.backs = run.backs ++ backs ∧
        ((∀ back ∈ backs, back.Right) ↔ Unnested run act) := by
    intro met kept same
    refine ⟨kept, [], by rw [same, List.append_nil], iff_of_true ?_ met⟩
    intro back member
    cases member
  have resuming : ∀ {target : Option (CoPool Body Msg × CoPtr)},
      run.resumed target = some next → next.backs = run.backs := by
    intro target resumed
    rcases resumed_cases resumed with rfl | ⟨pool, entered, _, rfl⟩
    · rfl
    · rfl
  cases act with
  | newCoroutine task =>
      cases stepped
      exact silent trivial
        ⟨slotted.slot, slotted.last, slotted.numbered, slotted.others, slotted.known⟩ rfl
  | resume coId timeOut => exact silent trivial (slotted.resumed stepped) (resuming stepped)
  | resumeWithMsg coId msg => exact silent trivial (slotted.resumed stepped) (resuming stepped)
  | yield =>
      obtain ⟨ptr, running, yielded⟩ := Option.bind_eq_some_iff.mp stepped
      rcases yield_cases yielded with ⟨absent, rfl⟩ | ⟨active, pool, switched⟩
      · apply silent _ slotted rfl
        intro other same active
        rw [running] at same
        cases same
        exact absurd absent active
      · obtain ⟨kept, backs, added, exact⟩ := slotted.logged running switched
        refine ⟨kept, backs, added, exact.trans ?_⟩
        constructor
        · intro undivided other same _
          rw [running] at same
          cases same
          exact undivided
        · intro unnested
          exact unnested ptr running active
  | finish =>
      obtain ⟨ptr, running, finished⟩ := Option.bind_eq_some_iff.mp stepped
      obtain ⟨kept, backs, added, exact⟩ := slotted.logged running finished
      refine ⟨kept, backs, added, exact.trans ?_⟩
      constructor
      · intro undivided other same
        rw [running] at same
        cases same
        exact undivided
      · intro unnested
        exact unnested ptr running

/-- While a coroutine runs, one that the main context resumed has not yielded or ended since. -/
def Owed (run : SwapRun Body Msg) : Prop :=
  run.running ≠ none →
    ∃ call ∈ run.calls, call.caller = none ∧ ∀ back ∈ run.backs, back.entered ≠ some call

theorem Owed.resumed (owed : run.Owed) (slotted : run.Slotted)
    {target : Option (CoPool Body Msg × CoPtr)} (resumed : run.resumed target = some next) :
    next.Owed := by
  rcases resumed_cases resumed with rfl | ⟨pool, entered, _, rfl⟩
  · exact owed
  · intro _
    cases running : run.running with
    | none =>
        refine ⟨⟨run.calls.length, none, entered⟩, ?_, rfl, fun back member same => ?_⟩
        · exact List.mem_cons_self
        · have below := slotted.numbered _ (slotted.known back member _ same)
          exact absurd below (lt_irrefl _)
    | some caller =>
        obtain ⟨call, member, byMain, owing⟩ := owed (by rw [running]; exact Option.some_ne_none _)
        exact ⟨call, List.mem_cons_of_mem _ member, byMain, owing⟩

/-- A switch back to another coroutine leaves the call of the main context open. -/
theorem Owed.switchBack (owed : run.Owed) (slotted : run.Slotted)
    (running : run.running = some ptr) (undivided : run.Undivided ptr)
    {pool : CoPool Body Msg} {yielders : List CoPtr}
    (switched : ({ run with yielders } : SwapRun Body Msg).switchBack ptr pool = some next) :
    next.Owed := by
  obtain ⟨last, slot, rfl⟩ := switchBack_some switched
  have right := (slotted.right_iff running slot).mpr undivided
  intro called
  obtain ⟨call, member, byMain, owing⟩ := owed (by rw [running]; exact Option.some_ne_none _)
  refine ⟨call, member, byMain, fun back inside => ?_⟩
  rcases List.mem_append.mp inside with old | new
  · exact owing back old
  · rw [List.mem_singleton.mp new]
    intro same
    have same : run.lastEntry ptr = some call := same
    rw [SwitchBack.Right, same, Option.some.injEq] at right
    subst right
    exact called byMain

theorem Owed.step (owed : run.Owed) (slotted : run.Slotted) {act : SwapAct Body Msg}
    (unnested : Unnested run act) (stepped : run.step act = some next) : next.Owed := by
  cases act with
  | newCoroutine task =>
      cases stepped
      exact owed
  | resume coId timeOut => exact owed.resumed slotted stepped
  | resumeWithMsg coId msg => exact owed.resumed slotted stepped
  | yield =>
      obtain ⟨ptr, running, yielded⟩ := Option.bind_eq_some_iff.mp stepped
      rcases yield_cases yielded with ⟨_, rfl⟩ | ⟨active, pool, switched⟩
      · exact owed
      · exact owed.switchBack slotted running (unnested ptr running active) switched
  | finish =>
      obtain ⟨ptr, running, finished⟩ := Option.bind_eq_some_iff.mp stepped
      exact owed.switchBack slotted running (unnested ptr running) finished

/-- The main context has control when nothing is owed to it. -/
theorem Owed.main (owed : run.Owed) (due : run.MainDue) : run.running = none := by
  by_contra running
  obtain ⟨call, member, byMain, owing⟩ := owed running
  obtain ⟨back, inside, same⟩ := due call member byMain
  exact owing back inside same

/-- The call stack has the open calls of the run. -/
structure Followed (run : SwapRun Body Msg) (stack : CallStack CoPtr) : Prop where
  running : stack.running = run.running
  linked : CallStack.Linked stack.frames
  made : stack.made = run.calls.length
  last : stack.frames.head? = run.main ∨ ∃ call, run.main = some call ∧ call.caller = run.running

theorem Followed.resumed {stack : CallStack CoPtr} (followed : run.Followed stack)
    {target : Option (CoPool Body Msg × CoPtr)} (resumed : run.resumed target = some next) :
    ∃ acts after, (callStack CoPtr).run stack acts = some after ∧ next.Followed after := by
  rcases resumed_cases resumed with rfl | ⟨pool, entered, _, rfl⟩
  · exact ⟨[], stack, rfl, followed⟩
  · refine ⟨[.enter entered], stack.enter entered, rfl, ?_, followed.linked.enter entered, ?_, ?_⟩
    · exact CallStack.enter_running entered
    · exact congrArg Nat.succ followed.made
    · left
      rw [CallStack.enter, followed.made, followed.running]
      rfl

/-- An undivided coroutine leaves the last open call, where its switch back goes on. -/
theorem Followed.switchBack {stack : CallStack CoPtr} (followed : run.Followed stack)
    (slotted : run.Slotted) (running : run.running = some ptr) (undivided : run.Undivided ptr)
    {pool : CoPool Body Msg} {yielders : List CoPtr}
    (switched : ({ run with yielders } : SwapRun Body Msg).switchBack ptr pool = some next) :
    ∃ acts after, (callStack CoPtr).run stack acts = some after ∧ next.Followed after := by
  obtain ⟨call, slot, rfl⟩ := switchBack_some switched
  change run.main = some call at slot
  have right := (slotted.right_iff running slot).mpr undivided
  have entered : call.entered = ptr := by simpa using List.find?_some right
  have top : stack.frames.head? = some call := by
    rcases followed.last with same | ⟨other, inside, caller⟩
    · rw [same, slot]
    · rw [slot, Option.some.injEq] at inside
      subst inside
      have known : call ∈ run.calls := List.mem_of_find?_eq_some right
      rw [running, ← entered] at caller
      exact absurd caller (slotted.others call known)
  have frames : stack.frames = call :: stack.frames.tail := (List.cons_head?_tail top).symm
  refine ⟨[.leave], { stack with frames := stack.frames.tail }, ?_, ?_, ?_, followed.made, ?_⟩
  · rw [Machine.run_cons]
    exact ⟨_, CallStack.leave_eq frames, rfl⟩
  · exact followed.linked.running_of_leave frames
  · exact followed.linked.leave frames
  · exact Or.inr ⟨call, slot, rfl⟩

theorem Followed.step {stack : CallStack CoPtr} (followed : run.Followed stack)
    (slotted : run.Slotted) {act : SwapAct Body Msg} (unnested : Unnested run act)
    (stepped : run.step act = some next) :
    ∃ acts after, (callStack CoPtr).run stack acts = some after ∧ next.Followed after := by
  cases act with
  | newCoroutine task =>
      cases stepped
      exact ⟨[], stack, rfl, followed.running, followed.linked, followed.made, followed.last⟩
  | resume coId timeOut => exact followed.resumed stepped
  | resumeWithMsg coId msg => exact followed.resumed stepped
  | yield =>
      obtain ⟨ptr, running, yielded⟩ := Option.bind_eq_some_iff.mp stepped
      rcases yield_cases yielded with ⟨_, rfl⟩ | ⟨active, pool, switched⟩
      · exact ⟨[], stack, rfl, followed⟩
      · exact followed.switchBack slotted running (unnested ptr running active) switched
  | finish =>
      obtain ⟨ptr, running, finished⟩ := Option.bind_eq_some_iff.mp stepped
      exact followed.switchBack slotted running (unnested ptr running) finished

end SwapRun

/-- While no coroutine yields or ends after a resume of its own, the pool follows a call stack. -/
theorem swapMachine_follows_callStack {Body Msg : Type} {acts : List (SwapAct Body Msg)}
    {last : SwapRun Body Msg}
    (reached : (swapMachine Body Msg).run (swapMachine Body Msg).start acts = some last)
    (met : (swapMachine Body Msg).Meets Unnested (swapMachine Body Msg).start acts) :
    ∃ acts' stack, (callStack CoPtr).run (callStack CoPtr).start acts' = some stack ∧
      last.Followed stack := by
  have kept : ∀ run act next,
      (run.Slotted ∧ ∃ acts' stack,
        (callStack CoPtr).run (callStack CoPtr).start acts' = some stack ∧ run.Followed stack) →
      Unnested run act → (swapMachine Body Msg).step run act = some next →
      (next.Slotted ∧ ∃ acts' stack,
        (callStack CoPtr).run (callStack CoPtr).start acts' = some stack ∧
          next.Followed stack) := by
    rintro run act next ⟨slotted, before, stack, ran, followed⟩ unnested stepped
    obtain ⟨more, after, continued, kept⟩ := followed.step slotted unnested stepped
    exact ⟨(slotted.step stepped).1, before ++ more, after,
      (Machine.run_append _).mpr ⟨stack, ran, continued⟩, kept⟩
  have initial : (swapMachine Body Msg).start.Followed CallStack.empty :=
    ⟨rfl, trivial, rfl, Or.inl rfl⟩
  exact (Machine.run_guarded _ kept ⟨SwapRun.Slotted.start, [], _, rfl, initial⟩ reached met).2

/-- Resumes follow a stack discipline exactly if no coroutine yields or ends after it has resumed
another one. -/
theorem resumes_disciplined_iff {Body Msg : Type} (acts : List (SwapAct Body Msg))
    (last : SwapRun Body Msg)
    (reached : (swapMachine Body Msg).run (swapMachine Body Msg).start acts = some last) :
    last.Disciplined ↔ (swapMachine Body Msg).Meets Unnested (swapMachine Body Msg).start acts := by
  have initial : (swapMachine Body Msg).start.Slotted := SwapRun.Slotted.start
  have logged : ∀ run act next, run.Slotted → (swapMachine Body Msg).step run act = some next →
      next.Slotted ∧ ∃ backs, next.backs = run.backs ++ backs ∧
        ((∀ back ∈ backs, back.Right) ↔ Unnested run act) :=
    fun run act next slotted stepped => slotted.step stepped
  have right := Machine.run_log_iff _ logged initial reached
  have none : ∀ back ∈ (swapMachine Body Msg).start.backs, back.Right := by
    intro back member
    cases member
  constructor
  · intro disciplined
    exact (right.mp disciplined.right).2
  · intro met
    have kept : ∀ run act next, run.Slotted ∧ run.Owed → Unnested run act →
        (swapMachine Body Msg).step run act = some next → next.Slotted ∧ next.Owed :=
      fun run act next held unnested stepped =>
        ⟨(held.1.step stepped).1, held.2.step held.1 unnested stepped⟩
    have owed := (Machine.run_guarded _ kept ⟨initial, fun running => absurd rfl running⟩ reached
      met).2
    exact ⟨right.mpr ⟨none, met⟩, owed.main⟩

/-- The main context resumes the first coroutine twice, up to its end. -/
def flatRun : List (SwapAct Unit Unit) :=
  [.newCoroutine (), .resume 1 false, .yield, .resumeWithMsg 1 (), .finish]

theorem resumes_disciplined_iff_flat :
    ∃ last, (swapMachine Unit Unit).run (swapMachine Unit Unit).start flatRun = some last ∧
      (last.Disciplined ↔
        (swapMachine Unit Unit).Meets Unnested (swapMachine Unit Unit).start flatRun) := by
  have reached : ((swapMachine Unit Unit).run (swapMachine Unit Unit).start flatRun).any
      (fun run => run.running = none) = true := by decide +kernel
  obtain ⟨last, reached, _⟩ := Machine.exists_of_check _ reached
  exact ⟨last, reached, resumes_disciplined_iff flatRun last reached⟩

/-- The first coroutine resumes the second one, which yields. Then the first one yields. -/
def nestedRun : List (SwapAct Unit Unit) :=
  [.newCoroutine (), .newCoroutine (), .resume 1 false, .resume 2 false, .yield, .yield]

/-- Both coroutines have yielded, and the first one runs. -/
theorem nestedRun_undisciplined :
    ¬∀ acts last, (swapMachine Unit Unit).run (swapMachine Unit Unit).start acts = some last →
      last.Disciplined := by
  intro always
  have reached : ((swapMachine Unit Unit).run (swapMachine Unit Unit).start nestedRun).any
      (fun run => run.backs.any fun back => back.entered ≠ some back.continued) = true := by
    decide +kernel
  obtain ⟨last, reached, wrong⟩ := Machine.exists_of_check _ reached
  obtain ⟨back, member, wrong⟩ := List.any_eq_true.mp wrong
  exact of_decide_eq_true wrong ((always nestedRun last reached).right back member)

end QServer
