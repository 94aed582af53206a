import QServer.Lib.Machine
import QServer.Timer.Basic
import Mathlib.Data.List.Perm.Subperm

/-
This file runs the timer with tasks that call it back.
-/

namespace QServer
open Transition

/-- The locals of a running `DoTimeOutTask`. The vector keeps its nodes alive until the return. -/
structure Batch where
  now : Time
  timeOutSet : List (TimerNode Nat)
  rest : List (TimerNode Nat)
  current : Option (TimerNode Nat)

/-- One run of a task by the `DoTimeOutTask` call with the number `call`. -/
structure TaskRun where
  task : Nat
  repeats : Bool
  deadline : Time
  now : Time
  call : Nat
  deriving DecidableEq

/-- The timer between two actions. A task has the number of the `AddTimer` call that stored it. -/
structure TimerRun where
  timer : Timer Nat
  batch : Option Batch
  issued : List TimerId
  calls : Nat
  log : List TaskRun

inductive TimerAct
  | addTimer (ptr : Addr) (now interval : Time) (repeats : Bool)
  | cancelTimer (timerId : TimerId)
  | doTimeOutTask (now : Time)
  | visit
  | taskReturns

namespace TimerRun

def start : TimerRun := ⟨Timer.empty, none, [], 0, []⟩

variable (run : TimerRun)

def rest : List (TimerNode Nat) := (run.batch.map Batch.rest).getD []

def current : Option (TimerNode Nat) := run.batch.bind Batch.current

def timeOutSet : List (TimerNode Nat) := (run.batch.map Batch.timeOutSet).getD []

/-- The addresses of the live `TimeInfo` objects. -/
def held : List Addr := (run.timer.nodes ++ run.timeOutSet).map TimerNode.ptr

/-- The callers of the timer run outside of a batch or inside of a task. -/
def clientRuns : Bool := run.batch.isNone || run.current.isSome

def addTimer (ptr : Addr) (now interval : Time) (repeats : Bool) : Option TimerRun :=
  if run.clientRuns ∧ ptr ∉ run.held then
    let added := run.timer.addTimer ptr now interval run.issued.length repeats
    some { run with timer := added.1, issued := run.issued ++ [added.2] }
  else none

def cancelTimer (timerId : TimerId) : Option TimerRun :=
  if run.clientRuns then some { run with timer := run.timer.cancelTimer timerId } else none

/-- An empty batch returns at its first visit, as the source does before the copy. -/
def doTimeOutTask (now : Time) : Option TimerRun :=
  match run.batch with
  | some _ => none
  | none =>
      let taken := run.timer.takeBatch now
      some { run with
        timer := taken.2, batch := some ⟨now, taken.1, taken.1, none⟩, calls := run.calls + 1 }

/-- The loop visits the next node of the batch, or the call returns. -/
def visit : Option TimerRun :=
  match run.batch with
  | some ⟨_, _, [], none⟩ => some { run with batch := none }
  | some ⟨now, timeOutSet, node :: rest, none⟩ =>
      match run.timer.takeCancel node with
      | some timer => some { run with timer, batch := some ⟨now, timeOutSet, rest, none⟩ }
      | none => some { run with
          batch := some ⟨now, timeOutSet, rest, some node⟩
          log := run.log ++
            [⟨node.info.task, node.info.repeats, node.deadline, now, run.calls⟩] }
  | _ => none

def taskReturns : Option TimerRun :=
  match run.batch with
  | some ⟨now, timeOutSet, rest, some node⟩ =>
      some { run with
        timer := run.timer.requeue now node, batch := some ⟨now, timeOutSet, rest, none⟩ }
  | _ => none

def step : TimerAct → Option TimerRun
  | .addTimer ptr now interval repeats => run.addTimer ptr now interval repeats
  | .cancelTimer timerId => run.cancelTimer timerId
  | .doTimeOutTask now => run.doTimeOutTask now
  | .visit => run.visit
  | .taskReturns => run.taskReturns

/-- The nodes that wait for their task. -/
def waiting : List (TimerNode Nat) := run.timer.nodes ++ run.rest

/-- The nodes that wait and the node whose task runs. -/
def roster : List (TimerNode Nat) := run.current.toList ++ run.waiting

end TimerRun

/-- The timer with every order of calls, inside and outside of its own tasks. -/
def timerMachine : Machine TimerRun TimerAct := ⟨TimerRun.start, TimerRun.step⟩

namespace TimerRun

variable {run next : TimerRun}

theorem addTimer_cases {ptr : Addr} {now interval : Time} {repeats : Bool}
    (stepped : run.addTimer ptr now interval repeats = some next) :
    ptr ∉ run.held ∧
      next = { run with
        timer := (run.timer.addTimer ptr now interval run.issued.length repeats).1
        issued := run.issued ++
          [(Timer.newNode ptr now interval run.issued.length repeats).id] } := by
  unfold addTimer at stepped
  split at stepped
  · rename_i allowed
    cases stepped
    exact ⟨allowed.2, rfl⟩
  · cases stepped

theorem cancelTimer_cases {timerId : TimerId} (stepped : run.cancelTimer timerId = some next) :
    next = { run with timer := run.timer.cancelTimer timerId } := by
  unfold cancelTimer at stepped
  split at stepped
  · cases stepped
    rfl
  · cases stepped

theorem doTimeOutTask_cases {now : Time} (stepped : run.doTimeOutTask now = some next) :
    run.batch = none ∧
      next = { run with
        timer := (run.timer.takeBatch now).2
        batch := some ⟨now, (run.timer.takeBatch now).1, (run.timer.takeBatch now).1, none⟩
        calls := run.calls + 1 } := by
  unfold doTimeOutTask at stepped
  split at stepped
  · cases stepped
  · rename_i idle
    cases stepped
    exact ⟨idle, rfl⟩

/-- A visit returns from the call, skips a cancelled node or starts a task. -/
theorem visit_cases (stepped : run.visit = some next) :
    (∃ now timeOutSet, run.batch = some ⟨now, timeOutSet, [], none⟩ ∧
      next = { run with batch := none }) ∨
    (∃ now timeOutSet node rest timer,
      run.batch = some ⟨now, timeOutSet, node :: rest, none⟩ ∧
      run.timer.takeCancel node = some timer ∧
      next = { run with timer, batch := some ⟨now, timeOutSet, rest, none⟩ }) ∨
    (∃ now timeOutSet node rest,
      run.batch = some ⟨now, timeOutSet, node :: rest, none⟩ ∧
      run.timer.takeCancel node = none ∧
      next = { run with
        batch := some ⟨now, timeOutSet, rest, some node⟩
        log := run.log ++
          [⟨node.info.task, node.info.repeats, node.deadline, now, run.calls⟩] }) := by
  unfold visit at stepped
  split at stepped
  · rename_i now timeOutSet running
    cases stepped
    exact Or.inl ⟨now, timeOutSet, running, rfl⟩
  · rename_i now timeOutSet node rest running
    split at stepped
    · rename_i timer taken
      cases stepped
      exact Or.inr (Or.inl ⟨now, timeOutSet, node, rest, timer, running, taken, rfl⟩)
    · rename_i passed
      cases stepped
      exact Or.inr (Or.inr ⟨now, timeOutSet, node, rest, running, passed, rfl⟩)
  · cases stepped

theorem taskReturns_cases (stepped : run.taskReturns = some next) :
    ∃ now timeOutSet rest node,
      run.batch = some ⟨now, timeOutSet, rest, some node⟩ ∧
      next = { run with
        timer := run.timer.requeue now node, batch := some ⟨now, timeOutSet, rest, none⟩ } := by
  unfold taskReturns at stepped
  split at stepped
  · rename_i now timeOutSet rest node running
    cases stepped
    exact ⟨now, timeOutSet, rest, node, running, rfl⟩
  · cases stepped

end TimerRun

end QServer
