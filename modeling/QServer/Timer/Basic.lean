import QServer.Lib.OrderedSet
import Mathlib.Data.Prod.Lex
import Mathlib.Data.Finset.Basic

/-
This file models the timer of `commlib/timer.h`.
-/

namespace QServer
open Container

/-- A `time_t` in milliseconds. Its sums with intervals are assumed not to overflow. -/
abbrev Time := Int

/-- The address of an object. -/
abbrev Addr := Nat

/-- The conversion of a `time_t` to a `uint32_t`. -/
def toUint32 (value : Int) : Nat := (value % 2 ^ 32).toNat

structure TimeInfo (Task : Type) where
  task : Task
  interval : Nat
  seq : Nat
  repeats : Bool

/-- A timer is named by its address and the second of its creation. -/
abbrev TimerId := Addr × Nat

/-- A node pairs a deadline with a shared pointer. -/
structure TimerNode (Task : Type) where
  deadline : Time
  ptr : Addr
  info : TimeInfo Task

namespace TimerNode

variable {Task : Type}

def id (node : TimerNode Task) : TimerId := (node.ptr, node.info.seq)

/-- `std::pair` compares the deadlines first and then the addresses. -/
def key (node : TimerNode Task) : Int ×ₗ Nat := toLex (node.deadline, node.ptr)

theorem key_ne {first second : TimerNode Task} (different : first.ptr ≠ second.ptr) :
    first.key ≠ second.key := fun same =>
  different (congrArg (fun pair : Int ×ₗ Nat => (ofLex pair).2) same)

theorem id_ne {first second : TimerNode Task} (different : first.ptr ≠ second.ptr) :
    first.id ≠ second.id := fun same => different (congrArg Prod.fst same)

theorem deadline_le_of_key_lt {first second : TimerNode Task} (less : first.key < second.key) :
    first.deadline ≤ second.deadline := by
  rcases Prod.Lex.toLex_lt_toLex.mp less with earlier | ⟨same, _⟩
  · exact le_of_lt earlier
  · exact le_of_eq same

end TimerNode

structure Timer (Task : Type) where
  timerSet : OrderedSet (TimerNode Task) TimerNode.key
  cancelList : Finset TimerId

namespace Timer

variable {Task : Type}

def empty : Timer Task := ⟨OrderedSet.empty, ∅⟩

/-- The nodes of the timer set. -/
def nodes (timer : Timer Task) : List (TimerNode Task) := timer.timerSet.items

/-- The allocator answers `make_shared` with the address `ptr`. -/
def addTimer (timer : Timer Task) (ptr : Addr) (now interval : Time) (task : Task)
    (repeats : Bool) : Timer Task × TimerId :=
  let info : TimeInfo Task := ⟨task, toUint32 interval, toUint32 (now.tdiv 1000), repeats⟩
  ({ timer with timerSet := timer.timerSet.emplace ⟨now + interval, ptr, info⟩ }, (ptr, info.seq))

def cancelTimer (timer : Timer Task) (timerId : TimerId) : Timer Task :=
  { timer with cancelList := insert timerId timer.cancelList }

/-- `lower_bound(TimerNode(now_ms + 1, nullptr))` ends the batch. -/
def batchEnd (now : Time) : Int ×ₗ Nat := toLex (now + 1, 0)

/-- `DoTimeOutTask` copies the batch out of the timer set before it runs a task. -/
def takeBatch (timer : Timer Task) (now : Time) : List (TimerNode Task) × Timer Task :=
  (timer.timerSet.below (batchEnd now),
    { timer with timerSet := timer.timerSet.eraseBelow (batchEnd now) })

/-- A cancelled node of the batch is skipped, and its cancel entry is erased. -/
def takeCancel (timer : Timer Task) (node : TimerNode Task) : Option (Timer Task) :=
  if node.id ∈ timer.cancelList then
    some { timer with cancelList := timer.cancelList.erase node.id }
  else none

/-- A repeating node returns to the timer set after its task. -/
def requeue (timer : Timer Task) (now : Time) (node : TimerNode Task) : Timer Task :=
  if node.info.repeats then
    { timer with timerSet :=
        timer.timerSet.emplace { node with deadline := now + node.info.interval } }
  else timer

variable (timer : Timer Task)

@[simp] theorem empty_nodes : (empty : Timer Task).nodes = [] := rfl

@[simp] theorem cancelTimer_nodes (timerId : TimerId) :
    (timer.cancelTimer timerId).nodes = timer.nodes := rfl

@[simp] theorem cancelTimer_cancelList (timerId : TimerId) :
    (timer.cancelTimer timerId).cancelList = insert timerId timer.cancelList := rfl

/-- The node that `addTimer` makes. -/
def newNode (ptr : Addr) (now interval : Time) (task : Task) (repeats : Bool) :
    TimerNode Task :=
  ⟨now + interval, ptr, ⟨task, toUint32 interval, toUint32 (now.tdiv 1000), repeats⟩⟩

/-- A fresh address puts exactly one node into the timer set. -/
theorem addTimer_nodes {ptr : Addr} (fresh : ptr ∉ timer.nodes.map TimerNode.ptr)
    (now interval : Time) (task : Task) (repeats : Bool) :
    (timer.addTimer ptr now interval task repeats).1.nodes.Perm
      (newNode ptr now interval task repeats :: timer.nodes) := by
  apply OrderedSet.emplace_perm
  intro other member
  apply TimerNode.key_ne
  intro same
  exact fresh (List.mem_map.mpr ⟨other, member, same.symm⟩)

theorem takeBatch_append (now : Time) :
    (timer.takeBatch now).1 ++ (timer.takeBatch now).2.nodes = timer.nodes :=
  timer.timerSet.below_append _

/-- The batch holds only nodes that are due. -/
theorem takeBatch_due {now : Time} {node : TimerNode Task}
    (member : node ∈ (timer.takeBatch now).1) : node.deadline ≤ now := by
  have less := timer.timerSet.below_lt member
  rcases Prod.Lex.toLex_lt_toLex.mp less with earlier | ⟨_, impossible⟩
  · exact Int.lt_add_one_iff.mp earlier
  · exact absurd impossible (Nat.not_lt_zero _)

/-- The batch holds every node that is due. -/
theorem mem_takeBatch {now : Time} {node : TimerNode Task} (member : node ∈ timer.nodes)
    (due : node.deadline ≤ now) : node ∈ (timer.takeBatch now).1 :=
  timer.timerSet.mem_below member
    (Prod.Lex.toLex_lt_toLex.mpr (Or.inl (Int.lt_add_one_iff.mpr due)))

theorem takeBatch_sorted (now : Time) :
    (timer.takeBatch now).1.Pairwise fun a b => a.deadline ≤ b.deadline :=
  (timer.timerSet.below_sorted _).imp fun less => TimerNode.deadline_le_of_key_lt less

theorem takeCancel_some {node : TimerNode Task} {next : Timer Task}
    (taken : timer.takeCancel node = some next) :
    node.id ∈ timer.cancelList ∧ next.nodes = timer.nodes ∧
      next.cancelList = timer.cancelList.erase node.id := by
  unfold takeCancel at taken
  split at taken
  · cases taken
    exact ⟨‹_›, rfl, rfl⟩
  · cases taken

theorem takeCancel_none {node : TimerNode Task} (passed : timer.takeCancel node = none) :
    node.id ∉ timer.cancelList := by
  unfold takeCancel at passed
  split at passed
  · cases passed
  · assumption

/-- The node with the deadline of its next round. -/
def nextRound (now : Time) (node : TimerNode Task) : TimerNode Task :=
  { node with deadline := now + node.info.interval }

@[simp] theorem requeue_cancelList (now : Time) (node : TimerNode Task) :
    (timer.requeue now node).cancelList = timer.cancelList := by
  unfold requeue
  split <;> rfl

theorem requeue_once {node : TimerNode Task} (once : node.info.repeats = false) (now : Time) :
    timer.requeue now node = timer := by
  simp [requeue, once]

theorem requeue_nodes {node : TimerNode Task} (again : node.info.repeats = true)
    (fresh : node.ptr ∉ timer.nodes.map TimerNode.ptr) (now : Time) :
    (timer.requeue now node).nodes.Perm (nextRound now node :: timer.nodes) := by
  rw [requeue, if_pos again]
  apply OrderedSet.emplace_perm
  intro other member
  apply TimerNode.key_ne
  intro same
  exact fresh (List.mem_map.mpr ⟨other, member, same.symm⟩)

end Timer

end QServer
