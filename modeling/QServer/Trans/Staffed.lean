import QServer.Co.Waits
import QServer.Trans.Conservation

/-
This file bounds the coroutines of a server that registers one `cmd`, so that its identifiers never
wrap.
-/

namespace QServer
open Container Transition CoTask

namespace TransMgr

variable {Data : Type} {mgr : TransMgr Data} {cmd : Cmd} {objects : List TransPtr}

/-- A manager that serves one `cmd` never makes many more coroutines than it has objects. -/
structure Staffed (mgr : TransMgr Data) (cmd : Cmd) (objects : List TransPtr) : Prop where
  orderly : mgr.coTask.Orderly
  kept : mgr.Kept (Function.update (fun _ => []) cmd objects)
  distinct : objects.Nodup
  small : objects.length + 1 < 2 ^ 32
  created : mgr.coTask.coPool.created ≤ objects.length + 1

/-- An object belongs to the `cmd`. -/
theorem Staffed.owned (staffed : mgr.Staffed cmd objects) {other : Cmd} {trans : TransPtr}
    (carried : trans ∈ mgr.ledger.stock other ∨
      ∃ coId, mgr.ledger.held coId = some (other, trans)) : other = cmd := by
  have inside := (staffed.kept.balanced.whole other trans).mpr carried
  rw [Function.update_apply] at inside
  split_ifs at inside with same
  · exact same
  · cases inside

/-- A coroutine that waits works for the `cmd`. -/
theorem Staffed.mem_activeFor (staffed : mgr.Staffed cmd objects) {coId : CoId}
    (waiting : mgr.coTask.waits coId ≠ none) : coId ∈ mgr.activeFor cmd := by
  obtain ⟨call, waiting⟩ := Option.ne_none_iff_exists'.mp waiting
  obtain ⟨co, found, _⟩ := Option.bind_eq_some_iff.mp waiting
  obtain ⟨shared, task⟩ := Option.isSome_iff_exists.mp (staffed.kept.tasked coId co found)
  have holds : mgr.coTask.holder coId = some shared := by
    rw [holder, found, Option.bind_some, task]
  have carried := held_eq holds
  rw [staffed.owned (Or.inr ⟨coId, carried⟩)] at carried
  exact (TransMgr.mem_activeFor coId cmd).mpr ⟨shared.trans, carried⟩

/-- Without a free coroutine there are as many as there are busy objects. -/
theorem Staffed.created_le (staffed : mgr.Staffed cmd objects)
    (empty : mgr.coTask.coPool.freeList = []) : mgr.coTask.coPool.created ≤ objects.length := by
  have counted := staffed.kept.balanced.count (by simpa using staffed.distinct)
    (mgr.activeFor cmd) fun coId => TransMgr.mem_activeFor coId cmd
  rw [Function.update_self] at counted
  calc mgr.coTask.coPool.created
      ≤ (mgr.activeFor cmd).toList.length := staffed.orderly.created_le empty
        fun coId waiting => Finset.mem_toList.mpr (staffed.mem_activeFor waiting)
    _ = (mgr.activeFor cmd).card := Finset.length_toList _
    _ ≤ objects.length := by omega

/-- A new coroutine is made only when no coroutine is free. -/
theorem Scheduled.created_le {coTask later : CoTask SharedTrans Data}
    (scheduled : Scheduled coTask later) {bound : Nat} (many : coTask.coPool.created ≤ bound + 1)
    (full : coTask.coPool.freeList = [] → coTask.coPool.created ≤ bound) :
    later.coPool.created ≤ bound + 1 := by
  cases scheduled with
  | same => exact many
  | started resumed =>
      rw [resumeOneWithMsg_created resumed, CoTask.addTack, CoPool.newCoroutine_created]
      split_ifs with empty
      · exact Nat.succ_le_succ (full empty)
      · exact many
  | resumed resumed => rwa [resumeOneWithMsg_created resumed]
  | ticked idle => exact many
  | proceeded proceeded => rwa [proceed_created proceeded]

/-- The next transaction gets a coroutine that nobody waits in. -/
theorem Staffed.nextCoId_free (staffed : mgr.Staffed cmd objects) :
    mgr.coTask.waits mgr.coTask.coPool.nextCoId = none := by
  refine staffed.orderly.resting.waits_eq_none.mpr
    (staffed.orderly.counted.nextCoId_inactive fun empty => ?_)
  exact lt_of_le_of_lt (Nat.succ_le_succ (staffed.created_le empty)) staffed.small

theorem Staffed.step (staffed : mgr.Staffed cmd objects) {act : TransAct Data}
    {outcome : MgrOutcome Data} (other : ∀ cmd count, act ≠ .registerCmd cmd count)
    (stepped : mgr.step act = some outcome) : outcome.mgr.Staffed cmd objects := by
  have scheduled := step_scheduled stepped
  have created := scheduled.created_le staffed.created staffed.created_le
  have bound := lt_of_le_of_lt created staffed.small
  exact ⟨scheduled.orderly staffed.orderly bound,
    staffed.kept.step staffed.orderly other bound stepped, staffed.distinct, staffed.small, created⟩

theorem Staffed.resumeOneWithMsg (staffed : mgr.Staffed cmd objects) {coId : CoId} {msg : Data}
    {segment : Segment} {woken : Outcome SharedTrans Data}
    (resumed : mgr.coTask.resumeOneWithMsg coId msg segment = some woken) :
    (mgr.settle woken).mgr.Staffed cmd objects := by
  refine ⟨?_, staffed.kept.resumeOneWithMsg staffed.orderly resumed, staffed.distinct,
    staffed.small, ?_⟩
  · rw [settle_coTask]
    exact staffed.orderly.resumeOneWithMsg resumed
  · rw [settle_coTask, resumeOneWithMsg_created resumed]
    exact staffed.created

/-- The first registration makes the objects. -/
theorem Staffed.registerCmd (cmd : Cmd) (count : Nat) (small : count + 1 < 2 ^ 32) :
    ((TransMgr.empty : TransMgr Data).registerCmd cmd count).1.Staffed cmd
      (List.range' 0 count) := by
  have start : (registryMachine Data).start.Sound := TransRun.Sound.start
  have unknown : (TransMgr.empty : TransMgr Data).transMap.lookup cmd = none := rfl
  rw [TransMgr.registerCmd, unknown, if_neg (by simp), Int.toNat_natCast]
  refine ⟨?_, start.kept.registerCmd count rfl, List.nodup_range', by simpa using small, ?_⟩
  · rw [addAll_coTask]
    exact Orderly.empty
  · rw [addAll_coTask]
    exact Nat.zero_le _

/-- A transaction starts with an object of its own `cmd`. -/
theorem Staffed.onMsg_cmd (staffed : mgr.Staffed cmd objects) {msg : TransMsg Data}
    {segment : Segment} {outcome : MgrOutcome Data} (fresh : msg.coId = 0)
    (stepped : mgr.step (.onMsg msg segment) = some outcome) (served : outcome.events ≠ []) :
    msg.cmd = cmd := by
  obtain ⟨_, operated⟩ := Option.ite_none_right_eq_some.mp stepped
  rcases onMsg_cases operated with ⟨_, _, rfl⟩ | ⟨_, taken, shared, got, _⟩ | ⟨named, _⟩ |
    ⟨named, _⟩
  · exact absurd rfl served
  · obtain ⟨trans, last, _⟩ := getShared_cases got
    rw [touch_pool] at last
    exact staffed.owned (Or.inl (List.mem_of_getLast? last))
  · exact absurd fresh named
  · exact absurd fresh named

end TransMgr

end QServer
