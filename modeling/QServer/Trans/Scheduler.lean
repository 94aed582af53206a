import QServer.Trans.TransMgr
import QServer.Co.Census

/-
This file proves the invariant of the scheduler over every run of the transaction manager.
-/

namespace QServer
open Transition CoTask

/-- The invariant of the scheduler between two events. -/
structure SchedulerInvariant {Body Msg : Type} (coTask : CoTask Body Msg) : Prop where
  disjoint : ∀ ptr ∈ coTask.coPool.freeList, ∀ coId, coTask.coPool.findCoId coId ≠ some ptr
  complete : ∀ ptr, ptr < coTask.coPool.created ↔
    ptr ∈ coTask.coPool.freeList ∨ ∃ coId, coTask.coPool.findCoId coId = some ptr
  freeOnce : coTask.coPool.freeList.Nodup
  distinct : ∀ first < coTask.coPool.created, ∀ second < coTask.coPool.created,
    (coTask.coPool.object first).coId = (coTask.coPool.object second).coId → first = second
  nonzero : ∀ ptr < coTask.coPool.created, (coTask.coPool.object ptr).coId ≠ 0
  keys : ∀ coId ptr, coTask.coPool.findCoId coId = some ptr →
    (coTask.coPool.object ptr).coId = coId
  suspended : ∀ coId co, coTask.coPool.found coId = some co →
    (∃ call, co.context = .suspended call) ∧ co.resumeByTimeOut = false
  timed : ∀ coId, (coTask.coIdTimerId.lookup coId).isSome ↔
    (coTask.coPool.findCoId coId).isSome
  noOrphan : ∀ node ∈ coTask.timer.nodes, node.id ∉ coTask.timer.cancelList →
    coTask.coIdTimerId.lookup node.info.task.coId = some node.id ∧
      (coTask.coPool.findCoId node.info.task.coId).isSome

namespace CoTask

variable {Body Msg : Type} {coTask : CoTask Body Msg}

theorem Orderly.invariant (orderly : coTask.Orderly) : SchedulerInvariant coTask := by
  have counted := orderly.counted
  constructor
  · intro ptr member coId active
    have bound := counted.keyed.free ptr member
    rw [counted.active_id active, (counted.free ptr bound).mp member] at active
    cases active
  · intro ptr
    constructor
    · intro bound
      by_cases member : ptr ∈ coTask.coPool.freeList
      · exact Or.inl member
      · rw [counted.free ptr bound] at member
        obtain ⟨place, active⟩ := Option.ne_none_iff_exists'.mp member
        have same : ptr = place := Nat.succ.inj (counted.active_id active)
        exact Or.inr ⟨ptr + 1, same ▸ active⟩
    · rintro (member | ⟨coId, active⟩)
      · exact counted.keyed.free ptr member
      · exact (counted.keyed.active coId ptr active).1
  · exact counted.freeOnce
  · intro first firstBound second secondBound same
    rw [counted.ids first firstBound, counted.ids second secondBound] at same
    exact Nat.succ.inj same
  · intro ptr bound
    rw [counted.ids ptr bound]
    exact Nat.succ_ne_zero ptr
  · exact fun coId ptr active => (counted.keyed.active coId ptr active).2
  · intro coId co found
    obtain ⟨ptr, _, rfl⟩ := CoPool.found_eq_some.mp found
    exact ⟨(orderly.settled coId).1 _ found, orderly.tidy.unmarked ptr⟩
  · intro coId
    have settled := (orderly.settled coId).2
    rwa [CoPool.found, Option.isSome_map] at settled
  · intro node member absent
    have armed := orderly.tidy.armed node (List.mem_append_left _ member) absent
    obtain ⟨co, found, _⟩ := armed.suspended
    obtain ⟨ptr, active, _⟩ := CoPool.found_eq_some.mp found
    exact ⟨armed.recorded, by simp [active]⟩

end CoTask

namespace TransMgr

variable {Data : Type} {mgr next : TransMgr Data}

theorem Scheduled.created {coTask later : CoTask SharedTrans Data}
    (scheduled : Scheduled coTask later) : coTask.coPool.created ≤ later.coPool.created := by
  cases scheduled with
  | same => exact le_refl _
  | started resumed =>
      rw [resumeOneWithMsg_created resumed, CoTask.addTack, CoPool.newCoroutine_created]
      split_ifs <;> simp
  | resumed resumed => rw [resumeOneWithMsg_created resumed]
  | ticked idle => exact le_refl _
  | proceeded proceeded => rw [proceed_created proceeded]

/-- A step keeps the order while the identifiers do not wrap. -/
theorem Scheduled.orderly {coTask later : CoTask SharedTrans Data}
    (scheduled : Scheduled coTask later) (orderly : coTask.Orderly)
    (bound : later.coPool.created < 2 ^ 32) : later.Orderly := by
  cases scheduled with
  | same => exact orderly
  | started resumed =>
      refine orderly.addTack_wake _ (fun empty => ?_) resumed
      rw [resumeOneWithMsg_created resumed, CoTask.addTack, CoPool.newCoroutine_created,
        if_pos empty] at bound
      exact bound
  | resumed resumed => exact orderly.resumeOneWithMsg resumed
  | ticked idle => exact orderly.doTimeOutTask idle _
  | proceeded proceeded => exact orderly.proceed proceeded

/-- Every run keeps the order while the identifiers do not wrap. -/
theorem orderly_of_run {acts : List (TransAct Data)}
    (reached : (transMachine Data).run (transMachine Data).start acts = some mgr)
    (bound : mgr.coTask.coPool.created < 2 ^ 32) : mgr.coTask.Orderly := by
  have kept : ∀ state act later,
      (state.coTask.coPool.created < 2 ^ 32 → state.coTask.Orderly) →
      (transMachine Data).step state act = some later →
      later.coTask.coPool.created < 2 ^ 32 → later.coTask.Orderly := by
    intro state act later held stepped small
    obtain ⟨outcome, operated, rfl⟩ := Option.map_eq_some_iff.mp stepped
    have scheduled := step_scheduled operated
    exact scheduled.orderly (held (lt_of_le_of_lt scheduled.created small)) small
  exact (transMachine Data).run_invariant kept (fun _ => Orderly.empty) reached bound

end TransMgr

/-- The scheduler keeps its invariant between any two events. -/
theorem scheduler_invariant {Data : Type} {acts : List (TransAct Data)} {mgr : TransMgr Data}
    (reached : (transMachine Data).run (transMachine Data).start acts = some mgr)
    (few : mgr.coTask.coPool.created < 2 ^ 32 - 1) : SchedulerInvariant mgr.coTask := by
  have bound : mgr.coTask.coPool.created < 2 ^ 32 := by omega
  exact (TransMgr.orderly_of_run reached bound).invariant

/-- One transaction waits, is woken by a message and ends by its second timer. -/
theorem scheduler_invariant_twice : ∃ mgr : TransMgr Unit,
    (transMachine Unit).run (transMachine Unit).start
      [.registerCmd 1 1, .onMsg ⟨1, 0, ()⟩ (.yield 0 1000 1),
        .onMsg ⟨1, 1, ()⟩ (.yield 10 1000 2), .tickTimeOutCo 1010, .proceed .finish,
        .proceed .finish, .proceed .finish] = some mgr ∧ SchedulerInvariant mgr.coTask := by
  have reached : (((transMachine Unit).run (transMachine Unit).start
      [.registerCmd 1 1, .onMsg ⟨1, 0, ()⟩ (.yield 0 1000 1),
        .onMsg ⟨1, 1, ()⟩ (.yield 10 1000 2), .tickTimeOutCo 1010, .proceed .finish,
        .proceed .finish, .proceed .finish]).any
      fun mgr => mgr.coTask.coPool.created < 2 ^ 32 - 1) = true := by decide +kernel
  obtain ⟨mgr, reached, few⟩ := Machine.exists_of_check _ reached
  exact ⟨mgr, reached, scheduler_invariant reached (of_decide_eq_true few)⟩

end QServer
