import QServer.Co.Waits
import QServer.Trans.TransMgr

/-
This file lists what a step of the transaction manager does to the calls that wait.
-/

namespace QServer
open CoTask

namespace TransMgr

variable {Data : Type} {mgr : TransMgr Data}

/-- A step wakes nobody, starts a transaction, or ends a call by a message or by its timer. -/
inductive Switched (mgr : TransMgr Data) : TransAct Data → MgrOutcome Data → Prop
  | quiet {act : TransAct Data} {outcome : MgrOutcome Data} (events : outcome.events = [])
      (waits : outcome.mgr.coTask.waits = mgr.coTask.waits)
      (yields : outcome.mgr.coTask.yields = mgr.coTask.yields) : Switched mgr act outcome
  | started {msg : TransMsg Data} {segment : Segment} {outcome : MgrOutcome Data}
      {shared : SharedTrans} {last : CoEvent SharedTrans Data} (fresh : msg.coId = 0)
      (events : outcome.events = [.started mgr.coTask.coPool.nextCoId (some shared), last])
      (left : Left mgr.coTask mgr.coTask.coPool.nextCoId segment outcome.mgr.coTask last) :
      Switched mgr (.onMsg msg segment) outcome
  | answered {msg : TransMsg Data} {segment : Segment} {outcome : MgrOutcome Data}
      {call : YieldCall} {last : CoEvent SharedTrans Data} (named : msg.coId ≠ 0)
      (waiting : mgr.coTask.waits msg.coId = some call)
      (events : outcome.events =
        [.returned msg.coId call 0 (.resumeOneWithMsg msg.data) (some msg.data), last])
      (left : Left mgr.coTask msg.coId segment outcome.mgr.coTask last) :
      Switched mgr (.onMsg msg segment) outcome
  | timedOut {segment : Segment} {outcome : MgrOutcome Data} {coId : CoId}
      {call armed : YieldCall} {now : Time} {stored : Option Data}
      {last : CoEvent SharedTrans Data} (waiting : mgr.coTask.waits coId = some call)
      (events : outcome.events = [.returned coId call (-1) (.timer armed now) stored, last])
      (left : Left mgr.coTask coId segment outcome.mgr.coTask last) :
      Switched mgr (.proceed segment) outcome

theorem onMsg_switched (resting : mgr.coTask.Resting) {msg : TransMsg Data} {segment : Segment}
    {outcome : MgrOutcome Data} (stepped : mgr.onMsg msg segment = some outcome) :
    outcome.mgr.coTask.Resting ∧ Switched mgr (.onMsg msg segment) outcome := by
  rcases onMsg_cases stepped with ⟨_, _, rfl⟩ | ⟨fresh, taken, shared, got, started⟩ |
    ⟨named, woken, resumed, rfl⟩ | ⟨_, _, rfl⟩
  · exact ⟨resting, .quiet rfl rfl rfl⟩
  · obtain ⟨trans, _, _, rfl⟩ := getShared_cases got
    obtain ⟨woken, resumed, rfl⟩ := Option.map_eq_some_iff.mp started
    obtain ⟨after, last, events, left⟩ := resting.addTack_resume shared resumed
    refine ⟨?_, .started fresh events ?_⟩
    · rw [release_coTask, settle_coTask]
      exact after
    · rw [release_coTask, settle_coTask]
      exact left
  · obtain ⟨after, silent | ⟨call, last, waiting, events, left⟩⟩ :=
      resting.resumeOneWithMsg resumed
    · refine ⟨by rwa [settle_coTask], .quiet silent.2.1 ?_ ?_⟩
      · rw [settle_coTask]
        exact silent.2.2.1
      · rw [settle_coTask]
        exact silent.2.2.2
    · exact ⟨by rwa [settle_coTask], .answered named waiting events (by rwa [settle_coTask])⟩
  · exact ⟨resting, .quiet rfl rfl rfl⟩

/-- Every step keeps the coroutines at rest and is one of the listed ones. -/
theorem step_switched (resting : mgr.coTask.Resting) {act : TransAct Data}
    {outcome : MgrOutcome Data} (stepped : mgr.step act = some outcome) :
    outcome.mgr.coTask.Resting ∧ Switched mgr act outcome := by
  cases act with
  | proceed segment =>
      obtain ⟨woken, proceeded, rfl⟩ := Option.map_eq_some_iff.mp stepped
      obtain ⟨after, silent | ⟨coId, call, armed, now, stored, last, waiting, events, left⟩⟩ :=
        resting.proceed proceeded
      · refine ⟨by rwa [settle_coTask], .quiet silent.1 ?_ ?_⟩
        · rw [settle_coTask]
          exact silent.2.1
        · rw [settle_coTask]
          exact silent.2.2
      · exact ⟨by rwa [settle_coTask], .timedOut waiting events (by rwa [settle_coTask])⟩
  | registerCmd cmd count =>
      obtain ⟨_, operated⟩ := Option.ite_none_right_eq_some.mp stepped
      cases operated
      exact ⟨by rwa [registerCmd_coTask],
        .quiet rfl (by rw [registerCmd_coTask]) (by rw [registerCmd_coTask])⟩
  | onMsg msg segment =>
      obtain ⟨_, operated⟩ := Option.ite_none_right_eq_some.mp stepped
      exact onMsg_switched resting operated
  | tickTimeOutCo now =>
      obtain ⟨_, operated⟩ := Option.ite_none_right_eq_some.mp stepped
      cases operated
      exact ⟨resting.doTimeOutTask now, .quiet rfl rfl rfl⟩

end TransMgr

end QServer
