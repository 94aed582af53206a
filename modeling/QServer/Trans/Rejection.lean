import QServer.Trans.TransMgr

/-
This file proves when a message that `OnMsg` rejects can be seen in later calls.
-/

namespace QServer
open Container Transition CoTask

namespace TransMgr

variable {Data : Type} {mgr : TransMgr Data}

/-- The result and the switches of every call of a sequence. -/
def results (mgr : TransMgr Data) :
    List (TransAct Data) → Option (List (Int × List (CoEvent SharedTrans Data)))
  | [] => some []
  | act :: rest => (mgr.step act).bind fun outcome =>
      (outcome.mgr.results rest).map ((outcome.code, outcome.events) :: ·)

/-- Every later sequence of calls gives the same results in both states. -/
def Alike (first second : TransMgr Data) : Prop :=
  ∀ later, first.results later = second.results later

/-- A pool that is there stays as it is. -/
theorem touch_of_known {cmd : Cmd} (known : (mgr.transMap.lookup cmd).isSome = true) :
    mgr.touch cmd = mgr := by
  obtain ⟨pool, found⟩ := Option.isSome_iff_exists.mp known
  have same : Finmap.insert cmd (mgr.pool cmd) mgr.transMap = mgr.transMap := by
    apply Finmap.ext_lookup
    intro other
    rw [UnorderedMap.lookup_insert]
    split_ifs with here
    · rw [here, TransMgr.pool, found]
      rfl
    · rfl
  rw [touch, same]

theorem touch_known (cmd : Cmd) :
    ((mgr.touch cmd).transMap.lookup cmd).isSome = true := by
  rw [touch, UnorderedMap.lookup_insert, if_pos rfl]
  rfl

/-- A switch to a coroutine is seen in two events. -/
theorem resumed_events {coTask : CoTask SharedTrans Data} {wake : Wake Data} {segment : Segment}
    {entry : CoPool SharedTrans Data × CoPtr} {outcome : Outcome SharedTrans Data}
    (stepped : coTask.resumed wake segment (some entry) = some outcome) :
    outcome.events ≠ [] := by
  obtain ⟨left, switched, rfl⟩ := Option.map_eq_some_iff.mp stepped
  obtain ⟨entered, _, left', _, rfl⟩ := by
    simpa only [switchTo, Option.bind_eq_some_iff, Option.map_eq_some_iff] using switched
  intro silent
  cases silent

/-- A wake by a message finds an active coroutine. -/
theorem resumeOneWithMsg_events {coTask : CoTask SharedTrans Data} {coId : CoId} {msg : Data}
    {segment : Segment} {outcome : Outcome SharedTrans Data}
    (active : (coTask.coPool.findCoId coId).isSome = true)
    (stepped : coTask.resumeOneWithMsg coId msg segment = some outcome) :
    outcome.events ≠ [] := by
  obtain ⟨ptr, found⟩ := Option.isSome_iff_exists.mp active
  have samePool : (coTask.cancelTimer coId).coPool = coTask.coPool := cancelTimer_coPool
  rw [CoTask.resumeOneWithMsg, samePool, CoPool.resumeWithMsg, found, Option.map_some] at stepped
  exact resumed_events stepped

theorem activate_active (pool : CoPool SharedTrans Data) (ptr : CoPtr) (rest : List CoPtr)
    (shared : SharedTrans) :
    ((pool.activate ptr rest shared).1.findCoId
      (pool.activate ptr rest shared).2).isSome = true := by
  have named : (pool.activate ptr rest shared).2 = (pool.object ptr).coId := rfl
  rw [named, CoPool.activate_findCoId, if_pos rfl]
  rfl

/-- A new coroutine is active. -/
theorem addTack_active (coTask : CoTask SharedTrans Data) (shared : SharedTrans) :
    ((coTask.addTack shared).1.coPool.findCoId (coTask.addTack shared).2).isSome = true := by
  unfold addTack CoPool.newCoroutine
  cases free : coTask.coPool.freeList with
  | nil => exact activate_active _ _ _ shared
  | cons ptr rest => exact activate_active _ _ _ shared

/-- A message that wakes and starts nobody leaves all but an empty pool as it was. -/
theorem rejected_cases {msg : TransMsg Data} {segment : Segment} {outcome : MgrOutcome Data}
    (stepped : mgr.onMsg msg segment = some outcome) (silent : outcome.events = []) :
    outcome.mgr = if msg.coId = 0 then mgr.touch msg.cmd else mgr := by
  unfold onMsg at stepped
  split_ifs at stepped with fresh active
  · rw [if_pos fresh]
    split at stepped
    · cases stepped
      rfl
    · rename_i taken shared got
      obtain ⟨woken, resumed, rfl⟩ := Option.map_eq_some_iff.mp stepped
      exact absurd silent (resumeOneWithMsg_events (addTack_active _ shared) resumed)
  · obtain ⟨woken, resumed, rfl⟩ := Option.map_eq_some_iff.mp stepped
    exact absurd silent (resumeOneWithMsg_events active resumed)
  · cases stepped
    rw [if_neg fresh]

/-- A later registration of the `cmd` finds the pool that the message made. -/
theorem not_alike_touch {cmd : Cmd} (unknown : (mgr.transMap.lookup cmd).isSome = false)
    (idle : mgr.coTask.mainCall.isIdle = true) : ¬Alike (mgr.touch cmd) mgr := by
  intro alike
  have same := alike [.registerCmd cmd 1]
  have refused : (mgr.touch cmd).registerCmd cmd 1 = (mgr.touch cmd, false) :=
    if_pos (touch_known cmd)
  have registered : (mgr.registerCmd cmd 1).2 = true := by
    rw [registerCmd, unknown]
    rfl
  have idle' : (mgr.touch cmd).coTask.mainCall.isIdle = true := idle
  simp only [results, step, operate, idle, idle', if_true, Option.bind_some, Option.map_some,
    refused, registered, Option.some.injEq, List.cons.injEq, Prod.mk.injEq] at same
  exact absurd same.1.1 (by decide)

end TransMgr

/-- A rejected message is not seen later exactly when it adds no pool. -/
theorem rejected_unseen_iff {Data : Type} {mgr : TransMgr Data} {msg : TransMsg Data}
    {segment : Segment} {outcome : MgrOutcome Data}
    (stepped : mgr.step (.onMsg msg segment) = some outcome)
    (rejected : outcome.code = -1 ∧ outcome.events = []) :
    outcome.mgr.Alike mgr ↔ msg.coId ≠ 0 ∨ (mgr.transMap.lookup msg.cmd).isSome = true := by
  obtain ⟨idle, operated⟩ := Option.ite_none_right_eq_some.mp stepped
  have left := TransMgr.rejected_cases operated rejected.2
  by_cases fresh : msg.coId = 0
  · rw [if_pos fresh] at left
    cases known : (mgr.transMap.lookup msg.cmd).isSome with
    | true =>
        have same : outcome.mgr = mgr := left.trans (TransMgr.touch_of_known known)
        exact ⟨fun _ => Or.inr rfl, fun _ later => by rw [same]⟩
    | false =>
        have differs : ¬outcome.mgr.Alike mgr := left ▸ TransMgr.not_alike_touch known idle
        exact ⟨fun alike => absurd alike differs, fun either => by simp [fresh] at either⟩
  · rw [if_neg fresh] at left
    exact ⟨fun _ => Or.inl fresh, fun _ later => by rw [left]⟩

/-- A message for a `cmd` whose only object is busy is not seen later. -/
theorem rejected_unseen_iff_busy : ∃ mgr outcome,
    (transMachine Unit).run (transMachine Unit).start
      [.registerCmd 1 1, .onMsg ⟨1, 0, ()⟩ (.yield 0 1000 1)] = some mgr ∧
    mgr.step (.onMsg ⟨1, 0, ()⟩ .finish) = some outcome ∧
    (outcome.mgr.Alike mgr ↔ (0 : CoId) ≠ 0 ∨ (mgr.transMap.lookup 1).isSome = true) := by
  have reached : (((transMachine Unit).run (transMachine Unit).start
      [.registerCmd 1 1, .onMsg ⟨1, 0, ()⟩ (.yield 0 1000 1)]).any fun mgr =>
        (mgr.step (.onMsg ⟨1, 0, ()⟩ .finish)).any fun outcome =>
          outcome.code = -1 ∧ outcome.events.isEmpty) = true := by decide +kernel
  obtain ⟨mgr, reached, checked⟩ := Machine.exists_of_check _ reached
  obtain ⟨outcome, stepped, checked⟩ := (Option.any_eq_true _ _).mp checked
  obtain ⟨code, silent⟩ := of_decide_eq_true checked
  exact ⟨mgr, outcome, reached, stepped,
    rejected_unseen_iff stepped ⟨code, List.isEmpty_iff.mp silent⟩⟩

/-- A message with an unregistered `cmd` makes its later registration fail. -/
theorem unregistered_seen :
    ¬∀ (acts : List (TransAct Unit)) (mgr : TransMgr Unit) (msg : TransMsg Unit)
      (segment : Segment) (outcome : MgrOutcome Unit),
      (transMachine Unit).run (transMachine Unit).start acts = some mgr →
        mgr.step (.onMsg msg segment) = some outcome →
          outcome.code = -1 → outcome.events = [] → outcome.mgr.Alike mgr := by
  intro unseen
  have alike := unseen [] TransMgr.empty ⟨7, 0, ()⟩ .finish ⟨TransMgr.empty.touch 7, -1, []⟩ rfl rfl
    rfl rfl
  exact TransMgr.not_alike_touch rfl rfl alike

end QServer
