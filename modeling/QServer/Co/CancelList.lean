import QServer.Co.YieldResult

/-
This file proves when the cancel list holds only timers that are still pending.
-/

namespace QServer
open Transition CoTask

/-- No timer fires. A batch meets only timers that are cancelled. -/
def Untimed {Body Msg : Type} (run : CoRun Body Msg) : CoAct Body Msg → Prop
  | .proceed _ => ∀ now timeOutSet node rest,
      run.coTask.mainCall = .doTimeOutTask now timeOutSet (node :: rest) →
        node.id ∈ run.coTask.timer.cancelList
  | _ => True

instance {Body Msg : Type} (run : CoRun Body Msg) : DecidablePred (Untimed run)
  | .addTack _ => isTrue trivial
  | .doTack _ _ => isTrue trivial
  | .resumeOne _ _ => isTrue trivial
  | .resumeOneWithMsg _ _ _ => isTrue trivial
  | .resumeAll _ => isTrue trivial
  | .doTimeOutTask _ => isTrue trivial
  | .proceed _ => decidable_of_iff (∀ node ∈ run.coTask.mainCall.rest.head?,
      node.id ∈ run.coTask.timer.cancelList)
      ⟨fun cancelled now timeOutSet node rest running =>
          cancelled node (by rw [running]; rfl),
        fun untimed node next => by
          cases running : run.coTask.mainCall with
          | doTimeOutTask now timeOutSet rest =>
              rw [running] at next
              obtain ⟨others, same⟩ := List.head?_eq_some_iff.mp next
              exact untimed now timeOutSet node others (by rw [running, ← same]; rfl)
          | _ =>
              rw [running] at next
              cases next⟩

theorem MainCall.rest_of_idle {mainCall : MainCall} (idle : mainCall.isIdle = true) :
    mainCall.rest = [] := by
  rw [MainCall.eq_idle idle]
  rfl

namespace CoTask

variable {Body Msg : Type} {coTask next : CoTask Body Msg} {coId : CoId} {wake : Wake Msg}
  {segment : Segment} {outcome : Outcome Body Msg}

/-- Each cancel entry belongs to a node, and the list is no longer than the set. -/
def NoLeak (coTask : CoTask Body Msg) : Prop :=
  (∀ timerId ∈ coTask.timer.cancelList, ∃ node ∈ coTask.timer.nodes, node.id = timerId) ∧
    coTask.timer.cancelList.card ≤ coTask.timer.nodes.length

/-- What a switch to a coroutine and back does to the timers. -/
inductive Rearmed (coTask next : CoTask Body Msg) : Prop
  | kept (timer : next.timer = coTask.timer) (records : next.coIdTimerId = coTask.coIdTimerId)
      (mainCall : next.mainCall = coTask.mainCall) : Rearmed coTask next
  | armed {coId : CoId} {call : YieldCall} {now timeOut : Time} {address : Addr}
      (fresh : address ∉ coTask.held)
      (timer : next.timer = (coTask.timer.addTimer address now timeOut ⟨coId, call⟩ false).1)
      (records : next.coIdTimerId = Finmap.insert coId
        (coTask.timer.addTimer address now timeOut ⟨coId, call⟩ false).2 coTask.coIdTimerId)
      (mainCall : next.mainCall = coTask.mainCall) : Rearmed coTask next

/-- Whatever coroutine runs, it arms one new timer at most. -/
theorem runBody_rearmed {coId : CoId} {left : CoTask Body Msg × CoEvent Body Msg}
    (ran : coTask.runBody coId segment = some left) : Rearmed coTask left.1 := by
  cases segment with
  | yield now timeOut ptr =>
      obtain ⟨after, yielded, rfl⟩ := Option.map_eq_some_iff.mp ran
      obtain ⟨fresh, made⟩ := Option.ite_none_left_eq_some.mp yielded
      obtain ⟨coPool, _, rfl⟩ := Option.map_eq_some_iff.mp made
      exact .armed fresh rfl rfl rfl
  | finish =>
      cases ran
      exact .kept rfl rfl rfl

theorem resumed_rearmed {found : Option (CoPool Body Msg × CoPtr)}
    (stepped : coTask.resumed wake segment found = some outcome) :
    Rearmed coTask outcome.coTask := by
  cases found with
  | none =>
      cases stepped
      exact .kept rfl rfl rfl
  | some marked =>
      obtain ⟨left, switched, rfl⟩ := Option.map_eq_some_iff.mp stepped
      obtain ⟨entered, _, switched⟩ := Option.bind_eq_some_iff.mp switched
      obtain ⟨after, ran, rfl⟩ := Option.map_eq_some_iff.mp switched
      cases runBody_rearmed ran with
      | kept timer records mainCall => exact .kept timer records mainCall
      | armed fresh timer records mainCall => exact .armed fresh timer records mainCall

/-- Each cancel entry and each record belongs to a node that waits, and a recorded timer is not
cancelled. -/
structure Accounted (coTask : CoTask Body Msg) : Prop where
  addresses : (coTask.waiting.map TimerNode.ptr).Nodup
  kept : coTask.mainCall.rest ⊆ coTask.mainCall.timeOutSet
  pending : ∀ timerId ∈ coTask.timer.cancelList, ∃ node ∈ coTask.waiting, node.id = timerId
  recorded : ∀ coId timerId, coTask.coIdTimerId.lookup coId = some timerId →
    timerId ∉ coTask.timer.cancelList ∧
      ∃ node ∈ coTask.waiting, node.id = timerId ∧ node.info.task.coId = coId

/-- A switch leaves the cancel list alone, and a new timer gets an address of its own. -/
theorem Rearmed.waiting_or_fresh (rearmed : Rearmed coTask next) :
    next.timer.cancelList = coTask.timer.cancelList ∧
      ∀ node ∈ next.waiting, node ∈ coTask.waiting ∨ node.ptr ∉ coTask.held := by
  cases rearmed with
  | kept timer records mainCall =>
      rw [waiting, timer, mainCall]
      exact ⟨rfl, fun _ => Or.inl⟩
  | armed fresh timer records mainCall =>
      rename_i coId call now timeOut address
      have free := fresh
      rw [held, List.map_append, List.mem_append, not_or] at free
      have placed := coTask.timer.addTimer_nodes free.1 now timeOut ⟨coId, call⟩ false
      rw [waiting, timer, mainCall]
      refine ⟨rfl, fun node member => ?_⟩
      rcases List.mem_append.mp member with stored | later
      · rcases List.mem_cons.mp (placed.mem_iff.mp stored) with rfl | old
        · exact Or.inr fresh
        · exact Or.inl (List.mem_append_left _ old)
      · exact Or.inl (List.mem_append_right _ later)

/-- A timer that fires leaves a cancel entry that belongs to no node. -/
theorem Tidy.fired_leaks (tidy : coTask.Tidy) {now : Time}
    {timeOutSet rest : List (TimerNode ResumeTask)} {node : TimerNode ResumeTask}
    (running : coTask.mainCall = .doTimeOutTask now timeOutSet (node :: rest))
    (live : node.id ∉ coTask.timer.cancelList) (stepped : coTask.proceed segment = some outcome) :
    node.id ∈ outcome.coTask.timer.cancelList ∧
      ∀ other ∈ outcome.coTask.waiting, other.id ≠ node.id := by
  have inside : node ∈ coTask.waiting := by simp [waiting, running, MainCall.rest]
  have kept := tidy.kept
  rw [running] at kept
  have once := tidy.once node inside
  have apart := ((waiting_turn running).map TimerNode.ptr).nodup_iff.mp tidy.addresses
  rw [List.map_cons, List.nodup_cons] at apart
  have passed : coTask.timer.takeCancel node = none := if_neg live
  simp only [CoTask.proceed, running, passed, Option.map_eq_some_iff] at stepped
  obtain ⟨fired, resumed, rfl⟩ := stepped
  obtain ⟨cancels, fresh⟩ := (resumed_rearmed resumed).waiting_or_fresh
  simp only [Timer.requeue_once _ once]
  constructor
  · rw [cancels, cancelTimer_cancelList]
    exact Or.inl (tidy.armed node inside live).recorded
  · intro other member same
    have ptr : other.ptr = node.ptr := congrArg Prod.fst same
    rcases fresh other member with old | new
    · rw [cancelTimer_waiting] at old
      exact apart.1 (List.mem_map.mpr ⟨other, old, ptr⟩)
    · apply new
      rw [held, cancelTimer_mainCall, ptr]
      exact List.mem_map_of_mem (List.mem_append_right _ (kept List.mem_cons_self))

theorem Accounted.empty : (CoTask.empty : CoTask Body Msg).Accounted := by
  constructor
  · simp [waiting, CoTask.empty, MainCall.rest]
  · simp [CoTask.empty, MainCall.rest]
  · simp [CoTask.empty, Timer.empty]
  · intro coId timerId recorded
    cases recorded

theorem Accounted.noLeak (accounted : coTask.Accounted)
    (idle : coTask.mainCall.isIdle = true) : coTask.NoLeak := by
  have pending := accounted.pending
  rw [waiting, MainCall.rest_of_idle idle, List.append_nil] at pending
  refine ⟨pending, ?_⟩
  have inside : coTask.timer.cancelList ⊆ (coTask.timer.nodes.map TimerNode.id).toFinset := by
    intro timerId cancelled
    rw [List.mem_toFinset]
    exact List.mem_map.mpr (pending timerId cancelled)
  have fewer := (Finset.card_le_card inside).trans (List.toFinset_card_le _)
  rwa [List.length_map] at fewer

/-- The timers stay accounted for while only the pool changes. -/
theorem Accounted.of_same (accounted : coTask.Accounted) (timer : next.timer = coTask.timer)
    (records : next.coIdTimerId = coTask.coIdTimerId)
    (mainCall : next.mainCall = coTask.mainCall) : next.Accounted := by
  have same : next.waiting = coTask.waiting := by rw [waiting, timer, mainCall, waiting]
  constructor
  · rw [same]
    exact accounted.addresses
  · rw [mainCall]
    exact accounted.kept
  · rw [timer, same]
    exact accounted.pending
  · rw [records, timer, same]
    exact accounted.recorded

/-- A node that waits has its address to itself. -/
theorem Accounted.eq_of_id (accounted : coTask.Accounted) {first second : TimerNode ResumeTask}
    (firstMember : first ∈ coTask.waiting) (secondMember : second ∈ coTask.waiting)
    (same : first.id = second.id) : first = second :=
  List.inj_on_of_nodup_map accounted.addresses firstMember secondMember (congrArg Prod.fst same)

/-- A cancelled timer loses its record. -/
theorem Accounted.cancelTimer (accounted : coTask.Accounted) (coId : CoId) :
    (coTask.cancelTimer coId).Accounted := by
  constructor
  · rw [cancelTimer_waiting]
    exact accounted.addresses
  · rw [cancelTimer_mainCall]
    exact accounted.kept
  · intro timerId cancelled
    rw [cancelTimer_waiting]
    rcases cancelTimer_cancelList timerId |>.mp cancelled with recorded | old
    · obtain ⟨_, node, member, same, _⟩ := accounted.recorded coId timerId recorded
      exact ⟨node, member, same⟩
    · exact accounted.pending timerId old
  · intro other timerId recorded
    rw [cancelTimer_lookup] at recorded
    split_ifs at recorded with here
    obtain ⟨live, node, member, same, named⟩ := accounted.recorded other timerId recorded
    refine ⟨?_, by rw [cancelTimer_waiting]; exact ⟨node, member, same, named⟩⟩
    rw [cancelTimer_cancelList, not_or]
    refine ⟨fun taken => ?_, live⟩
    obtain ⟨_, twin, twinMember, twinSame, twinNamed⟩ := accounted.recorded coId timerId taken
    have equal := accounted.eq_of_id member twinMember (same.trans twinSame.symm)
    rw [equal] at named
    exact here (named.symm.trans twinNamed)

/-- A new timer has an address that no cancel entry names. -/
theorem Accounted.rearmed (accounted : coTask.Accounted) (rearmed : Rearmed coTask next) :
    next.Accounted := by
  cases rearmed with
  | kept timer records mainCall => exact accounted.of_same timer records mainCall
  | armed fresh timer records mainCall =>
      rename_i coId call now timeOut address
      rw [held, List.map_append, List.mem_append, not_or] at fresh
      have placed := coTask.timer.addTimer_nodes fresh.1 now timeOut ⟨coId, call⟩ false
      have outside : address ∉ coTask.waiting.map TimerNode.ptr := by
        rw [waiting, List.map_append, List.mem_append, not_or]
        exact ⟨fresh.1, fun inside => fresh.2 (List.map_subset _ accounted.kept inside)⟩
      have order : next.waiting.Perm
          (Timer.newNode address now timeOut ⟨coId, call⟩ false :: coTask.waiting) := by
        rw [waiting, timer, mainCall, waiting]
        exact placed.append_right _
      have sameList : next.timer.cancelList = coTask.timer.cancelList := by
        rw [timer]
        rfl
      have older : ∀ {node}, node ∈ coTask.waiting → node ∈ next.waiting :=
        fun member => order.mem_iff.mpr (List.mem_cons_of_mem _ member)
      constructor
      · rw [(order.map TimerNode.ptr).nodup_iff, List.map_cons, List.nodup_cons]
        exact ⟨outside, accounted.addresses⟩
      · rw [mainCall]
        exact accounted.kept
      · intro timerId cancelled
        rw [sameList] at cancelled
        obtain ⟨node, member, same⟩ := accounted.pending timerId cancelled
        exact ⟨node, older member, same⟩
      · intro other timerId recorded
        rw [records, Container.UnorderedMap.lookup_insert] at recorded
        rw [sameList]
        split_ifs at recorded with here
        · cases recorded
          refine ⟨fun cancelled => ?_, _, order.mem_iff.mpr List.mem_cons_self, rfl, here.symm⟩
          obtain ⟨node, member, same⟩ := accounted.pending _ cancelled
          exact outside (List.mem_map.mpr ⟨node, member, congrArg Prod.fst same⟩)
        · obtain ⟨live, node, member, same, named⟩ := accounted.recorded other timerId recorded
          exact ⟨live, node, older member, same, named⟩

/-- A batch that is copied, or a main call without one, lets the same nodes wait. -/
theorem Accounted.of_perm (accounted : coTask.Accounted)
    (order : next.waiting.Perm coTask.waiting)
    (kept : next.mainCall.rest ⊆ next.mainCall.timeOutSet)
    (cancels : next.timer.cancelList = coTask.timer.cancelList)
    (records : next.coIdTimerId = coTask.coIdTimerId) : next.Accounted := by
  constructor
  · exact (order.map _).nodup_iff.mpr accounted.addresses
  · exact kept
  · intro timerId cancelled
    rw [cancels] at cancelled
    obtain ⟨node, member, same⟩ := accounted.pending timerId cancelled
    exact ⟨node, order.mem_iff.mpr member, same⟩
  · intro coId timerId recorded
    rw [records] at recorded
    obtain ⟨live, node, member, same, named⟩ := accounted.recorded coId timerId recorded
    rw [cancels]
    exact ⟨live, node, order.mem_iff.mpr member, same, named⟩

/-- A main call without a batch follows another one. -/
theorem Accounted.setMainCall (accounted : coTask.Accounted) (before : coTask.mainCall.rest = [])
    {mainCall : MainCall} (after : mainCall.rest = []) :
    ({ coTask with mainCall } : CoTask Body Msg).Accounted := by
  refine accounted.of_perm ?_ ?_ rfl rfl
  · rw [waiting, waiting, before, after]
  · dsimp only
    rw [after]
    exact List.nil_subset _

/-- A node that is skipped takes its cancel entry along. -/
theorem Accounted.skip (accounted : coTask.Accounted) {now : Time}
    {timeOutSet rest : List (TimerNode ResumeTask)} {node : TimerNode ResumeTask}
    (running : coTask.mainCall = .doTimeOutTask now timeOutSet (node :: rest))
    {timer : Timer ResumeTask} (taken : coTask.timer.takeCancel node = some timer) :
    ({ coTask with timer, mainCall := .doTimeOutTask now timeOutSet rest } :
      CoTask Body Msg).Accounted := by
  obtain ⟨cancelled, sameNodes, erased⟩ := coTask.timer.takeCancel_some taken
  have order : coTask.waiting.Perm (node :: (timer.nodes ++ rest)) := by
    rw [waiting, running, MainCall.rest, sameNodes]
    exact List.perm_middle
  have kept := accounted.kept
  rw [running] at kept
  -- the nodes that stay have other addresses than the skipped one
  have stays : ∀ {other}, other ∈ coTask.waiting → other.id ≠ node.id →
      other ∈ timer.nodes ++ rest := by
    intro other member different
    rcases List.mem_cons.mp (order.mem_iff.mp member) with rfl | later
    · exact absurd rfl different
    · exact later
  constructor
  · exact ((order.map _).nodup_iff.mp accounted.addresses).of_cons
  · exact fun other member => kept (List.mem_cons_of_mem _ member)
  · intro timerId entry
    dsimp only at entry
    rw [erased, Finset.mem_erase] at entry
    obtain ⟨other, member, rfl⟩ := accounted.pending timerId entry.2
    exact ⟨other, stays member entry.1, rfl⟩
  · intro coId timerId recorded
    obtain ⟨live, other, member, rfl, named⟩ := accounted.recorded coId timerId recorded
    dsimp only
    rw [erased, Finset.mem_erase, not_and]
    refine ⟨fun _ => live, other, stays member ?_, rfl, named⟩
    intro same
    exact live (same ▸ cancelled)

theorem Accounted.proceed (accounted : coTask.Accounted)
    (untimed : ∀ now timeOutSet node rest,
      coTask.mainCall = .doTimeOutTask now timeOutSet (node :: rest) →
        node.id ∈ coTask.timer.cancelList)
    (stepped : coTask.proceed segment = some outcome) : outcome.coTask.Accounted := by
  unfold CoTask.proceed at stepped
  split at stepped
  · cases stepped
  · rename_i running
    cases stepped
    exact accounted.setMainCall (by rw [running]; rfl) rfl
  · rename_i now timeOutSet node rest running
    split at stepped
    · rename_i timer taken
      cases stepped
      exact accounted.skip running taken
    · rename_i passed
      exact absurd (untimed now timeOutSet node rest running) (Timer.takeCancel_none _ passed)
  · rename_i running
    cases stepped
    exact accounted.setMainCall (by rw [running]; rfl) rfl
  · rename_i coIdList coId rest running
    have turned : ({ coTask with mainCall := .resumeAll coIdList rest } :
        CoTask Body Msg).Accounted :=
      accounted.setMainCall (by rw [running]; rfl) rfl
    exact turned.rearmed (resumed_rearmed stepped)

end CoTask

theorem accounted_step {Body Msg : Type} {run next : CoRun Body Msg}
    (accounted : run.coTask.Accounted) {act : CoAct Body Msg} (untimed : Untimed run act)
    (stepped : run.step act = some next) : next.coTask.Accounted := by
  obtain ⟨outcome, performed, rfl⟩ := CoRun.step_cases stepped
  cases performed with
  | proceed proceeded => exact accounted.proceed untimed proceeded
  | addTack idle => exact accounted.of_same rfl rfl rfl
  | doTack idle resumed =>
      rename_i task segment
      have added : (run.coTask.addTack task).1.Accounted := accounted.of_same rfl rfl rfl
      exact (added.cancelTimer _).rearmed (resumed_rearmed resumed)
  | resumeOne idle resumed => exact (accounted.cancelTimer _).rearmed (resumed_rearmed resumed)
  | resumeOneWithMsg idle resumed =>
      exact (accounted.cancelTimer _).rearmed (resumed_rearmed resumed)
  | resumeAll idle =>
      exact accounted.setMainCall (MainCall.rest_of_idle idle) rfl
  | doTimeOutTask idle =>
      rename_i now
      refine accounted.of_perm ?_ (fun _ member => member) rfl rfl
      have split := run.coTask.timer.takeBatch_append now
      simp only [CoTask.doTimeOutTask, waiting, MainCall.eq_idle idle, MainCall.rest,
        List.append_nil]
      rw [← split]
      exact List.perm_append_comm

/-- The cancel list does not leak while no timer fires. -/
theorem cancelList_pending {Body Msg : Type} :
    (coMachine Body Msg).Always Untimed fun run =>
      run.coTask.mainCall.isIdle = true → run.coTask.NoLeak := by
  have kept : ∀ run act next, run.coTask.Accounted → Untimed run act →
      (coMachine Body Msg).step run act = some next → next.coTask.Accounted :=
    fun run act next accounted untimed stepped => accounted_step accounted untimed stepped
  have initial : (coMachine Body Msg).start.coTask.Accounted := Accounted.empty
  exact Machine.always_of_invariant _ initial kept fun run accounted => accounted.noLeak

/-- A message cancels the first timer, a batch drops it, and the second one is cancelled too. -/
def untimedRun : List (CoAct Unit Unit) :=
  [.doTack () (.yield 0 1000 1), .resumeOneWithMsg 1 () (.yield 500 5000 2), .doTimeOutTask 1000,
    .proceed .finish, .proceed .finish, .resumeOneWithMsg 1 () .finish]

theorem cancelList_pending_one : ∃ last, (coMachine Unit Unit).run (coMachine Unit Unit).start
    untimedRun = some last ∧ last.coTask.timer.cancelList.card = 1 ∧ last.coTask.NoLeak := by
  have reached : ((coMachine Unit Unit).run (coMachine Unit Unit).start untimedRun).any
      (fun last => last.coTask.mainCall.isIdle &&
        decide (last.coTask.timer.cancelList.card = 1)) = true := by decide +kernel
  have met : (coMachine Unit Unit).Meets Untimed (coMachine Unit Unit).start untimedRun := by
    decide +kernel
  obtain ⟨last, reached, checked⟩ := Machine.exists_of_check _ reached
  obtain ⟨idle, one⟩ := (Bool.and_eq_true _ _).mp checked
  exact ⟨last, reached, of_decide_eq_true one, cancelList_pending untimedRun last reached met idle⟩

/-- The timer of a `Yield` fires, and its resume cancels it once more. -/
def timedOutRun : List (CoAct Unit Unit) :=
  [.doTack () (.yield 0 1000 1), .doTimeOutTask 1000, .proceed .finish, .proceed .finish]

/-- The cancel list keeps an entry, although no timer is left. -/
theorem timedOutRun_leaks :
    ¬(coMachine Unit Unit).Always Machine.anyStep fun run =>
      run.coTask.mainCall.isIdle = true → run.coTask.NoLeak := by
  intro always
  have reached : ((coMachine Unit Unit).run (coMachine Unit Unit).start timedOutRun).any
      (fun run => run.coTask.mainCall.isIdle &&
        decide (run.coTask.timer.nodes.length < run.coTask.timer.cancelList.card)) = true := by
    decide +kernel
  obtain ⟨last, reached, leaks⟩ := Machine.exists_of_check _ reached
  obtain ⟨idle, longer⟩ := (Bool.and_eq_true _ _).mp leaks
  have short := (always timedOutRun last reached (Machine.meets_anyStep _ _ _) idle).2
  exact absurd short (not_le.mpr (of_decide_eq_true longer))

end QServer
