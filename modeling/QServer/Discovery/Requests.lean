import QServer.Discovery.WatchChain

/-
This file links the requests to ZooKeeper with the coroutines that wait for their completions.
-/

namespace QServer
open CoTask

/-- The waiting coroutines have requests, and the task of a request waits in the call for it. -/
structure Linked (waits : CoId → Option YieldCall) (calls : List ZooCall)
    (pending : List ZooRequest) : Prop where
  owner : ∀ coId, waits coId ≠ none → coId ∈ pending.map ZooRequest.coId
  waiting : ∀ request ∈ pending,
    ∃ call, waits request.coId = some call ∧ calls[call.number]? = some request.call
  once : (pending.map ZooRequest.coId).Nodup

section Linked

variable {waits : CoId → Option YieldCall} {calls : List ZooCall} {pending : List ZooRequest}

theorem Linked.empty : Linked (fun _ => none) [] [] := by
  refine ⟨fun coId waiting => absurd rfl waiting, fun request member => ?_, List.nodup_nil⟩
  cases member

/-- A coroutine that does not wait makes a request. -/
theorem Linked.submit (linked : Linked waits calls pending) {coId : CoId}
    (free : waits coId = none) {call : YieldCall} (numbered : call.number = calls.length)
    (zooCall : ZooCall) :
    Linked (Function.update waits coId (some call)) (calls ++ [zooCall])
      (pending ++ [⟨coId, zooCall⟩]) := by
  have different : ∀ request ∈ pending, request.coId ≠ coId := by
    rintro request member rfl
    obtain ⟨call, waiting, _⟩ := linked.waiting request member
    rw [free] at waiting
    cases waiting
  refine ⟨fun other waiting => ?_, fun request member => ?_, ?_⟩
  · rw [List.map_append, List.mem_append]
    by_cases here : other = coId
    · exact Or.inr (by simp [here])
    · rw [Function.update_of_ne here] at waiting
      exact Or.inl (linked.owner other waiting)
  · rcases List.mem_append.mp member with old | new
    · obtain ⟨earlier, waiting, known⟩ := linked.waiting request old
      refine ⟨earlier, ?_, getElem?_append_some known _⟩
      rw [Function.update_of_ne (different request old), waiting]
    · rw [List.mem_singleton.mp new]
      refine ⟨call, Function.update_self _ _ _, ?_⟩
      rw [numbered, List.getElem?_concat_length]
  · rw [List.map_append]
    refine List.nodup_append.mpr ⟨linked.once, List.nodup_singleton _, ?_⟩
    intro other member last single
    obtain ⟨request, inside, rfl⟩ := List.mem_map.mp member
    rw [List.mem_singleton.mp single]
    exact different request inside

/-- The coroutine of the first request does not wait any longer. -/
theorem Linked.drop {request : ZooRequest} (linked : Linked waits calls (request :: pending)) :
    Linked (Function.update waits request.coId none) calls pending := by
  have once := linked.once
  rw [List.map_cons, List.nodup_cons] at once
  refine ⟨fun other waiting => ?_, fun other member => ?_, once.2⟩
  · by_cases here : other = request.coId
    · rw [here, Function.update_self] at waiting
      exact absurd rfl waiting
    · rw [Function.update_of_ne here] at waiting
      have named := linked.owner other waiting
      rw [List.map_cons, List.mem_cons] at named
      exact named.resolve_left here
  · obtain ⟨call, waiting, known⟩ := linked.waiting other (List.mem_cons_of_mem _ member)
    refine ⟨call, ?_, known⟩
    rw [Function.update_of_ne, waiting]
    exact fun same => once.1 (same ▸ List.mem_map_of_mem member)

end Linked

namespace AppRun

variable {run next : AppRun} {garbage : List Wire.Bytes} {now : Time} {ptr : Addr}

/-- The coroutines of the process wait for the completions of their requests. -/
structure Served (run : AppRun) : Prop where
  orderly : run.coTask.Orderly
  counted : run.calls.length = run.coTask.yields
  linked : Linked run.coTask.waits run.calls run.zoo.pending

theorem Served.start : AppRun.start.Served :=
  ⟨Orderly.empty, rfl, Linked.empty⟩

/-- ZooKeeper alone changes no request of a coroutine. -/
theorem Served.setZoo (served : run.Served) {zoo : ZooKeeper}
    (pending : zoo.pending = run.zoo.pending) : ({ run with zoo } : AppRun).Served := by
  refine ⟨served.orderly, served.counted, ?_⟩
  rw [pending]
  exact served.linked

/-- A turn that wakes nobody changes no call. -/
theorem Served.setCoTask (served : run.Served) {coTask : CoTask AppTask ZooMsg}
    (orderly : coTask.Orderly) (waits : coTask.waits = run.coTask.waits)
    (yields : coTask.yields = run.coTask.yields) : ({ run with coTask } : AppRun).Served := by
  refine ⟨orderly, served.counted.trans yields.symm, ?_⟩
  rw [waits]
  exact served.linked

theorem Served.setReported (served : run.Served) (reported : Bool) :
    ({ run with reported } : AppRun).Served :=
  ⟨served.orderly, served.counted, served.linked⟩

theorem Served.doTimeOutTask (served : run.Served) (idle : run.coTask.mainCall.isIdle = true)
    (now : Time) : ({ run with coTask := run.coTask.doTimeOutTask now } : AppRun).Served :=
  served.setCoTask (served.orderly.doTimeOutTask (MainCall.eq_idle idle) now) rfl rfl

/-- A turn of `DoTimeOutTask` without an event wakes nobody. -/
theorem Served.proceed (served : run.Served) {outcome : Outcome AppTask ZooMsg}
    (proceeded : run.coTask.proceed .finish = some outcome) (silent : outcome.events = []) :
    ({ run with coTask := outcome.coTask } : AppRun).Served := by
  obtain ⟨_, ⟨_, waits, yields⟩ | ⟨_, _, _, _, _, _, _, woken, _⟩⟩ :=
    served.orderly.resting.proceed proceeded
  · exact served.setCoTask (served.orderly.proceed proceeded) waits yields
  · rw [silent] at woken
    cases woken

/-- A process with few requests makes few coroutine objects. -/
theorem Served.bound (served : run.Served) (few : run.zoo.pending.length ≤ 4) :
    run.coTask.coPool.freeList = [] → run.coTask.coPool.created + 1 < 2 ^ 32 := by
  intro empty
  have created := served.orderly.created_le empty served.linked.owner
  rw [List.length_map] at created
  omega

/-- The next coroutine does not wait. -/
theorem Served.free (served : run.Served) (few : run.zoo.pending.length ≤ 4) :
    run.coTask.waits run.coTask.coPool.nextCoId = none :=
  served.orderly.resting.waits_eq_none.mpr
    (served.orderly.counted.nextCoId_inactive (served.bound few))

/-- A new task makes its first request. -/
theorem Served.doTack (served : run.Served) (few : run.zoo.pending.length ≤ 4) {task : AppTask}
    (stepped : AppRun.doTack garbage run task now ptr = some next) :
    next.Served ∧ next.svrList = run.svrList ∧ next.reported = run.reported ∧
      ∃ coId, next.zoo = run.zoo.submit ⟨coId, task.first⟩ := by
  obtain ⟨_, stepped⟩ := Option.ite_none_right_eq_some.mp stepped
  obtain ⟨outcome, resumed, rfl⟩ := Option.map_eq_some_iff.mp stepped
  have free := served.free few
  obtain ⟨_, last, events, left⟩ := served.orderly.resting.doTack task resumed
  cases left with
  | yielded waits yields =>
      have same : run.record garbage (some task.first) outcome =
          { run with
            coTask := outcome.coTask
            calls := run.calls ++ [task.first]
            zoo := run.zoo.submit ⟨run.coTask.coPool.nextCoId, task.first⟩ } := by
        rw [record, events]
        rfl
      rw [same]
      refine ⟨⟨served.orderly.doTack task (served.bound few) resumed, ?_, ?_⟩, rfl, rfl, _, rfl⟩
      · simp [served.counted, yields]
      · have numbered : (run.coTask.nextCall now 5000).number = run.calls.length :=
          served.counted.symm
        have linked := served.linked.submit free numbered task.first
        rw [← waits] at linked
        simpa [ZooKeeper.pending, ZooKeeper.submit] using linked

section Complete

variable {completion : ZooCompletion} {completions : List ZooCompletion}

/-- A completion comes to the call that waits for it. -/
theorem Served.nextCall (served : run.Served)
    (got : run.zoo.completions = completion :: completions) :
    ∃ call, run.coTask.waits completion.request.coId = some call ∧
      run.calls[call.number]? = some completion.request.call ∧
      run.nextCall completion.request.coId = completion.request.call.next := by
  obtain ⟨call, waiting, known⟩ := served.linked.waiting completion.request
    (by rw [ZooKeeper.pending_of_completions got]; exact List.mem_cons_self)
  refine ⟨call, waiting, known, ?_⟩
  rw [AppRun.nextCall, waiting, Option.bind_some, known, Option.bind_some]

/-- The task stores the answer before it makes its next request or ends. -/
theorem record_returned {outcome : Outcome AppTask ZooMsg} {call : YieldCall}
    {wake : Wake ZooMsg} {coId : CoId} {last : CoEvent AppTask ZooMsg} (after : Option ZooCall)
    (known : run.calls[call.number]? = some completion.request.call)
    (events : outcome.events = [.returned coId call 0 wake (some completion.msg), last]) :
    run.record garbage after outcome =
      ({ run with
        coTask := outcome.coTask
        svrList := completion.store garbage run.svrList } : AppRun).observe garbage after last := by
  have stored : ({ run with coTask := outcome.coTask } : AppRun).observe garbage after
      (.returned coId call 0 wake (some completion.msg)) =
      { run with
        coTask := outcome.coTask
        svrList := completion.store garbage run.svrList } := by
    rw [observe, known, ZooCompletion.store]
    by_cases lists : completion.request.call = .getChildren
    · rw [if_pos (congrArg some lists), if_pos lists]
    · rw [if_neg (fun same => lists (Option.some.inj same)), if_neg lists]
  rw [record, events, List.foldl_cons, stored]
  rfl

theorem Served.dropped (served : run.Served)
    (got : run.zoo.completions = completion :: completions) :
    Linked (Function.update run.coTask.waits completion.request.coId none) run.calls
      ({ run.zoo with completions } : ZooKeeper).pending := by
  have linked := served.linked
  rw [ZooKeeper.pending_of_completions got] at linked
  exact linked.drop

/-- The call that waits for the completion returns, and its task stores the answer. -/
theorem Served.returned (served : run.Served)
    (got : run.zoo.completions = completion :: completions) (garbage : List Wire.Bytes)
    (after : Option ZooCall) {segment : Segment} {outcome : Outcome AppTask ZooMsg}
    (resumed : run.coTask.resumeOneWithMsg completion.request.coId completion.msg segment =
      some outcome) :
    ∃ last, ({ run with zoo := { run.zoo with completions } } : AppRun).record garbage after
        outcome =
        ({ run with
          coTask := outcome.coTask
          svrList := completion.store garbage run.svrList
          zoo := { run.zoo with completions } } : AppRun).observe garbage after last ∧
      Left run.coTask completion.request.coId segment outcome.coTask last := by
  obtain ⟨call, waiting, known, _⟩ := served.nextCall got
  obtain ⟨_, ⟨silent, _⟩ | ⟨other, last, same, events, left⟩⟩ :=
    served.orderly.resting.resumeOneWithMsg resumed
  · rw [waiting] at silent
    cases silent
  · rw [waiting, Option.some.injEq] at same
    subst same
    let taken : AppRun := { run with zoo := { run.zoo with completions } }
    exact ⟨last, @record_returned taken garbage completion outcome call _ _ last after known events,
      left⟩

/-- The task that gets the completion goes on to its next request or ends. -/
theorem Served.complete (served : run.Served)
    (got : run.zoo.completions = completion :: completions)
    (stepped : run.complete garbage now ptr = some next) :
    next.Served ∧ next.svrList = completion.store garbage run.svrList ∧
      next.reported = run.reported ∧
      next.zoo = ({ run.zoo with completions } : ZooKeeper).follow completion.request.coId
        completion.request.call.next := by
  obtain ⟨_, _, _, following⟩ := served.nextCall got
  rw [AppRun.complete, got] at stepped
  dsimp only at stepped
  rw [following] at stepped
  obtain ⟨_, stepped⟩ := Option.ite_none_right_eq_some.mp stepped
  obtain ⟨outcome, resumed, rfl⟩ := Option.map_eq_some_iff.mp stepped
  have orderly := served.orderly.resumeOneWithMsg resumed
  have dropped := served.dropped got
  obtain ⟨last, recorded, left⟩ :=
    served.returned got garbage completion.request.call.next resumed
  rw [recorded]
  cases follows : completion.request.call.next with
  | none =>
      rw [follows] at left
      cases left with
      | finished waits yields =>
          rw [← waits] at dropped
          exact ⟨⟨orderly, served.counted.trans yields.symm, dropped⟩, rfl, rfl, rfl⟩
  | some zooCall =>
      rw [follows] at left
      cases left with
      | yielded waits yields =>
          have numbered : (run.coTask.nextCall now 5000).number = run.calls.length :=
            served.counted.symm
          have submitted := dropped.submit (Function.update_self _ _ _) numbered zooCall
          rw [Function.update_idem, ← waits] at submitted
          refine ⟨⟨orderly, ?_, ?_⟩, rfl, rfl, rfl⟩
          · simp [observe, served.counted, yields]
          · simpa [observe, ZooKeeper.pending, ZooKeeper.submit] using submitted

end Complete

end AppRun

end QServer
