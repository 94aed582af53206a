import QServer.Timer.Safety

/-
This file proves when a timer is lost. The times are assumed not to overflow.
-/

namespace QServer
open Transition

/-- The calls of clients that cancel only results of `AddTimer`, named by the number of the call. -/
inductive ClientAct
  | addTimer (ptr : Addr) (now interval : Time) (repeats : Bool)
  | cancelTimer (call : Nat)
  | doTimeOutTask (now : Time)
  | visit
  | taskReturns

def ClientAct.resolve (run : TimerRun) : ClientAct → Option TimerAct
  | .addTimer ptr now interval repeats => some (.addTimer ptr now interval repeats)
  | .cancelTimer call => run.issued[call]?.map .cancelTimer
  | .doTimeOutTask now => some (.doTimeOutTask now)
  | .visit => some .visit
  | .taskReturns => some .taskReturns

/-- The times that the call reads. -/
def ClientAct.times : ClientAct → List Time
  | .addTimer _ now _ _ => [now]
  | .doTimeOutTask now => [now]
  | _ => []

def clientMachine : Machine TimerRun ClientAct :=
  ⟨TimerRun.start, fun run act => (act.resolve run).bind run.step⟩

/-- A timer that is not cancelled runs in the first `DoTimeOutTask` that finds it due. -/
def RunsWhenDue (guard : TimerRun → ClientAct → Prop) : Prop :=
  ∀ (before between inside : List ClientAct) (ptr : Addr) (now interval : Time) (repeats : Bool)
    (time : Time) (first last : TimerRun),
    let acts := before ++ .addTimer ptr now interval repeats ::
      (between ++ .doTimeOutTask time :: inside)
    (acts.flatMap ClientAct.times).Pairwise (· ≤ ·) →
    clientMachine.run clientMachine.start before = some first →
    clientMachine.run clientMachine.start acts = some last →
    clientMachine.Meets guard clientMachine.start acts →
    .cancelTimer first.issued.length ∉ between ++ inside →
    (∀ early, .doTimeOutTask early ∈ between → early < now + interval) →
    now + interval ≤ time →
    (∀ later, .doTimeOutTask later ∉ inside) → last.batch = none →
    ∃ entry ∈ last.log, entry.task = first.issued.length ∧ entry.now = time ∧
      entry.call = last.calls

/-- A new timer does not take a cancelled identity, and an old cancel does not name a new timer. -/
def Unaliased (run : TimerRun) : ClientAct → Prop
  | .addTimer ptr now _ _ => (ptr, toUint32 (now.tdiv 1000)) ∉ run.timer.cancelList
  | .cancelTimer call =>
      ∀ node ∈ run.waiting, run.issued[call]? = some node.id → node.info.task = call
  | _ => True

instance (run : TimerRun) (act : ClientAct) : Decidable (Unaliased run act) := by
  cases act <;> unfold Unaliased <;> infer_instance

namespace TimerRun

variable {run next : TimerRun}

/-- The node waits in the timer set for a batch that is not yet copied. -/
def Waits (node : TimerNode Nat) (run : TimerRun) : Prop :=
  node ∈ run.timer.nodes ∧ node.id ∉ run.timer.cancelList

/-- The node waits in the running batch, or its task ran in it. -/
def Handled (node : TimerNode Nat) (time : Time) (call : Nat) (run : TimerRun) : Prop :=
  run.calls = call ∧
    ((∃ batch, run.batch = some batch ∧ batch.now = time ∧ node ∈ batch.rest) ∧
        node.id ∉ run.timer.cancelList ∨
      ∃ entry ∈ run.log, entry.task = node.info.task ∧ entry.now = time ∧ entry.call = call)

theorem cancelTimer_avoids {node : TimerNode Nat} {timerId : TimerId}
    (absent : node.id ∉ run.timer.cancelList) (different : timerId ≠ node.id) :
    node.id ∉ (run.timer.cancelTimer timerId).cancelList := by
  rw [Timer.cancelTimer_cancelList, Finset.mem_insert]
  rintro (same | present)
  · exact different same.symm
  · exact absent present

theorem visit_avoids {timerId : TimerId} (absent : timerId ∉ run.timer.cancelList)
    (stepped : run.visit = some next) :
    next.timer.nodes = run.timer.nodes ∧ timerId ∉ next.timer.cancelList := by
  rcases visit_cases stepped with ⟨_, _, _, rfl⟩ | ⟨_, _, _, _, timer, _, taken, rfl⟩ |
    ⟨_, _, _, _, _, _, rfl⟩
  · exact ⟨rfl, absent⟩
  · obtain ⟨_, sameNodes, erased⟩ := run.timer.takeCancel_some taken
    refine ⟨sameNodes, fun present => absent ?_⟩
    rw [erased] at present
    exact Finset.mem_of_mem_erase present
  · exact ⟨rfl, absent⟩

theorem taskReturns_keeps {node : TimerNode Nat} (rostered : Rostered run)
    (member : node ∈ run.timer.nodes) (stepped : run.taskReturns = some next) :
    node ∈ next.timer.nodes := by
  obtain ⟨now, timeOutSet, rest, active, running, rfl⟩ := taskReturns_cases stepped
  cases again : active.info.repeats with
  | false => rwa [Timer.requeue_once run.timer again now]
  | true =>
      have runs : run.current = some active := by simp [current, running]
      have placed := run.timer.requeue_nodes again (current_fresh rostered.addresses runs) now
      exact placed.mem_iff.mpr (List.mem_cons_of_mem _ member)

/-- An unaliased cancel of another timer leaves the identity of the node out of the cancel list. -/
theorem unaliased_cancel {node : TimerNode Nat} {call : Nat}
    (member : node ∈ run.waiting) (different : node.info.task ≠ call)
    (unaliased : Unaliased run (.cancelTimer call)) {timerId : TimerId}
    (named : run.issued[call]? = some timerId) : timerId ≠ node.id := by
  rintro rfl
  exact different (unaliased node member named)

theorem Waits.step {node : TimerNode Nat} (rostered : Rostered run) (waits : Waits node run)
    {act : ClientAct} (unaliased : Unaliased run act)
    (kept : act ≠ .cancelTimer node.info.task)
    (early : ∀ time, act = .doTimeOutTask time → time < node.deadline)
    (stepped : clientMachine.step run act = some next) : Waits node next := by
  obtain ⟨member, absent⟩ := waits
  cases act with
  | addTimer ptr now interval repeats =>
      have placed := addTimer_nodes stepped
      obtain ⟨_, rfl⟩ := addTimer_cases stepped
      exact ⟨placed.mem_iff.mpr (List.mem_cons_of_mem _ member), absent⟩
  | cancelTimer call =>
      obtain ⟨act, resolved, continued⟩ := Option.bind_eq_some_iff.mp stepped
      obtain ⟨timerId, named, rfl⟩ := Option.map_eq_some_iff.mp resolved
      have other : node.info.task ≠ call := fun same => kept (congrArg _ same.symm)
      have different :=
        unaliased_cancel (List.mem_append_left _ member) other unaliased named
      rw [cancelTimer_cases continued]
      exact ⟨member, cancelTimer_avoids absent different⟩
  | doTimeOutTask now =>
      obtain ⟨_, rfl⟩ := doTimeOutTask_cases stepped
      refine ⟨?_, absent⟩
      have whole := run.timer.takeBatch_append now
      rw [← whole, List.mem_append] at member
      rcases member with due | later
      · have late := run.timer.takeBatch_due due
        exact absurd late (not_le.mpr (early now rfl))
      · exact later
  | visit =>
      obtain ⟨sameNodes, stillAbsent⟩ := visit_avoids absent stepped
      exact ⟨sameNodes ▸ member, stillAbsent⟩
  | taskReturns =>
      refine ⟨taskReturns_keeps rostered member stepped, ?_⟩
      obtain ⟨_, _, _, _, _, rfl⟩ := taskReturns_cases stepped
      simpa using absent

theorem Handled.visit {node : TimerNode Nat} {time : Time} {call : Nat}
    (handled : Handled node time call run) (stepped : run.visit = some next) :
    Handled node time call next := by
  obtain ⟨sameCall, ⟨⟨batch, running, sameTime, member⟩, absent⟩ | ran⟩ := handled
  · rcases visit_cases stepped with ⟨now, timeOutSet, empty, rfl⟩ |
      ⟨now, timeOutSet, head, rest, timer, visited, taken, rfl⟩ |
      ⟨now, timeOutSet, head, rest, visited, passed, rfl⟩
    · rw [running] at empty
      cases empty
      cases member
    · rw [running] at visited
      cases visited
      obtain ⟨present, _, erased⟩ := run.timer.takeCancel_some taken
      refine ⟨sameCall, Or.inl ⟨⟨_, rfl, sameTime, ?_⟩, ?_⟩⟩
      · rcases List.mem_cons.mp member with rfl | later
        · exact absurd present absent
        · exact later
      · rw [erased]
        exact fun inside => absent (Finset.mem_of_mem_erase inside)
    · rw [running] at visited
      cases visited
      refine ⟨sameCall, ?_⟩
      rcases List.mem_cons.mp member with rfl | later
      · exact Or.inr ⟨_, List.mem_append_right _ (List.mem_singleton_self _), rfl, sameTime,
          sameCall⟩
      · exact Or.inl ⟨⟨_, rfl, sameTime, later⟩, absent⟩
  · obtain ⟨entry, logged, facts⟩ := ran
    rcases visit_cases stepped with ⟨_, _, _, rfl⟩ | ⟨_, _, _, _, _, _, _, rfl⟩ |
      ⟨_, _, _, _, _, _, rfl⟩
    · exact ⟨sameCall, Or.inr ⟨entry, logged, facts⟩⟩
    · exact ⟨sameCall, Or.inr ⟨entry, logged, facts⟩⟩
    · exact ⟨sameCall, Or.inr ⟨entry, List.mem_append_left _ logged, facts⟩⟩

theorem Handled.step {node : TimerNode Nat} {time : Time} {call : Nat}
    (handled : Handled node time call run) {act : ClientAct} (unaliased : Unaliased run act)
    (kept : act ≠ .cancelTimer node.info.task) (inside : ∀ later, act ≠ .doTimeOutTask later)
    (stepped : clientMachine.step run act = some next) : Handled node time call next := by
  cases act with
  | addTimer ptr now interval repeats =>
      obtain ⟨_, rfl⟩ := addTimer_cases stepped
      exact handled
  | cancelTimer target =>
      obtain ⟨act, resolved, continued⟩ := Option.bind_eq_some_iff.mp stepped
      obtain ⟨timerId, named, rfl⟩ := Option.map_eq_some_iff.mp resolved
      have other : node.info.task ≠ target := fun same => kept (congrArg _ same.symm)
      rw [cancelTimer_cases continued]
      obtain ⟨sameCall, ⟨⟨batch, running, sameTime, member⟩, absent⟩ | ran⟩ := handled
      · have waits : node ∈ run.waiting := by
          simp [waiting, rest, running, member]
        have different := unaliased_cancel waits other unaliased named
        exact ⟨sameCall, Or.inl ⟨⟨batch, running, sameTime, member⟩,
          cancelTimer_avoids absent different⟩⟩
      · exact ⟨sameCall, Or.inr ran⟩
  | doTimeOutTask now => exact absurd rfl (inside now)
  | visit => exact handled.visit stepped
  | taskReturns =>
      obtain ⟨now, timeOutSet, rest, active, visited, rfl⟩ := taskReturns_cases stepped
      obtain ⟨sameCall, ⟨⟨batch, running, sameTime, member⟩, absent⟩ | ran⟩ := handled
      · rw [running] at visited
        cases visited
        exact ⟨sameCall, Or.inl ⟨⟨_, rfl, sameTime, member⟩, by simpa using absent⟩⟩
      · exact ⟨sameCall, Or.inr ran⟩

theorem Rostered.client_step (rostered : Rostered run) {act : ClientAct}
    (stepped : clientMachine.step run act = some next) : Rostered next := by
  obtain ⟨resolved, _, continued⟩ := Option.bind_eq_some_iff.mp stepped
  exact rostered.step continued

/-- A guarded run before the deadline leaves the timer in the timer set. -/
theorem Waits.after {node : TimerNode Nat} (rostered : Rostered run) (waits : Waits node run)
    {acts : List ClientAct} (met : clientMachine.Meets Unaliased run acts)
    (kept : .cancelTimer node.info.task ∉ acts)
    (early : ∀ time, .doTimeOutTask time ∈ acts → time < node.deadline)
    (reached : clientMachine.run run acts = some next) : Rostered next ∧ Waits node next := by
  induction acts generalizing run with
  | nil =>
      cases reached
      exact ⟨rostered, waits⟩
  | cons act rest ih =>
      obtain ⟨middle, stepped, continued⟩ := clientMachine.run_cons.mp reached
      have moved := waits.step rostered met.1 (fun same => kept (by simp [same]))
        (fun time same => early time (by simp [same])) stepped
      exact ih (rostered.client_step stepped) moved (met.2 middle stepped)
        (fun member => kept (List.mem_cons_of_mem _ member))
        (fun time member => early time (List.mem_cons_of_mem _ member)) continued

/-- A guarded run inside of the call handles the timer. -/
theorem Handled.after {node : TimerNode Nat} {time : Time} {call : Nat}
    (handled : Handled node time call run) {acts : List ClientAct}
    (met : clientMachine.Meets Unaliased run acts) (kept : .cancelTimer node.info.task ∉ acts)
    (inside : ∀ later, .doTimeOutTask later ∉ acts)
    (reached : clientMachine.run run acts = some next) : Handled node time call next := by
  induction acts generalizing run with
  | nil =>
      cases reached
      exact handled
  | cons act rest ih =>
      obtain ⟨middle, stepped, continued⟩ := clientMachine.run_cons.mp reached
      have moved := handled.step met.1 (fun same => kept (by simp [same]))
        (fun later same => inside later (by simp [same])) stepped
      exact ih moved (met.2 middle stepped) (fun member => kept (List.mem_cons_of_mem _ member))
        (fun later member => inside later (List.mem_cons_of_mem _ member)) continued

/-- The client calls keep every invariant of the timer. -/
theorem sound_of_client_run {acts : List ClientAct} (sound : Sound run)
    (reached : clientMachine.run run acts = some next) : Sound next := by
  refine clientMachine.run_invariant (fun state act later held stepped => ?_) sound reached
  obtain ⟨resolved, _, continued⟩ := Option.bind_eq_some_iff.mp stepped
  exact held.step continued

end TimerRun

open TimerRun

/-- No timer is lost while identities are not aliased. -/
theorem timer_runs_when_due (before between inside : List ClientAct) (ptr : Addr)
    (now interval : Time) (repeats : Bool) (time : Time) (first last : TimerRun)
    (begun : clientMachine.run clientMachine.start before = some first)
    (reached : clientMachine.run clientMachine.start
      (before ++ .addTimer ptr now interval repeats ::
        (between ++ .doTimeOutTask time :: inside)) = some last)
    (met : clientMachine.Meets Unaliased clientMachine.start
      (before ++ .addTimer ptr now interval repeats ::
        (between ++ .doTimeOutTask time :: inside)))
    (kept : .cancelTimer first.issued.length ∉ between ++ inside)
    (early : ∀ early, .doTimeOutTask early ∈ between → early < now + interval)
    (due : now + interval ≤ time) (within : ∀ later, .doTimeOutTask later ∉ inside)
    (returned : last.batch = none) :
    ∃ entry ∈ last.log, entry.task = first.issued.length ∧ entry.now = time ∧
      entry.call = last.calls := by
  -- The run splits at the `AddTimer` call and at the start of the batch.
  have rostered := (sound_of_client_run sound_start begun).rostered
  obtain ⟨_, again, rest⟩ := clientMachine.run_append.mp reached
  rw [begun] at again
  cases again
  have metRest := (clientMachine.meets_append begun met).2
  obtain ⟨added, adding, rest⟩ := clientMachine.run_cons.mp rest
  have metAdded := metRest.2 added adding
  obtain ⟨ready, waiting, rest⟩ := clientMachine.run_append.mp rest
  have metReady := clientMachine.meets_append waiting metAdded
  obtain ⟨started, starting, rest⟩ := clientMachine.run_cons.mp rest
  have metStarted := metReady.2.2 started starting
  rw [List.mem_append, not_or] at kept
  -- The new node waits until the batch takes it.
  let node := Timer.newNode ptr now interval first.issued.length repeats
  have waits : Waits node added := by
    have placed := addTimer_nodes adding
    have absent : node.id ∉ first.timer.cancelList := metRest.1
    obtain ⟨_, rfl⟩ := addTimer_cases adding
    exact ⟨placed.mem_iff.mpr List.mem_cons_self, absent⟩
  obtain ⟨_, member, absent⟩ :=
    waits.after (rostered.client_step adding) metReady.1 kept.1 early waiting
  have handled : Handled node time started.calls started := by
    obtain ⟨_, rfl⟩ := doTimeOutTask_cases starting
    exact ⟨rfl, Or.inl ⟨⟨_, rfl, rfl, ready.timer.mem_takeBatch member due⟩, absent⟩⟩
  obtain ⟨sameCall, ⟨⟨batch, running, _⟩, _⟩ | ⟨entry, logged, facts⟩⟩ :=
    handled.after metStarted kept.2 within rest
  · rw [returned] at running
    cases running
  · exact ⟨entry, logged, facts.1, facts.2.1, facts.2.2.trans sameCall.symm⟩

/-- The timer that follows a late cancel runs when the allocator gives it another address. -/
theorem timer_runs_when_due_fresh_address : ∃ last,
    clientMachine.run clientMachine.start
      [.addTimer 1 0 1 false, .doTimeOutTask 1, .visit, .cancelTimer 0, .taskReturns, .visit,
        .addTimer 2 2 1 false, .doTimeOutTask 3, .visit, .taskReturns, .visit] = some last ∧
    ∃ entry ∈ last.log, entry.task = 1 ∧ entry.now = 3 := by
  have begun : ((clientMachine.run clientMachine.start
      [.addTimer 1 0 1 false, .doTimeOutTask 1, .visit, .cancelTimer 0, .taskReturns, .visit]).any
      fun first => first.issued.length = 1) = true := by decide +kernel
  have reached : ((clientMachine.run clientMachine.start
      [.addTimer 1 0 1 false, .doTimeOutTask 1, .visit, .cancelTimer 0, .taskReturns, .visit,
        .addTimer 2 2 1 false, .doTimeOutTask 3, .visit, .taskReturns, .visit]).any
      fun last => last.batch.isNone) = true := by decide +kernel
  obtain ⟨first, begun, issued⟩ := clientMachine.exists_of_check begun
  obtain ⟨last, reached, returned⟩ := clientMachine.exists_of_check reached
  have issued := of_decide_eq_true issued
  obtain ⟨entry, logged, same, time, _⟩ := timer_runs_when_due
    [.addTimer 1 0 1 false, .doTimeOutTask 1, .visit, .cancelTimer 0, .taskReturns, .visit] []
    [.visit, .taskReturns, .visit] 2 2 1 false 3 first last begun reached
    (by decide +kernel) (by rw [issued]; simp) (by simp) (by decide) (by simp)
    (Option.isNone_iff_eq_none.mp returned)
  exact ⟨last, reached, entry, logged, same.trans issued, time⟩

/-- Timer 0 cancels itself late, and its freed address goes to timer 1. -/
def aliasedRun : List ClientAct :=
  [.addTimer 1 0 1 false, .doTimeOutTask 1, .visit, .cancelTimer 0, .taskReturns, .visit,
    .addTimer 1 2 1 false, .doTimeOutTask 3, .visit, .visit]

/-- The batch skips timer 1, although nobody cancelled it. -/
theorem aliasedRun_loses : ¬RunsWhenDue Machine.anyStep := by
  intro always
  have begun : ((clientMachine.run clientMachine.start (aliasedRun.take 6)).any
      fun first => first.issued.length = 1) = true := by decide +kernel
  have reached : ((clientMachine.run clientMachine.start aliasedRun).any
      fun last => last.batch.isNone && last.log.all fun entry => entry.task ≠ 1) = true := by
    decide +kernel
  obtain ⟨first, begun, issued⟩ := clientMachine.exists_of_check begun
  obtain ⟨last, reached, checked⟩ := clientMachine.exists_of_check reached
  have issued := of_decide_eq_true issued
  obtain ⟨returned, skipped⟩ := Bool.and_eq_true_iff.mp checked
  obtain ⟨entry, logged, same, _⟩ := always (aliasedRun.take 6) [] [.visit, .visit] 1 2 1 false 3
    first last (by decide) begun reached (clientMachine.meets_anyStep _ _)
    (by rw [issued]; simp) (by simp) (by decide) (by simp) (Option.isNone_iff_eq_none.mp returned)
  rw [issued] at same
  exact absurd same (of_decide_eq_true (List.all_eq_true.mp skipped entry logged))

/-- A call that does not meet the guard makes a timer that no later batch runs. -/
theorem aliased_never_runs {acts : List ClientAct} {run next : TimerRun} {act : ClientAct}
    (reached : clientMachine.run clientMachine.start acts = some run)
    (aliased : ¬Unaliased run act) (stepped : clientMachine.step run act = some next) :
    ∃ task, act ≠ .cancelTimer task ∧ Stopped task next := by
  have sound := sound_of_client_run sound_start reached
  have soundNext := sound_of_client_run sound
    (clientMachine.run_cons.mpr ⟨next, stepped, clientMachine.run_nil next⟩)
  -- A node that waits with its identity in the cancel list is stopped.
  have stops : ∀ node ∈ next.waiting, node.id ∈ next.timer.cancelList →
      Stopped node.info.task next := by
    intro node member present
    have inside := waiting_subset_roster member
    refine ⟨soundNext.rostered.task_lt inside, fun other pending same => ?_⟩
    have twin := soundNext.rostered.eq_of_task pending.roster inside same
    have sameId : other.id = node.id :=
      congrArg (fun object : Addr × TimeInfo Nat => (object.1, object.2.seq)) twin
    exact sameId ▸ present
  cases act with
  | addTimer ptr now interval repeats =>
      refine ⟨run.issued.length, by simp, ?_⟩
      have placed := addTimer_nodes stepped
      have member : Timer.newNode ptr now interval run.issued.length repeats ∈ next.waiting :=
        List.mem_append_left _ (placed.mem_iff.mpr List.mem_cons_self)
      apply stops _ member
      obtain ⟨_, rfl⟩ := addTimer_cases stepped
      exact not_not.mp aliased
  | cancelTimer call =>
      simp only [Unaliased, not_forall] at aliased
      obtain ⟨node, member, named, different⟩ := aliased
      obtain ⟨resolved, resolves, continued⟩ := Option.bind_eq_some_iff.mp stepped
      simp only [ClientAct.resolve, named, Option.map_some, Option.some.injEq] at resolves
      subst resolves
      have same := cancelTimer_cases continued
      refine ⟨node.info.task, fun clash => different (ClientAct.cancelTimer.inj clash).symm, ?_⟩
      apply stops node (by rw [same]; exact member)
      rw [same]
      exact Finset.mem_insert_self _ _
  | doTimeOutTask now => exact absurd trivial aliased
  | visit => exact absurd trivial aliased
  | taskReturns => exact absurd trivial aliased

end QServer
