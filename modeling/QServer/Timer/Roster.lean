import QServer.Timer.Reentrant

/-
This file proves which timers are live at each point of a run. The times are assumed not to overflow.
-/

namespace QServer
open Container Transition

/-- The object behind a node stays the same when its deadline changes. -/
def TimerNode.object {Task : Type} (node : TimerNode Task) : Addr × TimeInfo Task :=
  (node.ptr, node.info)

namespace TimerRun

variable {run next : TimerRun}

/-- The live timers as objects. -/
def objects (run : TimerRun) : List (Addr × TimeInfo Nat) :=
  run.roster.map TimerNode.object

theorem mem_objects {node : TimerNode Nat} (member : node ∈ run.roster) :
    node.object ∈ run.objects := List.mem_map_of_mem member

theorem waiting_subset_roster {node : TimerNode Nat} (member : node ∈ run.waiting) :
    node ∈ run.roster := List.mem_append_right _ member

theorem doTimeOutTask_roster {now : Time} (stepped : run.doTimeOutTask now = some next) :
    next.roster.Perm run.roster := by
  obtain ⟨idle, rfl⟩ := doTimeOutTask_cases stepped
  have whole := run.timer.takeBatch_append now
  simp only [roster, waiting, current, rest, idle, Option.map_some, Option.getD_some,
    Option.bind_some, Option.toList_none, List.nil_append, Option.map_none, Option.getD_none,
    Option.bind_none, List.append_nil]
  rw [← whole]
  exact List.perm_append_comm

/-- No timer runs when the batch is taken, and no timer stops waiting. -/
theorem doTimeOutTask_waiting {now : Time} (stepped : run.doTimeOutTask now = some next) :
    next.waiting.Perm run.waiting ∧ next.current = none := by
  have moved := doTimeOutTask_roster stepped
  obtain ⟨idle, rfl⟩ := doTimeOutTask_cases stepped
  simp only [roster, current, idle, Option.bind_some, Option.bind_none, Option.toList_none,
    List.nil_append] at moved
  exact ⟨moved, by simp [current]⟩

theorem visit_roster (stepped : run.visit = some next) : next.roster.Subperm run.roster := by
  rcases visit_cases stepped with ⟨now, timeOutSet, running, rfl⟩ |
    ⟨now, timeOutSet, node, rest, timer, running, taken, rfl⟩ |
    ⟨now, timeOutSet, node, rest, running, passed, rfl⟩
  · simp [roster, waiting, current, TimerRun.rest, running, List.Subperm.refl]
  · obtain ⟨_, sameNodes, _⟩ := run.timer.takeCancel_some taken
    simp only [roster, waiting, current, TimerRun.rest, running, Option.map_some, Option.getD_some,
      Option.bind_some, Option.toList_none, List.nil_append, sameNodes]
    exact (List.Sublist.append_left (List.sublist_cons_self _ _) _).subperm
  · simp only [roster, waiting, current, TimerRun.rest, running, Option.map_some, Option.getD_some,
      Option.bind_some, Option.toList_none, Option.toList_some, List.nil_append,
      List.singleton_append]
    exact List.perm_middle.symm.subperm

/-- The node whose task runs is not in the timer set. -/
theorem current_fresh (addresses : (run.objects.map Prod.fst).Nodup) {node : TimerNode Nat}
    (runs : run.current = some node) : node.ptr ∉ run.timer.nodes.map TimerNode.ptr := by
  intro present
  obtain ⟨twin, member, same⟩ := List.mem_map.mp present
  simp only [objects, roster, runs, Option.toList_some, List.cons_append, List.nil_append,
    List.map_cons] at addresses
  apply (List.nodup_cons.mp addresses).1
  exact List.mem_map.mpr ⟨twin.object,
    List.mem_map_of_mem (List.mem_append_left _ member), same⟩

/-- A step other than `AddTimer` only drops live timers. -/
theorem objects_step {act : TimerAct}
    (other : ∀ ptr now interval repeats, act ≠ .addTimer ptr now interval repeats)
    (addresses : (run.objects.map Prod.fst).Nodup) (stepped : run.step act = some next) :
    next.objects.Subperm run.objects := by
  cases act with
  | addTimer ptr now interval repeats => exact absurd rfl (other ptr now interval repeats)
  | cancelTimer timerId =>
      rw [cancelTimer_cases stepped]
      exact List.Subperm.refl _
  | doTimeOutTask now => exact ((doTimeOutTask_roster stepped).map _).subperm
  | visit => exact subperm_map _ (visit_roster stepped)
  | taskReturns =>
      obtain ⟨now, timeOutSet, rest, node, running, rfl⟩ := taskReturns_cases stepped
      have before : run.objects = node.object :: run.waiting.map TimerNode.object := by
        simp [objects, roster, current, running]
      rw [before]
      cases again : node.info.repeats with
      | false =>
          rw [Timer.requeue_once run.timer again now]
          simp only [objects, roster, waiting, current, TimerRun.rest, running, Option.map_some,
            Option.getD_some, Option.bind_some, Option.toList_none, List.nil_append]
          exact (List.sublist_cons_self _ _).subperm
      | true =>
          have runs : run.current = some node := by simp [current, running]
          have fresh := current_fresh addresses runs
          have placed := Timer.requeue_nodes run.timer again fresh now
          simp only [objects, roster, waiting, current, TimerRun.rest, running, Option.map_some,
            Option.getD_some, Option.bind_some, Option.toList_none, List.nil_append]
          have moved := (placed.append_right rest).map TimerNode.object
          exact moved.subperm

theorem addTimer_nodes {ptr : Addr} {now interval : Time} {repeats : Bool}
    (stepped : run.addTimer ptr now interval repeats = some next) :
    next.timer.nodes.Perm
      (Timer.newNode ptr now interval run.issued.length repeats :: run.timer.nodes) := by
  obtain ⟨free, rfl⟩ := addTimer_cases stepped
  apply run.timer.addTimer_nodes
  intro present
  apply free
  rw [held, List.map_append]
  exact List.mem_append_left _ present

theorem addTimer_objects {ptr : Addr} {now interval : Time} {repeats : Bool}
    (stepped : run.addTimer ptr now interval repeats = some next) :
    next.objects.Perm
      ((Timer.newNode ptr now interval run.issued.length repeats).object :: run.objects) := by
  have placed := addTimer_nodes stepped
  obtain ⟨_, rfl⟩ := addTimer_cases stepped
  have moved := ((placed.append_right run.rest).append_left run.current.toList).map
    TimerNode.object
  refine moved.trans ?_
  rw [List.cons_append, List.map_append, List.map_cons]
  refine List.perm_middle.trans ?_
  simp [objects, roster, waiting]

/-- The live timers have their own addresses and their own results of `AddTimer`. -/
structure Rostered (run : TimerRun) : Prop where
  addresses : (run.objects.map Prod.fst).Nodup
  names : (run.objects.map fun object => object.2.task).Nodup
  issued : ∀ object ∈ run.objects,
    run.issued[object.2.task]? = some (object.1, object.2.seq)
  kept : run.current.toList ++ run.rest ⊆ run.timeOutSet

/-- A live timer keeps its address from the allocator. -/
theorem Rostered.roster_held (rostered : Rostered run) {node : TimerNode Nat}
    (member : node ∈ run.roster) : node.ptr ∈ run.held := by
  have split : node ∈ run.timer.nodes ∨ node ∈ run.current.toList ++ run.rest := by
    simp only [roster, waiting, List.mem_append] at member ⊢
    tauto
  apply List.mem_map_of_mem
  rcases split with inside | outside
  · exact List.mem_append_left _ inside
  · exact List.mem_append_right _ (rostered.kept outside)

theorem Rostered.task_lt (rostered : Rostered run) {node : TimerNode Nat}
    (member : node ∈ run.roster) : node.info.task < run.issued.length :=
  (List.getElem?_eq_some_iff.mp (rostered.issued _ (mem_objects member))).1

theorem Rostered.eq_of_task (rostered : Rostered run) {first second : TimerNode Nat}
    (firstMember : first ∈ run.roster) (secondMember : second ∈ run.roster)
    (same : first.info.task = second.info.task) : first.object = second.object :=
  List.inj_on_of_nodup_map rostered.names (mem_objects firstMember)
    (mem_objects secondMember) same

theorem rostered_start : Rostered start := by
  constructor <;> simp [objects, roster, waiting, start, current, rest]

theorem kept_step {act : TimerAct} (kept : run.current.toList ++ run.rest ⊆ run.timeOutSet)
    (stepped : run.step act = some next) :
    next.current.toList ++ next.rest ⊆ next.timeOutSet := by
  cases act with
  | addTimer ptr now interval repeats =>
      obtain ⟨_, rfl⟩ := addTimer_cases stepped
      exact kept
  | cancelTimer timerId =>
      rw [cancelTimer_cases stepped]
      exact kept
  | doTimeOutTask now =>
      obtain ⟨idle, rfl⟩ := doTimeOutTask_cases stepped
      simp [current, rest, timeOutSet]
  | visit =>
      rcases visit_cases stepped with ⟨now, timeOutSet, running, rfl⟩ |
        ⟨now, timeOutSet, node, rest, timer, running, taken, rfl⟩ |
        ⟨now, timeOutSet, node, rest, running, passed, rfl⟩
      · simp [current, TimerRun.rest]
      · simp only [current, TimerRun.rest, TimerRun.timeOutSet, running, Option.bind_some,
          Option.map_some, Option.getD_some, Option.toList_none, List.nil_append] at kept ⊢
        exact fun other member => kept (List.mem_cons_of_mem _ member)
      · simpa [current, TimerRun.rest, TimerRun.timeOutSet, running] using kept
  | taskReturns =>
      obtain ⟨now, timeOutSet, rest, node, running, rfl⟩ := taskReturns_cases stepped
      simp only [current, TimerRun.rest, TimerRun.timeOutSet, running, Option.bind_some,
        Option.map_some, Option.getD_some, Option.toList_none, Option.toList_some,
        List.nil_append] at kept ⊢
      exact fun other member => kept (List.mem_append_right _ member)

theorem issued_step {act : TimerAct}
    (other : ∀ ptr now interval repeats, act ≠ .addTimer ptr now interval repeats)
    (stepped : run.step act = some next) : next.issued = run.issued := by
  cases act with
  | addTimer ptr now interval repeats => exact absurd rfl (other ptr now interval repeats)
  | cancelTimer timerId => rw [cancelTimer_cases stepped]
  | doTimeOutTask now =>
      obtain ⟨_, rfl⟩ := doTimeOutTask_cases stepped
      rfl
  | visit =>
      rcases visit_cases stepped with ⟨_, _, _, rfl⟩ | ⟨_, _, _, _, _, _, _, rfl⟩ |
        ⟨_, _, _, _, _, _, rfl⟩ <;> rfl
  | taskReturns =>
      obtain ⟨_, _, _, _, _, rfl⟩ := taskReturns_cases stepped
      rfl

theorem Rostered.addTimer (rostered : Rostered run) {ptr : Addr} {now interval : Time}
    {repeats : Bool} (stepped : run.addTimer ptr now interval repeats = some next) :
    Rostered next := by
  have added := addTimer_objects stepped
  obtain ⟨free, rfl⟩ := addTimer_cases stepped
  have unused : ptr ∉ run.objects.map Prod.fst := by
    intro present
    obtain ⟨object, member, same⟩ := List.mem_map.mp present
    obtain ⟨node, inside, rfl⟩ := List.mem_map.mp member
    exact free (same ▸ rostered.roster_held inside)
  constructor
  · rw [(added.map Prod.fst).nodup_iff, List.map_cons, List.nodup_cons]
    exact ⟨unused, rostered.addresses⟩
  · rw [(added.map fun object => object.2.task).nodup_iff, List.map_cons, List.nodup_cons]
    refine ⟨fun present => ?_, rostered.names⟩
    obtain ⟨object, member, same⟩ := List.mem_map.mp present
    have known := (List.getElem?_eq_some_iff.mp (rostered.issued object member)).1
    simp only [Timer.newNode, TimerNode.object] at same
    omega
  · intro object member
    rcases List.mem_cons.mp (added.mem_iff.mp member) with rfl | old
    · simp [Timer.newNode, TimerNode.object, TimerNode.id]
    · have known := rostered.issued object old
      have bound := (List.getElem?_eq_some_iff.mp known).1
      rw [← known]
      exact List.getElem?_append_left bound
  · exact rostered.kept

theorem Rostered.step (rostered : Rostered run) {act : TimerAct}
    (stepped : run.step act = some next) : Rostered next := by
  by_cases adding : ∃ ptr now interval repeats, act = .addTimer ptr now interval repeats
  · obtain ⟨ptr, now, interval, repeats, rfl⟩ := adding
    exact rostered.addTimer stepped
  · have other : ∀ ptr now interval repeats, act ≠ .addTimer ptr now interval repeats :=
      fun ptr now interval repeats same => adding ⟨ptr, now, interval, repeats, same⟩
    have dropped := objects_step other rostered.addresses stepped
    constructor
    · exact nodup_of_subperm (subperm_map _ dropped) rostered.addresses
    · exact nodup_of_subperm (subperm_map _ dropped) rostered.names
    · intro object member
      rw [issued_step other stepped]
      exact rostered.issued object (dropped.subset member)
    · exact kept_step rostered.kept stepped

section Waiting

/-- A visit brings no node to the waiting ones. -/
theorem visit_waiting (stepped : run.visit = some next) : next.waiting ⊆ run.waiting := by
  intro node inside
  rcases visit_cases stepped with ⟨now, timeOutSet, running, rfl⟩ |
    ⟨now, timeOutSet, head, rest, timer, running, taken, rfl⟩ |
    ⟨now, timeOutSet, head, rest, running, passed, rfl⟩
  · simpa [waiting, TimerRun.rest, running] using inside
  · obtain ⟨_, sameNodes, _⟩ := run.timer.takeCancel_some taken
    simp only [waiting, TimerRun.rest, running, Option.map_some, Option.getD_some, sameNodes,
      List.mem_append, List.mem_cons] at inside ⊢
    exact inside.imp_right Or.inr
  · simp only [waiting, TimerRun.rest, running, Option.map_some, Option.getD_some,
      List.mem_append, List.mem_cons] at inside ⊢
    exact inside.imp_right Or.inr

/-- A visit starts no task, or the task of a waiting node that is not cancelled. -/
theorem visit_starts (stepped : run.visit = some next) :
    next.current = none ∧ next.log = run.log ∨
      ∃ now, ∃ node ∈ run.waiting, node.id ∉ run.timer.cancelList ∧ next.current = some node ∧
        next.log =
          run.log ++ [⟨node.info.task, node.info.repeats, node.deadline, now, run.calls⟩] := by
  rcases visit_cases stepped with ⟨now, timeOutSet, running, rfl⟩ |
    ⟨now, timeOutSet, head, rest, timer, running, taken, rfl⟩ |
    ⟨now, timeOutSet, head, rest, running, passed, rfl⟩
  · exact Or.inl ⟨rfl, rfl⟩
  · exact Or.inl ⟨rfl, rfl⟩
  · refine Or.inr ⟨now, head, ?_, run.timer.takeCancel_none passed, rfl, rfl⟩
    simp [waiting, TimerRun.rest, running]

/-- A visit erases the cancel entry of no node that still waits. -/
theorem visit_cancelList (rostered : Rostered run) (stepped : run.visit = some next)
    {node : TimerNode Nat} (inside : node ∈ next.waiting)
    (cancelled : node.id ∈ run.timer.cancelList) : node.id ∈ next.timer.cancelList := by
  rcases visit_cases stepped with ⟨now, timeOutSet, running, rfl⟩ |
    ⟨now, timeOutSet, head, rest, timer, running, taken, rfl⟩ |
    ⟨now, timeOutSet, head, rest, running, passed, rfl⟩
  · exact cancelled
  · obtain ⟨_, sameNodes, erased⟩ := run.timer.takeCancel_some taken
    have addresses := rostered.addresses
    simp only [objects, roster, waiting, current, TimerRun.rest, running, Option.map_some,
      Option.getD_some, Option.bind_some, Option.toList_none, List.nil_append, List.map_append,
      List.map_cons] at addresses
    have apart := (List.nodup_cons.mp (List.perm_middle.nodup_iff.mp addresses)).1
    simp only [waiting, TimerRun.rest, Option.map_some, Option.getD_some, sameNodes] at inside
    have different : node.ptr ≠ head.ptr := by
      intro samePtr
      apply apart
      rw [← List.map_append, ← List.map_append]
      exact List.mem_map.mpr ⟨node.object, List.mem_map_of_mem inside, samePtr⟩
    rw [erased]
    exact Finset.mem_erase.mpr ⟨TimerNode.id_ne different, cancelled⟩
  · exact cancelled

/-- The running task is not the task of a waiting node. -/
theorem Rostered.current_apart (rostered : Rostered run) {node other : TimerNode Nat}
    (runs : run.current = some node) (inside : other ∈ run.waiting) :
    node.info.task ≠ other.info.task := by
  have names := rostered.names
  simp only [objects, roster, runs, Option.toList_some, List.cons_append, List.nil_append,
    List.map_cons, List.nodup_cons] at names
  intro same
  exact names.1 (List.mem_map.mpr ⟨other.object, List.mem_map_of_mem inside, same.symm⟩)

/-- A task that returns brings its own node back if it repeats. -/
theorem taskReturns_waiting (rostered : Rostered run) (stepped : run.taskReturns = some next)
    {node : TimerNode Nat} (inside : node ∈ next.waiting) :
    node ∈ run.waiting ∨ ∃ batch returned, run.batch = some batch ∧
      batch.current = some returned ∧ returned.info.repeats = true ∧
        node = Timer.nextRound batch.now returned := by
  obtain ⟨now, timeOutSet, rest, returned, running, rfl⟩ := taskReturns_cases stepped
  have active : run.current = some returned := by simp [current, running]
  have waits : run.waiting = run.timer.nodes ++ rest := by simp [waiting, TimerRun.rest, running]
  simp only [waiting, TimerRun.rest, Option.map_some, Option.getD_some] at inside
  cases again : returned.info.repeats with
  | false =>
      rw [Timer.requeue_once run.timer again now] at inside
      exact Or.inl (waits ▸ inside)
  | true =>
      have fresh := current_fresh rostered.addresses active
      have placed := run.timer.requeue_nodes again fresh now
      rw [waits]
      rcases List.mem_append.mp inside with stored | later
      · rcases List.mem_cons.mp (placed.mem_iff.mp stored) with same | old
        · exact Or.inr ⟨_, returned, running, rfl, again, same⟩
        · exact Or.inl (List.mem_append_left _ old)
      · exact Or.inl (List.mem_append_right _ later)

end Waiting

end TimerRun

end QServer
