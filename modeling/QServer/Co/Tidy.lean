import QServer.Co.CoTask

/-
This file proves which timers can resume which coroutines.
-/

namespace QServer
open Container

namespace CoTask

variable {Body Msg : Type} {coTask : CoTask Body Msg} {coId : CoId} {wake : Wake Msg}

/-- The nodes of the timer set and of the running batch. -/
def waiting (coTask : CoTask Body Msg) : List (TimerNode ResumeTask) :=
  coTask.timer.nodes ++ coTask.mainCall.rest

/-- The node is the recorded timer of the `Yield` in which its coroutine is suspended. -/
structure Armed (coTask : CoTask Body Msg) (node : TimerNode ResumeTask) : Prop where
  recorded : coTask.coIdTimerId.lookup node.info.task.coId = some node.id
  suspended : ∃ co, coTask.coPool.found node.info.task.coId = some co ∧
    co.context = .suspended node.info.task.call
  due : node.deadline = node.info.task.call.madeAt + node.info.task.call.timeOut

/-- Every timer that is not cancelled belongs to the wait that it ends. -/
structure Tidy (coTask : CoTask Body Msg) : Prop where
  keyed : coTask.coPool.Keyed
  unmarked : coTask.coPool.Unmarked
  addresses : (coTask.waiting.map TimerNode.ptr).Nodup
  kept : coTask.mainCall.rest ⊆ coTask.mainCall.timeOutSet
  once : ∀ node ∈ coTask.waiting, node.info.repeats = false
  armed : ∀ node ∈ coTask.waiting, node.id ∉ coTask.timer.cancelList → coTask.Armed node

/-- No timer can resume the coroutine. -/
def Disarmed (coTask : CoTask Body Msg) (coId : CoId) : Prop :=
  ∀ node ∈ coTask.waiting, node.info.task.coId = coId → node.id ∈ coTask.timer.cancelList

theorem Tidy.empty : (CoTask.empty : CoTask Body Msg).Tidy := by
  constructor
  · constructor
    · intro ptr member
      cases member
    · intro coId ptr found
      cases found
  · exact fun _ => rfl
  all_goals simp [waiting, CoTask.empty, MainCall.rest]

section CancelTimer

@[simp] theorem cancelTimer_coPool : (coTask.cancelTimer coId).coPool = coTask.coPool := by
  unfold cancelTimer
  split <;> rfl

@[simp] theorem cancelTimer_mainCall : (coTask.cancelTimer coId).mainCall = coTask.mainCall := by
  unfold cancelTimer
  split <;> rfl

@[simp] theorem cancelTimer_yields : (coTask.cancelTimer coId).yields = coTask.yields := by
  unfold cancelTimer
  split <;> rfl

@[simp] theorem cancelTimer_nodes :
    (coTask.cancelTimer coId).timer.nodes = coTask.timer.nodes := by
  unfold cancelTimer
  split <;> rfl

@[simp] theorem cancelTimer_waiting : (coTask.cancelTimer coId).waiting = coTask.waiting := by
  simp [waiting]

theorem cancelTimer_lookup (other : CoId) :
    (coTask.cancelTimer coId).coIdTimerId.lookup other =
      if other = coId then none else coTask.coIdTimerId.lookup other := by
  cases recorded : coTask.coIdTimerId.lookup coId with
  | none =>
      rw [cancelTimer, recorded]
      split_ifs with same
      · exact same ▸ recorded
      · rfl
  | some timerId =>
      rw [cancelTimer, recorded]
      exact UnorderedMap.lookup_erase _ _ _

theorem cancelTimer_cancelList (timerId : TimerId) :
    timerId ∈ (coTask.cancelTimer coId).timer.cancelList ↔
      coTask.coIdTimerId.lookup coId = some timerId ∨ timerId ∈ coTask.timer.cancelList := by
  cases recorded : coTask.coIdTimerId.lookup coId with
  | none => simp [cancelTimer, recorded]
  | some known =>
      simp only [cancelTimer, recorded, Timer.cancelTimer_cancelList, Finset.mem_insert,
        Option.some.injEq]
      exact or_congr_left eq_comm

theorem Tidy.cancelTimer (tidy : coTask.Tidy) (coId : CoId) :
    (coTask.cancelTimer coId).Tidy ∧ (coTask.cancelTimer coId).Disarmed coId := by
  have armed : ∀ node ∈ coTask.waiting,
      node.id ∉ (coTask.cancelTimer coId).timer.cancelList →
        coTask.Armed node ∧ node.info.task.coId ≠ coId := by
    intro node member absent
    rw [cancelTimer_cancelList, not_or] at absent
    have armed := tidy.armed node member absent.2
    exact ⟨armed, fun same => absent.1 (same ▸ armed.recorded)⟩
  constructor
  · refine ⟨by simpa using tidy.keyed, by simpa using tidy.unmarked, by simpa using tidy.addresses,
      by simpa using tidy.kept, by simpa using tidy.once, fun node member absent => ?_⟩
    rw [cancelTimer_waiting] at member
    obtain ⟨⟨recorded, suspended, due⟩, different⟩ := armed node member absent
    refine ⟨?_, by simpa using suspended, due⟩
    rw [cancelTimer_lookup, if_neg different]
    exact recorded
  · intro node member same
    rw [cancelTimer_waiting] at member
    by_contra absent
    exact (armed node member absent).2 same

end CancelTimer

section Wake

variable {segment : Segment} {outcome : Outcome Body Msg} {ptr : CoPtr}

/-- A change of one coroutine keeps the timers of the others. -/
theorem Tidy.change (tidy : coTask.Tidy) (disarmed : coTask.Disarmed coId)
    {pool : CoPool Body Msg} (keyed : pool.Keyed) (unmarked : pool.Unmarked)
    (same : ∀ other, other ≠ coId → pool.found other = coTask.coPool.found other) :
    ({ coTask with coPool := pool } : CoTask Body Msg).Tidy := by
  refine ⟨keyed, unmarked, tidy.addresses, tidy.kept, tidy.once, fun node member absent => ?_⟩
  obtain ⟨recorded, suspended, due⟩ := tidy.armed node member absent
  refine ⟨recorded, ?_, due⟩
  rw [same _ fun here => absent (disarmed node member here)]
  exact suspended

/-- A new timer for a coroutine without one keeps the timers tidy. -/
theorem Tidy.arm (tidy : coTask.Tidy) (disarmed : coTask.Disarmed coId) {co : Coroutine Body Msg}
    {now timeOut : Time} {address : Addr} (yields : Nat) (call : YieldCall)
    (active : coTask.coPool.found coId = some co) (waits : co.context = .suspended call)
    (times : call.madeAt = now ∧ call.timeOut = timeOut) (fresh : address ∉ coTask.held) :
    ({ coTask with
      timer := (coTask.timer.addTimer address now timeOut ⟨coId, call⟩ false).1
      coIdTimerId := Finmap.insert coId
        (coTask.timer.addTimer address now timeOut ⟨coId, call⟩ false).2 coTask.coIdTimerId
      yields } : CoTask Body Msg).Tidy := by
  rw [held, List.map_append, List.mem_append, not_or] at fresh
  have placed := coTask.timer.addTimer_nodes fresh.1 now timeOut ⟨coId, call⟩ false
  have members := placed.append_right coTask.mainCall.rest
  have outside : address ∉ coTask.waiting.map TimerNode.ptr := by
    rw [waiting, List.map_append, List.mem_append, not_or]
    exact ⟨fresh.1, fun inside => fresh.2 (List.map_subset _ tidy.kept inside)⟩
  constructor
  · exact tidy.keyed
  · exact tidy.unmarked
  · refine (members.map TimerNode.ptr).nodup_iff.mpr ?_
    rw [List.cons_append, List.map_cons, List.nodup_cons]
    exact ⟨outside, tidy.addresses⟩
  · exact tidy.kept
  · intro node member
    rcases List.mem_cons.mp (members.mem_iff.mp member) with rfl | old
    · rfl
    · exact tidy.once node old
  · intro node member absent
    rcases List.mem_cons.mp (members.mem_iff.mp member) with rfl | old
    · refine ⟨Finmap.lookup_insert _, ⟨co, active, waits⟩, ?_⟩
      rw [← times.1, ← times.2]
      rfl
    · obtain ⟨recorded, suspended, due⟩ := tidy.armed node old absent
      refine ⟨?_, suspended, due⟩
      have different : node.info.task.coId ≠ coId := fun here => absent (disarmed node old here)
      exact (Finmap.lookup_insert_of_ne _ different).trans recorded

/-- A resume keeps the keys and the marks of the pool. -/
theorem Woken.pool (keyed : coTask.coPool.Keyed) (unmarked : coTask.coPool.Unmarked)
    (woken : Woken coTask coId wake segment outcome) :
    outcome.coTask.coPool.Keyed ∧ outcome.coTask.coPool.Unmarked ∧
      ∀ other, other ≠ coId → outcome.coTask.coPool.found other = coTask.coPool.found other := by
  cases woken with
  | missed absent => exact ⟨keyed, unmarked, fun _ _ => rfl⟩
  | finished active entered =>
      rename_i ptr _
      have quiet : (coTask.coPool.modify ptr (Coroutine.woken wake)).Unmarked :=
        unmarked.modify _ _ fun _ _ => rfl
      have changed : (coTask.coPool.modify ptr (Coroutine.woken wake)).Keyed :=
        keyed.modify _ _ fun _ => rfl
      refine ⟨changed.freeCoroutine active, quiet.freeCoroutine active, fun other different => ?_⟩
      rw [afterFinish, CoPool.found_freeCoroutine changed active, if_neg different,
        CoPool.found_modify keyed active, if_neg different]
  | yielded active entered fresh =>
      refine ⟨keyed.modify _ _ fun _ => rfl, unmarked.modify _ _ fun _ _ => rfl,
        fun other different => ?_⟩
      rw [afterYield, CoPool.found_modify keyed active, if_neg different]

/-- A resume of a coroutine without a timer keeps the timers tidy. -/
theorem Tidy.woken (tidy : coTask.Tidy) (disarmed : coTask.Disarmed coId)
    (woken : Woken coTask coId wake segment outcome) : outcome.coTask.Tidy := by
  obtain ⟨keyed, unmarked, same⟩ := woken.pool tidy.keyed tidy.unmarked
  cases woken with
  | missed absent => exact tidy
  | finished active entered => exact tidy.change disarmed keyed unmarked same
  | yielded active entered fresh =>
      rename_i ptr _ now timeOut address
      let call := coTask.nextCall now timeOut
      have changed := tidy.change disarmed keyed unmarked same
      have found : (coTask.coPool.modify ptr (Coroutine.resuspended wake call)).found coId =
          some ((coTask.coPool.object ptr).resuspended wake call) := by
        rw [CoPool.found_modify tidy.keyed active, if_pos rfl]
      exact changed.arm disarmed (coTask.yields + 1) call found rfl ⟨rfl, rfl⟩ fresh

theorem Woken.mainCall (woken : Woken coTask coId wake segment outcome) :
    outcome.coTask.mainCall = coTask.mainCall := by
  cases woken <;> rfl

end Wake

/-- A new coroutine with a free identifier keeps the timers tidy. -/
theorem Tidy.addTack (tidy : coTask.Tidy) (task : Body)
    (inactive : coTask.coPool.findCoId coTask.coPool.nextCoId = none) :
    (coTask.addTack task).1.Tidy ∧ (coTask.addTack task).1.Disarmed coTask.coPool.nextCoId := by
  have disarmed : coTask.Disarmed coTask.coPool.nextCoId := by
    intro node member same
    by_contra absent
    obtain ⟨co, active, _⟩ := (tidy.armed node member absent).suspended
    rw [same, CoPool.found_eq_none.mpr inactive] at active
    cases active
  refine ⟨tidy.change disarmed tidy.keyed.newCoroutine tidy.unmarked.newCoroutine ?_, disarmed⟩
  intro other different
  obtain ⟨msg, found⟩ := CoPool.found_newCoroutine tidy.keyed tidy.unmarked task other
  rwa [if_neg different] at found

section Turn

variable {now : Time} {timeOutSet rest : List (TimerNode ResumeTask)} {node : TimerNode ResumeTask}

theorem Tidy.doTimeOutTask (tidy : coTask.Tidy) (idle : coTask.mainCall = .idle) (now : Time) :
    (coTask.doTimeOutTask now).Tidy := by
  have whole : (coTask.doTimeOutTask now).waiting.Perm coTask.waiting := by
    have split := coTask.timer.takeBatch_append now
    simp only [waiting, idle, MainCall.rest, List.append_nil]
    rw [← split]
    exact List.perm_append_comm
  constructor
  · exact tidy.keyed
  · exact tidy.unmarked
  · exact (whole.map _).nodup_iff.mpr tidy.addresses
  · exact fun _ member => member
  · exact fun node member => tidy.once node (whole.mem_iff.mp member)
  · intro node member absent
    obtain ⟨recorded, suspended, due⟩ := tidy.armed node (whole.mem_iff.mp member) absent
    exact ⟨recorded, suspended, due⟩

/-- A main call without a batch keeps the timers tidy. -/
theorem Tidy.setMainCall (tidy : coTask.Tidy) {mainCall : MainCall}
    (empty : mainCall.rest = []) : ({ coTask with mainCall } : CoTask Body Msg).Tidy := by
  have fewer : ({ coTask with mainCall } : CoTask Body Msg).waiting ⊆ coTask.waiting := by
    simp [waiting, empty]
  constructor
  · exact tidy.keyed
  · exact tidy.unmarked
  · refine tidy.addresses.sublist ?_
    simp [waiting, empty]
  · simp [empty]
  · exact fun node member => tidy.once node (fewer member)
  · intro node member absent
    obtain ⟨recorded, suspended, due⟩ := tidy.armed node (fewer member) absent
    exact ⟨recorded, suspended, due⟩

theorem waiting_turn
    (running : coTask.mainCall = .doTimeOutTask now timeOutSet (node :: rest)) :
    coTask.waiting.Perm (node ::
      ({ coTask with mainCall := .doTimeOutTask now timeOutSet rest } :
        CoTask Body Msg).waiting) := by
  simp only [waiting, running, MainCall.rest]
  exact List.perm_middle

/-- The batch goes on without its first node. -/
theorem Tidy.turn (tidy : coTask.Tidy)
    (running : coTask.mainCall = .doTimeOutTask now timeOutSet (node :: rest)) :
    ({ coTask with mainCall := .doTimeOutTask now timeOutSet rest } : CoTask Body Msg).Tidy := by
  have order := waiting_turn running
  have inside : ∀ {other}, other ∈ ({ coTask with
      mainCall := .doTimeOutTask now timeOutSet rest } : CoTask Body Msg).waiting →
      other ∈ coTask.waiting :=
    fun member => order.mem_iff.mpr (List.mem_cons_of_mem _ member)
  have kept := tidy.kept
  rw [running] at kept
  constructor
  · exact tidy.keyed
  · exact tidy.unmarked
  · exact ((order.map _).nodup_iff.mp tidy.addresses).of_cons
  · exact fun other member => kept (List.mem_cons_of_mem _ member)
  · exact fun other member => tidy.once other (inside member)
  · intro other member absent
    obtain ⟨recorded, suspended, due⟩ := tidy.armed other (inside member) absent
    exact ⟨recorded, suspended, due⟩

/-- A cancelled node of the batch leaves with its cancel entry. -/
theorem Tidy.skip (tidy : coTask.Tidy)
    (running : coTask.mainCall = .doTimeOutTask now timeOutSet (node :: rest))
    {timer : Timer ResumeTask} (taken : coTask.timer.takeCancel node = some timer) :
    ({ coTask with timer, mainCall := .doTimeOutTask now timeOutSet rest } :
      CoTask Body Msg).Tidy := by
  obtain ⟨_, sameNodes, erased⟩ := coTask.timer.takeCancel_some taken
  have turned := tidy.turn running
  have distinct := ((waiting_turn running).map TimerNode.ptr).nodup_iff.mp tidy.addresses
  rw [List.map_cons, List.nodup_cons] at distinct
  have sameWaiting : ({ coTask with timer, mainCall := .doTimeOutTask now timeOutSet rest } :
      CoTask Body Msg).waiting =
      ({ coTask with mainCall := .doTimeOutTask now timeOutSet rest } :
        CoTask Body Msg).waiting := by
    simp [waiting, sameNodes]
  constructor
  · exact tidy.keyed
  · exact tidy.unmarked
  · rw [sameWaiting]
    exact turned.addresses
  · exact turned.kept
  · rw [sameWaiting]
    exact turned.once
  · intro other member absent
    rw [sameWaiting] at member
    have different : other.ptr ≠ node.ptr :=
      fun same => distinct.1 (List.mem_map.mpr ⟨other, member, same⟩)
    rw [erased, Finset.mem_erase, not_and] at absent
    obtain ⟨recorded, suspended, due⟩ :=
      turned.armed other member (absent (TimerNode.id_ne different))
    exact ⟨recorded, suspended, due⟩

end Turn

section Loop

variable {segment : Segment} {outcome : Outcome Body Msg}

/-- All that one turn of a running main call can do. -/
inductive Turned (coTask : CoTask Body Msg) (segment : Segment) : Outcome Body Msg → Prop
  | ended {code : Int} (exhausted : coTask.mainCall.rest = []) :
      Turned coTask segment ⟨{ coTask with mainCall := .idle }, code, []⟩
  | skipped {now : Time} {timeOutSet rest : List (TimerNode ResumeTask)}
      {node : TimerNode ResumeTask} {timer : Timer ResumeTask}
      (running : coTask.mainCall = .doTimeOutTask now timeOutSet (node :: rest))
      (taken : coTask.timer.takeCancel node = some timer) :
      Turned coTask segment
        ⟨{ coTask with timer, mainCall := .doTimeOutTask now timeOutSet rest }, 0, []⟩
  | fired {now : Time} {timeOutSet rest : List (TimerNode ResumeTask)}
      {node : TimerNode ResumeTask} {outcome : Outcome Body Msg}
      (running : coTask.mainCall = .doTimeOutTask now timeOutSet (node :: rest))
      (armed : coTask.Armed node)
      (woken : Woken
        (({ coTask with mainCall := .doTimeOutTask now timeOutSet rest } :
          CoTask Body Msg).cancelTimer node.info.task.coId)
        node.info.task.coId (.timer node.info.task.call now) segment outcome) :
      Turned coTask segment outcome
  | resumed {coIdList rest : List CoId} {coId : CoId} {outcome : Outcome Body Msg}
      (running : coTask.mainCall = .resumeAll coIdList (coId :: rest))
      (woken : Woken ({ coTask with mainCall := .resumeAll coIdList rest }) coId .resumeAll
        segment outcome) :
      Turned coTask segment outcome

theorem resumeOne_eq (silent : wake.msg = none) :
    coTask.resumeOne coId wake segment =
      (coTask.cancelTimer coId).wakeUp coId wake segment := by
  simp only [resumeOne, wakeUp, silent]

/-- A resume by the public operations is one of the three listed ones. -/
theorem resumeOne_cases (keyed : coTask.coPool.Keyed) (unmarked : coTask.coPool.Unmarked)
    (silent : wake.msg = none)
    (timed : wake.timeOut = true → ∀ ptr, coTask.coPool.findCoId coId = some ptr →
      (coTask.coPool.object ptr).context ≠ .entry)
    (stepped : coTask.resumeOne coId wake segment = some outcome) :
    Woken (coTask.cancelTimer coId) coId wake segment outcome := by
  rw [resumeOne_eq silent] at stepped
  exact wakeUp_cases (by simpa using keyed) (by simpa using unmarked) (by simpa using timed) stepped

theorem Tidy.resumeOne_cases (tidy : coTask.Tidy) (silent : wake.msg = none)
    (timed : wake.timeOut = true → ∀ ptr, coTask.coPool.findCoId coId = some ptr →
      (coTask.coPool.object ptr).context ≠ .entry)
    (stepped : coTask.resumeOne coId wake segment = some outcome) :
    Woken (coTask.cancelTimer coId) coId wake segment outcome :=
  CoTask.resumeOne_cases tidy.keyed tidy.unmarked silent timed stepped

theorem resumeOneWithMsg_cases (keyed : coTask.coPool.Keyed) (unmarked : coTask.coPool.Unmarked)
    {msg : Msg} (stepped : coTask.resumeOneWithMsg coId msg segment = some outcome) :
    Woken (coTask.cancelTimer coId) coId (.resumeOneWithMsg msg) segment outcome := by
  refine wakeUp_cases (by simpa using keyed) (by simpa using unmarked) ?_ stepped
  intro timed
  cases timed

theorem Tidy.resumeOneWithMsg_cases (tidy : coTask.Tidy) {msg : Msg}
    (stepped : coTask.resumeOneWithMsg coId msg segment = some outcome) :
    Woken (coTask.cancelTimer coId) coId (.resumeOneWithMsg msg) segment outcome :=
  CoTask.resumeOneWithMsg_cases tidy.keyed tidy.unmarked stepped

/-- A timer that fires is the recorded one of a suspended coroutine. -/
theorem Tidy.proceed_cases (tidy : coTask.Tidy)
    (stepped : coTask.proceed segment = some outcome) : Turned coTask segment outcome := by
  unfold proceed at stepped
  split at stepped
  · cases stepped
  · rename_i running
    cases stepped
    exact .ended (by rw [running]; rfl)
  · rename_i now timeOutSet node rest running
    split at stepped
    · rename_i timer taken
      cases stepped
      exact .skipped running taken
    · rename_i passed
      obtain ⟨woken, resuming, rfl⟩ := Option.map_eq_some_iff.mp stepped
      have member : node ∈ coTask.waiting := by
        rw [waiting, running]
        exact List.mem_append_right _ List.mem_cons_self
      have armed := tidy.armed node member (coTask.timer.takeCancel_none passed)
      have once : (woken.coTask.timer.requeue now node) = woken.coTask.timer :=
        woken.coTask.timer.requeue_once (tidy.once node member) now
      simp only [once]
      refine .fired running armed ?_
      refine (tidy.turn running).resumeOne_cases rfl (fun _ ptr active entry => ?_) resuming
      obtain ⟨co, found, waits⟩ := armed.suspended
      obtain ⟨place, same, rfl⟩ := CoPool.found_eq_some.mp found
      cases active.symm.trans same
      rw [entry] at waits
      cases waits
  · rename_i coIdList running
    cases stepped
    exact .ended (by rw [running]; rfl)
  · rename_i coIdList coId rest running
    have turned : ({ coTask with mainCall := .resumeAll coIdList rest } : CoTask Body Msg).Tidy :=
      tidy.setMainCall rfl
    refine .resumed running (wakeUp_cases turned.keyed turned.unmarked ?_ stepped)
    intro timed
    cases timed

/-- A turn keeps the timers tidy when `ResumeAll` meets no timer that is still armed. -/
theorem Tidy.proceed (tidy : coTask.Tidy)
    (careful : ∀ coIdList coId rest, coTask.mainCall = .resumeAll coIdList (coId :: rest) →
      coTask.Disarmed coId)
    (turned : Turned coTask segment outcome) : outcome.coTask.Tidy := by
  cases turned with
  | ended exhausted => exact tidy.setMainCall rfl
  | skipped running taken => exact tidy.skip running taken
  | fired running armed woken =>
      obtain ⟨cancelled, disarmed⟩ := (tidy.turn running).cancelTimer _
      exact cancelled.woken disarmed woken
  | resumed running woken =>
      have disarmed := careful _ _ _ running
      refine Tidy.woken (tidy.setMainCall rfl) (fun node member same => ?_) woken
      refine disarmed node ?_ same
      simpa [waiting, running, MainCall.rest] using member

end Loop

end CoTask

end QServer
