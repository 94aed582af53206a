import QServer.Co.Waits
import QServer.Timer.Period

/-
This file proves that a call that waits keeps its timer while the clock does not go back. The times
are assumed not to overflow.
-/

namespace QServer
open Container

/-- A body that yields reads the time and waits for a second or longer. -/
def Segment.Patient (clock : Time) : Segment → Prop
  | .yield now timeOut _ => now = clock ∧ 1000 ≤ timeOut
  | .finish => True

/-- The node of a call that waits for a second or longer, with a time of the clock. -/
structure TimerNode.Dated (clock : Time) (node : TimerNode ResumeTask) : Prop where
  past : node.info.task.call.madeAt ≤ clock
  patient : 1000 ≤ node.info.task.call.timeOut
  second : (node.info.seq : Int) = node.info.task.call.madeAt / 1000
  due : node.deadline = node.info.task.call.madeAt + node.info.task.call.timeOut

/-- The seconds of a time that they can count. -/
theorem toUint32_seconds {clock : Int} (begun : 0 ≤ clock) (bound : clock < 2 ^ 32 * 1000) :
    (toUint32 (clock.tdiv 1000) : Int) = clock / 1000 := by
  rw [Int.tdiv_eq_ediv_of_nonneg begun]
  exact TimerRun.toUint32_of_small (by omega)

namespace CoTask

variable {Body Msg : Type} {coTask : CoTask Body Msg} {coId : CoId} {wake : Wake Msg}
  {segment : Segment} {outcome : Outcome Body Msg} {clock floor : Time}
  {apart : Set CoId}

/-- A timer of the call waits and is not cancelled. -/
def Watched (coTask : CoTask Body Msg) (coId : CoId) (call : YieldCall) : Prop :=
  ∃ node ∈ coTask.waiting, node.info.task = ⟨coId, call⟩ ∧ node.id ∉ coTask.timer.cancelList

/-- A cancel entry names a node that waits, or a second that has passed. -/
def Settles (coTask : CoTask Body Msg) (clock : Time) (timerId : TimerId) : Prop :=
  (∃ node ∈ coTask.waiting, node.id = timerId) ∨ (timerId.2 : Int) < clock / 1000

/-- The calls are watched but for those apart, and no cancel entry names a later timer. -/
structure Timely (coTask : CoTask Body Msg) (clock : Time) (apart : Set CoId) : Prop where
  watched : ∀ coId call, coId ∉ apart → coTask.waits coId = some call → coTask.Watched coId call
  dated : ∀ node ∈ coTask.waiting, node.Dated clock
  spent : ∀ timerId ∈ coTask.timer.cancelList, coTask.Settles clock timerId

theorem Timely.empty : (CoTask.empty : CoTask Body Msg).Timely clock ∅ := by
  constructor
  · rintro coId call _ ⟨⟩
  · rintro node ⟨⟩
  · rintro timerId ⟨⟩

/-- A later time spends no fewer seconds. -/
theorem Timely.mono (timely : coTask.Timely clock apart) {later : Time} (order : clock ≤ later) :
    coTask.Timely later apart := by
  refine ⟨timely.watched, fun node member => ?_, fun timerId cancelled => ?_⟩
  · have dated := timely.dated node member
    exact ⟨dated.past.trans order, dated.patient, dated.second, dated.due⟩
  · refine (timely.spent timerId cancelled).imp_right fun passed => ?_
    exact lt_of_lt_of_le passed (Int.ediv_le_ediv (by omega) order)

/-- A cancelled timer is the one of its own coroutine, and the others keep theirs. -/
theorem Timely.cancelTimer (timely : coTask.Timely clock apart) (within : apart ⊆ {coId})
    (settled : ∀ timerId, coTask.coIdTimerId.lookup coId = some timerId →
      coTask.Settles clock timerId)
    (own : ∀ node ∈ coTask.waiting, coTask.coIdTimerId.lookup coId = some node.id →
      node.info.task.coId = coId) : (coTask.cancelTimer coId).Timely clock {coId} := by
  refine ⟨fun other call different waits => ?_, ?_, fun timerId cancelled => ?_⟩
  · rw [waits_of_coPool cancelTimer_coPool] at waits
    obtain ⟨node, member, task, live⟩ :=
      timely.watched other call (fun inside => different (within inside)) waits
    refine ⟨node, by rwa [cancelTimer_waiting], task, ?_⟩
    rw [cancelTimer_cancelList, not_or]
    refine ⟨fun recorded => different ?_, live⟩
    have named := own node member recorded
    rw [task] at named
    exact named
  · rw [cancelTimer_waiting]
    exact timely.dated
  · rw [Settles, cancelTimer_waiting]
    rcases (cancelTimer_cancelList timerId).mp cancelled with recorded | old
    · exact settled timerId recorded
    · exact timely.spent timerId old

/-- A new timer has an identifier that no cancel entry has. -/
theorem Timely.unaliased (timely : coTask.Timely clock apart)
    (kept : coTask.mainCall.rest ⊆ coTask.mainCall.timeOutSet) {address : Addr}
    (fresh : address ∉ coTask.held) (begun : 0 ≤ clock) (bound : clock < 2 ^ 32 * 1000) :
    (address, toUint32 (clock.tdiv 1000)) ∉ coTask.timer.cancelList := by
  intro cancelled
  rcases timely.spent _ cancelled with ⟨node, member, same⟩ | passed
  · apply fresh
    have address : node.ptr = address := congrArg Prod.fst same
    rw [held, ← address]
    refine List.mem_map_of_mem (List.mem_append.mpr ?_)
    exact (List.mem_append.mp member).imp_right fun inside => kept inside
  · rw [toUint32_seconds begun bound] at passed
    exact absurd passed (lt_irrefl _)

/-- The coroutine that is woken waits with a new timer, or waits no more. -/
theorem Timely.woken (timely : coTask.Timely clock {coId}) (tidy : coTask.Tidy)
    (woken : Woken coTask coId wake segment outcome) (patient : segment.Patient clock)
    (begun : 0 ≤ clock) (bound : clock < 2 ^ 32 * 1000) : outcome.coTask.Timely clock ∅ := by
  cases woken with
  | missed absent =>
      refine ⟨fun other call _ waits => timely.watched other call ?_ waits, timely.dated,
        timely.spent⟩
      rintro rfl
      rw [CoTask.waits, CoPool.found_eq_none.mpr absent] at waits
      cases waits
  | finished active entered =>
      rename_i ptr first
      have changed := tidy.keyed.modify ptr (Coroutine.woken wake) fun _ => rfl
      refine ⟨fun other call _ waits => ?_, timely.dated, timely.spent⟩
      rw [CoTask.waits, afterFinish, CoPool.found_freeCoroutine changed active] at waits
      split_ifs at waits with here
      · cases waits
      · rw [CoPool.found_modify tidy.keyed active, if_neg here] at waits
        exact timely.watched other call here waits
  | yielded active entered fresh =>
      rename_i ptr first now timeOut address
      obtain ⟨rfl, long⟩ := patient
      have outside := fresh
      rw [held, List.map_append, List.mem_append, not_or] at outside
      let call := coTask.nextCall now timeOut
      let node := Timer.newNode address now timeOut (⟨coId, call⟩ : ResumeTask) false
      have placed := coTask.timer.addTimer_nodes outside.1 now timeOut ⟨coId, call⟩ false
      have order : (coTask.afterYield coId ptr wake now timeOut address).waiting.Perm
          (node :: coTask.waiting) := placed.append_right coTask.mainCall.rest
      have old : ∀ {other}, other ∈ coTask.waiting →
          other ∈ (coTask.afterYield coId ptr wake now timeOut address).waiting :=
        fun member => order.mem_iff.mpr (List.mem_cons_of_mem _ member)
      have live : node.id ∉ coTask.timer.cancelList :=
        timely.unaliased tidy.kept fresh begun bound
      refine ⟨fun other waiting _ waits => ?_, fun other member => ?_, fun timerId cancelled => ?_⟩
      · rw [CoTask.waits, afterYield, CoPool.found_modify tidy.keyed active] at waits
        split_ifs at waits with here
        · cases waits
          exact ⟨node, order.mem_iff.mpr List.mem_cons_self, here ▸ rfl, live⟩
        · obtain ⟨watch, member, task, uncancelled⟩ := timely.watched other waiting here waits
          exact ⟨watch, old member, task, uncancelled⟩
      · rcases List.mem_cons.mp (order.mem_iff.mp member) with rfl | before
        · exact ⟨le_refl _, long, toUint32_seconds begun bound, rfl⟩
        · exact timely.dated other before
      · refine (timely.spent timerId cancelled).imp_left ?_
        rintro ⟨other, member, same⟩
        exact ⟨other, old member, same⟩

/-- The calls, the nodes that wait and the cancel entries are all that counts. -/
theorem Timely.of_same {next : CoTask Body Msg} (timely : coTask.Timely clock apart)
    (waits : next.waits = coTask.waits) (nodes : next.waiting.Perm coTask.waiting)
    (cancels : next.timer.cancelList = coTask.timer.cancelList) : next.Timely clock apart := by
  refine ⟨fun coId call outside waiting => ?_, fun node member => ?_, fun timerId cancelled => ?_⟩
  · rw [waits] at waiting
    obtain ⟨node, member, task, live⟩ := timely.watched coId call outside waiting
    exact ⟨node, nodes.mem_iff.mpr member, task, cancels ▸ live⟩
  · exact timely.dated node (nodes.mem_iff.mp member)
  · rw [cancels] at cancelled
    refine (timely.spent timerId cancelled).imp_left ?_
    rintro ⟨node, member, same⟩
    exact ⟨node, nodes.mem_iff.mpr member, same⟩

/-- A node leaves with its cancel entry. Without one, nobody watches its coroutine for now. -/
theorem Timely.drop {next : CoTask Body Msg} {node : TimerNode ResumeTask}
    (timely : coTask.Timely clock ∅) (waits : next.waits = coTask.waits)
    (nodes : coTask.waiting.Perm (node :: next.waiting))
    (cancels : next.timer.cancelList = coTask.timer.cancelList.erase node.id)
    (spare : node.id ∈ coTask.timer.cancelList ∨ node.info.task.coId ∈ apart) :
    next.Timely clock apart := by
  have stays : ∀ {other}, other ∈ coTask.waiting → other ≠ node → other ∈ next.waiting := by
    intro other member different
    exact (List.mem_cons.mp (nodes.mem_iff.mp member)).resolve_left different
  refine ⟨fun coId call outside waiting => ?_, fun other member => ?_, fun timerId cancelled => ?_⟩
  · rw [waits] at waiting
    obtain ⟨watch, member, task, live⟩ :=
      timely.watched coId call (Set.notMem_empty coId) waiting
    refine ⟨watch, stays member ?_, task, ?_⟩
    · rintro rfl
      rcases spare with cancelled | inside
      · exact live cancelled
      · rw [task] at inside
        exact outside inside
    · rw [cancels]
      exact fun cancelled => live (Finset.mem_of_mem_erase cancelled)
  · exact timely.dated other (nodes.mem_iff.mpr (List.mem_cons_of_mem _ member))
  · rw [cancels, Finset.mem_erase] at cancelled
    refine (timely.spent timerId cancelled.2).imp_left ?_
    rintro ⟨other, member, rfl⟩
    exact ⟨other, stays member fun same => cancelled.1 (congrArg TimerNode.id same), rfl⟩

/-- No timer of the set is due. -/
def Swept (coTask : CoTask Body Msg) (now : Time) : Prop :=
  ∀ node ∈ coTask.timer.nodes, now < node.deadline

section Swept

variable {now : Time}

/-- `DoTimeOutTask` takes every node that is due. -/
theorem Tidy.swept (tidy : coTask.Tidy) (now : Time) : (coTask.doTimeOutTask now).Swept now := by
  intro node member
  by_contra late
  have split := coTask.timer.takeBatch_append now
  have stored : node ∈ coTask.timer.nodes := by
    rw [← split]
    exact List.mem_append_right _ member
  have taken := coTask.timer.mem_takeBatch stored (not_lt.mp late)
  have distinct : (coTask.timer.nodes.map TimerNode.ptr).Nodup := by
    have whole := tidy.addresses
    rw [waiting, List.map_append] at whole
    exact whole.of_append_left
  rw [← split] at distinct
  exact List.disjoint_of_nodup_append distinct.of_map taken member

/-- A body that yields arms a timer for later. -/
theorem Swept.woken (swept : coTask.Swept now) (past : now ≤ clock)
    (patient : segment.Patient clock) (woken : Woken coTask coId wake segment outcome) :
    outcome.coTask.Swept now := by
  cases woken with
  | missed absent => exact swept
  | finished active entered => exact swept
  | yielded active entered fresh =>
      rename_i ptr first started timeOut address
      obtain ⟨rfl, long⟩ := patient
      rw [held, List.map_append, List.mem_append, not_or] at fresh
      have placed := coTask.timer.addTimer_nodes fresh.1 started timeOut
        ⟨coId, coTask.nextCall started timeOut⟩ false
      intro node member
      rcases List.mem_cons.mp (placed.mem_iff.mp member) with rfl | old
      · have positive : (0 : Int) < timeOut := lt_of_lt_of_le (by decide) long
        exact lt_of_le_of_lt past (Int.lt_add_of_pos_right started positive)
      · exact swept node old

theorem Swept.cancelTimer (swept : coTask.Swept now) (coId : CoId) :
    (coTask.cancelTimer coId).Swept now := by
  rw [Swept, cancelTimer_nodes]
  exact swept

end Swept

/-- A running `DoTimeOutTask` was called in the past and has only nodes that were due. -/
def DueBy (coTask : CoTask Body Msg) (clock : Time) : Prop :=
  ∀ now timeOutSet rest, coTask.mainCall = .doTimeOutTask now timeOutSet rest →
    now ≤ clock ∧ ∀ node ∈ rest, node.deadline ≤ now

section DueBy

variable {next : CoTask Body Msg}

theorem DueBy.of_idle (idle : coTask.mainCall = .idle) : coTask.DueBy clock := by
  intro now timeOutSet rest running
  rw [idle] at running
  cases running

theorem DueBy.mono (dueBy : coTask.DueBy clock) {later : Time} (order : clock ≤ later) :
    coTask.DueBy later := by
  intro now timeOutSet rest running
  obtain ⟨started, due⟩ := dueBy now timeOutSet rest running
  exact ⟨started.trans order, due⟩

theorem DueBy.of_same (dueBy : coTask.DueBy clock) (same : next.mainCall = coTask.mainCall) :
    next.DueBy clock := by
  rw [DueBy, same]
  exact dueBy

theorem DueBy.doTimeOutTask : (coTask.doTimeOutTask clock).DueBy clock := by
  intro now timeOutSet rest running
  cases running
  exact ⟨le_refl _, fun node member => coTask.timer.takeBatch_due member⟩

/-- The rest of a batch is as due as the batch. -/
theorem DueBy.shorter (dueBy : coTask.DueBy clock) {now : Time}
    {timeOutSet rest : List (TimerNode ResumeTask)} {node : TimerNode ResumeTask}
    (running : coTask.mainCall = .doTimeOutTask now timeOutSet (node :: rest))
    (after : next.mainCall = .doTimeOutTask now timeOutSet rest) : next.DueBy clock := by
  intro started batch left same
  cases after.symm.trans same
  obtain ⟨past, due⟩ := dueBy now timeOutSet (node :: rest) running
  exact ⟨past, fun other member => due other (List.mem_cons_of_mem _ member)⟩

theorem DueBy.turned (dueBy : coTask.DueBy clock) (turned : Turned coTask segment outcome) :
    outcome.coTask.DueBy clock := by
  cases turned with
  | ended exhausted => exact DueBy.of_idle rfl
  | skipped running taken => exact dueBy.shorter running rfl
  | fired running armed woken =>
      refine dueBy.shorter running ?_
      rw [woken.mainCall, cancelTimer_mainCall]
  | resumed running woken =>
      intro now timeOutSet rest same
      rw [woken.mainCall] at same
      cases same

/-- A wake leaves the calls of the other coroutines alone. -/
theorem Woken.waits_of_ne (tidy : coTask.Tidy) (woken : Woken coTask coId wake segment outcome)
    {other : CoId} (different : other ≠ coId) : outcome.coTask.waits other = coTask.waits other := by
  obtain ⟨_, _, same⟩ := woken.pool tidy.keyed tidy.unmarked
  rw [waits, waits, same other different]

/-- A call that a turn ends was due. -/
theorem DueBy.lapsed (dueBy : coTask.DueBy clock) (orderly : coTask.Orderly)
    (turned : Turned coTask segment outcome) {call : YieldCall}
    (waits : coTask.waits coId = some call) (gone : outcome.coTask.waits coId ≠ some call) :
    call.madeAt + call.timeOut ≤ clock := by
  cases turned with
  | ended exhausted => exact absurd waits gone
  | skipped running taken => exact absurd waits gone
  | fired running armed woken =>
      rename_i now timeOutSet rest node
      have tidy := (orderly.tidy.turn running).cancelTimer node.info.task.coId
      have same : coId = node.info.task.coId := by
        by_contra different
        apply gone
        rw [woken.waits_of_ne tidy.1 different, waits_of_coPool cancelTimer_coPool]
        exact waits
      obtain ⟨co, found, suspended⟩ := armed.suspended
      have armedCall : some node.info.task.call = some call := by
        rw [← waits, CoTask.waits, same, found, Option.bind_some, suspended]
        rfl
      cases armedCall
      obtain ⟨started, due⟩ := dueBy now timeOutSet (node :: rest) running
      rw [← armed.due]
      exact (due node List.mem_cons_self).trans started
  | resumed running woken => exact absurd running (orderly.noLoop _ _)

end DueBy

/-- The calls are watched, and no timer of the set is due at a past time. -/
structure Punctual (coTask : CoTask Body Msg) (clock floor : Time) : Prop where
  orderly : coTask.Orderly
  timely : coTask.Timely clock ∅
  past : floor ≤ clock
  swept : coTask.Swept floor
  dueBy : coTask.DueBy clock

theorem Punctual.empty : (CoTask.empty : CoTask Body Msg).Punctual clock clock := by
  refine ⟨Orderly.empty, Timely.empty, le_refl _, ?_, DueBy.of_idle rfl⟩
  rintro node ⟨⟩

theorem Punctual.mono (punctual : coTask.Punctual clock floor) {later : Time}
    (order : clock ≤ later) : coTask.Punctual later floor :=
  ⟨punctual.orderly, punctual.timely.mono order, punctual.past.trans order, punctual.swept,
    punctual.dueBy.mono order⟩

theorem Punctual.lower (punctual : coTask.Punctual clock floor) {earlier : Time}
    (order : earlier ≤ floor) : coTask.Punctual clock earlier :=
  ⟨punctual.orderly, punctual.timely, order.trans punctual.past,
    fun node member => lt_of_le_of_lt order (punctual.swept node member), punctual.dueBy⟩

/-- When no main call runs, a call that waits has its deadline ahead. -/
theorem Punctual.ahead (punctual : coTask.Punctual clock floor)
    (idle : coTask.mainCall.isIdle = true) {call : YieldCall}
    (waits : coTask.waits coId = some call) : floor < call.madeAt + call.timeOut := by
  obtain ⟨node, member, task, _⟩ :=
    punctual.timely.watched coId call (Set.notMem_empty coId) waits
  have due := (punctual.timely.dated node member).due
  simp only [waiting, MainCall.eq_idle idle, MainCall.rest, List.append_nil] at member
  rw [task] at due
  rw [← due]
  exact punctual.swept node member

/-- The record of a coroutine that waits names the timer of its call. -/
theorem Punctual.recorded (punctual : coTask.Punctual clock floor) {timerId : TimerId}
    (recorded : coTask.coIdTimerId.lookup coId = some timerId) :
    ∃ node ∈ coTask.waiting, node.id = timerId ∧ node.info.task.coId = coId := by
  obtain ⟨suspended, timed⟩ := punctual.orderly.settled coId
  have active := timed.mp (by rw [recorded, Option.isSome_some])
  obtain ⟨co, found⟩ := Option.isSome_iff_exists.mp active
  obtain ⟨call, waiting⟩ := suspended co found
  have waits : coTask.waits coId = some call := by
    rw [CoTask.waits, found, Option.bind_some, waiting]
    rfl
  obtain ⟨node, member, task, live⟩ :=
    punctual.timely.watched coId call (Set.notMem_empty coId) waits
  have named : node.info.task.coId = coId := by rw [task]
  have armed := (punctual.orderly.tidy.armed node member live).recorded
  rw [named, recorded, Option.some.injEq] at armed
  exact ⟨node, member, armed.symm, named⟩

/-- A node that waits has its identifier to itself. -/
theorem Tidy.eq_of_id (tidy : coTask.Tidy) {first second : TimerNode ResumeTask}
    (firstMember : first ∈ coTask.waiting) (secondMember : second ∈ coTask.waiting)
    (same : first.id = second.id) : first = second :=
  List.inj_on_of_nodup_map tidy.addresses firstMember secondMember (congrArg Prod.fst same)

/-- The batch that is copied out waits on. -/
theorem Punctual.doTimeOutTask (punctual : coTask.Punctual clock floor)
    (idle : coTask.mainCall = .idle) : (coTask.doTimeOutTask clock).Punctual clock clock := by
  refine ⟨punctual.orderly.doTimeOutTask idle clock, ?_, le_refl _,
    punctual.orderly.tidy.swept clock, DueBy.doTimeOutTask⟩
  refine punctual.timely.of_same rfl ?_ rfl
  have split := coTask.timer.takeBatch_append clock
  simp only [waiting, idle, MainCall.rest, List.append_nil]
  rw [← split]
  exact List.perm_append_comm

section Turn

variable {now : Time} {timeOutSet rest : List (TimerNode ResumeTask)} {node : TimerNode ResumeTask}

theorem waiting_idle (exhausted : coTask.mainCall.rest = []) :
    ({ coTask with mainCall := .idle } : CoTask Body Msg).waiting.Perm coTask.waiting := by
  rw [waiting, waiting, exhausted]
  rfl

/-- A cancelled timer leaves with its cancel entry. -/
theorem Punctual.skip (punctual : coTask.Punctual clock floor)
    (running : coTask.mainCall = .doTimeOutTask now timeOutSet (node :: rest))
    {timer : Timer ResumeTask} (taken : coTask.timer.takeCancel node = some timer) :
    ({ coTask with timer, mainCall := .doTimeOutTask now timeOutSet rest } :
      CoTask Body Msg).Timely clock ∅ := by
  obtain ⟨cancelled, sameNodes, erased⟩ := coTask.timer.takeCancel_some taken
  refine punctual.timely.drop rfl ?_ erased (Or.inl cancelled)
  simp only [waiting, running, MainCall.rest, sameNodes]
  exact List.perm_middle

/-- A timer that fires leaves its coroutine without one. -/
theorem Punctual.turn (punctual : coTask.Punctual clock floor)
    (running : coTask.mainCall = .doTimeOutTask now timeOutSet (node :: rest))
    (live : node.id ∉ coTask.timer.cancelList) :
    ({ coTask with mainCall := .doTimeOutTask now timeOutSet rest } :
      CoTask Body Msg).Timely clock {node.info.task.coId} := by
  refine punctual.timely.drop rfl (waiting_turn running) ?_ (Or.inr rfl)
  exact (Finset.erase_eq_of_notMem live).symm

/-- The second of a timer that fires has passed. -/
theorem Punctual.fired_settles (punctual : coTask.Punctual clock floor)
    (running : coTask.mainCall = .doTimeOutTask now timeOutSet (node :: rest))
    (armed : coTask.Armed node) {timerId : TimerId}
    (recorded : coTask.coIdTimerId.lookup node.info.task.coId = some timerId) :
    ({ coTask with mainCall := .doTimeOutTask now timeOutSet rest } :
      CoTask Body Msg).Settles clock timerId := by
  have inside : node ∈ coTask.waiting := (waiting_turn running).mem_iff.mpr List.mem_cons_self
  have dated := punctual.timely.dated node inside
  obtain ⟨started, due⟩ := punctual.dueBy now timeOutSet (node :: rest) running
  have same : some node.id = some timerId := armed.recorded.symm.trans recorded
  cases same
  right
  have passed : node.info.task.call.madeAt + 1000 ≤ clock := by
    calc node.info.task.call.madeAt + 1000
        ≤ node.info.task.call.madeAt + node.info.task.call.timeOut :=
          Int.add_le_add_left dated.patient _
      _ = node.deadline := dated.due.symm
      _ ≤ now := due node List.mem_cons_self
      _ ≤ clock := started
  have next : (node.info.task.call.madeAt + 1000) / 1000 = node.info.task.call.madeAt / 1000 + 1 :=
    Int.add_ediv_of_dvd_right (dvd_refl _)
  have reached := Int.ediv_le_ediv (by decide : (0 : Int) < 1000) passed
  rw [next] at reached
  rw [TimerNode.id, dated.second]
  exact Int.lt_of_add_one_le reached

/-- A turn that meets a node skips it, or the node is not cancelled. -/
theorem skipped_or_live
    (running : coTask.mainCall = .doTimeOutTask now timeOutSet (node :: rest))
    (proceeded : coTask.proceed segment = some outcome) :
    (∃ timer, coTask.timer.takeCancel node = some timer ∧
      outcome = ⟨{ coTask with timer, mainCall := .doTimeOutTask now timeOutSet rest }, 0, []⟩) ∨
      node.id ∉ coTask.timer.cancelList := by
  cases taken : coTask.timer.takeCancel node with
  | none => exact Or.inr (coTask.timer.takeCancel_none taken)
  | some timer =>
      simp only [CoTask.proceed, running, taken, Option.some.injEq] at proceeded
      exact Or.inl ⟨timer, rfl, proceeded.symm⟩

end Turn

section Steps

variable (begun : 0 ≤ clock) (bound : clock < 2 ^ 32 * 1000)
include begun bound

/-- A message wakes a coroutine and cancels its timer. -/
theorem Punctual.resumeOneWithMsg (punctual : coTask.Punctual clock floor) {msg : Msg}
    (patient : segment.Patient clock)
    (resumed : coTask.resumeOneWithMsg coId msg segment = some outcome) :
    outcome.coTask.Punctual clock floor := by
  have tidy := punctual.orderly.tidy
  have woken := tidy.resumeOneWithMsg_cases resumed
  refine ⟨punctual.orderly.resumeOneWithMsg resumed, ?_, punctual.past,
    (punctual.swept.cancelTimer coId).woken punctual.past patient woken, ?_⟩
  · have cancelled : (coTask.cancelTimer coId).Timely clock {coId} := by
      refine punctual.timely.cancelTimer (Set.empty_subset _) (fun timerId recorded => ?_)
        fun node member recorded => ?_
      · obtain ⟨node, member, same, _⟩ := punctual.recorded recorded
        exact Or.inl ⟨node, member, same⟩
      · obtain ⟨watch, inside, same, named⟩ := punctual.recorded recorded
        rwa [tidy.eq_of_id member inside same.symm]
    exact cancelled.woken (tidy.cancelTimer coId).1 woken patient begun bound
  · refine punctual.dueBy.of_same ?_
    rw [woken.mainCall, cancelTimer_mainCall]

/-- A new coroutine starts without a timer. -/
theorem Punctual.addTack_wake (punctual : coTask.Punctual clock floor) (task : Body) {msg : Msg}
    (patient : segment.Patient clock)
    (room : coTask.coPool.freeList = [] → coTask.coPool.created + 1 < 2 ^ 32)
    (resumed : (coTask.addTack task).1.resumeOneWithMsg (coTask.addTack task).2 msg segment =
      some outcome) : outcome.coTask.Punctual clock floor := by
  have orderly := punctual.orderly
  have inactive := orderly.counted.nextCoId_inactive room
  have after := orderly.addTack_wake task room resumed
  have named : (coTask.addTack task).2 = coTask.coPool.nextCoId := CoPool.newCoroutine_id
  rw [named] at resumed
  have tidy := (orderly.tidy.addTack task inactive).1
  have woken := tidy.resumeOneWithMsg_cases resumed
  have unrecorded : (coTask.addTack task).1.coIdTimerId.lookup coTask.coPool.nextCoId = none := by
    have timed := (orderly.settled coTask.coPool.nextCoId).2
    rw [CoPool.found_eq_none.mpr inactive, Option.isSome_none] at timed
    exact Option.not_isSome_iff_eq_none.mp fun recorded => by simpa using timed.mp recorded
  have swept : (coTask.addTack task).1.Swept floor := punctual.swept
  refine ⟨after, ?_, punctual.past,
    (swept.cancelTimer _).woken punctual.past patient woken, ?_⟩
  · have added : (coTask.addTack task).1.Timely clock {coTask.coPool.nextCoId} := by
      refine ⟨fun other call different waits => ?_, punctual.timely.dated, punctual.timely.spent⟩
      obtain ⟨stored, found⟩ :=
        CoPool.found_newCoroutine orderly.tidy.keyed orderly.tidy.unmarked task other
      have old : other ≠ coTask.coPool.nextCoId := different
      rw [if_neg old] at found
      rw [CoTask.waits, CoTask.addTack, found] at waits
      exact punctual.timely.watched other call (Set.notMem_empty other) waits
    have cancelled : ((coTask.addTack task).1.cancelTimer coTask.coPool.nextCoId).Timely clock
        {coTask.coPool.nextCoId} := by
      refine added.cancelTimer subset_rfl (fun timerId recorded => ?_) fun node member recorded => ?_
      · rw [unrecorded] at recorded
        cases recorded
      · rw [unrecorded] at recorded
        cases recorded
    exact cancelled.woken (tidy.cancelTimer _).1 woken patient begun bound
  · refine punctual.dueBy.of_same ?_
    rw [woken.mainCall, cancelTimer_mainCall]
    rfl

/-- A turn skips a cancelled timer, or fires one whose second has passed. -/
theorem Punctual.proceed (punctual : coTask.Punctual clock floor) (patient : segment.Patient clock)
    (proceeded : coTask.proceed segment = some outcome) : outcome.coTask.Punctual clock floor := by
  have tidy := punctual.orderly.tidy
  refine ⟨punctual.orderly.proceed proceeded, ?_, punctual.past, ?_, ?_⟩
  · cases tidy.proceed_cases proceeded with
    | ended exhausted => exact punctual.timely.of_same rfl (waiting_idle exhausted) rfl
    | skipped running taken => exact punctual.skip running taken
    | fired running armed woken =>
        rename_i now timeOutSet rest node
        rcases skipped_or_live running proceeded with ⟨timer, taken, rfl⟩ | live
        · exact punctual.skip running taken
        · have order := waiting_turn running
          have cancelled := (punctual.turn running live).cancelTimer subset_rfl
            (fun timerId recorded => punctual.fired_settles running armed recorded)
            (fun other member recorded => ?_)
          · exact cancelled.woken ((tidy.turn running).cancelTimer _).1 woken patient begun bound
          · have apart := (order.map TimerNode.ptr).nodup_iff.mp tidy.addresses
            rw [List.map_cons, List.nodup_cons] at apart
            have same : some node.id = some other.id := armed.recorded.symm.trans recorded
            have address : other.ptr = node.ptr := congrArg Prod.fst (Option.some.inj same).symm
            exact absurd (List.mem_map.mpr ⟨other, member, address⟩) apart.1
    | resumed running woken => exact absurd running (punctual.orderly.noLoop _ _)
  · cases tidy.proceed_cases proceeded with
    | ended exhausted => exact punctual.swept
    | skipped running taken =>
        obtain ⟨_, sameNodes, _⟩ := coTask.timer.takeCancel_some taken
        intro node member
        exact punctual.swept node (sameNodes ▸ member)
    | fired running armed woken =>
        rename_i now timeOutSet rest node
        have turned : ({ coTask with mainCall := .doTimeOutTask now timeOutSet rest } :
            CoTask Body Msg).Swept floor := punctual.swept
        exact (turned.cancelTimer node.info.task.coId).woken punctual.past patient woken
    | resumed running woken => exact absurd running (punctual.orderly.noLoop _ _)
  · exact punctual.dueBy.turned (tidy.proceed_cases proceeded)

end Steps

/-- A switch to a saved context can always be left for good. -/
theorem switchTo_finish {ptr : CoPtr} (ready : (coTask.coPool.object ptr).context ≠ .unset) :
    (coTask.switchTo ptr wake .finish).isSome := by
  unfold switchTo CoPool.enter
  split
  · contradiction
  · rfl
  · rfl

/-- A turn can always be taken by a body that returns, and it shortens the batch. -/
theorem Orderly.proceed_finish (orderly : coTask.Orderly) {now : Time}
    {timeOutSet rest : List (TimerNode ResumeTask)} {node : TimerNode ResumeTask}
    (running : coTask.mainCall = .doTimeOutTask now timeOutSet (node :: rest)) :
    ∃ outcome, coTask.proceed .finish = some outcome ∧
      outcome.coTask.mainCall = .doTimeOutTask now timeOutSet rest := by
  have taken : (coTask.proceed .finish).isSome := by
    simp only [CoTask.proceed, running]
    split
    · rfl
    · rename_i passed
      let turned : CoTask Body Msg :=
        { coTask with mainCall := .doTimeOutTask now timeOutSet rest }
      have member : node ∈ coTask.waiting := (waiting_turn running).mem_iff.mpr List.mem_cons_self
      have live := coTask.timer.takeCancel_none passed
      obtain ⟨co, found, waits⟩ := (orderly.tidy.armed node member live).suspended
      obtain ⟨ptr, active, rfl⟩ := CoPool.found_eq_some.mp found
      rw [Option.isSome_map, resumeOne, cancelTimer_coPool, CoPool.resume, active, Option.map_some,
        resumed, Option.isSome_map]
      refine switchTo_finish ?_
      rw [CoPool.modify_same]
      dsimp only
      rw [waits]
      simp
  obtain ⟨outcome, proceeded⟩ := Option.isSome_iff_exists.mp taken
  refine ⟨outcome, proceeded, ?_⟩
  cases orderly.tidy.proceed_cases proceeded with
  | ended exhausted =>
      rw [running] at exhausted
      cases exhausted
  | skipped same taken =>
      cases running.symm.trans same
      rfl
  | fired same armed woken =>
      cases running.symm.trans same
      rw [woken.mainCall, cancelTimer_mainCall]
  | resumed same woken => exact absurd same (orderly.noLoop _ _)

end CoTask

end QServer
