import QServer.Trans.Deadline
import QServer.Redis.Replies
import QServer.Redis.OwnReply

/-
This file proves that `redissvr` answers each request at the first `TickTimeOutCo` that comes five
seconds after it, at the latest.
-/

namespace QServer
open Container Transition CoTask SvrCommTrans

/-- The time that an event of the loop reads. -/
def ServiceAct.read {Payload : Type} : ServiceAct Payload → Option Time
  | .onMsg _ _ now _ => some now
  | .tickTimeOutCo now => some now
  | _ => none

/-- The server under the clock of `time_mgr::now_ms`. -/
def timedService {Payload : Type} (wire : RedisWire Payload) (state : ClientBase.State)
    (begun : Time) : Machine (ServiceRun Payload × Time) (ServiceAct Payload) :=
  (serviceMachine wire state).clocked ServiceAct.read begun

namespace ServiceRun

variable {Payload : Type} {wire : RedisWire Payload} {run next : ServiceRun Payload}
  {clock floor : Time}

theorem observe_mgr (task : Option (TaskStart Payload))
    (event : CoEvent SharedTrans (Option (TaskMsg Payload))) :
    (run.observe wire task event).mgr = run.mgr := by
  unfold observe
  split
  · split
    · unfold beginTask
      split <;> rfl
    · rfl
  · rfl
  · split <;> rfl
  · rfl

/-- What the tasks do at their switches changes nothing in the manager. -/
theorem record_mgr (task : Option (TaskStart Payload))
    (outcome : MgrOutcome (Option (TaskMsg Payload))) :
    (run.record wire task outcome).mgr = outcome.mgr := by
  have kept : ∀ (events : List (CoEvent SharedTrans (Option (TaskMsg Payload))))
      (run : ServiceRun Payload), (events.foldl (observe wire task) run).mgr = run.mgr := by
    intro events
    induction events with
    | nil => exact fun _ => rfl
    | cons event rest ih =>
        intro run
        rw [List.foldl_cons, ih, observe_mgr]
  rw [record, kept]

/-- What a step does to the tasks. -/
inductive Moved (run next : ServiceRun Payload) : Prop
  | quiet (locals : next.locals = run.locals)
      (waits : next.mgr.coTask.waits = run.mgr.coTask.waits)
      (accepted : next.accepted = run.accepted)
  | ended {coId : CoId} (locals : next.locals = Function.update run.locals coId none)
      (waits : next.mgr.coTask.waits = Function.update run.mgr.coTask.waits coId none)
      (accepted : run.accepted <+: next.accepted)
  | submitted {coId : CoId} {head : MsgHead Payload} {call : YieldCall}
      (locals : next.locals =
        Function.update run.locals coId (some ⟨run.accepted.length, head⟩))
      (waits : next.mgr.coTask.waits = Function.update run.mgr.coTask.waits coId (some call))
      (timeOut : call.timeOut = 5000) (accepted : next.accepted = run.accepted ++ [head])

section Moved

variable {coId : CoId} {outcome : MgrOutcome (Option (TaskMsg Payload))}
  {last : CoEvent SharedTrans (Option (TaskMsg Payload))}

theorem Moved.of_quiet {task : Option (TaskStart Payload)} (events : outcome.events = [])
    (waits : outcome.mgr.coTask.waits = run.mgr.coTask.waits) :
    Moved run (run.record wire task outcome) := by
  rw [record, events, List.foldl_nil]
  exact .quiet rfl waits rfl

/-- A task that returns from its `Yield` ends. -/
theorem Moved.of_returned (sound : run.Sound) {task : Option (TaskStart Payload)}
    {call : YieldCall} {ret : Int} {wake : Wake (Option (TaskMsg Payload))}
    {msg : Option (Option (TaskMsg Payload))} (waiting : run.mgr.coTask.waits coId = some call)
    (events : outcome.events = [.returned coId call ret wake msg, last])
    (left : Left run.mgr.coTask coId .finish outcome.mgr.coTask last) :
    Moved run (run.record wire task outcome) := by
  have busy : run.locals coId ≠ none := by
    rw [Ne, sound.tracked coId, waiting]
    simp
  obtain ⟨locals, found⟩ := Option.ne_none_iff_exists'.mp busy
  cases left with
  | finished waits yields =>
      rw [record, events]
      simp only [List.foldl_cons, List.foldl_nil, observe, found]
      exact .ended rfl waits List.prefix_rfl

/-- A task that starts waits for redis, or ends at once. -/
theorem Moved.of_started {head : MsgHead Payload} {submits : Bool} {now : Time} {ptr : Addr}
    {shared : Option SharedTrans} (events : outcome.events = [.started coId shared, last])
    (left : Left run.mgr.coTask coId (taskSegment now ptr (some ⟨head, submits⟩))
      outcome.mgr.coTask last) :
    Moved run (run.record wire (some ⟨head, submits⟩) outcome) := by
  cases submits with
  | true =>
      cases left with
      | yielded waits yields =>
          rw [record, events]
          exact .submitted rfl waits rfl rfl
  | false =>
      cases left with
      | finished waits yields =>
          rw [record, events]
          refine .ended ?_ waits (List.prefix_append _ _)
          exact Function.update_idem _ _ _

end Moved

/-- Every step is one of the listed ones. -/
theorem Sound.moved (sound : run.Sound) {act : ServiceAct Payload}
    (stepped : run.step wire act = some next) : Moved run next := by
  have resting := sound.staffed.orderly.resting
  cases act with
  | setState state =>
      cases stepped
      exact .quiet rfl rfl rfl
  | onMsg head hiredis now ptr =>
      obtain ⟨outcome, served, rfl⟩ := Option.map_eq_some_iff.mp stepped
      obtain ⟨_, switched⟩ := TransMgr.step_switched resting served
      cases switched with
      | quiet events waits yields => exact .of_quiet events waits
      | started fresh events left =>
          have incoming : run.incoming wire head hiredis =
              some ⟨head, run.submits wire head hiredis⟩ := if_pos fresh
          rw [incoming] at left ⊢
          exact .of_started events left
      | answered named waiting events left =>
          have incoming : run.incoming wire head hiredis = none := if_neg named
          rw [incoming] at left
          exact .of_returned sound waiting events left
  | getCallback place reply =>
      obtain ⟨coId, _, called⟩ := Option.bind_eq_some_iff.mp stepped
      obtain ⟨_, operated⟩ := Option.ite_none_right_eq_some.mp called
      obtain ⟨outcome, settled, rfl⟩ := Option.map_eq_some_iff.mp operated
      obtain ⟨woken, resumed, rfl⟩ := Option.map_eq_some_iff.mp settled
      have sameTask : (run.mgr.settle woken).mgr.coTask = woken.coTask :=
        TransMgr.settle_coTask woken
      let called : ServiceRun Payload := { run with callbacks := run.callbacks.eraseIdx place }
      have calledSound : called.Sound :=
        ⟨sound.staffed, sound.tracked, sound.booked.frame _ _ _⟩
      have moved : Moved called (called.record wire none (run.mgr.settle woken)) := by
        obtain ⟨_, ⟨_, events, waits, _⟩ | ⟨call, last, waiting, events, left⟩⟩ :=
          resting.resumeOneWithMsg resumed
        · rw [← sameTask] at waits
          exact .of_quiet events waits
        · rw [← sameTask] at left
          exact .of_returned calledSound waiting events left
      cases moved with
      | quiet locals waits accepted => exact .quiet locals waits accepted
      | ended locals waits accepted => exact .ended locals waits accepted
      | submitted locals waits timeOut accepted => exact .submitted locals waits timeOut accepted
  | tickTimeOutCo now =>
      obtain ⟨outcome, served, rfl⟩ := Option.map_eq_some_iff.mp stepped
      obtain ⟨_, switched⟩ := TransMgr.step_switched resting served
      cases switched with
      | quiet events waits yields => exact .of_quiet events waits
  | proceed =>
      obtain ⟨outcome, served, rfl⟩ := Option.map_eq_some_iff.mp stepped
      obtain ⟨_, switched⟩ := TransMgr.step_switched resting served
      cases switched with
      | quiet events waits yields => exact .of_quiet events waits
      | timedOut waiting events left => exact .of_returned sound waiting events left

/-- The calls for the listed requests were made in time and last five seconds at most. -/
structure Overseen (run : ServiceRun Payload) (requests : List (MsgHead Payload)) (since : Time) :
    Prop where
  accepted : requests <+: run.accepted
  timeOut : ∀ coId call, run.mgr.coTask.waits coId = some call → call.timeOut = 5000
  older : ∀ coId locals call, run.locals coId = some locals → locals.number < requests.length →
    run.mgr.coTask.waits coId = some call → call.madeAt ≤ since

/-- A task that ends takes its call along, and a new task has a new number. -/
theorem Overseen.moved {requests : List (MsgHead Payload)} {since : Time}
    (overseen : run.Overseen requests since) (moved : Moved run next) :
    next.Overseen requests since := by
  cases moved with
  | quiet locals waits accepted =>
      refine ⟨accepted ▸ overseen.accepted, ?_, ?_⟩
      · rw [waits]
        exact overseen.timeOut
      · rw [locals, waits]
        exact overseen.older
  | ended locals waits accepted =>
      refine ⟨overseen.accepted.trans accepted, fun other call waiting => ?_,
        fun other mine call found below waiting => ?_⟩
      · rw [waits, Function.update_apply] at waiting
        split_ifs at waiting
        exact overseen.timeOut other call waiting
      · rw [locals, Function.update_apply] at found
        rw [waits, Function.update_apply] at waiting
        split_ifs at found waiting
        exact overseen.older other mine call found below waiting
  | submitted locals waits timeOut accepted =>
      refine ⟨accepted ▸ overseen.accepted.trans (List.prefix_append _ _),
        fun other call waiting => ?_, fun other mine call found below waiting => ?_⟩
      · rw [waits, Function.update_apply] at waiting
        split_ifs at waiting with here
        · cases waiting
          exact timeOut
        · exact overseen.timeOut other call waiting
      · rw [locals, Function.update_apply] at found
        rw [waits, Function.update_apply] at waiting
        split_ifs at found waiting with here
        · cases found
          exact absurd overseen.accepted.length_le (not_le.mpr below)
        · exact overseen.older other mine call found below waiting

theorem Sound.created (sound : run.Sound) : run.mgr.coTask.coPool.created < 2 ^ 32 := by
  have created := sound.staffed.created
  rw [List.length_range'] at created
  omega

theorem taskSegment_long (now : Time) (ptr : Addr) (task : Option (TaskStart Payload)) :
    (taskSegment now ptr task).Long := by
  unfold taskSegment
  split
  · exact (by decide : (1000 : Int) ≤ 5000)
  · trivial

theorem taskSegment_read {now : Time} {ptr : Addr} {task : Option (TaskStart Payload)} :
    ∀ time ∈ (taskSegment now ptr task).read, now = time := by
  unfold taskSegment
  split
  · exact fun time reads => Option.some.inj reads
  · rintro time ⟨⟩

/-- A step at the time of the clock keeps the calls of the server watched. -/
theorem Sound.punctual (sound : run.Sound) (punctual : run.mgr.coTask.Punctual clock floor)
    (begun : 0 ≤ clock) (bound : clock < 2 ^ 32 * 1000) {act : ServiceAct Payload}
    (reads : ∀ now ∈ act.read, clock = now) (stepped : run.step wire act = some next) :
    next.mgr.coTask.Punctual clock floor := by
  have few := (sound.step stepped).created
  cases act with
  | setState state =>
      cases stepped
      exact punctual
  | onMsg head hiredis now ptr =>
      obtain ⟨outcome, served, rfl⟩ := Option.map_eq_some_iff.mp stepped
      rw [record_mgr] at few ⊢
      refine TransMgr.punctual_step punctual begun bound (fun time reading => ?_) ?_ served few
      · exact (reads now rfl).trans (taskSegment_read time reading)
      · exact taskSegment_long now ptr _
  | getCallback place reply =>
      obtain ⟨coId, _, called⟩ := Option.bind_eq_some_iff.mp stepped
      obtain ⟨_, operated⟩ := Option.ite_none_right_eq_some.mp called
      obtain ⟨outcome, settled, rfl⟩ := Option.map_eq_some_iff.mp operated
      obtain ⟨woken, resumed, rfl⟩ := Option.map_eq_some_iff.mp settled
      rw [record_mgr, TransMgr.settle_coTask]
      have patient : Segment.Patient clock .finish := trivial
      exact punctual.resumeOneWithMsg begun bound patient resumed
  | tickTimeOutCo now =>
      obtain ⟨outcome, served, rfl⟩ := Option.map_eq_some_iff.mp stepped
      rw [record_mgr] at few ⊢
      refine TransMgr.punctual_step punctual begun bound ?_ ?_ served few
      · exact fun time reading => reads time reading
      · trivial
  | proceed =>
      obtain ⟨outcome, served, rfl⟩ := Option.map_eq_some_iff.mp stepped
      rw [record_mgr] at few ⊢
      refine TransMgr.punctual_step punctual begun bound ?_ ?_ served few
      · rintro now ⟨⟩
      · trivial

/-- The invariant of the server under its clock. -/
structure Prompt (floor : Time) (requests : List (MsgHead Payload)) (since : Time)
    (moment : ServiceRun Payload × Time) : Prop where
  begun : 0 ≤ moment.2
  sound : moment.1.Sound
  overseen : moment.1.Overseen requests since
  punctual : moment.2 < 2 ^ 32 * 1000 → moment.1.mgr.coTask.Punctual moment.2 floor

section Prompt

variable {requests : List (MsgHead Payload)} {since : Time} {moment later : ServiceRun Payload × Time}
  {state : ClientBase.State} {begun : Time}

theorem Prompt.start (nonneg : 0 ≤ begun) :
    Prompt begun [] begun (timedService wire state begun).start := by
  have idle : ((timedService wire state begun).start.1).mgr.coTask = CoTask.empty := by
    change (ServiceRun.start state : ServiceRun Payload).mgr.coTask = CoTask.empty
    rw [ServiceRun.start, TransMgr.registerCmd_coTask]
    rfl
  refine ⟨nonneg, Sound.start state, ⟨List.nil_prefix, ?_, ?_⟩, fun _ => ?_⟩
  · rw [idle]
    rintro coId call ⟨⟩
  · rintro coId locals call _ ⟨⟩
  · rw [idle]
    exact Punctual.empty

theorem Prompt.step (prompt : Prompt floor requests since moment) {act : ServiceAct Payload}
    (stepped : (serviceMachine wire state).step moment.1 act = some later.1) (order : moment.2 ≤ later.2)
    (reads : ∀ now ∈ act.read, later.2 = now) : Prompt floor requests since later := by
  have begun : 0 ≤ later.2 := prompt.begun.trans order
  refine ⟨begun, prompt.sound.step stepped,
    prompt.overseen.moved (prompt.sound.moved stepped), fun bound => ?_⟩
  have before := prompt.punctual (lt_of_le_of_lt order bound)
  exact prompt.sound.punctual (before.mono order) begun bound reads stepped

theorem Prompt.of_run (prompt : Prompt floor requests since moment) {acts : List (ServiceAct Payload)}
    (reached : (timedService wire state begun).run moment acts = some later) :
    Prompt floor requests since later := by
  have all : ∀ act ∈ acts, (fun _ : ServiceAct Payload => True) act := fun _ _ => trivial
  refine Machine.clocked_invariant ?_ prompt reached all
  exact fun moment act next held _ stepped order reads => held.step stepped order reads

/-- The requests that are accepted by now have calls that are made by now. -/
theorem Prompt.oversee (prompt : Prompt floor requests since moment)
    (bound : moment.2 < 2 ^ 32 * 1000) : Prompt floor moment.1.accepted moment.2 moment := by
  refine ⟨prompt.begun, prompt.sound, ⟨List.prefix_rfl, prompt.overseen.timeOut, ?_⟩,
    prompt.punctual⟩
  intro coId locals call _ _ waits
  have timely := (prompt.punctual bound).timely
  obtain ⟨node, member, task, _⟩ := timely.watched coId call (Set.notMem_empty coId) waits
  have past := (timely.dated node member).past
  rwa [task] at past

/-- The tick takes every timer that is due. -/
theorem Prompt.tick (prompt : Prompt floor requests since moment) {now : Time}
    (idle : moment.1.mgr.coTask.mainCall.isIdle = true) (order : moment.2 ≤ now)
    (bound : now < 2 ^ 32 * 1000) :
    ∃ next timeOutSet, (timedService wire state begun).step moment (.tickTimeOutCo now) =
        some next ∧ next.2 = now ∧ Prompt now requests since next ∧
      next.1.mgr.coTask.mainCall = .doTimeOutTask now timeOutSet timeOutSet := by
  have served : moment.1.mgr.step (.tickTimeOutCo now) =
      some ⟨moment.1.mgr.tickTimeOutCo now, 0, []⟩ := by
    simp only [TransMgr.step, idle, if_true, TransMgr.operate]
  have ran : moment.1.step wire (.tickTimeOutCo now) =
      some (moment.1.record wire none ⟨moment.1.mgr.tickTimeOutCo now, 0, []⟩) := by
    rw [ServiceRun.step, served, Option.map_some]
  have stepped : (serviceMachine wire state).step moment.1 (.tickTimeOutCo now) =
      some (moment.1.record wire none ⟨moment.1.mgr.tickTimeOutCo now, 0, []⟩) := ran
  have ticked : (moment.1.record wire none ⟨moment.1.mgr.tickTimeOutCo now, 0, []⟩).mgr.coTask =
      moment.1.mgr.coTask.doTimeOutTask now := rfl
  refine ⟨(moment.1.record wire none ⟨moment.1.mgr.tickTimeOutCo now, 0, []⟩, now),
    (moment.1.mgr.coTask.timer.takeBatch now).1, ?_, rfl, ?_, rfl⟩
  · exact Machine.clocked_step_read rfl order stepped
  · have kept : Prompt floor requests since
        (moment.1.record wire none ⟨moment.1.mgr.tickTimeOutCo now, 0, []⟩, now) :=
      prompt.step stepped order fun time reads => Option.some.inj reads
    have before := (prompt.punctual (lt_of_le_of_lt order bound)).mono order
    refine ⟨kept.begun, kept.sound, kept.overseen, fun _ => ?_⟩
    rw [ticked]
    exact before.doTimeOutTask (MainCall.eq_idle idle)

/-- A turn of the loop reads no time. -/
theorem proceed_step (wire : RedisWire Payload)
    {woken : Outcome SharedTrans (Option (TaskMsg Payload))}
    (proceeded : moment.1.mgr.coTask.proceed .finish = some woken) :
    ∃ next, (timedService wire state begun).step moment .proceed = some next ∧
      next.2 = moment.2 ∧ next.1.mgr.coTask = woken.coTask := by
  have served : moment.1.mgr.step (.proceed .finish) = some (moment.1.mgr.settle woken) := by
    rw [TransMgr.step, TransMgr.proceed, proceeded, Option.map_some]
  have stepped : moment.1.step wire .proceed =
      some (moment.1.record wire none (moment.1.mgr.settle woken)) := by
    rw [ServiceRun.step, served, Option.map_some]
  refine ⟨(_, moment.2), Machine.clocked_step rfl stepped, rfl, ?_⟩
  rw [record_mgr, TransMgr.settle_coTask]

/-- The turns of the loop come to an end. -/
theorem Prompt.turns (prompt : Prompt floor requests since moment)
    {now : Time} {timeOutSet rest : List (TimerNode ResumeTask)}
    (running : moment.1.mgr.coTask.mainCall = .doTimeOutTask now timeOutSet rest) :
    ∃ last, (timedService wire state begun).run moment
        (List.replicate (rest.length + 1) .proceed) = some last ∧ last.2 = moment.2 ∧
      last.1.mgr.coTask.mainCall.isIdle = true := by
  induction rest generalizing moment with
  | nil =>
      have proceeded : moment.1.mgr.coTask.proceed .finish =
          some ⟨{ moment.1.mgr.coTask with mainCall := .idle }, 0, []⟩ := by
        rw [CoTask.proceed, running]
      obtain ⟨next, stepped, same, ended⟩ := proceed_step wire proceeded
      refine ⟨next, (Machine.run_cons _).mpr ⟨next, stepped, rfl⟩, same, ?_⟩
      rw [ended]
      rfl
  | cons node rest ih =>
      obtain ⟨woken, proceeded, shorter⟩ :=
        prompt.sound.staffed.orderly.proceed_finish running
      obtain ⟨next, stepped, same, turned⟩ := proceed_step wire proceeded
      obtain ⟨moved, order, reads⟩ := Machine.clocked_cases stepped
      have kept : Prompt floor requests since next := prompt.step moved order reads
      rw [← turned] at shorter
      obtain ⟨last, continued, later, idle⟩ := ih kept shorter
      exact ⟨last, (Machine.run_cons _).mpr ⟨next, stepped, continued⟩, later.trans same, idle⟩

end Prompt

end ServiceRun

/-- The first `TickTimeOutCo` five seconds after a request finds it answered at its end. -/
theorem requests_answered_in_time {Payload : Type} {wire : RedisWire Payload}
    {state : ClientBase.State} {begun now : Time} {acts later : List (ServiceAct Payload)}
    {early late : ServiceRun Payload × Time} (nonneg : 0 ≤ begun)
    (reached : (timedService wire state begun).run (timedService wire state begun).start acts =
      some early)
    (continued : (timedService wire state begun).run early later = some late)
    (idle : late.1.mgr.coTask.mainCall.isIdle = true) (onTime : late.2 ≤ now)
    (waited : early.2 + 5000 ≤ now) (bound : now < 2 ^ 32 * 1000) :
    ∃ turns last, (timedService wire state begun).run late
        (.tickTimeOutCo now :: List.replicate turns .proceed) = some last ∧
      last.1.mgr.coTask.mainCall.isIdle = true ∧
      ∀ number request, early.1.accepted[number]? = some request →
        ∃ sent ∈ last.1.sent, sent.number = number ∧ sent.Answers request := by
  have order := Machine.clocked_le continued
  have before := (ServiceRun.Prompt.start nonneg).of_run reached
  have watched := before.oversee (lt_of_le_of_lt (order.trans onTime) bound)
  have kept := watched.of_run continued
  obtain ⟨ticked, timeOutSet, stepped, sameTime, swept, running⟩ := kept.tick idle onTime bound
  obtain ⟨last, turned, still, ended⟩ := swept.turns running
  have final := swept.of_run turned
  refine ⟨timeOutSet.length + 1, last, (Machine.run_cons _).mpr ⟨ticked, stepped, turned⟩, ended,
    fun number request known => ?_⟩
  have books := final.sound.oneReply
  obtain ⟨more, same⟩ := final.overseen.accepted
  have listed : last.1.accepted[number]? = some request := by
    rw [← same]
    exact getElem?_append_some known more
  obtain ⟨below, _⟩ := List.getElem?_eq_some_iff.mp listed
  have answered : number ∈ last.1.sent.map SentReply.number := by
    refine (books.ended number below).mpr ?_
    rintro coId locals found rfl
    have busy : last.1.mgr.coTask.waits coId ≠ none := by
      rw [Ne, ← final.sound.tracked coId, found]
      simp
    obtain ⟨call, waits⟩ := Option.ne_none_iff_exists'.mp busy
    obtain ⟨old, _⟩ := List.getElem?_eq_some_iff.mp known
    have made := final.overseen.older coId locals call found old waits
    have fresh := (final.punctual (by rw [still, sameTime]; exact bound)).ahead ended waits
    rw [final.overseen.timeOut coId call waits] at fresh
    exact absurd (lt_of_lt_of_le fresh (Int.add_le_add_right made 5000)) (not_lt.mpr waited)
  obtain ⟨sent, member, same⟩ := List.mem_map.mp answered
  obtain ⟨client, theirs, answers⟩ := books.answers sent member
  rw [same, listed, Option.some.injEq] at theirs
  exact ⟨sent, member, same, theirs ▸ answers⟩

/-- A `PING` of the client at `[1]` in the coroutine 7, and one of the client at `[2]`. -/
def firstPing : ServiceAct (RedisCmdReq ⊕ RedisCmdRsp) :=
  .onMsg ⟨redisCmdReq, 7, 0, [1], [0], .inl ⟨[[80, 73, 78, 71]], []⟩⟩ (fun _ => 0) 100 1

def secondPing : ServiceAct (RedisCmdReq ⊕ RedisCmdRsp) :=
  .onMsg ⟨redisCmdReq, 8, 0, [2], [0], .inl ⟨[[80, 73, 78, 71]], []⟩⟩ (fun _ => 0) 3000 2

/-- Redis answers the second command only. -/
theorem requests_answered_in_time_ping :
    ∃ early late, (timedService plainWire .kConnected 0).run
        (timedService plainWire .kConnected 0).start [firstPing] = some early ∧
      (timedService plainWire .kConnected 0).run early
        [secondPing, .getCallback 1 (some ⟨RedisReplyType.status, 0, some [80], []⟩)] = some late ∧
      ∃ turns last, (timedService plainWire .kConnected 0).run late
          (.tickTimeOutCo 5100 :: List.replicate turns .proceed) = some last ∧
        last.1.mgr.coTask.mainCall.isIdle = true ∧
        ∀ number request, early.1.accepted[number]? = some request →
          ∃ sent ∈ last.1.sent, sent.number = number ∧ sent.Answers request := by
  have reached : (((timedService plainWire .kConnected 0).run
      (timedService plainWire .kConnected 0).start [firstPing]).any fun early =>
        decide (early.2 + 5000 ≤ 5100) && ((timedService plainWire .kConnected 0).run early
          [secondPing, .getCallback 1 (some ⟨RedisReplyType.status, 0, some [80], []⟩)]).any
            fun late => late.1.mgr.coTask.mainCall.isIdle && decide (late.2 ≤ 5100)) = true := by
    have start : (timedService plainWire .kConnected 0).start =
        (⟨⟨Finmap.insert redisCmdReq (List.range' 0 10000) ∅, CoTask.empty, fun _ => 0, 10000⟩,
          .kConnected, fun _ => none, [], [], []⟩, 0) :=
      congrArg (·, 0) (ServiceRun.start_eq .kConnected)
    rw [start]
    decide +kernel
  obtain ⟨early, reached, checked⟩ := Machine.exists_of_check _ reached
  obtain ⟨waited, continued⟩ := (Bool.and_eq_true _ _).mp checked
  obtain ⟨late, continued, checked⟩ := Machine.exists_of_check _ continued
  obtain ⟨idle, onTime⟩ := (Bool.and_eq_true _ _).mp checked
  exact ⟨early, late, reached, continued, requests_answered_in_time (le_refl 0) reached continued
    idle (of_decide_eq_true onTime) (of_decide_eq_true waited) (by decide)⟩

end QServer
