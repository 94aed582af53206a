import QServer.Lib.Clocked
import QServer.Co.Timely
import QServer.Trans.Scheduler

/-
This file proves that no call of a transaction waits beyond the first `TickTimeOutCo` after its
time.
-/

namespace QServer
open Container Transition CoTask

/-- The time that a body reads. -/
def Segment.read : Segment → Option Time
  | .yield now _ _ => some now
  | .finish => none

/-- A body that yields waits for a second or longer. -/
def Segment.Long : Segment → Prop
  | .yield _ timeOut _ => 1000 ≤ timeOut
  | .finish => True

instance : DecidablePred Segment.Long
  | .yield _ timeOut _ => inferInstanceAs (Decidable (1000 ≤ timeOut))
  | .finish => isTrue trivial

theorem Segment.Long.patient {segment : Segment} (long : segment.Long) {clock : Time}
    (reads : ∀ now ∈ segment.read, clock = now) : segment.Patient clock := by
  cases segment with
  | yield now timeOut ptr => exact ⟨(reads now rfl).symm, long⟩
  | finish => trivial

namespace TransAct

variable {Data : Type}

/-- The time that a call of the manager reads. -/
def read : TransAct Data → Option Time
  | .registerCmd _ _ => none
  | .onMsg _ segment => segment.read
  | .tickTimeOutCo now => some now
  | .proceed segment => segment.read

/-- The bodies that run in the call wait for a second or longer. -/
def Long : TransAct Data → Prop
  | .onMsg _ segment => segment.Long
  | .proceed segment => segment.Long
  | _ => True

instance : DecidablePred (Long : TransAct Data → Prop)
  | .registerCmd _ _ => isTrue trivial
  | .onMsg _ segment => inferInstanceAs (Decidable segment.Long)
  | .tickTimeOutCo _ => isTrue trivial
  | .proceed segment => inferInstanceAs (Decidable segment.Long)

end TransAct

/-- The manager under the clock of `time_mgr::now_ms`. -/
def timedMachine (Data : Type) (begun : Time) : Machine (TransMgr Data × Time) (TransAct Data) :=
  (transMachine Data).clocked TransAct.read begun

namespace TransMgr

variable {Data : Type} {mgr : TransMgr Data} {outcome : MgrOutcome Data} {act : TransAct Data}
  {clock floor : Time}

/-- A message starts a transaction or wakes one, and keeps the calls watched. -/
theorem punctual_onMsg (punctual : mgr.coTask.Punctual clock floor) (begun : 0 ≤ clock)
    (bound : clock < 2 ^ 32 * 1000) {msg : TransMsg Data} {segment : Segment}
    (patient : segment.Patient clock) (stepped : mgr.onMsg msg segment = some outcome)
    (few : outcome.mgr.coTask.coPool.created < 2 ^ 32) :
    outcome.mgr.coTask.Punctual clock floor := by
  rcases onMsg_cases stepped with ⟨_, _, rfl⟩ | ⟨_, taken, shared, got, started⟩ |
    ⟨_, woken, resumed, rfl⟩ | ⟨_, _, rfl⟩
  · exact punctual
  · obtain ⟨trans, _, _, rfl⟩ := getShared_cases got
    obtain ⟨woken, resumed, rfl⟩ := Option.map_eq_some_iff.mp started
    rw [release_coTask, settle_coTask] at few ⊢
    have started : woken.coTask.Punctual clock floor := by
      refine punctual.addTack_wake begun bound shared patient (fun empty => ?_) resumed
      rw [resumeOneWithMsg_created resumed, CoTask.addTack, CoPool.newCoroutine_created] at few
      split_ifs at few with filled
      · exact few
      · exact absurd empty filled
    exact started
  · rw [settle_coTask]
    exact punctual.resumeOneWithMsg begun bound patient resumed
  · exact punctual

/-- A step at the time of the clock keeps the calls watched. -/
theorem punctual_step (punctual : mgr.coTask.Punctual clock floor) (begun : 0 ≤ clock)
    (bound : clock < 2 ^ 32 * 1000) (reads : ∀ now ∈ act.read, clock = now) (long : act.Long)
    (stepped : mgr.step act = some outcome) (few : outcome.mgr.coTask.coPool.created < 2 ^ 32) :
    outcome.mgr.coTask.Punctual clock floor := by
  cases act with
  | registerCmd cmd count =>
      obtain ⟨_, operated⟩ := Option.ite_none_right_eq_some.mp stepped
      cases operated
      rwa [registerCmd_coTask]
  | onMsg msg segment =>
      obtain ⟨_, operated⟩ := Option.ite_none_right_eq_some.mp stepped
      have patient : segment.Patient clock := Segment.Long.patient long reads
      exact punctual_onMsg punctual begun bound patient operated few
  | tickTimeOutCo now =>
      obtain ⟨idle, operated⟩ := Option.ite_none_right_eq_some.mp stepped
      cases operated
      cases reads now rfl
      exact (punctual.doTimeOutTask (MainCall.eq_idle idle)).lower punctual.past
  | proceed segment =>
      obtain ⟨woken, proceeded, rfl⟩ := Option.map_eq_some_iff.mp stepped
      rw [settle_coTask]
      exact punctual.proceed begun bound (Segment.Long.patient long reads) proceeded

/-- The calls are watched while the seconds and the identifiers do not wrap. -/
def Attended (floor : Time) (moment : TransMgr Data × Time) : Prop :=
  0 ≤ moment.2 ∧ (moment.2 < 2 ^ 32 * 1000 → moment.1.coTask.coPool.created < 2 ^ 32 →
    moment.1.coTask.Punctual moment.2 floor)

theorem attended_step {moment next : TransMgr Data × Time} (attended : Attended floor moment) (long : act.Long)
    (stepped : (transMachine Data).step moment.1 act = some next.1) (order : moment.2 ≤ next.2)
    (reads : ∀ now ∈ act.read, next.2 = now) : Attended floor next := by
  obtain ⟨outcome, operated, same⟩ := Option.map_eq_some_iff.mp stepped
  obtain ⟨begun, punctual⟩ := attended
  have later : 0 ≤ next.2 := begun.trans order
  refine ⟨later, fun bound few => ?_⟩
  rw [← same] at few ⊢
  have fewer := lt_of_le_of_lt (step_scheduled operated).created few
  have before := punctual (lt_of_le_of_lt order bound) fewer
  exact punctual_step (before.mono order) later bound reads long operated few

/-- A `TickTimeOutCo` leaves no timer that is due. -/
theorem attended_tick {moment next : TransMgr Data × Time} {now : Time}
    (attended : Attended floor moment) (order : moment.2 ≤ next.2) (reads : next.2 = now)
    (stepped : (transMachine Data).step moment.1 (.tickTimeOutCo now) = some next.1) :
    Attended now next := by
  obtain ⟨outcome, operated, same⟩ := Option.map_eq_some_iff.mp stepped
  obtain ⟨begun, punctual⟩ := attended
  obtain ⟨idle, ticked⟩ := Option.ite_none_right_eq_some.mp operated
  cases ticked
  rw [reads] at order
  refine ⟨reads ▸ begun.trans order, fun bound few => ?_⟩
  rw [reads] at bound
  rw [← same] at few ⊢
  have before := punctual (lt_of_le_of_lt order bound) few
  rw [reads]
  exact (before.mono order).doTimeOutTask (MainCall.eq_idle idle)

theorem attended_run {begun : Time} {first last : TransMgr Data × Time} {acts : List (TransAct Data)}
    (attended : Attended floor first) (long : ∀ act ∈ acts, act.Long)
    (reached : (timedMachine Data begun).run first acts = some last) : Attended floor last := by
  refine Machine.clocked_invariant ?_ attended reached long
  exact fun moment act next held allowed stepped order reads =>
    attended_step held allowed stepped order reads

end TransMgr

/-- Every call that waits has its timer, and `TickTimeOutCo` leaves no late call. -/
theorem calls_end_in_time {Data : Type} {begun : Time} {acts : List (TransAct Data)}
    {last : TransMgr Data × Time} (nonneg : 0 ≤ begun)
    (reached : (timedMachine Data begun).run (timedMachine Data begun).start acts = some last)
    (long : ∀ act ∈ acts, act.Long)
    (bound : last.2 < 2 ^ 32 * 1000) (few : last.1.coTask.coPool.created < 2 ^ 32) :
    (∀ coId call, last.1.coTask.waits coId = some call →
      ∃ node ∈ last.1.coTask.waiting, node.info.task = ⟨coId, call⟩ ∧
        node.deadline = call.madeAt + call.timeOut ∧ node.id ∉ last.1.coTask.timer.cancelList) ∧
      ∀ earlier now later, acts = earlier ++ .tickTimeOutCo now :: later →
        last.1.coTask.mainCall.isIdle = true → ∀ coId call,
          last.1.coTask.waits coId = some call → now < call.madeAt + call.timeOut := by
  have start : TransMgr.Attended begun (timedMachine Data begun).start :=
    ⟨nonneg, fun _ _ => Punctual.empty⟩
  constructor
  · intro coId call waits
    have timely := ((TransMgr.attended_run start long reached).2 bound few).timely
    obtain ⟨node, member, task, live⟩ := timely.watched coId call (Set.notMem_empty coId) waits
    have due := (timely.dated node member).due
    rw [task] at due
    exact ⟨node, member, task, due, live⟩
  · rintro earlier now later rfl idle coId call waits
    rw [List.forall_mem_append, List.forall_mem_cons] at long
    obtain ⟨moment, before, continued⟩ := (Machine.run_append _).mp reached
    obtain ⟨ticked, stepped, after⟩ := (Machine.run_cons _).mp continued
    obtain ⟨moved, order, reads⟩ := Machine.clocked_cases stepped
    have first := TransMgr.attended_run start long.1 before
    have swept := TransMgr.attended_tick first order (reads now rfl) moved
    exact ((TransMgr.attended_run swept long.2.2 after).2 bound few).ahead idle waits

/-- A message ends one call, a timer ends the second, and the third has its time ahead. -/
def threeCallsRun : List (TransAct Unit) :=
  [.registerCmd 1 2, .onMsg ⟨1, 0, ()⟩ (.yield 0 5000 1), .onMsg ⟨1, 1, ()⟩ (.yield 10 1000 2),
    .onMsg ⟨1, 0, ()⟩ (.yield 700 1000 3), .tickTimeOutCo 1010, .proceed .finish, .proceed .finish]

theorem calls_end_in_time_third : ∃ last : TransMgr Unit × Time,
    (timedMachine Unit 0).run (timedMachine Unit 0).start threeCallsRun = some last ∧
      (∀ coId call, last.1.coTask.waits coId = some call →
        ∃ node ∈ last.1.coTask.waiting, node.info.task = ⟨coId, call⟩ ∧
          node.deadline = call.madeAt + call.timeOut ∧ node.id ∉ last.1.coTask.timer.cancelList) ∧
      ∀ earlier now later, threeCallsRun = earlier ++ .tickTimeOutCo now :: later →
        last.1.coTask.mainCall.isIdle = true → ∀ coId call,
          last.1.coTask.waits coId = some call → now < call.madeAt + call.timeOut := by
  have reached : ((timedMachine Unit 0).run (timedMachine Unit 0).start threeCallsRun).any
      (fun last => decide (last.2 < 2 ^ 32 * 1000 ∧ last.1.coTask.coPool.created < 2 ^ 32)) =
        true := by decide +kernel
  obtain ⟨last, reached, bounds⟩ := Machine.exists_of_check _ reached
  obtain ⟨bound, few⟩ := of_decide_eq_true bounds
  exact ⟨last, reached, calls_end_in_time (le_refl 0) reached (by decide) bound few⟩

end QServer
