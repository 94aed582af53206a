import QServer.Lib.Machine
import QServer.Co.Tidy

/-
This file proves what the result of `Yield` means.
-/

namespace QServer
open Transition CoTask

/-- The coroutine tasks with the record of all switches. -/
structure CoRun (Body Msg : Type) where
  coTask : CoTask Body Msg
  trace : List (CoEvent Body Msg)

/-- The public operations of the main context. A running loop takes its turns by `proceed`. -/
inductive CoAct (Body Msg : Type)
  | addTack (task : Body)
  | doTack (task : Body) (segment : Segment)
  | resumeOne (coId : CoId) (segment : Segment)
  | resumeOneWithMsg (coId : CoId) (msg : Msg) (segment : Segment)
  | resumeAll (order : List CoId)
  | doTimeOutTask (now : Time)
  | proceed (segment : Segment)

namespace CoRun

variable {Body Msg : Type} (run : CoRun Body Msg)

def record (outcome : Outcome Body Msg) : CoRun Body Msg :=
  ⟨outcome.coTask, run.trace ++ outcome.events⟩

def start : CoRun Body Msg := ⟨CoTask.empty, []⟩

/-- The result of an operation that needs the main context. -/
def operate : CoAct Body Msg → Option (Outcome Body Msg)
  | .addTack task => some ⟨(run.coTask.addTack task).1, (run.coTask.addTack task).2, []⟩
  | .doTack task segment => run.coTask.doTack task segment
  | .resumeOne coId segment => run.coTask.resumeOne coId .resumeOne segment
  | .resumeOneWithMsg coId msg segment => run.coTask.resumeOneWithMsg coId msg segment
  | .resumeAll order => (run.coTask.resumeAll order).map fun coTask => ⟨coTask, 0, []⟩
  | .doTimeOutTask now => some ⟨run.coTask.doTimeOutTask now, 0, []⟩
  | .proceed _ => none

def step : CoAct Body Msg → Option (CoRun Body Msg)
  | .proceed segment => (run.coTask.proceed segment).map run.record
  | act =>
      if run.coTask.mainCall.isIdle then (run.operate act).map run.record else none

end CoRun

/-- All that an operation can do. -/
inductive Performed {Body Msg : Type} (coTask : CoTask Body Msg) :
    CoAct Body Msg → Outcome Body Msg → Prop
  | addTack {task : Body} (idle : coTask.mainCall.isIdle = true) :
      Performed coTask (.addTack task) ⟨(coTask.addTack task).1, (coTask.addTack task).2, []⟩
  | doTack {task : Body} {segment : Segment} {outcome : Outcome Body Msg}
      (idle : coTask.mainCall.isIdle = true) (resumed : coTask.doTack task segment = some outcome) :
      Performed coTask (.doTack task segment) outcome
  | resumeOne {coId : CoId} {segment : Segment} {outcome : Outcome Body Msg}
      (idle : coTask.mainCall.isIdle = true)
      (resumed : coTask.resumeOne coId .resumeOne segment = some outcome) :
      Performed coTask (.resumeOne coId segment) outcome
  | resumeOneWithMsg {coId : CoId} {msg : Msg} {segment : Segment} {outcome : Outcome Body Msg}
      (idle : coTask.mainCall.isIdle = true)
      (resumed : coTask.resumeOneWithMsg coId msg segment = some outcome) :
      Performed coTask (.resumeOneWithMsg coId msg segment) outcome
  | resumeAll {order : List CoId} (idle : coTask.mainCall.isIdle = true) :
      Performed coTask (.resumeAll order)
        ⟨{ coTask with mainCall := .resumeAll order order }, 0, []⟩
  | doTimeOutTask {now : Time} (idle : coTask.mainCall.isIdle = true) :
      Performed coTask (.doTimeOutTask now) ⟨coTask.doTimeOutTask now, 0, []⟩
  | proceed {segment : Segment} {outcome : Outcome Body Msg}
      (proceeded : coTask.proceed segment = some outcome) :
      Performed coTask (.proceed segment) outcome

/-- A step records what its operation does. -/
theorem CoRun.step_cases {Body Msg : Type} {run next : CoRun Body Msg} {act : CoAct Body Msg}
    (stepped : run.step act = some next) :
    ∃ outcome, Performed run.coTask act outcome ∧ next = run.record outcome := by
  cases act with
  | proceed segment =>
      obtain ⟨outcome, proceeded, rfl⟩ := Option.map_eq_some_iff.mp stepped
      exact ⟨outcome, .proceed proceeded, rfl⟩
  | addTack task =>
      obtain ⟨idle, operated⟩ := Option.ite_none_right_eq_some.mp stepped
      cases operated
      exact ⟨_, .addTack idle, rfl⟩
  | doTack task segment =>
      obtain ⟨idle, operated⟩ := Option.ite_none_right_eq_some.mp stepped
      obtain ⟨outcome, resumed, rfl⟩ := Option.map_eq_some_iff.mp operated
      exact ⟨outcome, .doTack idle resumed, rfl⟩
  | resumeOne coId segment =>
      obtain ⟨idle, operated⟩ := Option.ite_none_right_eq_some.mp stepped
      obtain ⟨outcome, resumed, rfl⟩ := Option.map_eq_some_iff.mp operated
      exact ⟨outcome, .resumeOne idle resumed, rfl⟩
  | resumeOneWithMsg coId msg segment =>
      obtain ⟨idle, operated⟩ := Option.ite_none_right_eq_some.mp stepped
      obtain ⟨outcome, resumed, rfl⟩ := Option.map_eq_some_iff.mp operated
      exact ⟨outcome, .resumeOneWithMsg idle resumed, rfl⟩
  | resumeAll order =>
      obtain ⟨idle, operated⟩ := Option.ite_none_right_eq_some.mp stepped
      obtain ⟨outcome, made, rfl⟩ := Option.map_eq_some_iff.mp operated
      obtain ⟨coTask, copied, rfl⟩ := Option.map_eq_some_iff.mp made
      obtain ⟨_, same⟩ := Option.ite_none_right_eq_some.mp copied
      cases same
      exact ⟨_, .resumeAll idle, rfl⟩
  | doTimeOutTask now =>
      obtain ⟨idle, operated⟩ := Option.ite_none_right_eq_some.mp stepped
      cases operated
      exact ⟨_, .doTimeOutTask idle, rfl⟩

/-- The coroutine tasks with every order of public operations and every task body. -/
def coMachine (Body Msg : Type) : Machine (CoRun Body Msg) (CoAct Body Msg) :=
  ⟨CoRun.start, CoRun.step⟩

/-- A -1 comes from the timer of the call in time, and every other wake gives 0. -/
def CoEvent.Meaningful {Body Msg : Type} : CoEvent Body Msg → Prop
  | .returned _ call ret wake _ =>
      (ret = -1 → ∃ now, wake = .timer call now ∧ call.madeAt + call.timeOut ≤ now) ∧
        ((∀ now, wake ≠ .timer call now) → ret = 0)
  | _ => True

/-- No new identifier is taken, and `ResumeAll` resumes no coroutine with a live timer. -/
def Careful {Body Msg : Type} (run : CoRun Body Msg) : CoAct Body Msg → Prop
  | .addTack _ => run.coTask.coPool.findCoId run.coTask.coPool.nextCoId = none
  | .doTack _ _ => run.coTask.coPool.findCoId run.coTask.coPool.nextCoId = none
  | .proceed _ => ∀ coIdList coId rest,
      run.coTask.mainCall = .resumeAll coIdList (coId :: rest) → run.coTask.Disarmed coId
  | _ => True

/-- The coroutine that the next turn of a running `ResumeAll` resumes. -/
def MainCall.resumes : MainCall → Option CoId
  | .resumeAll _ (coId :: _) => some coId
  | _ => none

theorem MainCall.mem_resumes {mainCall : MainCall} {coId : CoId} :
    coId ∈ mainCall.resumes ↔
      ∃ coIdList rest, mainCall = .resumeAll coIdList (coId :: rest) := by
  constructor
  · intro next
    cases mainCall with
    | resumeAll coIdList rest =>
        cases rest with
        | nil => cases next
        | cons first rest =>
            cases next
            exact ⟨coIdList, rest, rfl⟩
    | _ => cases next
  · rintro ⟨coIdList, rest, rfl⟩
    rfl

instance {Body Msg : Type} (run : CoRun Body Msg) : DecidablePred (Careful run)
  | .addTack _ => inferInstanceAs
      (Decidable (run.coTask.coPool.findCoId run.coTask.coPool.nextCoId = none))
  | .doTack _ _ => inferInstanceAs
      (Decidable (run.coTask.coPool.findCoId run.coTask.coPool.nextCoId = none))
  | .resumeOne _ _ => isTrue trivial
  | .resumeOneWithMsg _ _ _ => isTrue trivial
  | .resumeAll _ => isTrue trivial
  | .doTimeOutTask _ => isTrue trivial
  | .proceed _ => decidable_of_iff (∀ coId ∈ run.coTask.mainCall.resumes,
      ∀ node ∈ run.coTask.waiting, node.info.task.coId = coId →
        node.id ∈ run.coTask.timer.cancelList)
      ⟨fun disarmed coIdList coId rest running =>
          disarmed coId (MainCall.mem_resumes.mpr ⟨coIdList, rest, running⟩),
        fun careful coId next => by
          obtain ⟨coIdList, rest, running⟩ := MainCall.mem_resumes.mp next
          exact careful coIdList coId rest running⟩

namespace CoTask

variable {Body Msg : Type} {coTask : CoTask Body Msg} {coId : CoId} {wake : Wake Msg}
  {segment : Segment} {outcome : Outcome Body Msg}

/-- A wake gives meaningful results when a timer wakes its own call in time. -/
theorem Woken.meaningful (woken : Woken coTask coId wake segment outcome)
    (own : ∀ call now, wake = .timer call now → call.madeAt + call.timeOut ≤ now ∧
      ∃ co, coTask.coPool.found coId = some co ∧ co.context = .suspended call) :
    ∀ event ∈ outcome.events, event.Meaningful := by
  have first : ∀ {ptr event}, coTask.coPool.findCoId coId = some ptr →
      Entered coId wake (coTask.coPool.object ptr) event → event.Meaningful := by
    intro ptr event active entered
    cases entered with
    | started ready => trivial
    | returned waits =>
        rename_i call
        cases wake with
        | timer armed now =>
            obtain ⟨due, co, found, suspended⟩ := own armed now rfl
            rw [CoPool.found, active, Option.map_some, Option.some.injEq] at found
            rw [← found, waits, Context.suspended.injEq] at suspended
            subst suspended
            exact ⟨fun _ => ⟨now, rfl, due⟩, fun other => absurd rfl (other now)⟩
        | _ => exact ⟨by simp [Wake.timeOut], fun _ => rfl⟩
  intro event member
  cases woken with
  | missed absent => cases member
  | yielded active entered fresh =>
      rcases List.mem_pair.mp member with rfl | rfl
      · exact first active entered
      · trivial
  | finished active entered =>
      rcases List.mem_pair.mp member with rfl | rfl
      · exact first active entered
      · trivial

/-- The batch holds only nodes that are due. -/
def InTime (coTask : CoTask Body Msg) : Prop :=
  ∀ now timeOutSet rest, coTask.mainCall = .doTimeOutTask now timeOutSet rest →
    ∀ node ∈ rest, node.deadline ≤ now

theorem InTime.of_idle (idle : coTask.mainCall.isIdle = true) : coTask.InTime := by
  intro now timeOutSet rest running
  rw [running] at idle
  cases idle

theorem InTime.doTimeOutTask (now : Time) : (coTask.doTimeOutTask now).InTime := by
  intro later timeOutSet rest running node member
  cases running
  exact coTask.timer.takeBatch_due member

theorem InTime.turned (inTime : coTask.InTime) (turned : Turned coTask segment outcome) :
    outcome.coTask.InTime := by
  have shorter : ∀ {now timeOutSet node rest},
      coTask.mainCall = .doTimeOutTask now timeOutSet (node :: rest) →
      ∀ {next : CoTask Body Msg}, next.mainCall = .doTimeOutTask now timeOutSet rest →
        next.InTime := by
    intro now timeOutSet node rest running next after later others left same other member
    rw [after] at same
    cases same
    exact inTime now timeOutSet (node :: rest) running other (List.mem_cons_of_mem _ member)
  cases turned with
  | ended exhausted => exact InTime.of_idle rfl
  | skipped running taken => exact shorter running rfl
  | fired running armed woken =>
      refine shorter running ?_
      rw [woken.mainCall, cancelTimer_mainCall]
  | resumed running woken =>
      intro now timeOutSet rest same
      rw [woken.mainCall] at same
      cases same

/-- The timer that a turn fires is due. -/
theorem Tidy.turned_meaningful (inTime : coTask.InTime)
    (turned : Turned coTask segment outcome) : ∀ event ∈ outcome.events, event.Meaningful := by
  cases turned with
  | ended exhausted => simp
  | skipped running taken => simp
  | fired running armed woken =>
      refine woken.meaningful fun call later same => ?_
      cases same
      refine ⟨armed.due ▸ inTime _ _ _ running _ List.mem_cons_self, ?_⟩
      simpa using armed.suspended
  | resumed running woken =>
      refine woken.meaningful fun call later same => ?_
      cases same

end CoTask

namespace CoRun

variable {Body Msg : Type} {run next : CoRun Body Msg}

/-- The invariant of the guarded runs. -/
structure Sound (run : CoRun Body Msg) : Prop where
  tidy : run.coTask.Tidy
  inTime : run.coTask.InTime
  meaningful : ∀ event ∈ run.trace, event.Meaningful

theorem Sound.record {outcome : Outcome Body Msg} (sound : run.Sound)
    (tidy : outcome.coTask.Tidy) (inTime : outcome.coTask.InTime)
    (meaningful : ∀ event ∈ outcome.events, event.Meaningful) : (run.record outcome).Sound := by
  refine ⟨tidy, inTime, fun event member => ?_⟩
  rcases List.mem_append.mp member with old | new
  · exact sound.meaningful event old
  · exact meaningful event new

/-- A wake by the main context keeps the invariant. -/
theorem Sound.wake {coTask : CoTask Body Msg} {coId : CoId} {wake : Wake Msg}
    {segment : Segment} {outcome : Outcome Body Msg} (sound : run.Sound) (tidy : coTask.Tidy)
    (idle : coTask.mainCall.isIdle = true) (untimed : wake.timeOut = false)
    (woken : Woken (coTask.cancelTimer coId) coId wake segment outcome) :
    (run.record outcome).Sound := by
  obtain ⟨cancelled, disarmed⟩ := tidy.cancelTimer coId
  refine sound.record (cancelled.woken disarmed woken) (InTime.of_idle ?_)
    (woken.meaningful fun call now same => ?_)
  · rw [woken.mainCall, cancelTimer_mainCall]
    exact idle
  · rw [same] at untimed
    cases untimed

theorem Sound.step (sound : run.Sound) {act : CoAct Body Msg} (careful : Careful run act)
    (stepped : run.step act = some next) : next.Sound := by
  obtain ⟨outcome, performed, rfl⟩ := step_cases stepped
  cases performed with
  | proceed proceeded =>
      have turned := sound.tidy.proceed_cases proceeded
      exact sound.record (sound.tidy.proceed careful turned) (sound.inTime.turned turned)
        (Tidy.turned_meaningful sound.inTime turned)
  | addTack idle =>
      rename_i task
      exact sound.record (sound.tidy.addTack task careful).1 (InTime.of_idle idle) (by simp)
  | doTack idle resumed =>
      rename_i task segment
      have added := (sound.tidy.addTack task careful).1
      refine sound.wake added idle rfl (added.resumeOne_cases rfl ?_ resumed)
      intro timed
      cases timed
  | resumeOne idle resumed =>
      refine sound.wake sound.tidy idle rfl (sound.tidy.resumeOne_cases rfl ?_ resumed)
      intro timed
      cases timed
  | resumeOneWithMsg idle resumed =>
      exact sound.wake sound.tidy idle rfl (sound.tidy.resumeOneWithMsg_cases resumed)
  | resumeAll idle =>
      refine sound.record (sound.tidy.setMainCall rfl) ?_ (by simp)
      intro now timeOutSet rest running
      cases running
  | doTimeOutTask idle =>
      rename_i now
      have free := MainCall.eq_idle idle
      exact sound.record (sound.tidy.doTimeOutTask free now) (InTime.doTimeOutTask now) (by simp)

end CoRun

/-- Every call of `Yield` gets a meaningful result while `ResumeAll` meets no armed timer. -/
theorem yield_result {Body Msg : Type} :
    (coMachine Body Msg).Always Careful fun run => ∀ event ∈ run.trace, event.Meaningful := by
  have initial : (coMachine Body Msg).start.Sound :=
    ⟨Tidy.empty, InTime.of_idle rfl, by simp [coMachine, CoRun.start]⟩
  have kept : ∀ run act next, run.Sound → Careful run act →
      (coMachine Body Msg).step run act = some next → next.Sound :=
    fun run act next sound careful stepped => sound.step careful stepped
  exact Machine.always_of_invariant _ initial kept fun run sound => sound.meaningful

/-- `ResumeAll` starts a task. Its first `Yield` times out, and a message ends its second one. -/
def carefulRun : List (CoAct Unit Unit) :=
  [.addTack (), .resumeAll [1], .proceed (.yield 0 1000 1), .proceed .finish, .doTimeOutTask 1000,
    .proceed (.yield 1000 5000 2), .proceed .finish, .resumeOneWithMsg 1 () .finish]

theorem yield_result_both : ∃ last, (coMachine Unit Unit).run (coMachine Unit Unit).start
    carefulRun = some last ∧ last.trace.length = 6 ∧ ∀ event ∈ last.trace, event.Meaningful := by
  have reached : ((coMachine Unit Unit).run (coMachine Unit Unit).start carefulRun).any
      (fun last => decide (last.trace.length = 6)) = true := by decide +kernel
  have met : (coMachine Unit Unit).Meets Careful (coMachine Unit Unit).start carefulRun := by
    decide +kernel
  obtain ⟨last, reached, events⟩ := Machine.exists_of_check _ reached
  exact ⟨last, reached, of_decide_eq_true events, yield_result carefulRun last reached met⟩

/-- `ResumeAll` ends the first `Yield`, and its timer ends the second one before its time. -/
def orphanRun : List (CoAct Unit Unit) :=
  [.doTack () (.yield 0 1000 1), .resumeAll [1], .proceed (.yield 500 1000 2), .proceed .finish,
    .doTimeOutTask 1000, .proceed .finish]

/-- A return with -1 before the time of its call has come. -/
def CoEvent.early {Body Msg : Type} : CoEvent Body Msg → Bool
  | .returned _ call ret (.timer _ now) _ => ret = -1 ∧ now < call.madeAt + call.timeOut
  | _ => false

theorem CoEvent.not_meaningful {Body Msg : Type} {event : CoEvent Body Msg}
    (early : event.early = true) : ¬event.Meaningful := by
  cases event with
  | returned coId call ret wake msg =>
      cases wake with
      | timer armed now =>
          obtain ⟨late, before⟩ := of_decide_eq_true early
          rintro ⟨timed, _⟩
          obtain ⟨later, same, due⟩ := timed late
          cases same
          exact absurd before (not_lt.mpr due)
      | _ => cases early
  | _ => cases early

theorem orphanRun_early :
    ¬(coMachine Unit Unit).Always Machine.anyStep
      fun run => ∀ event ∈ run.trace, event.Meaningful := by
  intro always
  have reached : (((coMachine Unit Unit).run (coMachine Unit Unit).start orphanRun).any
      fun run => run.trace.any CoEvent.early) = true := by decide +kernel
  obtain ⟨last, reached, early⟩ := Machine.exists_of_check _ reached
  obtain ⟨event, member, early⟩ := List.any_eq_true.mp early
  exact CoEvent.not_meaningful early
    (always orphanRun last reached (Machine.meets_anyStep _ _ _) event member)

end QServer
