import QServer.Co.CoPool

/-
This file models the coroutine tasks of `commlib/co/co_task.h` and `co_task.cpp`.
-/

namespace QServer
open Container

/-- The timer task binds `ResumeOne(co_id, true)`. The call that armed it is not part of the
source. -/
structure ResumeTask where
  coId : CoId
  call : YieldCall
  deriving DecidableEq

/-- The reason of a switch to a coroutine. -/
inductive Wake (Msg : Type)
  | timer (call : YieldCall) (now : Time)
  | resumeOne
  | resumeOneWithMsg (msg : Msg)
  | resumeAll

/-- The `time_out` argument of the resume. -/
def Wake.timeOut {Msg : Type} : Wake Msg → Bool
  | .timer _ _ => true
  | _ => false

/-- The message that the resume stores. -/
def Wake.msg {Msg : Type} : Wake Msg → Option Msg
  | .resumeOneWithMsg msg => some msg
  | _ => none

/-- What a body does from a switch to it to the switch back. The allocator gives the address. -/
inductive Segment
  | yield (now timeOut : Time) (ptr : Addr)
  | finish

/-- What the main context can see of a switch. -/
inductive CoEvent (Body Msg : Type)
  | started (coId : CoId) (task : Option Body)
  -- The result of `Yield` and the message of `GetMsg`.
  | returned (coId : CoId) (call : YieldCall) (ret : Int) (wake : Wake Msg) (msg : Option Msg)
  | yielded (coId : CoId) (call : YieldCall)
  | finished (coId : CoId) (task : Option Body)

/-- The first event of a switch to the coroutine. -/
def Coroutine.entering {Body Msg : Type} (co : Coroutine Body Msg) (wake : Wake Msg) :
    Option (YieldCall × Int) → CoEvent Body Msg
  | none => .started co.coId co.task
  | some (call, ret) => .returned co.coId call ret wake co.coMsg

/-- The locals of the call that the main context is in. -/
inductive MainCall
  | idle
  | doTimeOutTask (now : Time) (timeOutSet rest : List (TimerNode ResumeTask))
  | resumeAll (coIdList rest : List CoId)

/-- The main context is in no call. -/
def MainCall.isIdle : MainCall → Bool
  | .idle => true
  | _ => false

theorem MainCall.eq_idle {mainCall : MainCall} (idle : mainCall.isIdle = true) :
    mainCall = .idle := by
  cases mainCall with
  | idle => rfl
  | _ => cases idle

/-- The vector of a running `DoTimeOutTask` keeps its nodes alive. -/
def MainCall.timeOutSet : MainCall → List (TimerNode ResumeTask)
  | .doTimeOutTask _ timeOutSet _ => timeOutSet
  | _ => []

/-- The nodes of the batch that still wait. -/
def MainCall.rest : MainCall → List (TimerNode ResumeTask)
  | .doTimeOutTask _ _ rest => rest
  | _ => []

structure CoTask (Body Msg : Type) where
  coPool : CoPool Body Msg
  timer : Timer ResumeTask
  coIdTimerId : UnorderedMap CoId TimerId
  mainCall : MainCall
  yields : Nat

/-- The result of a public operation. -/
structure Outcome (Body Msg : Type) where
  coTask : CoTask Body Msg
  code : Int
  events : List (CoEvent Body Msg)

namespace CoTask

variable {Body Msg : Type}

def empty : CoTask Body Msg := ⟨CoPool.empty, Timer.empty, ∅, .idle, 0⟩

variable (coTask : CoTask Body Msg)

/-- The addresses of the live `TimeInfo` objects. -/
def held : List Addr := (coTask.timer.nodes ++ coTask.mainCall.timeOutSet).map TimerNode.ptr

/-- The call that `Yield` makes next. -/
def nextCall (now timeOut : Time) : YieldCall := ⟨coTask.yields, now, timeOut⟩

/-- `Yield` arms a timer and records it before it leaves the coroutine. -/
def yield (coId : CoId) (now timeOut : Time) (ptr : Addr) : Option (CoTask Body Msg) :=
  if ptr ∈ coTask.held then none
  else
    let call := coTask.nextCall now timeOut
    let added := coTask.timer.addTimer ptr now timeOut ⟨coId, call⟩ false
    (coTask.coPool.yield coId call).map fun coPool =>
      { coTask with
        coPool
        timer := added.1
        coIdTimerId := Finmap.insert coId added.2 coTask.coIdTimerId
        yields := coTask.yields + 1 }

/-- The destructor of `CoYield` frees the coroutine when its task returns. -/
def finish (coId : CoId) : CoTask Body Msg :=
  { coTask with coPool := coTask.coPool.freeCoroutine coId }

def runBody (coId : CoId) : Segment → Option (CoTask Body Msg × CoEvent Body Msg)
  | .yield now timeOut ptr =>
      (coTask.yield coId now timeOut ptr).map fun next =>
        (next, .yielded coId (coTask.nextCall now timeOut))
  | .finish =>
      some (coTask.finish coId,
        .finished coId ((coTask.coPool.found coId).bind Coroutine.task))

/-- The body runs from its saved context to its next switch back. -/
def switchTo (ptr : CoPtr) (wake : Wake Msg) (segment : Segment) :
    Option (CoTask Body Msg × List (CoEvent Body Msg)) :=
  let co := coTask.coPool.object ptr
  (coTask.coPool.enter ptr).bind fun entered =>
    let inside : CoTask Body Msg := { coTask with coPool := entered.1 }
    (inside.runBody co.coId segment).map fun left => (left.1, [co.entering wake entered.2, left.2])

/-- A resume returns -1 when it finds no coroutine. -/
def resumed (wake : Wake Msg) (segment : Segment) :
    Option (CoPool Body Msg × CoPtr) → Option (Outcome Body Msg)
  | none => some ⟨coTask, -1, []⟩
  | some (coPool, ptr) =>
      let marked : CoTask Body Msg := { coTask with coPool }
      (marked.switchTo ptr wake segment).map fun left => ⟨left.1, 0, left.2⟩

def cancelTimer (coId : CoId) : CoTask Body Msg :=
  match coTask.coIdTimerId.lookup coId with
  | none => coTask
  | some timerId =>
      { coTask with
        timer := coTask.timer.cancelTimer timerId
        coIdTimerId := Finmap.erase coId coTask.coIdTimerId }

def addTack (task : Body) : CoTask Body Msg × CoId :=
  let made := coTask.coPool.newCoroutine task
  ({ coTask with coPool := made.1 }, made.2)

def resumeOne (coId : CoId) (wake : Wake Msg) (segment : Segment) : Option (Outcome Body Msg) :=
  let cancelled := coTask.cancelTimer coId
  cancelled.resumed wake segment (cancelled.coPool.resume coId wake.timeOut)

def resumeOneWithMsg (coId : CoId) (msg : Msg) (segment : Segment) : Option (Outcome Body Msg) :=
  let cancelled := coTask.cancelTimer coId
  cancelled.resumed (.resumeOneWithMsg msg) segment (cancelled.coPool.resumeWithMsg coId msg)

def doTack (task : Body) (segment : Segment) : Option (Outcome Body Msg) :=
  let made := coTask.addTack task
  made.1.resumeOne made.2 .resumeOne segment

/-- The loop of `ResumeAll` goes over a copy of the active identifiers, in the order of the map. -/
def resumeAll (order : List CoId) : Option (CoTask Body Msg) :=
  if order.Nodup ∧ order.toFinset = coTask.coPool.actionCoroutine.keys then
    some { coTask with mainCall := .resumeAll order order }
  else none

def doTimeOutTask (now : Time) : CoTask Body Msg :=
  let taken := coTask.timer.takeBatch now
  { coTask with timer := taken.2, mainCall := .doTimeOutTask now taken.1 taken.1 }

/-- The loop of the running main call takes its next turn. -/
def proceed (segment : Segment) : Option (Outcome Body Msg) :=
  match coTask.mainCall with
  | .idle => none
  | .doTimeOutTask _ _ [] => some ⟨{ coTask with mainCall := .idle }, 0, []⟩
  | .doTimeOutTask now timeOutSet (node :: rest) =>
      let turned : CoTask Body Msg :=
        { coTask with mainCall := .doTimeOutTask now timeOutSet rest }
      match coTask.timer.takeCancel node with
      | some timer => some ⟨{ turned with timer }, 0, []⟩
      | none =>
          (turned.resumeOne node.info.task.coId (.timer node.info.task.call now) segment).map
            fun outcome => { outcome with coTask :=
              { outcome.coTask with timer := outcome.coTask.timer.requeue now node } }
  | .resumeAll coIdList [] => some ⟨{ coTask with mainCall := .idle }, coIdList.length, []⟩
  | .resumeAll coIdList (coId :: rest) =>
      let turned : CoTask Body Msg := { coTask with mainCall := .resumeAll coIdList rest }
      turned.resumed .resumeAll segment (coTask.coPool.resume coId false)

/-- The pool part of the three ways to resume a coroutine. -/
def wakeUp (coId : CoId) (wake : Wake Msg) (segment : Segment) : Option (Outcome Body Msg) :=
  coTask.resumed wake segment (match wake.msg with
    | some msg => coTask.coPool.resumeWithMsg coId msg
    | none => coTask.coPool.resume coId wake.timeOut)

end CoTask

/-- The coroutine after a switch to it, with its context used up. -/
def Coroutine.woken {Body Msg : Type} (wake : Wake Msg) (co : Coroutine Body Msg) :
    Coroutine Body Msg :=
  { co with coMsg := wake.msg.or co.coMsg, resumeByTimeOut := false, context := .unset }

/-- The coroutine after its next `Yield`. -/
def Coroutine.resuspended {Body Msg : Type} (wake : Wake Msg) (call : YieldCall)
    (co : Coroutine Body Msg) : Coroutine Body Msg :=
  { co.woken wake with context := .suspended call }

/-- The first event of a switch starts the task or returns from the suspended call. -/
inductive Entered {Body Msg : Type} (coId : CoId) (wake : Wake Msg) (co : Coroutine Body Msg) :
    CoEvent Body Msg → Prop
  | started (ready : co.context = .entry) : Entered coId wake co (.started coId co.task)
  | returned {call : YieldCall} (waits : co.context = .suspended call) :
      Entered coId wake co (.returned coId call (if wake.timeOut then -1 else 0) wake
        (wake.msg.or co.coMsg))

namespace CoTask

variable {Body Msg : Type} {coTask : CoTask Body Msg} {coId : CoId} {wake : Wake Msg}

/-- The state after a resumed body yields. -/
def afterYield (coTask : CoTask Body Msg) (coId : CoId) (ptr : CoPtr) (wake : Wake Msg)
    (now timeOut : Time) (address : Addr) : CoTask Body Msg :=
  let call := coTask.nextCall now timeOut
  let added := coTask.timer.addTimer address now timeOut ⟨coId, call⟩ false
  { coTask with
    coPool := coTask.coPool.modify ptr (Coroutine.resuspended wake call)
    timer := added.1
    coIdTimerId := Finmap.insert coId added.2 coTask.coIdTimerId
    yields := coTask.yields + 1 }

/-- The state after a resumed body returns. -/
def afterFinish (coTask : CoTask Body Msg) (coId : CoId) (ptr : CoPtr) (wake : Wake Msg) :
    CoTask Body Msg :=
  { coTask with coPool := (coTask.coPool.modify ptr (Coroutine.woken wake)).freeCoroutine coId }

/-- All that a resume can do. -/
inductive Woken (coTask : CoTask Body Msg) (coId : CoId) (wake : Wake Msg) :
    Segment → Outcome Body Msg → Prop
  | missed {segment : Segment} (absent : coTask.coPool.findCoId coId = none) :
      Woken coTask coId wake segment ⟨coTask, -1, []⟩
  | yielded {ptr : CoPtr} {first : CoEvent Body Msg} {now timeOut : Time} {address : Addr}
      (active : coTask.coPool.findCoId coId = some ptr)
      (entered : Entered coId wake (coTask.coPool.object ptr) first)
      (fresh : address ∉ coTask.held) :
      Woken coTask coId wake (.yield now timeOut address)
        ⟨coTask.afterYield coId ptr wake now timeOut address, 0,
          [first, .yielded coId (coTask.nextCall now timeOut)]⟩
  | finished {ptr : CoPtr} {first : CoEvent Body Msg}
      (active : coTask.coPool.findCoId coId = some ptr)
      (entered : Entered coId wake (coTask.coPool.object ptr) first) :
      Woken coTask coId wake .finish
        ⟨coTask.afterFinish coId ptr wake, 0,
          [first, .finished coId (coTask.coPool.object ptr).task]⟩

/-- The fields that the resume marks before the switch. -/
theorem resume_mark (wake : Wake Msg) (pool : CoPool Body Msg) (unmarked : pool.Unmarked)
    {ptr : CoPtr} (active : pool.findCoId coId = some ptr) :
    (match wake.msg with
      | some msg => pool.resumeWithMsg coId msg
      | none => pool.resume coId wake.timeOut) =
    some (pool.modify ptr fun co =>
      { co with coMsg := wake.msg.or co.coMsg, resumeByTimeOut := wake.timeOut }, ptr) := by
  have quiet := unmarked ptr
  cases wake <;>
    simp only [Wake.msg, Wake.timeOut, CoPool.resume, CoPool.resumeWithMsg, active,
      Option.map_some, CoPool.modify, quiet.symm, Option.none_or, Option.some_or]

theorem modify_modify (pool : CoPool Body Msg) (ptr : CoPtr)
    (first second : Coroutine Body Msg → Coroutine Body Msg) :
    (pool.modify ptr first).modify ptr second = pool.modify ptr (second ∘ first) := by
  simp only [CoPool.modify, Function.update_self, Function.update_idem, Function.comp_apply]

/-- The switch reads the saved context once and clears the mark. -/
theorem enter_mark (pool : CoPool Body Msg) (ptr : CoPtr)
    (timed : wake.timeOut = true → (pool.object ptr).context ≠ .entry)
    {entered : CoPool Body Msg × Option (YieldCall × Int)}
    (switched : (pool.modify ptr fun co =>
      { co with coMsg := wake.msg.or co.coMsg, resumeByTimeOut := wake.timeOut }).enter ptr =
        some entered) :
    entered.1 = pool.modify ptr (Coroutine.woken wake) ∧
      ((pool.object ptr).context = .entry ∧ entered.2 = none ∨
        ∃ call, (pool.object ptr).context = .suspended call ∧
          entered.2 = some (call, if wake.timeOut then -1 else 0)) := by
  unfold CoPool.enter at switched
  simp only [CoPool.modify_same] at switched
  cases saved : (pool.object ptr).context with
  | unset => simp [saved] at switched
  | entry =>
      have untimed : wake.timeOut = false := by
        by_contra marked
        exact timed (by simpa using marked) saved
      simp only [saved, Option.some.injEq] at switched
      subst switched
      refine ⟨?_, Or.inl ⟨rfl, rfl⟩⟩
      rw [modify_modify]
      simp [CoPool.modify, Coroutine.woken, untimed]
  | suspended call =>
      simp only [saved, Option.some.injEq] at switched
      subst switched
      refine ⟨?_, Or.inr ⟨call, rfl, rfl⟩⟩
      rw [modify_modify]
      simp [CoPool.modify, Coroutine.woken]

theorem yield_cases {now timeOut : Time} {address : Addr} {next : CoTask Body Msg} {ptr : CoPtr}
    (stepped : coTask.yield coId now timeOut address = some next)
    (active : coTask.coPool.findCoId coId = some ptr) :
    address ∉ coTask.held ∧
      next = { coTask with
        coPool := coTask.coPool.modify ptr fun co =>
          { co with context := .suspended (coTask.nextCall now timeOut) }
        timer := (coTask.timer.addTimer address now timeOut
          ⟨coId, coTask.nextCall now timeOut⟩ false).1
        coIdTimerId := Finmap.insert coId (coTask.timer.addTimer address now timeOut
          ⟨coId, coTask.nextCall now timeOut⟩ false).2 coTask.coIdTimerId
        yields := coTask.yields + 1 } := by
  unfold yield at stepped
  split at stepped
  · cases stepped
  · rename_i fresh
    simp only [CoPool.yield, active, Option.map_some, Option.some.injEq] at stepped
    exact ⟨fresh, stepped.symm⟩

/-- Every resume is one of the three listed ones. -/
theorem wakeUp_cases (keyed : coTask.coPool.Keyed) (unmarked : coTask.coPool.Unmarked)
    (timed : wake.timeOut = true → ∀ ptr, coTask.coPool.findCoId coId = some ptr →
      (coTask.coPool.object ptr).context ≠ .entry)
    {segment : Segment} {outcome : Outcome Body Msg}
    (stepped : coTask.wakeUp coId wake segment = some outcome) :
    Woken coTask coId wake segment outcome := by
  cases active : coTask.coPool.findCoId coId with
  | none =>
      have missed : coTask.wakeUp coId wake segment = some ⟨coTask, -1, []⟩ := by
        cases wake <;>
          simp [wakeUp, Wake.msg, CoPool.resume, CoPool.resumeWithMsg, active, resumed]
      rw [missed] at stepped
      cases stepped
      exact .missed active
  | some ptr =>
      have named := (keyed.active coId ptr active).2
      rw [wakeUp, resume_mark wake coTask.coPool unmarked active] at stepped
      obtain ⟨left, switched, rfl⟩ := Option.map_eq_some_iff.mp stepped
      obtain ⟨entered, entering, switched⟩ := Option.bind_eq_some_iff.mp switched
      obtain ⟨after, running, rfl⟩ := Option.map_eq_some_iff.mp switched
      obtain ⟨pool, saved⟩ := entered
      obtain ⟨samePool, origin⟩ := enter_mark coTask.coPool ptr (fun late => timed late ptr active)
        entering
      dsimp only at samePool origin
      subst samePool
      -- The first event is the one that the saved context asks for.
      have first : ∀ co : Coroutine Body Msg, co.coId = coId →
          co.task = (coTask.coPool.object ptr).task →
          co.coMsg = wake.msg.or (coTask.coPool.object ptr).coMsg →
          Entered coId wake (coTask.coPool.object ptr) (co.entering wake saved) := by
        intro co sameId sameTask sameMsg
        rcases origin with ⟨ready, rfl⟩ | ⟨call, waits, rfl⟩
        · rw [Coroutine.entering, sameId, sameTask]
          exact .started ready
        · rw [Coroutine.entering, sameId, sameMsg]
          exact .returned waits
      simp only [CoPool.modify_same, named] at running ⊢
      cases segment with
      | finish =>
          cases running
          have task : ((coTask.coPool.modify ptr (Coroutine.woken wake)).found coId).bind
              Coroutine.task = (coTask.coPool.object ptr).task := by
            rw [CoPool.found_modify keyed active, if_pos rfl]
            rfl
          rw [task]
          exact .finished active (first _ rfl rfl rfl)
      | yield now timeOut address =>
          obtain ⟨next, yielded, rfl⟩ := Option.map_eq_some_iff.mp running
          obtain ⟨fresh, rfl⟩ := yield_cases yielded active
          rw [modify_modify]
          exact .yielded active (first _ rfl rfl rfl) fresh

end CoTask

end QServer
