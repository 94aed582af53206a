import QServer.Co.YieldResult

/-
This file proves when a task reads a message that its last resume did not pass.
-/

namespace QServer
open Transition

/-- The result of `GetMsg` after a switch, with the `Yield` that the switch ends. -/
structure Read (Ptr : Type) where
  coId : CoId
  -- At the start of a task there is no `Yield`.
  ret : Option Int
  wake : Wake (Option Ptr)
  msg : Option Ptr

/-- The task starts, or its `Yield` returned 0. -/
def Read.Expects {Ptr : Type} (read : Read Ptr) : Prop := read.ret = none ∨ read.ret = some 0

/-- The task gets the pointer of the last resume, and `nullptr` if the resume passed none. -/
def Read.Fresh {Ptr : Type} (read : Read Ptr) : Prop :=
  read.Expects → read.msg = read.wake.msg.join

/-- A resume with the flag starts a task or lets a `Yield` return 0. -/
def Context.Expects (timeOut : Bool) : Context → Prop
  | .unset => False
  | .entry => True
  | .suspended _ => timeOut = false

namespace CoPool

variable {Body Ptr : Type} (memory : CoPtr → Option Ptr) (pool : CoPool Body (Option Ptr))

/-- An unset `co_msg` is what the memory of the coroutine object held. -/
def coMsg (ptr : CoPtr) : Option Ptr := (pool.object ptr).coMsg.getD (memory ptr)

/-- `CoYield::GetMsg` -/
def getMsg (coId : CoId) : Option Ptr := (pool.findCoId coId).bind (pool.coMsg memory)

/-- What the task reads after the switch of a resume. -/
def read (wake : Wake (Option Ptr)) :
    Option (CoPool Body (Option Ptr) × CoPtr) → Option (Read Ptr)
  | none => none
  | some (marked, ptr) =>
      let coId := (marked.object ptr).coId
      (marked.enter ptr).map fun entered =>
        ⟨coId, entered.2.map Prod.snd, wake, entered.1.getMsg memory coId⟩

/-- The message of the coroutine that the next `NewCoroutine` takes. -/
def nextMsg : Option Ptr :=
  match pool.freeList with
  | [] => memory pool.created
  | ptr :: _ => pool.coMsg memory ptr

/-- A resume without a message meets a task that expects none only at a coroutine without one. -/
def Cleared (coId : CoId) (timeOut : Bool) : Prop :=
  ∀ ptr, pool.findCoId coId = some ptr → (pool.object ptr).context.Expects timeOut →
    pool.coMsg memory ptr = none

end CoPool

/-- The coroutine tasks with the record of all reads. -/
structure ReadRun (Body Ptr : Type) where
  run : CoRun Body (Option Ptr)
  reads : List (Read Ptr)

/-- What the task reads to which the operation switches. -/
def CoTask.read {Body Ptr : Type} (memory : CoPtr → Option Ptr)
    (coTask : CoTask Body (Option Ptr)) : CoAct Body (Option Ptr) → Option (Read Ptr)
  | .addTack _ => none
  | .doTack task _ =>
      let made := coTask.coPool.newCoroutine task
      CoPool.read memory .resumeOne (made.1.resume made.2 false)
  | .resumeOne coId _ => CoPool.read memory .resumeOne (coTask.coPool.resume coId false)
  | .resumeOneWithMsg coId msg _ =>
      CoPool.read memory (.resumeOneWithMsg msg) (coTask.coPool.resumeWithMsg coId msg)
  | .resumeAll _ => none
  | .doTimeOutTask _ => none
  | .proceed _ =>
      match coTask.mainCall with
      | .doTimeOutTask now _ (node :: _) =>
          if (coTask.timer.takeCancel node).isSome then none
          else CoPool.read memory (.timer node.info.task.call now)
            (coTask.coPool.resume node.info.task.coId true)
      | .resumeAll _ (coId :: _) =>
          CoPool.read memory .resumeAll (coTask.coPool.resume coId false)
      | _ => none

/-- The pointers that the objects find in fresh memory are part of the machine. -/
def readMachine (Body : Type) {Ptr : Type} (memory : CoPtr → Option Ptr) :
    Machine (ReadRun Body Ptr) (CoAct Body (Option Ptr)) :=
  ⟨⟨CoRun.start, []⟩, fun state act => (state.run.step act).map fun run =>
    ⟨run, state.reads ++ (state.run.coTask.read memory act).toList⟩⟩

/-- A resume without a message meets no old one. -/
def Unstale {Body Ptr : Type} (memory : CoPtr → Option Ptr) (state : ReadRun Body Ptr) :
    CoAct Body (Option Ptr) → Prop
  | .doTack _ _ => state.run.coTask.coPool.nextMsg memory = none
  | .resumeOne coId _ => state.run.coTask.coPool.Cleared memory coId false
  | .proceed _ =>
      match state.run.coTask.mainCall with
      | .doTimeOutTask _ _ (node :: _) =>
          state.run.coTask.timer.takeCancel node = none →
            state.run.coTask.coPool.Cleared memory node.info.task.coId true
      | .resumeAll _ (coId :: _) => state.run.coTask.coPool.Cleared memory coId false
      | _ => True
  | _ => True

namespace CoPool

variable {Body Ptr : Type} {memory : CoPtr → Option Ptr} {pool : CoPool Body (Option Ptr)}
  {coId : CoId} {ptr : CoPtr} {wake : Wake (Option Ptr)}

/-- A switch changes no message. -/
theorem getMsg_enter {entered : CoPool Body (Option Ptr) × Option (YieldCall × Int)}
    (entering : pool.enter ptr = some entered) (coId : CoId) :
    entered.1.getMsg memory coId = pool.getMsg memory coId := by
  have same : ∀ change : Coroutine Body (Option Ptr) → Coroutine Body (Option Ptr),
      (∀ co, (change co).coMsg = co.coMsg) →
        (pool.modify ptr change).getMsg memory coId = pool.getMsg memory coId := by
    intro change kept
    rw [getMsg, getMsg, modify_findCoId]
    apply congrArg
    funext place
    rw [coMsg, coMsg, modify_object]
    split_ifs with here
    · rw [kept, here]
    · rfl
  unfold enter at entering
  split at entering
  · cases entering
  · cases entering
    exact same _ fun _ => rfl
  · cases entering
    exact same _ fun _ => rfl

/-- A resume reads the message of the marked coroutine. -/
theorem read_modify (keyed : Keyed pool) (active : pool.findCoId coId = some ptr)
    {change : Coroutine Body (Option Ptr) → Coroutine Body (Option Ptr)}
    (kept : ∀ co, (change co).coId = co.coId) :
    read memory wake (some (pool.modify ptr change, ptr)) =
      ((pool.modify ptr change).enter ptr).map fun entered =>
        ⟨coId, entered.2.map Prod.snd, wake,
          (change (pool.object ptr)).coMsg.getD (memory ptr)⟩ := by
  have named : ((pool.modify ptr change).object ptr).coId = coId := by
    rw [modify_same, kept, (keyed.active coId ptr active).2]
  unfold read
  dsimp only
  rw [named]
  apply Option.map_congr
  intro entered entering
  rw [getMsg_enter entering, getMsg, modify_findCoId, active, Option.bind_some, coMsg, modify_same]

/-- A resume with a message passes it to the task. -/
theorem fresh_resumeWithMsg (keyed : Keyed pool) {msg : Option Ptr} {read : Read Ptr}
    (reads : CoPool.read memory (.resumeOneWithMsg msg) (pool.resumeWithMsg coId msg) = some read) :
    read.Fresh := by
  cases active : pool.findCoId coId with
  | none =>
      rw [resumeWithMsg, active, Option.map_none] at reads
      cases reads
  | some ptr =>
      rw [resumeWithMsg, active, Option.map_some, read_modify keyed active] at reads
      · obtain ⟨entered, _, rfl⟩ := Option.map_eq_some_iff.mp reads
        intro _
        rfl
      · exact fun _ => rfl

/-- A resume without a message is read as such exactly if it meets no old message. -/
theorem fresh_resume (keyed : Keyed pool) (silent : wake.msg = none) {timeOut : Bool} :
    (∀ read ∈ (CoPool.read memory wake (pool.resume coId timeOut)).toList, read.Fresh) ↔
      pool.Cleared memory coId timeOut := by
  cases active : pool.findCoId coId with
  | none =>
      have missed : CoPool.read memory wake (pool.resume coId timeOut) = none := by
        rw [resume, active]
        rfl
      rw [missed, Cleared, active]
      simp
  | some ptr =>
      have marked : pool.resume coId timeOut =
          some (pool.modify ptr fun co => { co with resumeByTimeOut := timeOut }, ptr) := by
        rw [resume, active, Option.map_some]
      have kept : (∀ read ∈ (CoPool.read memory wake (pool.resume coId timeOut)).toList,
          read.Fresh) ↔ ((pool.object ptr).context.Expects timeOut →
            pool.coMsg memory ptr = none) := by
        rw [marked, read_modify keyed active]
        · rw [enter, modify_same]
          cases saved : (pool.object ptr).context with
          | unset => simp [Context.Expects]
          | entry => simp [Context.Expects, Read.Fresh, Read.Expects, silent, coMsg]
          | suspended call =>
              cases timeOut <;>
                simp [Context.Expects, Read.Fresh, Read.Expects, silent, coMsg]
        · exact fun _ => rfl
      rw [kept, Cleared, active]
      simp

/-- A new task starts with the message of its coroutine object. -/
theorem cleared_activate (rest : List CoPtr) (task : Body) :
    (pool.activate ptr rest task).1.Cleared memory (pool.activate ptr rest task).2 false ↔
      pool.coMsg memory ptr = none := by
  have active : (pool.activate ptr rest task).1.findCoId (pool.activate ptr rest task).2 =
      some ptr := activate_findCoId.trans (if_pos rfl)
  have object : (pool.activate ptr rest task).1.object ptr =
      { pool.object ptr with task := some task, context := .entry } :=
    Function.update_self _ _ _
  rw [Cleared, active]
  constructor
  · intro cleared
    have kept := cleared ptr rfl (by rw [object]; trivial)
    rwa [coMsg, object] at kept
  · intro none place same _
    cases same
    rwa [coMsg, object]

theorem cleared_newCoroutine (task : Body) :
    (pool.newCoroutine task).1.Cleared memory (pool.newCoroutine task).2 false ↔
      pool.nextMsg memory = none := by
  unfold newCoroutine nextMsg
  cases free : pool.freeList with
  | nil =>
      have unset : pool.grow.coMsg memory pool.created = memory pool.created := by
        simp [coMsg, grow]
      exact (cleared_activate [] task).trans (by rw [unset])
  | cons ptr rest => exact cleared_activate rest task

end CoPool

namespace CoTask

variable {Body Ptr : Type} {memory : CoPtr → Option Ptr} {coTask : CoTask Body (Option Ptr)}
  {coId : CoId} {wake : Wake (Option Ptr)} {segment : Segment}
  {outcome : Outcome Body (Option Ptr)}

theorem runBody_keyed (keyed : coTask.coPool.Keyed)
    {left : CoTask Body (Option Ptr) × CoEvent Body (Option Ptr)}
    (ran : coTask.runBody coId segment = some left) : left.1.coPool.Keyed := by
  cases segment with
  | finish =>
      cases ran
      exact keyed.freed coId
  | yield now timeOut ptr =>
      obtain ⟨next, yielded, rfl⟩ := Option.map_eq_some_iff.mp ran
      obtain ⟨_, yielded⟩ := Option.ite_none_left_eq_some.mp yielded
      obtain ⟨coPool, saved, rfl⟩ := Option.map_eq_some_iff.mp yielded
      exact keyed.yield saved

/-- Every resume keeps the keys of the pool. -/
theorem resumed_keyed (keyed : coTask.coPool.Keyed)
    {target : Option (CoPool Body (Option Ptr) × CoPtr)}
    (kept : ∀ marked ∈ target, marked.1.Keyed)
    (resumed : coTask.resumed wake segment target = some outcome) :
    outcome.coTask.coPool.Keyed := by
  cases target with
  | none =>
      cases resumed
      exact keyed
  | some marked =>
      obtain ⟨left, switched, rfl⟩ := Option.map_eq_some_iff.mp resumed
      obtain ⟨entered, entering, switched⟩ := Option.bind_eq_some_iff.mp switched
      obtain ⟨after, ran, rfl⟩ := Option.map_eq_some_iff.mp switched
      exact runBody_keyed ((kept marked rfl).enter entering) ran

theorem resumeOne_keyed (keyed : coTask.coPool.Keyed)
    (resumed : coTask.resumeOne coId wake segment = some outcome) :
    outcome.coTask.coPool.Keyed := by
  have cancelled : (coTask.cancelTimer coId).coPool.Keyed := by rwa [cancelTimer_coPool]
  exact resumed_keyed cancelled cancelled.resume resumed

theorem resumeOneWithMsg_keyed (keyed : coTask.coPool.Keyed) {msg : Option Ptr}
    (resumed : coTask.resumeOneWithMsg coId msg segment = some outcome) :
    outcome.coTask.coPool.Keyed := by
  have cancelled : (coTask.cancelTimer coId).coPool.Keyed := by rwa [cancelTimer_coPool]
  exact resumed_keyed cancelled cancelled.resumeWithMsg resumed

theorem proceed_keyed (keyed : coTask.coPool.Keyed)
    (proceeded : coTask.proceed segment = some outcome) : outcome.coTask.coPool.Keyed := by
  unfold proceed at proceeded
  split at proceeded
  · cases proceeded
  · cases proceeded
    exact keyed
  · rename_i now timeOutSet node rest running
    let turned : CoTask Body (Option Ptr) :=
      { coTask with mainCall := .doTimeOutTask now timeOutSet rest }
    split at proceeded
    · cases proceeded
      exact keyed
    · obtain ⟨woken, resuming, rfl⟩ := Option.map_eq_some_iff.mp proceeded
      have kept : turned.coPool.Keyed → woken.coTask.coPool.Keyed := fun held =>
        resumeOne_keyed held resuming
      exact kept keyed
  · cases proceeded
    exact keyed
  · rename_i coIdList coId rest running
    let turned : CoTask Body (Option Ptr) := { coTask with mainCall := .resumeAll coIdList rest }
    have kept : turned.coPool.Keyed → outcome.coTask.coPool.Keyed := fun held =>
      resumed_keyed held held.resume proceeded
    exact kept keyed

end CoTask

/-- Every operation keeps the keys of the pool, whichever identifiers are taken. -/
theorem CoRun.step_keyed {Body Ptr : Type} {run next : CoRun Body (Option Ptr)}
    (keyed : run.coTask.coPool.Keyed) {act : CoAct Body (Option Ptr)}
    (stepped : run.step act = some next) : next.coTask.coPool.Keyed := by
  obtain ⟨outcome, performed, rfl⟩ := step_cases stepped
  cases performed with
  | proceed proceeded => exact CoTask.proceed_keyed keyed proceeded
  | addTack idle => exact keyed.newCoroutine
  | doTack idle resumed =>
      apply CoTask.resumeOne_keyed _ resumed
      exact keyed.newCoroutine
  | resumeOne idle resumed => exact CoTask.resumeOne_keyed keyed resumed
  | resumeOneWithMsg idle resumed => exact CoTask.resumeOneWithMsg_keyed keyed resumed
  | resumeAll idle => exact keyed
  | doTimeOutTask idle => exact keyed

/-- The switch to a coroutine, with the result of the `Yield` that it ends. -/
def CoEvent.switchIn {Body Msg : Type} : CoEvent Body Msg → Option (CoId × Option Int)
  | .started coId _ => some (coId, none)
  | .returned coId _ ret _ _ => some (coId, some ret)
  | _ => none

theorem Coroutine.entering_switchIn {Body Msg : Type} (co : Coroutine Body Msg) (wake : Wake Msg)
    (entered : Option (YieldCall × Int)) :
    (co.entering wake entered).switchIn = some (co.coId, entered.map Prod.snd) := by
  cases entered <;> rfl

namespace CoTask

variable {Body Ptr : Type} {memory : CoPtr → Option Ptr} {coTask : CoTask Body (Option Ptr)}
  {coId : CoId} {wake : Wake (Option Ptr)} {segment : Segment}
  {outcome : Outcome Body (Option Ptr)}

/-- A resume is read exactly if it switches. -/
theorem resumed_switchIn {target : Option (CoPool Body (Option Ptr) × CoPtr)}
    (resumed : coTask.resumed wake segment target = some outcome) :
    outcome.events.filterMap CoEvent.switchIn =
      (CoPool.read memory wake target).toList.map fun read => (read.coId, read.ret) := by
  cases target with
  | none =>
      cases resumed
      rfl
  | some marked =>
      obtain ⟨left, switched, rfl⟩ := Option.map_eq_some_iff.mp resumed
      obtain ⟨entered, entering, switched⟩ := Option.bind_eq_some_iff.mp switched
      obtain ⟨after, ran, rfl⟩ := Option.map_eq_some_iff.mp switched
      have last : after.2.switchIn = none := by
        cases segment with
        | finish =>
            cases ran
            rfl
        | yield now timeOut ptr =>
            obtain ⟨next, _, rfl⟩ := Option.map_eq_some_iff.mp ran
            rfl
      change marked.1.enter marked.2 = some entered at entering
      rw [List.filterMap_cons_some (Coroutine.entering_switchIn _ _ _),
        List.filterMap_cons_none last, List.filterMap_nil, CoPool.read, entering]
      rfl

theorem resumeOne_switchIn (resumed : coTask.resumeOne coId wake segment = some outcome) :
    outcome.events.filterMap CoEvent.switchIn =
      (CoPool.read memory wake (coTask.coPool.resume coId wake.timeOut)).toList.map
        fun read => (read.coId, read.ret) := by
  rw [resumed_switchIn resumed, cancelTimer_coPool]

theorem proceed_switchIn (proceeded : coTask.proceed segment = some outcome) :
    outcome.events.filterMap CoEvent.switchIn =
      (coTask.read memory (.proceed segment)).toList.map fun read => (read.coId, read.ret) := by
  unfold proceed at proceeded
  unfold CoTask.read
  split at proceeded
  · cases proceeded
  · rename_i running
    cases proceeded
    rw [running]
    rfl
  · rename_i now timeOutSet node rest running
    rw [running]
    split at proceeded
    · rename_i timer taken
      cases proceeded
      dsimp only
      rw [taken]
      rfl
    · rename_i taken
      obtain ⟨woken, resuming, rfl⟩ := Option.map_eq_some_iff.mp proceeded
      dsimp only
      rw [taken]
      exact resumeOne_switchIn resuming
  · rename_i running
    cases proceeded
    rw [running]
    rfl
  · rename_i running
    rw [running]
    exact resumed_switchIn proceeded

end CoTask

/-- The reads of an operation are those of its switches. -/
theorem CoRun.step_switchIn {Body Ptr : Type} {memory : CoPtr → Option Ptr}
    {run next : CoRun Body (Option Ptr)} {act : CoAct Body (Option Ptr)}
    (stepped : run.step act = some next) :
    next.trace.filterMap CoEvent.switchIn = run.trace.filterMap CoEvent.switchIn ++
      (run.coTask.read memory act).toList.map fun read => (read.coId, read.ret) := by
  obtain ⟨outcome, performed, rfl⟩ := step_cases stepped
  have same : outcome.events.filterMap CoEvent.switchIn =
      (run.coTask.read memory act).toList.map fun read => (read.coId, read.ret) := by
    cases performed with
    | proceed proceeded => exact CoTask.proceed_switchIn proceeded
    | addTack idle => rfl
    | doTack idle resumed => exact CoTask.resumeOne_switchIn resumed
    | resumeOne idle resumed => exact CoTask.resumeOne_switchIn resumed
    | resumeOneWithMsg idle resumed =>
        rw [CoTask.resumed_switchIn resumed, CoTask.cancelTimer_coPool]
        rfl
    | resumeAll idle => rfl
    | doTimeOutTask idle => rfl
  rw [← same]
  exact List.filterMap_append

/-- The reads of a run are those of the switches in its trace, in the same order. -/
theorem ReadRun.reads_of_trace {Body Ptr : Type} {memory : CoPtr → Option Ptr}
    {acts : List (CoAct Body (Option Ptr))} {last : ReadRun Body Ptr}
    (reached : (readMachine Body memory).run (readMachine Body memory).start acts = some last) :
    last.run.trace.filterMap CoEvent.switchIn =
      last.reads.map fun read => (read.coId, read.ret) := by
  have kept : ∀ (state : ReadRun Body Ptr) act next,
      state.run.trace.filterMap CoEvent.switchIn =
        state.reads.map (fun read => (read.coId, read.ret)) →
      (readMachine Body memory).step state act = some next →
      next.run.trace.filterMap CoEvent.switchIn =
        next.reads.map fun read => (read.coId, read.ret) := by
    intro state act next held stepped
    obtain ⟨run, ran, rfl⟩ := Option.map_eq_some_iff.mp stepped
    rw [List.map_append, ← held]
    exact CoRun.step_switchIn ran
  exact Machine.run_invariant _ kept rfl reached

namespace ReadRun

variable {Body Ptr : Type} {memory : CoPtr → Option Ptr} {state : ReadRun Body Ptr}

/-- The read of an operation is fresh exactly if a resume without a message meets no old one. -/
theorem fresh_read (keyed : state.run.coTask.coPool.Keyed) (act : CoAct Body (Option Ptr)) :
    (∀ read ∈ (state.run.coTask.read memory act).toList, read.Fresh) ↔
      Unstale memory state act := by
  cases act with
  | addTack task => simp [CoTask.read, Unstale]
  | doTack task segment =>
      exact (CoPool.fresh_resume keyed.newCoroutine rfl).trans (CoPool.cleared_newCoroutine task)
  | resumeOne coId segment => exact CoPool.fresh_resume keyed rfl
  | resumeOneWithMsg coId msg segment =>
      apply iff_of_true
      · intro read member
        exact CoPool.fresh_resumeWithMsg keyed (Option.mem_toList.mp member)
      · trivial
  | resumeAll order => simp [CoTask.read, Unstale]
  | doTimeOutTask now => simp [CoTask.read, Unstale]
  | proceed segment =>
      unfold CoTask.read Unstale
      cases running : state.run.coTask.mainCall with
      | idle => simp
      | doTimeOutTask now timeOutSet rest =>
          cases rest with
          | nil => simp
          | cons node rest =>
              cases taken : state.run.coTask.timer.takeCancel node with
              | none =>
                  simp only [taken, Option.isSome_none, Bool.false_eq_true, if_false, forall_const]
                  apply CoPool.fresh_resume keyed
                  rfl
              | some timer => simp [taken]
      | resumeAll coIdList rest =>
          cases rest with
          | nil => simp
          | cons coId rest => exact CoPool.fresh_resume keyed rfl

end ReadRun

/-- Every read is fresh exactly if each resume without a message meets no old one. -/
theorem reads_fresh_iff {Body Ptr : Type} (memory : CoPtr → Option Ptr)
    (acts : List (CoAct Body (Option Ptr))) (last : ReadRun Body Ptr)
    (reached : (readMachine Body memory).run (readMachine Body memory).start acts = some last) :
    (∀ read ∈ last.reads, read.Fresh) ↔
      (readMachine Body memory).Meets (Unstale memory) (readMachine Body memory).start acts := by
  have logged : ∀ state act next, state.run.coTask.coPool.Keyed →
      (readMachine Body memory).step state act = some next →
        next.run.coTask.coPool.Keyed ∧ ∃ reads, next.reads = state.reads ++ reads ∧
          ((∀ read ∈ reads, read.Fresh) ↔ Unstale memory state act) := by
    intro state act next keyed stepped
    obtain ⟨run, ran, rfl⟩ := Option.map_eq_some_iff.mp stepped
    exact ⟨CoRun.step_keyed keyed ran, _, rfl, ReadRun.fresh_read keyed act⟩
  have keyed : (readMachine Body memory).start.run.coTask.coPool.Keyed :=
    CoTask.Tidy.empty.keyed
  rw [Machine.run_log_iff _ logged keyed reached]
  apply and_iff_right
  intro read member
  cases member

/-- A second task takes the coroutine whose first task got a message. -/
def recycledRun : List (CoAct Unit (Option Nat)) :=
  [.doTack () (.yield 0 1000 1), .resumeOneWithMsg 1 (some 7) .finish, .doTack () .finish]

/-- A read that expects another pointer than it gets. -/
def Read.stale (read : Read Nat) : Bool :=
  (read.ret = none || read.ret = some 0) && read.msg ≠ read.wake.msg.join

theorem Read.not_fresh {read : Read Nat} (stale : read.stale = true) : ¬read.Fresh := by
  obtain ⟨expects, differs⟩ := (Bool.and_eq_true _ _).mp stale
  intro fresh
  apply of_decide_eq_true differs
  apply fresh
  simpa [Read.Expects] using expects

theorem reads_fresh_iff_recycled :
    ∃ last, (readMachine Unit fun _ => none).run (readMachine Unit fun _ => none).start
        recycledRun = some last ∧
      ((∀ read ∈ last.reads, read.Fresh) ↔
        (readMachine Unit fun _ => none).Meets (Unstale fun _ => none)
          (readMachine Unit fun _ => none).start recycledRun) := by
  have reached : ((readMachine Unit fun _ => none).run (readMachine Unit fun _ => none).start
      recycledRun).any (fun state => state.reads.length = 3) = true := by decide +kernel
  obtain ⟨last, reached, _⟩ := Machine.exists_of_check _ reached
  exact ⟨last, reached, reads_fresh_iff (fun _ => none) recycledRun last reached⟩

theorem recycledRun_stale :
    ¬∀ memory acts last,
      (readMachine Unit memory).run (readMachine Unit memory).start acts = some last →
        ∀ read : Read Nat, read ∈ last.reads → read.Fresh := by
  intro always
  have reached : ((readMachine Unit fun _ => none).run (readMachine Unit fun _ => none).start
      recycledRun).any (fun state => state.reads.any Read.stale) = true := by decide +kernel
  obtain ⟨last, reached, stale⟩ := Machine.exists_of_check _ reached
  obtain ⟨read, member, stale⟩ := List.any_eq_true.mp stale
  exact Read.not_fresh stale (always _ recycledRun last reached read member)

end QServer
