import QServer.Lib.Machine
import QServer.Co.Tidy

/-
This file models the transaction manager of `commlib/trans/trans_mgr.h` and the pools of
`commlib/object_pool.h`.
-/

namespace QServer
open Container Transition

/-- A `cmd` is a `uint32_t`. -/
abbrev Cmd := Nat

/-- The place of a `Trans` object in the order of their creation. -/
abbrev TransPtr := Nat

/-- A `shared_ptr` of `get_shared`. Its deleter returns the object to the pool of the `cmd`. -/
structure SharedTrans where
  cmd : Cmd
  trans : TransPtr
  deriving DecidableEq

/-- A message, as `OnMsg` reads it. The coroutine gets the pointer to the message as its data. -/
structure TransMsg (Data : Type) where
  cmd : Cmd
  coId : CoId
  data : Data
  deriving DecidableEq

/-- The manager. The use counts belong to the control blocks of the shared pointers. -/
structure TransMgr (Data : Type) where
  transMap : UnorderedMap Cmd (List TransPtr)
  coTask : CoTask SharedTrans Data
  useCount : TransPtr → Nat
  made : Nat

/-- The result of a public operation of the manager. -/
structure MgrOutcome (Data : Type) where
  mgr : TransMgr Data
  code : Int
  events : List (CoEvent SharedTrans Data)

namespace TransMgr

variable {Data : Type}

def empty : TransMgr Data := ⟨∅, CoTask.empty, fun _ => 0, 0⟩

variable (mgr : TransMgr Data)

/-- The objects in the pool of the `cmd`. The back of the vector is the end of the list. -/
def pool (cmd : Cmd) : List TransPtr := (mgr.transMap.lookup cmd).getD []

/-- One turn of the loop of `RegisterCmd`. `trans_map_[cmd]` makes the pool when it is missing. -/
def addTrans (cmd : Cmd) : TransMgr Data :=
  { mgr with
    transMap := Finmap.insert cmd (mgr.pool cmd ++ [mgr.made]) mgr.transMap
    made := mgr.made + 1 }

def addAll (cmd : Cmd) : Nat → TransMgr Data → TransMgr Data
  | 0, mgr => mgr
  | count + 1, mgr => addAll cmd count (mgr.addTrans cmd)

/-- A count that is not positive makes no object and no pool. -/
def registerCmd (cmd : Cmd) (count : Int) : TransMgr Data × Bool :=
  if (mgr.transMap.lookup cmd).isSome then (mgr, false)
  else (mgr.addAll cmd count.toNat, true)

/-- `get_shared` takes the last object out of the pool. -/
def getShared (cmd : Cmd) : Option (TransMgr Data × SharedTrans) :=
  (mgr.pool cmd).getLast?.map fun trans =>
    ({ mgr with
        transMap := Finmap.insert cmd (mgr.pool cmd).dropLast mgr.transMap
        useCount := Function.update mgr.useCount trans 1 }, ⟨cmd, trans⟩)

/-- A copy of the shared pointer. -/
def share (shared : SharedTrans) : TransMgr Data :=
  { mgr with useCount :=
      Function.update mgr.useCount shared.trans (mgr.useCount shared.trans + 1) }

/-- The end of a copy. The last one returns the object to its pool. -/
def release (shared : SharedTrans) : TransMgr Data :=
  let left := mgr.useCount shared.trans - 1
  { mgr with
    useCount := Function.update mgr.useCount shared.trans left
    transMap :=
      if left = 0 then
        Finmap.insert shared.cmd (mgr.pool shared.cmd ++ [shared.trans]) mgr.transMap
      else mgr.transMap }

/-- `FreeCoroutine` clears the task, and the captured pointer ends with it. -/
def collect : CoEvent SharedTrans Data → TransMgr Data
  | .finished _ (some shared) => mgr.release shared
  | _ => mgr

/-- The manager after a step of its coroutine tasks. -/
def settle (outcome : Outcome SharedTrans Data) : MgrOutcome Data :=
  ⟨outcome.events.foldl collect { mgr with coTask := outcome.coTask }, outcome.code, outcome.events⟩

/-- `trans_map_[cmd]` makes an empty pool when it is missing. -/
def touch (cmd : Cmd) : TransMgr Data :=
  { mgr with transMap := Finmap.insert cmd (mgr.pool cmd) mgr.transMap }

/-- The lambda of the task captures a copy of the pointer, and `OnMsg` holds one until it
returns. -/
def startTrans (msg : TransMsg Data) (segment : Segment) (shared : SharedTrans) :
    Option (MgrOutcome Data) :=
  let captured := mgr.share shared
  let added := captured.coTask.addTack shared
  (added.1.resumeOneWithMsg added.2 msg.data segment).map fun outcome =>
    let settled := captured.settle outcome
    { settled with mgr := settled.mgr.release shared }

def onMsg (msg : TransMsg Data) (segment : Segment) : Option (MgrOutcome Data) :=
  if msg.coId = 0 then
    match (mgr.touch msg.cmd).getShared msg.cmd with
    | none => some ⟨mgr.touch msg.cmd, -1, []⟩
    | some (taken, shared) => taken.startTrans msg segment shared
  else if (mgr.coTask.coPool.findCoId msg.coId).isSome then
    (mgr.coTask.resumeOneWithMsg msg.coId msg.data segment).map mgr.settle
  else some ⟨mgr, -1, []⟩

def tickTimeOutCo (now : Time) : TransMgr Data :=
  { mgr with coTask := mgr.coTask.doTimeOutTask now }

/-- The running `TickTimeOutCo` takes its next turn. -/
def proceed (segment : Segment) : Option (MgrOutcome Data) :=
  (mgr.coTask.proceed segment).map mgr.settle

end TransMgr

/-- The calls of the manager. A running `TickTimeOutCo` takes its turns by `proceed`. -/
inductive TransAct (Data : Type)
  | registerCmd (cmd : Cmd) (count : Int)
  | onMsg (msg : TransMsg Data) (segment : Segment)
  | tickTimeOutCo (now : Time)
  | proceed (segment : Segment)

namespace TransMgr

variable {Data : Type} (mgr : TransMgr Data)

/-- The result of a call outside of a running `TickTimeOutCo`. -/
def operate : TransAct Data → Option (MgrOutcome Data)
  | .registerCmd cmd count =>
      let registered := mgr.registerCmd cmd count
      some ⟨registered.1, if registered.2 then 1 else 0, []⟩
  | .onMsg msg segment => mgr.onMsg msg segment
  | .tickTimeOutCo now => some ⟨mgr.tickTimeOutCo now, 0, []⟩
  | .proceed _ => none

def step : TransAct Data → Option (MgrOutcome Data)
  | .proceed segment => mgr.proceed segment
  | act => if mgr.coTask.mainCall.isIdle then mgr.operate act else none

end TransMgr

/-- The manager with every order of calls and every transaction body. -/
def transMachine (Data : Type) : Machine (TransMgr Data) (TransAct Data) :=
  ⟨TransMgr.empty, fun mgr act => (mgr.step act).map MgrOutcome.mgr⟩

namespace TransMgr

variable {Data : Type} {mgr : TransMgr Data}

@[simp] theorem share_coTask (shared : SharedTrans) :
    (mgr.share shared).coTask = mgr.coTask := rfl

@[simp] theorem release_coTask (shared : SharedTrans) :
    (mgr.release shared).coTask = mgr.coTask := rfl

theorem collect_frame (event : CoEvent SharedTrans Data) :
    (mgr.collect event).coTask = mgr.coTask ∧ (mgr.collect event).made = mgr.made := by
  unfold collect
  split <;> exact ⟨rfl, rfl⟩

theorem foldl_collect_frame (events : List (CoEvent SharedTrans Data)) :
    (events.foldl collect mgr).coTask = mgr.coTask ∧
      (events.foldl collect mgr).made = mgr.made := by
  induction events generalizing mgr with
  | nil => exact ⟨rfl, rfl⟩
  | cons event rest ih =>
      obtain ⟨sameTask, sameMade⟩ := mgr.collect_frame event
      rw [List.foldl_cons, (ih).1, (ih).2]
      exact ⟨sameTask, sameMade⟩

@[simp] theorem settle_coTask (outcome : Outcome SharedTrans Data) :
    (mgr.settle outcome).mgr.coTask = outcome.coTask := by
  rw [settle, (foldl_collect_frame _).1]

@[simp] theorem addAll_coTask (cmd : Cmd) (count : Nat) :
    (mgr.addAll cmd count).coTask = mgr.coTask := by
  induction count generalizing mgr with
  | zero => rfl
  | succ count ih => exact ih

@[simp] theorem registerCmd_coTask (cmd : Cmd) (count : Int) :
    (mgr.registerCmd cmd count).1.coTask = mgr.coTask := by
  unfold registerCmd
  split
  · rfl
  · simp

theorem getShared_cases {cmd : Cmd} {taken : TransMgr Data} {shared : SharedTrans}
    (got : mgr.getShared cmd = some (taken, shared)) :
    ∃ trans, (mgr.pool cmd).getLast? = some trans ∧ shared = ⟨cmd, trans⟩ ∧
      taken = { mgr with
        transMap := Finmap.insert cmd (mgr.pool cmd).dropLast mgr.transMap
        useCount := Function.update mgr.useCount trans 1 } := by
  obtain ⟨trans, last, same⟩ := Option.map_eq_some_iff.mp got
  cases same
  exact ⟨trans, last, rfl, rfl⟩

/-- A message finds no object, starts a transaction, wakes a coroutine or finds none. -/
theorem onMsg_cases {msg : TransMsg Data} {segment : Segment} {outcome : MgrOutcome Data}
    (stepped : mgr.onMsg msg segment = some outcome) :
    (msg.coId = 0 ∧ (mgr.touch msg.cmd).getShared msg.cmd = none ∧
      outcome = ⟨mgr.touch msg.cmd, -1, []⟩) ∨
    (msg.coId = 0 ∧ ∃ taken shared, (mgr.touch msg.cmd).getShared msg.cmd = some (taken, shared) ∧
      taken.startTrans msg segment shared = some outcome) ∨
    (msg.coId ≠ 0 ∧ ∃ woken, mgr.coTask.resumeOneWithMsg msg.coId msg.data segment = some woken ∧
      outcome = mgr.settle woken) ∨
    (msg.coId ≠ 0 ∧ mgr.coTask.coPool.findCoId msg.coId = none ∧ outcome = ⟨mgr, -1, []⟩) := by
  unfold onMsg at stepped
  split at stepped
  · rename_i fresh
    split at stepped
    · rename_i full
      cases stepped
      exact Or.inl ⟨fresh, full, rfl⟩
    · rename_i taken shared got
      exact Or.inr (Or.inl ⟨fresh, taken, shared, got, stepped⟩)
  · rename_i named
    split at stepped
    · obtain ⟨woken, resumed, rfl⟩ := Option.map_eq_some_iff.mp stepped
      exact Or.inr (Or.inr (Or.inl ⟨named, woken, resumed, rfl⟩))
    · rename_i missing
      cases stepped
      exact Or.inr (Or.inr (Or.inr ⟨named, by simpa using missing, rfl⟩))

/-- What a call does to the coroutine tasks. -/
inductive Scheduled (coTask : CoTask SharedTrans Data) :
    CoTask SharedTrans Data → Prop
  | same : Scheduled coTask coTask
  | started {shared : SharedTrans} {msg : TransMsg Data} {segment : Segment}
      {outcome : Outcome SharedTrans Data}
      (resumed : (coTask.addTack shared).1.resumeOneWithMsg (coTask.addTack shared).2 msg.data
        segment = some outcome) : Scheduled coTask outcome.coTask
  | resumed {msg : TransMsg Data} {segment : Segment}
      {outcome : Outcome SharedTrans Data}
      (resumed : coTask.resumeOneWithMsg msg.coId msg.data segment = some outcome) :
      Scheduled coTask outcome.coTask
  | ticked {now : Time} (idle : coTask.mainCall = .idle) :
      Scheduled coTask (coTask.doTimeOutTask now)
  | proceeded {segment : Segment} {outcome : Outcome SharedTrans Data}
      (proceeded : coTask.proceed segment = some outcome) : Scheduled coTask outcome.coTask

theorem onMsg_scheduled {msg : TransMsg Data} {segment : Segment} {outcome : MgrOutcome Data}
    (stepped : mgr.onMsg msg segment = some outcome) :
    Scheduled mgr.coTask outcome.mgr.coTask := by
  rcases onMsg_cases stepped with ⟨_, _, rfl⟩ | ⟨_, taken, shared, got, started⟩ |
    ⟨_, woken, resumed, rfl⟩ | ⟨_, _, rfl⟩
  · exact .same
  · obtain ⟨trans, _, _, rfl⟩ := getShared_cases got
    obtain ⟨woken, resumed, rfl⟩ := Option.map_eq_some_iff.mp started
    rw [release_coTask, settle_coTask]
    exact .started resumed
  · rw [settle_coTask]
    exact .resumed resumed
  · exact .same

/-- Every step of the manager is one of the listed steps of its coroutine tasks. -/
theorem step_scheduled {act : TransAct Data} {outcome : MgrOutcome Data}
    (stepped : mgr.step act = some outcome) : Scheduled mgr.coTask outcome.mgr.coTask := by
  cases act with
  | proceed segment =>
      obtain ⟨woken, proceeded, rfl⟩ := Option.map_eq_some_iff.mp stepped
      rw [settle_coTask]
      exact .proceeded proceeded
  | registerCmd cmd count =>
      obtain ⟨_, operated⟩ := Option.ite_none_right_eq_some.mp stepped
      cases operated
      rw [registerCmd_coTask]
      exact .same
  | onMsg msg segment =>
      obtain ⟨_, operated⟩ := Option.ite_none_right_eq_some.mp stepped
      exact onMsg_scheduled operated
  | tickTimeOutCo now =>
      obtain ⟨idle, operated⟩ := Option.ite_none_right_eq_some.mp stepped
      cases operated
      exact .ticked (MainCall.eq_idle idle)

/-- The loop of `RegisterCmd` fills the pool with the new objects. -/
theorem addAll_succ (mgr : TransMgr Data) (cmd : Cmd) (count : Nat) :
    mgr.addAll cmd (count + 1) = { mgr with
      transMap := Finmap.insert cmd (mgr.pool cmd ++ List.range' mgr.made (count + 1)) mgr.transMap
      made := mgr.made + (count + 1) } := by
  induction count generalizing mgr with
  | zero => rfl
  | succ count ih =>
      have added : (mgr.addTrans cmd).pool cmd = mgr.pool cmd ++ [mgr.made] := by
        simp [addTrans, pool]
      have total : mgr.made + 1 + (count + 1) = mgr.made + (count + 1 + 1) := by omega
      rw [addAll, ih, added]
      simp only [addTrans, Finmap.insert_insert, List.append_assoc, List.cons_append,
        List.nil_append, ← List.range'_succ, total]

theorem registerCmd_empty (cmd : Cmd) (count : Nat) :
    ((TransMgr.empty : TransMgr Data).registerCmd cmd (count + 1 : Nat)).1 =
      ⟨Finmap.insert cmd (List.range' 0 (count + 1)) ∅, CoTask.empty, fun _ => 0, count + 1⟩ := by
  have unknown : (TransMgr.empty : TransMgr Data).transMap.lookup cmd = none := rfl
  rw [registerCmd, unknown, if_neg (by simp), Int.toNat_natCast, addAll_succ]
  simp only [empty, pool, Finmap.lookup_empty, Option.getD_none, List.nil_append, Nat.zero_add]

end TransMgr

end QServer
