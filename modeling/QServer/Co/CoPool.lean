import QServer.Timer.Basic
import Mathlib.Logic.Function.Basic

/-
This file models the coroutine pool of `commlib/co/coroutine.h` and `coroutine.cpp`.
-/

namespace QServer
open Container

/-- A `co_id` is a `uint32_t`. Its way through an `int` and back keeps the value. -/
abbrev CoId := Nat

/-- The place of a coroutine object in the order of their creation. -/
abbrev CoPtr := Nat

/-- One call of `CoTask::Yield`. The number counts the calls and is not part of the source. -/
structure YieldCall where
  number : Nat
  madeAt : Time
  timeOut : Time
  deriving DecidableEq

/-- The saved context of a coroutine, as far as a switch to it depends on it. -/
inductive Context
  | unset
  | entry
  | suspended (call : YieldCall)
  deriving DecidableEq

/-- The message pointer is unset until the first `ResumeWithMsg`. -/
structure Coroutine (Body Msg : Type) where
  coId : CoId
  task : Option Body
  coMsg : Option Msg
  resumeByTimeOut : Bool
  context : Context

structure CoPool (Body Msg : Type) where
  object : CoPtr → Coroutine Body Msg
  created : Nat
  freeList : List CoPtr
  actionCoroutine : UnorderedMap CoId CoPtr
  incCoId : CoId

namespace CoPool

variable {Body Msg : Type}

def empty : CoPool Body Msg := ⟨fun _ => ⟨0, none, none, false, .unset⟩, 0, [], ∅, 0⟩

variable (pool : CoPool Body Msg)

/-- The identifier wraps at `2 ^ 32` and skips zero. -/
def getCoId : CoId :=
  let next := (pool.incCoId + 1) % 2 ^ 32
  if next = 0 then 1 else next

def modify (ptr : CoPtr) (change : Coroutine Body Msg → Coroutine Body Msg) : CoPool Body Msg :=
  { pool with object := Function.update pool.object ptr (change (pool.object ptr)) }

/-- A new coroutine object goes to the free list. -/
def grow : CoPool Body Msg :=
  { pool with
    object := Function.update pool.object pool.created ⟨pool.getCoId, none, none, false, .unset⟩
    created := pool.created + 1
    freeList := [pool.created]
    incCoId := pool.getCoId }

/-- The coroutine leaves the free list and gets a fresh context and a task. -/
def activate (ptr : CoPtr) (rest : List CoPtr) (task : Body) : CoPool Body Msg × CoId :=
  let coId := (pool.object ptr).coId
  let prepared := pool.modify ptr fun co => { co with task := some task, context := .entry }
  ({ prepared with
      freeList := rest, actionCoroutine := Finmap.insert coId ptr pool.actionCoroutine }, coId)

def newCoroutine (task : Body) : CoPool Body Msg × CoId :=
  match pool.freeList with
  | [] => pool.grow.activate pool.created [] task
  | ptr :: rest => pool.activate ptr rest task

def findCoId (coId : CoId) : Option CoPtr := pool.actionCoroutine.lookup coId

/-- The active coroutine with the identifier. -/
def found (coId : CoId) : Option (Coroutine Body Msg) := (pool.findCoId coId).map pool.object

/-- `Yield` saves the running context in the coroutine that has the identifier. -/
def yield (coId : CoId) (call : YieldCall) : Option (CoPool Body Msg) :=
  (pool.findCoId coId).map fun ptr =>
    pool.modify ptr fun co => { co with context := .suspended call }

/-- The switch to a coroutine uses its saved context up. A suspended call reads and clears the
flag. -/
def enter (ptr : CoPtr) : Option (CoPool Body Msg × Option (YieldCall × Int)) :=
  match (pool.object ptr).context with
  | .unset => none
  | .entry => some (pool.modify ptr fun co => { co with context := .unset }, none)
  | .suspended call =>
      let ret : Int := if (pool.object ptr).resumeByTimeOut then -1 else 0
      some (pool.modify ptr fun co => { co with context := .unset, resumeByTimeOut := false },
        some (call, ret))

def freeCoroutine (coId : CoId) : CoPool Body Msg :=
  match pool.findCoId coId with
  | none => pool
  | some ptr =>
      let cleared := pool.modify ptr fun co => { co with task := none }
      { cleared with
        freeList := pool.freeList ++ [ptr]
        actionCoroutine := Finmap.erase coId pool.actionCoroutine }

/-- The identifier that the next `NewCoroutine` returns. -/
def nextCoId : CoId :=
  match pool.freeList with
  | [] => pool.getCoId
  | ptr :: _ => (pool.object ptr).coId

/-- `Resume` marks the coroutine up to the switch to it, and returns -1 without one. -/
def resume (coId : CoId) (timeOut : Bool) : Option (CoPool Body Msg × CoPtr) :=
  (pool.findCoId coId).map fun ptr =>
    (pool.modify ptr fun co => { co with resumeByTimeOut := timeOut }, ptr)

/-- `ResumeWithMsg` stores the message and leaves the mark alone. -/
def resumeWithMsg (coId : CoId) (msg : Msg) : Option (CoPool Body Msg × CoPtr) :=
  (pool.findCoId coId).map fun ptr =>
    (pool.modify ptr fun co => { co with coMsg := some msg }, ptr)

/-- Each key of the active map is the identifier of its coroutine. -/
structure Keyed (pool : CoPool Body Msg) : Prop where
  free : ∀ ptr ∈ pool.freeList, ptr < pool.created
  active : ∀ coId ptr, pool.findCoId coId = some ptr →
    ptr < pool.created ∧ (pool.object ptr).coId = coId

/-- No coroutine is marked as resumed by a time-out. -/
def Unmarked (pool : CoPool Body Msg) : Prop :=
  ∀ ptr, (pool.object ptr).resumeByTimeOut = false

variable {pool} {coId other : CoId} {ptr : CoPtr}

theorem found_eq_some {co : Coroutine Body Msg} :
    pool.found coId = some co ↔ ∃ ptr, pool.findCoId coId = some ptr ∧ pool.object ptr = co := by
  rw [found, Option.map_eq_some_iff]

theorem found_eq_none : pool.found coId = none ↔ pool.findCoId coId = none := by
  rw [found, Option.map_eq_none_iff]

section Modify

variable {change : Coroutine Body Msg → Coroutine Body Msg}

@[simp] theorem modify_findCoId : (pool.modify ptr change).findCoId = pool.findCoId := rfl

@[simp] theorem modify_freeList : (pool.modify ptr change).freeList = pool.freeList := rfl

@[simp] theorem modify_same : (pool.modify ptr change).object ptr = change (pool.object ptr) :=
  Function.update_self _ _ _

theorem modify_object (place : CoPtr) :
    (pool.modify ptr change).object place =
      if place = ptr then change (pool.object ptr) else pool.object place :=
  Function.update_apply _ _ _ _

/-- A change of an active coroutine is seen under its identifier only. -/
theorem found_modify (keyed : Keyed pool) (active : pool.findCoId coId = some ptr)
    (change : Coroutine Body Msg → Coroutine Body Msg) (other : CoId) :
    (pool.modify ptr change).found other =
      if other = coId then some (change (pool.object ptr)) else pool.found other := by
  split_ifs with same
  · rw [same, found, modify_findCoId, active, Option.map_some, modify_same]
  · rw [found, found, modify_findCoId]
    cases lookup : pool.findCoId other with
    | none => rfl
    | some place =>
        have different : place ≠ ptr := by
          rintro rfl
          exact same ((keyed.active other place lookup).2.symm.trans
            (keyed.active coId place active).2)
        rw [Option.map_some, Option.map_some, modify_object, if_neg different]

theorem Keyed.modify (keyed : Keyed pool) (ptr : CoPtr)
    (change : Coroutine Body Msg → Coroutine Body Msg) (kept : ∀ co, (change co).coId = co.coId) :
    Keyed (pool.modify ptr change) := by
  refine ⟨keyed.free, fun id place lookup => ?_⟩
  obtain ⟨bound, same⟩ := keyed.active id place lookup
  refine ⟨bound, ?_⟩
  rw [modify_object]
  split_ifs with here
  · rw [kept, ← here, same]
  · exact same

theorem Unmarked.modify (unmarked : Unmarked pool) (ptr : CoPtr)
    (change : Coroutine Body Msg → Coroutine Body Msg)
    (kept : ∀ co, co.resumeByTimeOut = false → (change co).resumeByTimeOut = false) :
    Unmarked (pool.modify ptr change) := by
  intro place
  rw [modify_object]
  split_ifs with here
  · exact kept _ (unmarked ptr)
  · exact unmarked place

end Modify

section NewCoroutine

variable {task : Body} {rest : List CoPtr}

theorem activate_findCoId :
    (pool.activate ptr rest task).1.findCoId other =
      if other = (pool.object ptr).coId then some ptr else pool.findCoId other :=
  UnorderedMap.lookup_insert _ _ _ _

theorem activate_object :
    (pool.activate ptr rest task).1.object =
      Function.update pool.object ptr
        { pool.object ptr with task := some task, context := .entry } := rfl

theorem Keyed.activate (keyed : Keyed pool) (bound : ptr < pool.created)
    (below : ∀ place ∈ rest, place < pool.created) :
    Keyed (pool.activate ptr rest task).1 := by
  refine ⟨below, fun id place lookup => ?_⟩
  have sameId : ((pool.activate ptr rest task).1.object place).coId = (pool.object place).coId := by
    rw [activate_object, Function.update_apply]
    split_ifs with here
    · rw [here]
    · rfl
  rw [sameId]
  rw [activate_findCoId] at lookup
  split_ifs at lookup with same
  · cases lookup
    exact ⟨bound, same.symm⟩
  · exact keyed.active id place lookup

theorem found_activate (keyed : Keyed pool) :
    (pool.activate ptr rest task).1.found other =
      if other = (pool.object ptr).coId then
        some { pool.object ptr with task := some task, context := .entry }
      else pool.found other := by
  rw [found, activate_findCoId, activate_object]
  split_ifs with same
  · rw [Option.map_some, Function.update_self]
  · rw [found]
    cases lookup : pool.findCoId other with
    | none => rfl
    | some place =>
        have different : place ≠ ptr := by
          rintro rfl
          exact same (keyed.active other place lookup).2.symm
        rw [Option.map_some, Option.map_some, Function.update_of_ne different]

theorem Keyed.grow (keyed : Keyed pool) : Keyed pool.grow := by
  refine ⟨fun place member => ?_, fun id place lookup => ?_⟩
  · rw [List.mem_singleton.mp member]
    exact Nat.lt_succ_self _
  · obtain ⟨bound, same⟩ := keyed.active id place lookup
    refine ⟨Nat.lt_succ_of_lt bound, ?_⟩
    change (Function.update pool.object pool.created _ place).coId = id
    rwa [Function.update_of_ne (Nat.ne_of_lt bound)]

theorem found_grow (keyed : Keyed pool) : pool.grow.found other = pool.found other := by
  rw [found, found]
  change (pool.findCoId other).map pool.grow.object = _
  cases lookup : pool.findCoId other with
  | none => rfl
  | some place =>
      have bound := (keyed.active other place lookup).1
      rw [Option.map_some, Option.map_some]
      exact congrArg some (Function.update_of_ne (Nat.ne_of_lt bound) _ _)

theorem newCoroutine_id : (pool.newCoroutine task).2 = pool.nextCoId := by
  unfold newCoroutine nextCoId
  cases free : pool.freeList with
  | nil =>
      change ((Function.update pool.object pool.created _) pool.created).coId = _
      rw [Function.update_self]
  | cons ptr rest => rfl

theorem Keyed.newCoroutine (keyed : Keyed pool) : Keyed (pool.newCoroutine task).1 := by
  unfold CoPool.newCoroutine
  cases free : pool.freeList with
  | nil => exact keyed.grow.activate (Nat.lt_succ_self _) (by simp)
  | cons ptr rest =>
      refine keyed.activate (keyed.free ptr (by simp [free])) fun place member => ?_
      exact keyed.free place (by simp [free, member])

/-- The new coroutine is ready to enter its task, and no other active coroutine changes. -/
theorem found_newCoroutine (keyed : Keyed pool) (unmarked : Unmarked pool) (task : Body)
    (other : CoId) :
    ∃ msg, (pool.newCoroutine task).1.found other =
      if other = pool.nextCoId then some ⟨pool.nextCoId, some task, msg, false, .entry⟩
      else pool.found other := by
  unfold newCoroutine nextCoId
  cases free : pool.freeList with
  | nil =>
      refine ⟨none, ?_⟩
      dsimp only
      rw [found_activate keyed.grow, found_grow keyed]
      simp [grow]
  | cons ptr rest =>
      refine ⟨(pool.object ptr).coMsg, ?_⟩
      dsimp only
      rw [found_activate keyed, ← unmarked ptr]

theorem Unmarked.newCoroutine (unmarked : Unmarked pool) :
    Unmarked (pool.newCoroutine task).1 := by
  have activated : ∀ {pool : CoPool Body Msg} {ptr rest}, Unmarked pool →
      Unmarked (pool.activate ptr rest task).1 := by
    intro pool ptr rest quiet place
    rw [activate_object, Function.update_apply]
    split_ifs with here
    · exact quiet ptr
    · exact quiet place
  unfold CoPool.newCoroutine
  cases free : pool.freeList with
  | nil =>
      refine activated fun place => ?_
      change (Function.update pool.object pool.created _ place).resumeByTimeOut = false
      rw [Function.update_apply]
      split_ifs with here
      · rfl
      · exact unmarked place
  | cons ptr rest => exact activated unmarked

end NewCoroutine

section FreeCoroutine

theorem freeCoroutine_some (active : pool.findCoId coId = some ptr) :
    pool.freeCoroutine coId =
      { pool.modify ptr fun co => { co with task := none } with
        freeList := pool.freeList ++ [ptr]
        actionCoroutine := Finmap.erase coId pool.actionCoroutine } := by
  rw [freeCoroutine, active]

theorem freeCoroutine_findCoId :
    (pool.freeCoroutine coId).findCoId other =
      if other = coId then none else pool.findCoId other := by
  cases lookup : pool.findCoId coId with
  | none =>
      rw [freeCoroutine, lookup]
      split_ifs with same
      · exact same ▸ lookup
      · rfl
  | some ptr =>
      rw [freeCoroutine_some lookup]
      exact UnorderedMap.lookup_erase _ _ _

theorem Keyed.freeCoroutine (keyed : Keyed pool) (active : pool.findCoId coId = some ptr) :
    Keyed (pool.freeCoroutine coId) := by
  have changed := keyed.modify ptr (fun co => { co with task := none }) fun _ => rfl
  refine ⟨fun place member => ?_, fun id place lookup => ?_⟩
  · rw [freeCoroutine_some active] at member ⊢
    rcases List.mem_append.mp member with old | new
    · exact keyed.free place old
    · rw [List.mem_singleton.mp new]
      exact (keyed.active coId ptr active).1
  · rw [freeCoroutine_findCoId] at lookup
    split_ifs at lookup
    rw [freeCoroutine_some active]
    exact changed.active id place lookup

theorem found_freeCoroutine (keyed : Keyed pool) (active : pool.findCoId coId = some ptr)
    (other : CoId) :
    (pool.freeCoroutine coId).found other = if other = coId then none else pool.found other := by
  rw [found, freeCoroutine_findCoId]
  split_ifs with same
  · rfl
  · have changed := found_modify keyed active (fun co => { co with task := none }) other
    rw [if_neg same] at changed
    rw [← changed, freeCoroutine_some active]
    rfl

theorem Unmarked.freeCoroutine (unmarked : Unmarked pool)
    (active : pool.findCoId coId = some ptr) : Unmarked (pool.freeCoroutine coId) := by
  rw [freeCoroutine_some active]
  exact unmarked.modify ptr (fun co => { co with task := none }) fun _ quiet => quiet

end FreeCoroutine

section Switch

theorem Keyed.enter (keyed : Keyed pool)
    {entered : CoPool Body Msg × Option (YieldCall × Int)}
    (entering : pool.enter ptr = some entered) : Keyed entered.1 := by
  unfold CoPool.enter at entering
  split at entering
  · cases entering
  · cases entering
    dsimp only
    apply keyed.modify
    intro _
    rfl
  · cases entering
    dsimp only
    apply keyed.modify
    intro _
    rfl

theorem Keyed.yield (keyed : Keyed pool) {call : YieldCall} {next : CoPool Body Msg}
    (yielded : pool.yield coId call = some next) : Keyed next := by
  obtain ⟨ptr, _, rfl⟩ := Option.map_eq_some_iff.mp yielded
  apply keyed.modify
  intro _
  rfl

theorem Keyed.resume (keyed : Keyed pool) {timeOut : Bool} :
    ∀ marked ∈ pool.resume coId timeOut, Keyed marked.1 := by
  intro marked member
  obtain ⟨ptr, _, rfl⟩ := Option.map_eq_some_iff.mp member
  dsimp only
  apply keyed.modify
  intro _
  rfl

theorem Keyed.resumeWithMsg (keyed : Keyed pool) {msg : Msg} :
    ∀ marked ∈ pool.resumeWithMsg coId msg, Keyed marked.1 := by
  intro marked member
  obtain ⟨ptr, _, rfl⟩ := Option.map_eq_some_iff.mp member
  dsimp only
  apply keyed.modify
  intro _
  rfl

theorem Keyed.freed (keyed : Keyed pool) (coId : CoId) : Keyed (pool.freeCoroutine coId) := by
  cases active : pool.findCoId coId with
  | none =>
      rw [CoPool.freeCoroutine, active]
      exact keyed
  | some ptr => exact keyed.freeCoroutine active

end Switch

end CoPool

end QServer
