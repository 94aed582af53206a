import QServer.Co.Census

/-
This file follows the calls of `Yield` in which the coroutines wait.
-/

namespace QServer

/-- An entry of a list stays in its place when more entries come. -/
theorem getElem?_append_some {Entry : Type} {early : List Entry} {place : Nat} {entry : Entry}
    (known : early[place]? = some entry) (more : List Entry) :
    (early ++ more)[place]? = some entry := by
  obtain ⟨bound, _⟩ := List.getElem?_eq_some_iff.mp known
  rw [List.getElem?_append_left bound]
  exact known

/-- The call that a switch to the context returns from. -/
def Context.call : Context → Option YieldCall
  | .suspended call => some call
  | _ => none

namespace CoTask

variable {Body Msg : Type} {coTask : CoTask Body Msg} {coId : CoId} {wake : Wake Msg}
  {segment : Segment} {outcome : Outcome Body Msg}

/-- The call in which the active coroutine waits. -/
def waits (coTask : CoTask Body Msg) (coId : CoId) : Option YieldCall :=
  (coTask.coPool.found coId).bind fun co => co.context.call

/-- The call with the number has not returned yet. -/
def StillWaits (coTask : CoTask Body Msg) (number : Nat) : Prop :=
  ∃ coId call, coTask.waits coId = some call ∧ call.number = number

/-- Only the active coroutines can wait, so the search is finite. -/
instance (coTask : CoTask Body Msg) (number : Nat) : Decidable (coTask.StillWaits number) := by
  refine decidable_of_iff (∃ coId ∈ coTask.coPool.actionCoroutine.keys,
    ∃ call ∈ coTask.waits coId, call.number = number) ⟨?_, ?_⟩
  · rintro ⟨coId, _, call, waiting, same⟩
    exact ⟨coId, call, waiting, same⟩
  · rintro ⟨coId, call, waiting, same⟩
    refine ⟨coId, ?_, call, waiting, same⟩
    obtain ⟨co, found, _⟩ := Option.bind_eq_some_iff.mp waiting
    obtain ⟨ptr, active, _⟩ := Option.map_eq_some_iff.mp found
    exact Finmap.mem_keys.mpr (Finmap.mem_of_lookup_eq_some active)

/-- All active coroutines wait, and nobody calls `ResumeAll`. -/
structure Resting (coTask : CoTask Body Msg) : Prop where
  keyed : coTask.coPool.Keyed
  unmarked : coTask.coPool.Unmarked
  suspended : ∀ coId co, coTask.coPool.found coId = some co → ∃ call, co.context = .suspended call
  noLoop : ∀ coIdList rest, coTask.mainCall ≠ .resumeAll coIdList rest

theorem Resting.empty : (CoTask.empty : CoTask Body Msg).Resting := by
  refine ⟨Tidy.empty.keyed, Tidy.empty.unmarked, fun coId co found => ?_, ?_⟩
  · cases found
  · rintro coIdList rest ⟨⟩

/-- The identifier of a coroutine that does not wait names no active coroutine. -/
theorem Resting.waits_eq_none (resting : coTask.Resting) :
    coTask.waits coId = none ↔ coTask.coPool.findCoId coId = none := by
  rw [waits, ← CoPool.found_eq_none]
  constructor
  · intro silent
    cases found : coTask.coPool.found coId with
    | none => rfl
    | some co =>
        obtain ⟨call, waiting⟩ := resting.suspended coId co found
        rw [found, Option.bind_some, waiting] at silent
        cases silent
  · intro absent
    rw [absent, Option.bind_none]

theorem Orderly.resting (orderly : coTask.Orderly) : coTask.Resting :=
  ⟨orderly.tidy.keyed, orderly.tidy.unmarked, fun coId => (orderly.settled coId).1,
    orderly.noLoop⟩

/-- Without a free coroutine, all coroutines wait. -/
theorem Orderly.created_le (orderly : coTask.Orderly) (empty : coTask.coPool.freeList = [])
    {ids : List CoId} (named : ∀ coId, coTask.waits coId ≠ none → coId ∈ ids) :
    coTask.coPool.created ≤ ids.length := by
  have distinct : ((List.range coTask.coPool.created).map Nat.succ).Nodup :=
    List.nodup_range.map Nat.succ_injective
  have inside : (List.range coTask.coPool.created).map Nat.succ ⊆ ids := by
    intro coId member
    obtain ⟨ptr, below, rfl⟩ := List.mem_map.mp member
    refine named _ fun silent => ?_
    have inactive := orderly.resting.waits_eq_none.mp silent
    have free := (orderly.counted.free ptr (List.mem_range.mp below)).mpr inactive
    rw [empty] at free
    cases free
  simpa using (List.subperm_of_subset distinct inside).length_le

/-- What a body leaves behind when it switches back. -/
inductive Left (coTask : CoTask Body Msg) (coId : CoId) :
    Segment → CoTask Body Msg → CoEvent Body Msg → Prop
  | yielded {now timeOut : Time} {address : Addr} {later : CoTask Body Msg}
      (waits : later.waits =
        Function.update coTask.waits coId (some (coTask.nextCall now timeOut)))
      (yields : later.yields = coTask.yields + 1) :
      Left coTask coId (.yield now timeOut address) later
        (.yielded coId (coTask.nextCall now timeOut))
  | finished {task : Option Body} {later : CoTask Body Msg}
      (waits : later.waits = Function.update coTask.waits coId none)
      (yields : later.yields = coTask.yields) :
      Left coTask coId .finish later (.finished coId task)

/-- A switch back is seen in the calls of the others and in the count only. -/
theorem Left.of_same {first base later : CoTask Body Msg} {last : CoEvent Body Msg}
    (left : Left base coId segment later last)
    (sameWaits : ∀ other, other ≠ coId → base.waits other = first.waits other)
    (sameYields : base.yields = first.yields) : Left first coId segment later last := by
  have sameCall : base.nextCall = first.nextCall := by
    funext now timeOut
    rw [nextCall, nextCall, sameYields]
  have sameUpdate : ∀ call, Function.update base.waits coId call =
      Function.update first.waits coId call := by
    intro call
    funext other
    rw [Function.update_apply, Function.update_apply]
    split_ifs with here
    · rfl
    · exact sameWaits other here
  cases left with
  | yielded waits yields =>
      rw [sameCall] at waits ⊢
      rw [sameUpdate] at waits
      rw [sameYields] at yields
      exact .yielded waits yields
  | finished waits yields =>
      rw [sameUpdate] at waits
      rw [sameYields] at yields
      exact .finished waits yields

theorem waits_of_coPool {first second : CoTask Body Msg}
    (same : first.coPool = second.coPool) : first.waits = second.waits := by
  funext other
  rw [waits, waits, same]

/-- Nobody waits when no coroutine is active. -/
theorem waits_of_inactive (inactive : coTask.coPool.actionCoroutine = ∅) (coId : CoId) :
    coTask.waits coId = none := by
  rw [waits, CoPool.found, CoPool.findCoId, inactive]
  rfl

/-- A wake finds no coroutine, or it enters one and leaves it again. -/
theorem Woken.left (keyed : coTask.coPool.Keyed)
    (woken : Woken coTask coId wake segment outcome) :
    (coTask.coPool.findCoId coId = none ∧ outcome = ⟨coTask, -1, []⟩) ∨
      ∃ ptr first last, coTask.coPool.findCoId coId = some ptr ∧
        Entered coId wake (coTask.coPool.object ptr) first ∧ outcome.events = [first, last] ∧
        Left coTask coId segment outcome.coTask last := by
  cases woken with
  | missed absent => exact Or.inl ⟨absent, rfl⟩
  | yielded active entered fresh =>
      rename_i ptr first now timeOut address
      refine Or.inr ⟨ptr, first, _, active, entered, rfl, .yielded ?_ rfl⟩
      funext other
      have found := CoPool.found_modify keyed active
        (Coroutine.resuspended wake (coTask.nextCall now timeOut)) other
      rw [waits, afterYield, found, Function.update_apply]
      split_ifs with here
      · rfl
      · rfl
  | finished active entered =>
      rename_i ptr first
      refine Or.inr ⟨ptr, first, _, active, entered, rfl, .finished ?_ rfl⟩
      funext other
      have changed := keyed.modify ptr (Coroutine.woken wake) fun _ => rfl
      rw [waits, afterFinish, CoPool.found_freeCoroutine changed active, Function.update_apply]
      split_ifs with here
      · rfl
      · rw [CoPool.found_modify keyed active, if_neg here]
        rfl

/-- A wake lets its coroutine wait again or end. -/
theorem Woken.resting (keyed : coTask.coPool.Keyed) (unmarked : coTask.coPool.Unmarked)
    (others : ∀ other co, other ≠ coId → coTask.coPool.found other = some co →
      ∃ call, co.context = .suspended call)
    (noLoop : ∀ coIdList rest, coTask.mainCall ≠ .resumeAll coIdList rest)
    (woken : Woken coTask coId wake segment outcome) : outcome.coTask.Resting := by
  obtain ⟨keyed', unmarked', same⟩ := woken.pool keyed unmarked
  refine ⟨keyed', unmarked', fun other co found => ?_, by rw [woken.mainCall]; exact noLoop⟩
  by_cases here : other = coId
  · subst here
    cases woken with
    | missed absent =>
        rw [CoPool.found_eq_none.mpr absent] at found
        cases found
    | yielded active entered fresh =>
        rw [afterYield, CoPool.found_modify keyed active, if_pos rfl] at found
        cases found
        exact ⟨_, rfl⟩
    | finished active entered =>
        rename_i ptr _
        have changed := keyed.modify ptr (Coroutine.woken wake) fun _ => rfl
        rw [afterFinish, CoPool.found_freeCoroutine changed active, if_pos rfl] at found
        cases found
  · rw [same other here] at found
    exact others other co here found

/-- A wake ends the call that waits, and finds no coroutine without one. -/
theorem Resting.returns (resting : coTask.Resting)
    (woken : Woken (coTask.cancelTimer coId) coId wake segment outcome) :
    outcome.coTask.Resting ∧
      ((coTask.waits coId = none ∧ outcome.events = [] ∧ outcome.coTask.waits = coTask.waits ∧
          outcome.coTask.yields = coTask.yields) ∨
        ∃ call stored last, coTask.waits coId = some call ∧
          outcome.events = [.returned coId call (if wake.timeOut then -1 else 0) wake
            (wake.msg.or stored), last] ∧
          Left coTask coId segment outcome.coTask last) := by
  have samePool : (coTask.cancelTimer coId).coPool = coTask.coPool := cancelTimer_coPool
  have keyed : (coTask.cancelTimer coId).coPool.Keyed := samePool ▸ resting.keyed
  have sameWaits : (coTask.cancelTimer coId).waits = coTask.waits := waits_of_coPool samePool
  constructor
  · refine woken.resting keyed (samePool ▸ resting.unmarked) (fun other co _ found => ?_)
      (by rw [cancelTimer_mainCall]; exact resting.noLoop)
    rw [samePool] at found
    exact resting.suspended other co found
  · rcases woken.left keyed with ⟨absent, rfl⟩ | ⟨ptr, first, last, active, entered, events, left⟩
    · rw [samePool] at absent
      exact Or.inl ⟨resting.waits_eq_none.mpr absent, rfl, sameWaits, cancelTimer_yields⟩
    · rw [samePool] at active entered
      have found : coTask.coPool.found coId = some (coTask.coPool.object ptr) := by
        rw [CoPool.found, active, Option.map_some]
      obtain ⟨call, waiting⟩ := resting.suspended coId _ found
      refine Or.inr ⟨call, (coTask.coPool.object ptr).coMsg, last, ?_, ?_,
        left.of_same (fun other _ => congrFun sameWaits other) cancelTimer_yields⟩
      · rw [waits, found, Option.bind_some, waiting]
        rfl
      · rw [events]
        cases entered with
        | started ready =>
            rw [ready] at waiting
            cases waiting
        | returned suspended =>
            rw [waiting, Context.suspended.injEq] at suspended
            subst suspended
            rfl

/-- A wake by a message is a return from the call that waits. -/
theorem Resting.resumeOneWithMsg (resting : coTask.Resting) {msg : Msg}
    (resumed : coTask.resumeOneWithMsg coId msg segment = some outcome) :
    outcome.coTask.Resting ∧
      ((coTask.waits coId = none ∧ outcome.events = [] ∧ outcome.coTask.waits = coTask.waits ∧
          outcome.coTask.yields = coTask.yields) ∨
        ∃ call last, coTask.waits coId = some call ∧
          outcome.events = [.returned coId call 0 (.resumeOneWithMsg msg) (some msg), last] ∧
          Left coTask coId segment outcome.coTask last) := by
  have woken := resumeOneWithMsg_cases resting.keyed resting.unmarked resumed
  obtain ⟨after, silent | ⟨call, stored, last, waiting, events, left⟩⟩ := resting.returns woken
  · exact ⟨after, Or.inl silent⟩
  · exact ⟨after, Or.inr ⟨call, last, waiting, events, left⟩⟩

/-- The first switch to a new coroutine starts its task. -/
theorem Resting.started (resting : coTask.Resting) (task : Body)
    (woken : Woken ((coTask.addTack task).1.cancelTimer coTask.coPool.nextCoId)
      coTask.coPool.nextCoId wake segment outcome) :
    outcome.coTask.Resting ∧ ∃ last,
      outcome.events = [.started coTask.coPool.nextCoId (some task), last] ∧
        Left coTask coTask.coPool.nextCoId segment outcome.coTask last := by
  have found := CoPool.found_newCoroutine resting.keyed resting.unmarked task
  have keyed : (coTask.addTack task).1.coPool.Keyed := resting.keyed.newCoroutine
  have unmarked : (coTask.addTack task).1.coPool.Unmarked := resting.unmarked.newCoroutine
  have samePool : ((coTask.addTack task).1.cancelTimer coTask.coPool.nextCoId).coPool =
      (coTask.addTack task).1.coPool := cancelTimer_coPool
  constructor
  · refine woken.resting (samePool ▸ keyed) (samePool ▸ unmarked)
      (fun other co different active => ?_) (by rw [cancelTimer_mainCall]; exact resting.noLoop)
    obtain ⟨stored, known⟩ := found other
    rw [samePool, addTack, known, if_neg different] at active
    exact resting.suspended other co active
  · obtain ⟨stored, known⟩ := found coTask.coPool.nextCoId
    rw [if_pos rfl] at known
    obtain ⟨place, active, object⟩ := CoPool.found_eq_some.mp known
    rcases woken.left (samePool ▸ keyed) with ⟨absent, _⟩ |
      ⟨ptr, first, last, active', entered, events, left⟩
    · rw [samePool, addTack, active] at absent
      cases absent
    · rw [samePool, addTack, active, Option.some.injEq] at active'
      subst active'
      rw [samePool, addTack, object] at entered
      refine ⟨last, ?_, left.of_same (fun other different => ?_) cancelTimer_yields⟩
      · rw [events]
        cases entered with
        | started ready => rfl
        | returned waiting => cases waiting
      · obtain ⟨stored', known'⟩ := found other
        rw [waits_of_coPool samePool, waits, addTack, known', if_neg different]
        rfl

theorem Resting.addTack_resume (resting : coTask.Resting) (task : Body) {msg : Msg}
    (resumed : (coTask.addTack task).1.resumeOneWithMsg (coTask.addTack task).2 msg segment =
      some outcome) :
    outcome.coTask.Resting ∧ ∃ last,
      outcome.events = [.started coTask.coPool.nextCoId (some task), last] ∧
        Left coTask coTask.coPool.nextCoId segment outcome.coTask last := by
  have named : (coTask.addTack task).2 = coTask.coPool.nextCoId := CoPool.newCoroutine_id
  rw [named] at resumed
  exact resting.started task
    (resumeOneWithMsg_cases resting.keyed.newCoroutine resting.unmarked.newCoroutine resumed)

theorem Resting.doTack (resting : coTask.Resting) (task : Body)
    (resumed : coTask.doTack task segment = some outcome) :
    outcome.coTask.Resting ∧ ∃ last,
      outcome.events = [.started coTask.coPool.nextCoId (some task), last] ∧
        Left coTask coTask.coPool.nextCoId segment outcome.coTask last := by
  have named : (coTask.addTack task).2 = coTask.coPool.nextCoId := CoPool.newCoroutine_id
  rw [CoTask.doTack, named] at resumed
  exact resting.started task
    (resumeOne_cases resting.keyed.newCoroutine resting.unmarked.newCoroutine rfl
      (by rintro ⟨⟩) resumed)

/-- The loop of `DoTimeOutTask` leaves the coroutines alone. -/
theorem Resting.turn (resting : coTask.Resting) (timer : Timer ResumeTask) {mainCall : MainCall}
    (noLoop : ∀ coIdList rest, mainCall ≠ .resumeAll coIdList rest) :
    ({ coTask with timer, mainCall } : CoTask Body Msg).Resting :=
  ⟨resting.keyed, resting.unmarked, resting.suspended, noLoop⟩

theorem Resting.doTimeOutTask (resting : coTask.Resting) (now : Time) :
    (coTask.doTimeOutTask now).Resting :=
  resting.turn _ (by rintro coIdList rest ⟨⟩)

/-- A turn of `DoTimeOutTask` wakes nobody, or a call ends with -1. -/
theorem Resting.proceed (resting : coTask.Resting)
    (proceeded : coTask.proceed segment = some outcome) :
    outcome.coTask.Resting ∧
      ((outcome.events = [] ∧ outcome.coTask.waits = coTask.waits ∧
          outcome.coTask.yields = coTask.yields) ∨
        ∃ coId call armed now msg last, coTask.waits coId = some call ∧
          outcome.events = [.returned coId call (-1) (.timer armed now) msg, last] ∧
          Left coTask coId segment outcome.coTask last) := by
  unfold CoTask.proceed at proceeded
  split at proceeded
  · cases proceeded
  · cases proceeded
    exact ⟨resting.turn coTask.timer (by rintro coIdList rest ⟨⟩), Or.inl ⟨rfl, rfl, rfl⟩⟩
  · rename_i now timeOutSet node rest running
    split at proceeded
    · rename_i timer taken
      cases proceeded
      exact ⟨resting.turn timer (by rintro coIdList rest ⟨⟩), Or.inl ⟨rfl, rfl, rfl⟩⟩
    · obtain ⟨outcome, resuming, rfl⟩ := Option.map_eq_some_iff.mp proceeded
      let turned : CoTask Body Msg :=
        { coTask with mainCall := .doTimeOutTask now timeOutSet rest }
      have turnedResting : turned.Resting :=
        resting.turn coTask.timer (by rintro coIdList rest ⟨⟩)
      have woken : Woken (turned.cancelTimer node.info.task.coId) node.info.task.coId
          (.timer node.info.task.call now) segment outcome := by
        refine wakeUp_cases (by simpa using turnedResting.keyed)
          (by simpa using turnedResting.unmarked) (fun _ ptr active entry => ?_) resuming
        rw [cancelTimer_coPool] at active entry
        have found : turned.coPool.found node.info.task.coId = some (turned.coPool.object ptr) := by
          rw [CoPool.found, active, Option.map_some]
        obtain ⟨call, waiting⟩ := turnedResting.suspended _ _ found
        rw [entry] at waiting
        cases waiting
      obtain ⟨after, silent | ⟨call, stored, last, waiting, events, left⟩⟩ :=
        turnedResting.returns woken
      · exact ⟨after.turn _ after.noLoop, Or.inl silent.2⟩
      · refine ⟨after.turn _ after.noLoop,
          Or.inr ⟨_, call, _, now, stored, last, waiting, events, ?_⟩⟩
        cases left with
        | yielded waits yields => exact .yielded waits yields
        | finished waits yields => exact .finished waits yields
  · cases proceeded
    exact ⟨resting.turn coTask.timer (by rintro coIdList rest ⟨⟩), Or.inl ⟨rfl, rfl, rfl⟩⟩
  · rename_i running
    exact absurd running (resting.noLoop _ _)

end CoTask

end QServer
