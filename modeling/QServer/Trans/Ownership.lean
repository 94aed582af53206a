import QServer.Lib.Ledger
import QServer.Trans.Scheduler

/-
This file follows the `Trans` objects between the pools and the coroutines.
-/

namespace QServer
open Container Transition CoTask

namespace CoTask

variable {Msg : Type} {coTask : CoTask SharedTrans Msg} {coId : CoId} {wake : Wake Msg}
  {segment : Segment} {outcome : Outcome SharedTrans Msg}

/-- The pointer that the task of an active coroutine captures. -/
def holder (coTask : CoTask SharedTrans Msg) (coId : CoId) : Option SharedTrans :=
  (coTask.coPool.found coId).bind Coroutine.task

theorem holder_of_coPool {later : CoTask SharedTrans Msg} (same : later.coPool = coTask.coPool) :
    later.holder = coTask.holder := by
  funext coId
  rw [holder, holder, same]

theorem holder_addTack (tidy : coTask.Tidy) (shared : SharedTrans) (other : CoId) :
    (coTask.addTack shared).1.holder other =
      if other = coTask.coPool.nextCoId then some shared else coTask.holder other := by
  obtain ⟨msg, found⟩ := CoPool.found_newCoroutine tidy.keyed tidy.unmarked shared other
  rw [holder, addTack, found, holder]
  split_ifs <;> rfl

theorem holder_finish (keyed : coTask.coPool.Keyed) {ptr : CoPtr}
    (active : coTask.coPool.findCoId coId = some ptr) (wake : Wake Msg) (other : CoId) :
    (coTask.afterFinish coId ptr wake).holder other =
      if other = coId then none else coTask.holder other := by
  have changed := keyed.modify ptr (Coroutine.woken wake) fun _ => rfl
  have found := CoPool.found_freeCoroutine changed active other
  rw [CoPool.found_modify keyed active] at found
  rw [holder, afterFinish, found, holder]
  split_ifs <;> rfl

theorem holder_yield (keyed : coTask.coPool.Keyed) {ptr : CoPtr}
    (active : coTask.coPool.findCoId coId = some ptr) (wake : Wake Msg) (now timeOut : Time)
    (address : Addr) :
    (coTask.afterYield coId ptr wake now timeOut address).holder = coTask.holder := by
  funext other
  have found := CoPool.found_modify keyed active
    (Coroutine.resuspended wake (coTask.nextCall now timeOut)) other
  rw [holder, afterYield, found, holder]
  split_ifs with here
  · rw [here, CoPool.found, active]
    rfl
  · rfl

end CoTask

namespace TransMgr

variable {Data : Type} {mgr : TransMgr Data} {owned : Cmd → List TransPtr}

/-- Each object is in the pool of its `cmd` or held by a coroutine. -/
def ledger (mgr : TransMgr Data) : Ledger Cmd TransPtr CoId :=
  ⟨mgr.pool, fun coId => (mgr.coTask.holder coId).map fun shared => (shared.cmd, shared.trans)⟩

/-- The objects are balanced, and each active coroutine has the last copy of its pointer. -/
structure Kept (mgr : TransMgr Data) (owned : Cmd → List TransPtr) : Prop where
  balanced : mgr.ledger.Balanced owned
  counts : ∀ coId shared, mgr.coTask.holder coId = some shared → mgr.useCount shared.trans = 1
  tasked : ∀ coId co, mgr.coTask.coPool.found coId = some co → co.task.isSome
  mapped : ∀ cmd, mgr.transMap.lookup cmd = none → owned cmd = []
  below : ∀ cmd, ∀ trans ∈ owned cmd, trans < mgr.made

theorem held_eq {coId : CoId} {shared : SharedTrans}
    (holds : mgr.coTask.holder coId = some shared) :
    mgr.ledger.held coId = some (shared.cmd, shared.trans) := by
  rw [ledger]
  simp [holds]

theorem pool_insert (cmd other : Cmd) (objects : List TransPtr) :
    ((Finmap.insert cmd objects mgr.transMap).lookup other).getD [] =
      if other = cmd then objects else mgr.pool other := by
  rw [UnorderedMap.lookup_insert]
  split_ifs <;> rfl

theorem getShared_pool {cmd : Cmd} {taken : TransMgr Data} {shared : SharedTrans}
    (got : mgr.getShared cmd = some (taken, shared)) (other : Cmd) :
    taken.pool other = if other = cmd then (mgr.pool cmd).dropLast else mgr.pool other := by
  obtain ⟨trans, _, _, rfl⟩ := getShared_cases got
  exact pool_insert cmd other _

theorem release_pool (shared : SharedTrans) (other : Cmd) :
    (mgr.release shared).pool other =
      if mgr.useCount shared.trans - 1 = 0 ∧ other = shared.cmd then
        mgr.pool shared.cmd ++ [shared.trans]
      else mgr.pool other := by
  by_cases last : mgr.useCount shared.trans - 1 = 0
  · simp only [release, last, if_true, true_and]
    exact pool_insert shared.cmd other _
  · simp only [release, last, if_false, false_and]
    rfl

theorem release_lookup (shared : SharedTrans) {cmd : Cmd}
    (missing : (mgr.release shared).transMap.lookup cmd = none) :
    mgr.transMap.lookup cmd = none := by
  by_cases last : mgr.useCount shared.trans - 1 = 0
  · simp only [release, last, if_true, UnorderedMap.lookup_insert] at missing
    split_ifs at missing
    exact missing
  · simpa only [release, last, if_false] using missing

@[simp] theorem touch_coTask (cmd : Cmd) : (mgr.touch cmd).coTask = mgr.coTask := rfl

theorem touch_pool (cmd : Cmd) : (mgr.touch cmd).pool = mgr.pool := by
  funext other
  refine (pool_insert cmd other _).trans ?_
  split_ifs with same
  · rw [same]
  · rfl

theorem touch_lookup {cmd other : Cmd} (missing : (mgr.touch cmd).transMap.lookup other = none) :
    mgr.transMap.lookup other = none := by
  rw [touch, UnorderedMap.lookup_insert] at missing
  split_ifs at missing
  exact missing

/-- A change of the timers keeps the objects. -/
theorem Kept.retime (kept : mgr.Kept owned) {coTask : CoTask SharedTrans Data}
    (same : coTask.coPool = mgr.coTask.coPool) :
    ({ mgr with coTask } : TransMgr Data).Kept owned := by
  have holders := holder_of_coPool same
  refine ⟨?_, ?_, ?_, kept.mapped, kept.below⟩
  · have ledgers : ({ mgr with coTask } : TransMgr Data).ledger = mgr.ledger := by
      simp only [ledger, holders]
      rfl
    rw [ledgers]
    exact kept.balanced
  · intro coId shared holds
    rw [holders] at holds
    exact kept.counts coId shared holds
  · intro coId co found
    rw [same] at found
    exact kept.tasked coId co found

theorem Kept.touch (kept : mgr.Kept owned) (cmd : Cmd) : (mgr.touch cmd).Kept owned := by
  refine ⟨?_, kept.counts, kept.tasked,
    fun other missing => kept.mapped other (touch_lookup missing), kept.below⟩
  have ledgers : (mgr.touch cmd).ledger = mgr.ledger := by
    simp only [ledger, touch_pool, touch_coTask]
  rw [ledgers]
  exact kept.balanced

section Wake

variable {coId : CoId} {wake : Wake Data} {segment : Segment}
  {outcome : Outcome SharedTrans Data}

theorem Entered.collect {co : Coroutine SharedTrans Data}
    {first : CoEvent SharedTrans Data} (entered : Entered coId wake co first)
    (mgr : TransMgr Data) : mgr.collect first = mgr := by
  cases entered <;> rfl

theorem Woken.tasked (keyed : mgr.coTask.coPool.Keyed)
    (tasked : ∀ coId co, mgr.coTask.coPool.found coId = some co → co.task.isSome)
    (woken : Woken mgr.coTask coId wake segment outcome) :
    ∀ other co, outcome.coTask.coPool.found other = some co → co.task.isSome := by
  intro other co found
  cases woken with
  | missed absent => exact tasked other co found
  | finished active entered =>
      rename_i ptr _
      have changed := keyed.modify ptr (Coroutine.woken wake) fun _ => rfl
      rw [afterFinish, CoPool.found_freeCoroutine changed active,
        CoPool.found_modify keyed active] at found
      split_ifs at found
      exact tasked other co found
  | yielded active entered fresh =>
      rename_i ptr _ now timeOut address
      rw [afterYield, CoPool.found_modify keyed active] at found
      split_ifs at found with here
      · cases found
        exact tasked coId (mgr.coTask.coPool.object ptr)
          (by rw [CoPool.found, active, Option.map_some])
      · exact tasked other co found

/-- A coroutine that ends returns its object to the pool. -/
theorem Kept.finish (kept : mgr.Kept owned) {shared : SharedTrans}
    (holds : mgr.coTask.holder coId = some shared) {coTask : CoTask SharedTrans Data}
    (left : ∀ other, coTask.holder other =
      if other = coId then none else mgr.coTask.holder other)
    (tasked : ∀ other co, coTask.coPool.found other = some co → co.task.isSome) :
    (({ mgr with coTask } : TransMgr Data).release shared).Kept owned := by
  have last := kept.counts coId shared holds
  refine ⟨?_, ?_, tasked, fun cmd missing => kept.mapped cmd (release_lookup shared missing),
    kept.below⟩
  · have given := kept.balanced.give (held_eq holds)
    convert given using 1
    simp only [ledger, Ledger.give]
    congr 1
    · funext cmd
      rw [release_pool, Function.update_apply]
      simp [last]
      rfl
    · funext other
      rw [release_coTask, left, Function.update_apply]
      split_ifs <;> rfl
  · intro other carried holds'
    rw [release_coTask, left] at holds'
    split_ifs at holds' with here
    have different : carried.trans ≠ shared.trans := by
      intro same
      have theirs := held_eq holds'
      rw [same] at theirs
      exact here (kept.balanced.holder_eq theirs (held_eq holds))
    change Function.update mgr.useCount shared.trans _ carried.trans = 1
    rw [Function.update_of_ne different]
    exact kept.counts other carried holds'

/-- A wake of a coroutine keeps the objects. Its end returns the object to the pool. -/
theorem Kept.settle (kept : mgr.Kept owned) (keyed : mgr.coTask.coPool.Keyed)
    (woken : Woken mgr.coTask coId wake segment outcome) :
    (mgr.settle outcome).mgr.Kept owned := by
  have tasked := Woken.tasked keyed kept.tasked woken
  cases woken with
  | missed absent => exact kept
  | yielded active entered fresh =>
      rename_i ptr first now timeOut address
      have same := holder_yield keyed active wake now timeOut address
      have settled : (mgr.settle ⟨mgr.coTask.afterYield coId ptr wake now timeOut address, 0,
          [first, .yielded coId (mgr.coTask.nextCall now timeOut)]⟩).mgr =
          { mgr with coTask := mgr.coTask.afterYield coId ptr wake now timeOut address } := by
        simp only [TransMgr.settle, List.foldl_cons, List.foldl_nil, Entered.collect entered]
        rfl
      rw [settled]
      refine ⟨?_, fun other shared holds => kept.counts other shared (same ▸ holds), tasked,
        kept.mapped, kept.below⟩
      have balanced := kept.balanced
      simp only [ledger, same] at balanced ⊢
      exact balanced
  | finished active entered =>
      rename_i ptr first
      obtain ⟨shared, task⟩ := Option.isSome_iff_exists.mp
        (kept.tasked coId _ (by rw [CoPool.found, active, Option.map_some]))
      have holds : mgr.coTask.holder coId = some shared := by
        rw [holder, CoPool.found, active, Option.map_some, Option.bind_some, task]
      have settled : (mgr.settle ⟨mgr.coTask.afterFinish coId ptr wake, 0,
          [first, .finished coId (mgr.coTask.coPool.object ptr).task]⟩).mgr =
          ({ mgr with coTask := mgr.coTask.afterFinish coId ptr wake } : TransMgr Data).release
            shared := by
        simp only [TransMgr.settle, List.foldl_cons, List.foldl_nil, Entered.collect entered, task]
        rfl
      rw [settled]
      exact kept.finish holds (holder_finish keyed active wake) tasked

end Wake

section Start

variable {msg : TransMsg Data} {segment : Segment} {outcome : MgrOutcome Data}

/-- A copy that ends leaves the manager as it was. -/
theorem share_release {shared : SharedTrans} (counted : 0 < mgr.useCount shared.trans) :
    (mgr.share shared).release shared = mgr := by
  have left : (mgr.share shared).useCount shared.trans - 1 = mgr.useCount shared.trans := by
    simp [share]
  have positive : ¬mgr.useCount shared.trans = 0 := Nat.ne_of_gt counted
  simp only [release, left, positive, if_false]
  simp [share]

/-- `OnMsg` releases its own copy after the wake as if it had never held one. -/
theorem share_settle {shared : SharedTrans} (counted : 0 < mgr.useCount shared.trans)
    {coId : CoId} {wake : Wake Data} {woken : Outcome SharedTrans Data}
    {coTask : CoTask SharedTrans Data} (switched : Woken coTask coId wake segment woken)
    (task : ∀ co, coTask.coPool.found coId = some co → co.task = some shared) :
    ((mgr.share shared).settle woken).mgr.release shared = (mgr.settle woken).mgr := by
  have moved : ∀ coTask : CoTask SharedTrans Data,
      ({ mgr.share shared with coTask } : TransMgr Data).release shared = { mgr with coTask } := by
    intro coTask
    have positive : 0 < ({ mgr with coTask } : TransMgr Data).useCount shared.trans := counted
    exact share_release positive
  cases switched with
  | missed absent => exact moved coTask
  | yielded active entered fresh =>
      simp only [TransMgr.settle, List.foldl_cons, List.foldl_nil, Entered.collect entered]
      exact moved _
  | finished active entered =>
      have same := task _ (by rw [CoPool.found, active, Option.map_some])
      simp only [TransMgr.settle, List.foldl_cons, List.foldl_nil, Entered.collect entered, same]
      exact congrArg (fun mgr => TransMgr.release mgr shared) (moved _)

/-- The manager after `get_shared`, when the last object of the pool is held by the new
coroutine. -/
theorem Kept.take (kept : mgr.Kept owned) {cmd : Cmd} {trans : TransPtr}
    (last : (mgr.pool cmd).getLast? = some trans) {coId : CoId}
    (free : mgr.coTask.holder coId = none) {coTask : CoTask SharedTrans Data}
    (holders : ∀ other, coTask.holder other =
      if other = coId then some ⟨cmd, trans⟩ else mgr.coTask.holder other)
    (tasked : ∀ other co, coTask.coPool.found other = some co → co.task.isSome) :
    ({ mgr with
      transMap := Finmap.insert cmd (mgr.pool cmd).dropLast mgr.transMap
      coTask
      useCount := Function.update mgr.useCount trans 1 } : TransMgr Data).Kept owned := by
  have inside : trans ∈ mgr.pool cmd := List.mem_of_getLast? last
  refine ⟨?_, ?_, tasked, fun other missing => ?_, kept.below⟩
  · have unheld : mgr.ledger.held coId = none := by simp [ledger, free]
    have taken := kept.balanced.take unheld (show (mgr.ledger.stock cmd).getLast? = _ from last)
    convert taken using 1
    simp only [ledger, Ledger.take]
    congr 1
    · funext other
      rw [Function.update_apply]
      exact pool_insert cmd other _
    · funext other
      rw [holders, Function.update_apply]
      split_ifs <;> rfl
  · intro other shared holds
    change Function.update mgr.useCount trans 1 shared.trans = 1
    change coTask.holder other = some shared at holds
    rw [holders] at holds
    split_ifs at holds with here
    · cases holds
      exact Function.update_self _ _ _
    · have different : shared.trans ≠ trans := by
        rintro rfl
        exact kept.balanced.held_ne inside other shared.cmd (held_eq holds)
      rw [Function.update_of_ne different]
      exact kept.counts other shared holds
  · change (Finmap.insert cmd _ mgr.transMap).lookup other = none at missing
    rw [UnorderedMap.lookup_insert] at missing
    split_ifs at missing
    exact kept.mapped other missing

/-- The coroutine tasks right before the first switch to a new transaction. -/
def begun (mgr : TransMgr Data) (shared : SharedTrans) : CoTask SharedTrans Data :=
  (mgr.coTask.addTack shared).1.cancelTimer mgr.coTask.coPool.nextCoId

variable (keyed : mgr.coTask.coPool.Keyed) (unmarked : mgr.coTask.coPool.Unmarked)

include keyed unmarked

theorem begun_found (shared : SharedTrans) (other : CoId) :
    ∃ stored, (mgr.begun shared).coPool.found other =
      if other = mgr.coTask.coPool.nextCoId then
        some ⟨mgr.coTask.coPool.nextCoId, some shared, stored, false, .entry⟩
      else mgr.coTask.coPool.found other := by
  rw [begun, cancelTimer_coPool]
  exact CoPool.found_newCoroutine keyed unmarked shared other

theorem begun_task {shared : SharedTrans}
    {co : Coroutine SharedTrans Data}
    (active : (mgr.begun shared).coPool.found mgr.coTask.coPool.nextCoId = some co) :
    co.task = some shared ∧ co.context = .entry := by
  obtain ⟨stored, known⟩ := begun_found keyed unmarked shared mgr.coTask.coPool.nextCoId
  rw [if_pos rfl, active] at known
  cases known
  exact ⟨rfl, rfl⟩

/-- The first switch to a new transaction starts its task. -/
theorem startTrans_started {shared : SharedTrans} {msg : Data}
    {woken : Outcome SharedTrans Data}
    (resumed : (mgr.coTask.addTack shared).1.resumeOneWithMsg (mgr.coTask.addTack shared).2 msg
      segment = some woken) :
    Woken (mgr.begun shared) mgr.coTask.coPool.nextCoId (.resumeOneWithMsg msg) segment woken ∧
      woken.code = 0 ∧ .started mgr.coTask.coPool.nextCoId (some shared) ∈ woken.events := by
  have named : (mgr.coTask.addTack shared).2 = mgr.coTask.coPool.nextCoId :=
    CoPool.newCoroutine_id
  rw [named] at resumed
  have switched : Woken (mgr.begun shared) mgr.coTask.coPool.nextCoId (.resumeOneWithMsg msg)
      segment woken :=
    resumeOneWithMsg_cases keyed.newCoroutine unmarked.newCoroutine resumed
  have starts : ∀ {ptr first},
      (mgr.begun shared).coPool.findCoId mgr.coTask.coPool.nextCoId = some ptr →
      Entered mgr.coTask.coPool.nextCoId (.resumeOneWithMsg msg)
        ((mgr.begun shared).coPool.object ptr) first →
      first = .started mgr.coTask.coPool.nextCoId (some shared) := by
    intro ptr first active entered
    obtain ⟨sameTask, ready⟩ :=
      begun_task keyed unmarked (by rw [CoPool.found, active, Option.map_some])
    cases entered with
    | started _ => rw [sameTask]
    | returned waits =>
        rw [ready] at waits
        cases waits
  refine ⟨switched, ?_⟩
  cases switched with
  | missed absent =>
      obtain ⟨stored, known⟩ := begun_found keyed unmarked shared mgr.coTask.coPool.nextCoId
      rw [CoPool.found_eq_none.mpr absent, if_pos rfl] at known
      cases known
  | yielded active entered fresh =>
      rw [starts active entered]
      exact ⟨rfl, List.mem_cons_self⟩
  | finished active entered =>
      rw [starts active entered]
      exact ⟨rfl, List.mem_cons_self⟩

omit keyed unmarked

/-- The manager right before the first switch, when the new coroutine has the last copy. -/
def handed (mgr : TransMgr Data) (cmd : Cmd) (trans : TransPtr) : TransMgr Data :=
  { mgr with
    transMap := Finmap.insert cmd (mgr.pool cmd).dropLast mgr.transMap
    coTask := mgr.begun ⟨cmd, trans⟩
    useCount := Function.update mgr.useCount trans 1 }

/-- `OnMsg` leaves the manager that the new coroutine would leave with the last copy. -/
theorem handed_settle {cmd : Cmd} {trans : TransPtr} {wake : Wake Data}
    {woken : Outcome SharedTrans Data} (keyed : mgr.coTask.coPool.Keyed)
    (unmarked : mgr.coTask.coPool.Unmarked)
    (switched : Woken (mgr.begun ⟨cmd, trans⟩) mgr.coTask.coPool.nextCoId wake segment woken) :
    (((mgr.handed cmd trans).share ⟨cmd, trans⟩).settle woken).mgr.release ⟨cmd, trans⟩ =
      ((mgr.handed cmd trans).settle woken).mgr := by
  refine share_settle ?_ switched fun co active => (begun_task keyed unmarked active).1
  simp [handed]

/-- The start of a transaction takes the last object of the pool, and keeps the objects. -/
theorem Kept.startTrans (kept : mgr.Kept owned) (tidy : mgr.coTask.Tidy)
    (inactive : mgr.coTask.coPool.findCoId mgr.coTask.coPool.nextCoId = none)
    {taken : TransMgr Data} {shared : SharedTrans} {cmd : Cmd}
    (got : mgr.getShared cmd = some (taken, shared))
    (stepped : taken.startTrans msg segment shared = some outcome) : outcome.mgr.Kept owned := by
  obtain ⟨trans, last, rfl, rfl⟩ := getShared_cases got
  obtain ⟨woken, resumed, rfl⟩ := Option.map_eq_some_iff.mp stepped
  have switched := (startTrans_started tidy.keyed tidy.unmarked resumed).1
  have free : mgr.coTask.holder mgr.coTask.coPool.nextCoId = none := by
    rw [holder, CoPool.found_eq_none.mpr inactive]
    rfl
  have taken : (mgr.handed cmd trans).Kept owned := by
    refine kept.take last free (fun other => ?_) (fun other co active => ?_)
    · rw [begun, holder_of_coPool cancelTimer_coPool]
      exact holder_addTack tidy ⟨cmd, trans⟩ other
    · obtain ⟨stored, known⟩ := begun_found tidy.keyed tidy.unmarked ⟨cmd, trans⟩ other
      rw [known] at active
      split_ifs at active
      · cases active
        rfl
      · exact kept.tasked other co active
  have keyed : (mgr.begun ⟨cmd, trans⟩).coPool.Keyed := by
    rw [begun, cancelTimer_coPool]
    exact tidy.keyed.newCoroutine
  have settled := taken.settle keyed switched
  rw [← handed_settle tidy.keyed tidy.unmarked switched] at settled
  exact settled

end Start

section Register

theorem addTrans_pool (cmd other : Cmd) : (mgr.addTrans cmd).pool other =
    if other = cmd then mgr.pool cmd ++ [mgr.made] else mgr.pool other :=
  pool_insert cmd other _

/-- The loop of `RegisterCmd` adds the next objects to the pool. -/
theorem addAll_spec (mgr : TransMgr Data) (cmd : Cmd) (count : Nat) :
    (∀ other, (mgr.addAll cmd count).pool other =
      if other = cmd then mgr.pool cmd ++ List.range' mgr.made count else mgr.pool other) ∧
    (mgr.addAll cmd count).made = mgr.made + count ∧
    (mgr.addAll cmd count).useCount = mgr.useCount ∧
    ∀ other, (mgr.addAll cmd count).transMap.lookup other = none ↔
      mgr.transMap.lookup other = none ∧ (other = cmd → count = 0) := by
  induction count generalizing mgr with
  | zero =>
      refine ⟨fun other => ?_, rfl, rfl, fun other => by simp [addAll]⟩
      rw [List.range'_zero, List.append_nil]
      split_ifs with same
      · rw [same]
        rfl
      · rfl
  | succ count ih =>
      obtain ⟨pools, made, counts, lookups⟩ := ih (mgr.addTrans cmd)
      refine ⟨fun other => ?_, ?_, counts, fun other => ?_⟩
      · rw [addAll, pools, addTrans_pool, addTrans_pool, if_pos rfl, List.range'_succ]
        split_ifs with same
        · rw [List.append_assoc]
          rfl
        · rfl
      · rw [addAll, made, addTrans]
        dsimp only
        omega
      · rw [addAll, lookups]
        change (Finmap.insert cmd _ mgr.transMap).lookup other = none ∧ _ ↔ _
        rw [UnorderedMap.lookup_insert]
        by_cases same : other = cmd <;> simp [same]

/-- A successful registration owns exactly the new objects. -/
theorem Kept.registerCmd (kept : mgr.Kept owned) {cmd : Cmd} (count : Nat)
    (missing : mgr.transMap.lookup cmd = none) :
    (mgr.addAll cmd count).Kept
      (Function.update owned cmd (List.range' mgr.made count)) := by
  obtain ⟨pools, made, counts, lookups⟩ := mgr.addAll_spec cmd count
  have nothing := kept.mapped cmd missing
  have fresh : ∀ other, ∀ trans ∈ owned other, trans ∉ List.range' mgr.made count := by
    intro other trans member inside
    have small := kept.below other trans member
    have large := (List.mem_range'_1.mp inside).1
    exact absurd small (not_lt.mpr large)
  have distinct : (List.range' mgr.made count).Nodup := List.nodup_range'
  have filled := kept.balanced.fill nothing distinct fresh
  refine ⟨?_, ?_, ?_, fun other absent => ?_, fun other trans member => ?_⟩
  · convert filled using 1
    simp only [ledger, Ledger.fill, addAll_coTask]
    congr 1
    funext other
    rw [pools, Function.update_apply]
  · intro coId shared holds
    rw [addAll_coTask] at holds
    rw [counts]
    exact kept.counts coId shared holds
  · rw [addAll_coTask]
    exact kept.tasked
  · obtain ⟨earlier, none⟩ := (lookups other).mp absent
    rw [Function.update_apply]
    split_ifs with same
    · rw [none same, List.range'_zero]
    · exact kept.mapped other earlier
  · rw [Function.update_apply] at member
    rw [made]
    split_ifs at member with same
    · exact (List.mem_range'_1.mp member).2
    · exact Nat.lt_add_right count (kept.below other trans member)

end Register

section Step

variable {segment : Segment} {outcome : MgrOutcome Data}

/-- A wake by a message keeps the objects. -/
theorem Kept.resumeOneWithMsg (kept : mgr.Kept owned) (orderly : mgr.coTask.Orderly)
    {coId : CoId} {msg : Data} {woken : Outcome SharedTrans Data}
    (resumed : mgr.coTask.resumeOneWithMsg coId msg segment = some woken) :
    (mgr.settle woken).mgr.Kept owned := by
  have retimed : ({ mgr with coTask := mgr.coTask.cancelTimer coId } :
      TransMgr Data).Kept owned := kept.retime cancelTimer_coPool
  have keyed := (orderly.tidy.cancelTimer coId).1.keyed
  have settled := retimed.settle keyed (orderly.tidy.resumeOneWithMsg_cases resumed)
  exact settled

theorem Kept.onMsg (kept : mgr.Kept owned) (orderly : mgr.coTask.Orderly) {msg : TransMsg Data}
    (bound : outcome.mgr.coTask.coPool.created < 2 ^ 32)
    (stepped : mgr.onMsg msg segment = some outcome) : outcome.mgr.Kept owned := by
  rcases onMsg_cases stepped with ⟨_, _, rfl⟩ | ⟨_, taken, shared, got, started⟩ |
    ⟨_, woken, resumed, rfl⟩ | ⟨_, _, rfl⟩
  · exact kept.touch msg.cmd
  · have inactive := orderly.counted.nextCoId_inactive fun empty => by
      obtain ⟨trans, _, rfl, rfl⟩ := getShared_cases got
      obtain ⟨woken, resumed, rfl⟩ := Option.map_eq_some_iff.mp started
      rw [release_coTask, settle_coTask, resumeOneWithMsg_created resumed, CoTask.addTack,
        CoPool.newCoroutine_created] at bound
      change (if mgr.coTask.coPool.freeList = [] then _ else _) < _ at bound
      rw [if_pos empty] at bound
      exact bound
    exact (kept.touch msg.cmd).startTrans orderly.tidy inactive got started
  · exact kept.resumeOneWithMsg orderly resumed
  · exact kept

theorem Kept.proceed (kept : mgr.Kept owned) (orderly : mgr.coTask.Orderly)
    (stepped : mgr.proceed segment = some outcome) : outcome.mgr.Kept owned := by
  obtain ⟨woken, proceeded, rfl⟩ := Option.map_eq_some_iff.mp stepped
  cases orderly.tidy.proceed_cases proceeded with
  | ended exhausted => exact kept.retime rfl
  | skipped running taken => exact kept.retime rfl
  | fired running armed woken =>
      rename_i now timeOutSet rest node
      have turned := (orderly.tidy.turn running).cancelTimer node.info.task.coId
      let cancelled := ({ mgr.coTask with mainCall := .doTimeOutTask now timeOutSet rest } :
        CoTask SharedTrans Data).cancelTimer node.info.task.coId
      have retimed : ({ mgr with coTask := cancelled } : TransMgr Data).Kept owned :=
        kept.retime cancelTimer_coPool
      have settled := retimed.settle turned.1.keyed woken
      exact settled
  | resumed running woken => exact absurd running (orderly.noLoop _ _)

/-- A step other than `RegisterCmd` keeps the objects. -/
theorem Kept.step (kept : mgr.Kept owned) (orderly : mgr.coTask.Orderly) {act : TransAct Data}
    (other : ∀ cmd count, act ≠ .registerCmd cmd count)
    (bound : outcome.mgr.coTask.coPool.created < 2 ^ 32)
    (stepped : mgr.step act = some outcome) : outcome.mgr.Kept owned := by
  cases act with
  | proceed segment => exact kept.proceed orderly stepped
  | registerCmd cmd count => exact absurd rfl (other cmd count)
  | onMsg msg segment =>
      obtain ⟨_, operated⟩ := Option.ite_none_right_eq_some.mp stepped
      exact kept.onMsg orderly bound operated
  | tickTimeOutCo now =>
      obtain ⟨_, operated⟩ := Option.ite_none_right_eq_some.mp stepped
      cases operated
      exact kept.retime rfl

end Step

end TransMgr

end QServer
