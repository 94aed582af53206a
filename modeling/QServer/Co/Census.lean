import QServer.Co.Tidy

/-
This file counts the coroutines of a pool and finds all of them between two main calls.
-/

namespace QServer
open Container

namespace CoPool

variable {Body Msg : Type} {pool : CoPool Body Msg} {coId : CoId} {ptr : CoPtr}

/-- The identifiers count the coroutines, and each coroutine is either free or active. -/
structure Counted (pool : CoPool Body Msg) : Prop where
  keyed : pool.Keyed
  incCoId : pool.incCoId = pool.created
  ids : ∀ ptr < pool.created, (pool.object ptr).coId = ptr + 1
  freeOnce : pool.freeList.Nodup
  free : ∀ ptr < pool.created, ptr ∈ pool.freeList ↔ pool.findCoId (ptr + 1) = none

theorem Counted.empty : (CoPool.empty : CoPool Body Msg).Counted := by
  constructor
  · exact CoTask.Tidy.empty.keyed
  · rfl
  · exact fun ptr bound => absurd bound (Nat.not_lt_zero ptr)
  · exact List.nodup_nil
  · exact fun ptr bound => absurd bound (Nat.not_lt_zero ptr)

theorem Counted.active_id (counted : pool.Counted) (active : pool.findCoId coId = some ptr) :
    coId = ptr + 1 := by
  obtain ⟨bound, named⟩ := counted.keyed.active coId ptr active
  rw [← named, counted.ids ptr bound]

theorem Counted.modify (counted : pool.Counted) (ptr : CoPtr)
    (change : Coroutine Body Msg → Coroutine Body Msg)
    (kept : ∀ co, (change co).coId = co.coId) : (pool.modify ptr change).Counted := by
  refine ⟨counted.keyed.modify ptr change kept, counted.incCoId, fun place bound => ?_,
    counted.freeOnce, counted.free⟩
  rw [modify_object]
  split_ifs with here
  · rw [kept, ← here]
    exact counted.ids place bound
  · exact counted.ids place bound

theorem Counted.freeCoroutine (counted : pool.Counted)
    (active : pool.findCoId coId = some ptr) : (pool.freeCoroutine coId).Counted := by
  obtain ⟨bound, _⟩ := counted.keyed.active coId ptr active
  have named := counted.active_id active
  have changed := counted.modify ptr (fun co => { co with task := none }) fun _ => rfl
  have occupied : ptr ∉ pool.freeList := by
    rw [counted.free ptr bound, ← named, active]
    simp
  refine ⟨counted.keyed.freeCoroutine active, ?_, ?_, ?_, ?_⟩
  · rw [freeCoroutine_some active]
    exact counted.incCoId
  · rw [freeCoroutine_some active]
    exact changed.ids
  · rw [freeCoroutine_some active]
    exact List.nodup_append.mpr ⟨counted.freeOnce, by simp, by
      intro place inside other single
      rw [List.mem_singleton.mp single]
      rintro rfl
      exact occupied inside⟩
  · intro place below
    rw [freeCoroutine_findCoId]
    rw [freeCoroutine_some active] at below ⊢
    rw [List.mem_append, List.mem_singleton, counted.free place below, named]
    by_cases here : place = ptr
    · simp [here]
    · simp [here]

theorem getCoId_eq (counted : pool.Counted) (bound : pool.created + 1 < 2 ^ 32) :
    pool.getCoId = pool.created + 1 := by
  rw [getCoId, counted.incCoId, Nat.mod_eq_of_lt bound]
  simp

/-- The next identifier belongs to no active coroutine. -/
theorem Counted.nextCoId_inactive (counted : pool.Counted)
    (bound : pool.freeList = [] → pool.created + 1 < 2 ^ 32) :
    pool.findCoId pool.nextCoId = none := by
  unfold nextCoId
  cases free : pool.freeList with
  | nil =>
      dsimp only
      rw [getCoId_eq counted (bound free)]
      by_contra active
      obtain ⟨ptr, active⟩ := Option.ne_none_iff_exists'.mp active
      have named := counted.active_id active
      have below := (counted.keyed.active _ ptr active).1
      exact absurd (Nat.succ.inj named) (Nat.ne_of_gt below)
  | cons ptr rest =>
      have member : ptr ∈ pool.freeList := by simp [free]
      have below := counted.keyed.free ptr member
      dsimp only
      rw [counted.ids ptr below]
      exact (counted.free ptr below).mp member

theorem newCoroutine_created (task : Body) :
    (pool.newCoroutine task).1.created =
      if pool.freeList = [] then pool.created + 1 else pool.created := by
  unfold newCoroutine
  cases free : pool.freeList <;> rfl

theorem Counted.activate (counted : pool.Counted) {rest : List CoPtr} (task : Body)
    (first : pool.freeList = ptr :: rest) : (pool.activate ptr rest task).1.Counted := by
  have member : ptr ∈ pool.freeList := by simp [first]
  have below := counted.keyed.free ptr member
  have named := counted.ids ptr below
  have once := first ▸ counted.freeOnce
  rw [List.nodup_cons] at once
  refine ⟨?_, counted.incCoId, ?_, once.2, ?_⟩
  · exact counted.keyed.activate below fun place inside =>
      counted.keyed.free place (by simp [first, inside])
  · intro place bound
    rw [activate_object, Function.update_apply]
    split_ifs with here
    · rw [named, here]
    · exact counted.ids place bound
  · intro place bound
    rw [activate_findCoId, named]
    change place ∈ rest ↔ _
    have known := counted.free place bound
    rw [first, List.mem_cons] at known
    by_cases here : place = ptr
    · simp [here, once.1]
    · have different : place + 1 ≠ ptr + 1 := fun same => here (Nat.succ.inj same)
      rw [if_neg different, ← known]
      simp [here]

theorem Counted.grow (counted : pool.Counted) (empty : pool.freeList = [])
    (bound : pool.created + 1 < 2 ^ 32) : pool.grow.Counted := by
  have fresh := getCoId_eq counted bound
  refine ⟨counted.keyed.grow, fresh, ?_, List.nodup_singleton _, ?_⟩
  · intro place below
    change (Function.update pool.object pool.created _ place).coId = place + 1
    rw [Function.update_apply]
    split_ifs with here
    · rw [here]
      exact fresh
    · change place < pool.created + 1 at below
      exact counted.ids place (lt_of_le_of_ne (Nat.lt_succ_iff.mp below) here)
  · intro place below
    change place < pool.created + 1 at below
    change place ∈ [pool.created] ↔ pool.findCoId (place + 1) = none
    rw [List.mem_singleton]
    by_cases here : place = pool.created
    · have inactive := counted.nextCoId_inactive fun _ => bound
      rw [nextCoId, empty] at inactive
      dsimp only at inactive
      rw [fresh] at inactive
      simp [here, inactive]
    · have known := counted.free place (lt_of_le_of_ne (Nat.lt_succ_iff.mp below) here)
      rw [empty] at known
      simp [here, ← known]

theorem Counted.newCoroutine (counted : pool.Counted) (task : Body)
    (bound : pool.freeList = [] → pool.created + 1 < 2 ^ 32) :
    (pool.newCoroutine task).1.Counted := by
  unfold CoPool.newCoroutine
  cases free : pool.freeList with
  | nil => exact (counted.grow free (bound free)).activate task rfl
  | cons ptr rest => exact counted.activate task free

end CoPool

namespace CoTask

variable {Body Msg : Type} {coTask : CoTask Body Msg} {coId other : CoId} {wake : Wake Msg}
  {segment : Segment} {outcome : Outcome Body Msg}

/-- The identifier is unused, or its coroutine is suspended and has a recorded timer. -/
def SettledAt (coTask : CoTask Body Msg) (coId : CoId) : Prop :=
  (∀ co, coTask.coPool.found coId = some co → ∃ call, co.context = .suspended call) ∧
    ((coTask.coIdTimerId.lookup coId).isSome ↔ (coTask.coPool.found coId).isSome)

/-- A wake settles the coroutine that it wakes, and leaves the others alone. -/
theorem Woken.settled (tidy : coTask.Tidy) (untimed : coTask.coIdTimerId.lookup coId = none)
    (others : ∀ other, other ≠ coId → coTask.SettledAt other)
    (woken : Woken coTask coId wake segment outcome) (other : CoId) :
    outcome.coTask.SettledAt other := by
  by_cases here : other = coId
  · subst here
    cases woken with
    | missed absent => simp [SettledAt, CoPool.found_eq_none.mpr absent, untimed]
    | finished active entered =>
        rename_i ptr _
        have keyed := tidy.keyed.modify ptr (Coroutine.woken wake) fun _ => rfl
        have found := CoPool.found_freeCoroutine keyed active other
        simp [SettledAt, afterFinish, found, untimed]
    | yielded active entered fresh =>
        rename_i ptr _ now timeOut address
        have found := CoPool.found_modify tidy.keyed active
          (Coroutine.resuspended wake (coTask.nextCall now timeOut)) other
        simp [SettledAt, afterYield, found, Coroutine.resuspended]
  · have settled := others other here
    cases woken with
    | missed absent => exact settled
    | finished active entered =>
        rename_i ptr _
        have keyed := tidy.keyed.modify ptr (Coroutine.woken wake) fun _ => rfl
        have found := CoPool.found_freeCoroutine keyed active other
        rw [if_neg here, CoPool.found_modify tidy.keyed active, if_neg here] at found
        rw [SettledAt, afterFinish, found]
        exact settled
    | yielded active entered fresh =>
        rename_i ptr _ now timeOut address
        have found := CoPool.found_modify tidy.keyed active
          (Coroutine.resuspended wake (coTask.nextCall now timeOut)) other
        have recorded := UnorderedMap.lookup_insert coTask.coIdTimerId coId other
          (coTask.timer.addTimer address now timeOut ⟨coId, coTask.nextCall now timeOut⟩ false).2
        rw [if_neg here] at found recorded
        rw [SettledAt, afterYield, found, recorded]
        exact settled

theorem Woken.counted (counted : coTask.coPool.Counted)
    (woken : Woken coTask coId wake segment outcome) : outcome.coTask.coPool.Counted := by
  cases woken with
  | missed absent => exact counted
  | finished active entered =>
      rename_i ptr _
      have changed : (coTask.coPool.modify ptr (Coroutine.woken wake)).Counted :=
        counted.modify _ _ fun _ => rfl
      exact changed.freeCoroutine active
  | yielded active entered fresh => exact counted.modify _ _ fun _ => rfl

/-- A switch makes no coroutine object. -/
theorem switchTo_created {ptr : CoPtr} {left : CoTask Body Msg × List (CoEvent Body Msg)}
    (switched : coTask.switchTo ptr wake segment = some left) :
    left.1.coPool.created = coTask.coPool.created := by
  obtain ⟨entered, entering, switched⟩ := Option.bind_eq_some_iff.mp switched
  obtain ⟨after, running, rfl⟩ := Option.map_eq_some_iff.mp switched
  have inside : entered.1.created = coTask.coPool.created := by
    unfold CoPool.enter at entering
    split at entering <;> cases entering <;> rfl
  rw [← inside]
  cases segment with
  | finish =>
      cases running
      unfold finish CoPool.freeCoroutine
      split <;> rfl
  | yield now timeOut address =>
      obtain ⟨next, yielded, rfl⟩ := Option.map_eq_some_iff.mp running
      unfold yield at yielded
      split at yielded
      · cases yielded
      · obtain ⟨pool, saved, rfl⟩ := Option.map_eq_some_iff.mp yielded
        obtain ⟨place, _, rfl⟩ := Option.map_eq_some_iff.mp saved
        rfl

theorem resumed_created {target : Option (CoPool Body Msg × CoPtr)}
    (same : ∀ marked ∈ target, marked.1.created = coTask.coPool.created)
    (resumed : coTask.resumed wake segment target = some outcome) :
    outcome.coTask.coPool.created = coTask.coPool.created := by
  cases target with
  | none =>
      cases resumed
      rfl
  | some marked =>
      obtain ⟨left, switched, rfl⟩ := Option.map_eq_some_iff.mp resumed
      exact (switchTo_created switched).trans (same marked rfl)

theorem resume_created {pool : CoPool Body Msg} {timeOut : Bool} :
    ∀ marked ∈ pool.resume coId timeOut, marked.1.created = pool.created := by
  intro marked member
  obtain ⟨ptr, _, rfl⟩ := Option.map_eq_some_iff.mp member
  rfl

theorem resumeOne_created (resumed : coTask.resumeOne coId wake segment = some outcome) :
    outcome.coTask.coPool.created = coTask.coPool.created := by
  have same := resumed_created resume_created resumed
  rwa [cancelTimer_coPool] at same

theorem resumeOneWithMsg_created {msg : Msg}
    (resumed : coTask.resumeOneWithMsg coId msg segment = some outcome) :
    outcome.coTask.coPool.created = coTask.coPool.created := by
  have same : ∀ marked ∈ (coTask.cancelTimer coId).coPool.resumeWithMsg coId msg,
      marked.1.created = (coTask.cancelTimer coId).coPool.created := by
    intro marked member
    obtain ⟨ptr, _, rfl⟩ := Option.map_eq_some_iff.mp member
    rfl
  have kept := resumed_created same resumed
  rwa [cancelTimer_coPool] at kept

theorem proceed_created (proceeded : coTask.proceed segment = some outcome) :
    outcome.coTask.coPool.created = coTask.coPool.created := by
  unfold proceed at proceeded
  split at proceeded
  · cases proceeded
  · cases proceeded
    rfl
  · split at proceeded
    · cases proceeded
      rfl
    · obtain ⟨woken, resuming, rfl⟩ := Option.map_eq_some_iff.mp proceeded
      have kept := resumeOne_created resuming
      exact kept
  · cases proceeded
    rfl
  · rename_i coIdList coId rest running
    let turned : CoTask Body Msg := { coTask with mainCall := .resumeAll coIdList rest }
    have kept : outcome.coTask.coPool.created = turned.coPool.created :=
      resumed_created resume_created proceeded
    exact kept

theorem SettledAt.cancelTimer (settled : coTask.SettledAt other) (different : other ≠ coId) :
    (coTask.cancelTimer coId).SettledAt other := by
  rw [SettledAt, cancelTimer_coPool, cancelTimer_lookup, if_neg different]
  exact settled

theorem SettledAt.addTack (tidy : coTask.Tidy) (settled : coTask.SettledAt other) (task : Body)
    (different : other ≠ coTask.coPool.nextCoId) : (coTask.addTack task).1.SettledAt other := by
  obtain ⟨msg, found⟩ := CoPool.found_newCoroutine tidy.keyed tidy.unmarked task other
  rw [if_neg different] at found
  rw [SettledAt, CoTask.addTack, found]
  exact settled

/-- The state of the coroutine tasks between two switches, when nobody calls `ResumeAll`. -/
structure Orderly (coTask : CoTask Body Msg) : Prop where
  tidy : coTask.Tidy
  counted : coTask.coPool.Counted
  settled : ∀ coId, coTask.SettledAt coId
  noLoop : ∀ coIdList rest, coTask.mainCall ≠ .resumeAll coIdList rest

theorem Orderly.empty : (CoTask.empty : CoTask Body Msg).Orderly := by
  refine ⟨Tidy.empty, CoPool.Counted.empty, fun coId => ⟨fun co found => ?_, by rfl⟩, ?_⟩
  · cases found
  · rintro coIdList rest ⟨⟩

/-- A wake after the cancel of the timer keeps the order. -/
theorem Orderly.wakeUp (tidy : coTask.Tidy) (counted : coTask.coPool.Counted)
    (others : ∀ other, other ≠ coId → coTask.SettledAt other)
    (noLoop : ∀ coIdList rest, coTask.mainCall ≠ .resumeAll coIdList rest)
    (woken : Woken (coTask.cancelTimer coId) coId wake segment outcome) :
    outcome.coTask.Orderly := by
  obtain ⟨cancelled, disarmed⟩ := tidy.cancelTimer coId
  refine ⟨cancelled.woken disarmed woken, woken.counted (by simpa using counted), ?_, ?_⟩
  · refine woken.settled cancelled ?_ fun other different =>
      (others other different).cancelTimer different
    rw [cancelTimer_lookup, if_pos rfl]
  · rw [woken.mainCall, cancelTimer_mainCall]
    exact noLoop

theorem Orderly.started (orderly : coTask.Orderly) (task : Body)
    (bound : coTask.coPool.freeList = [] → coTask.coPool.created + 1 < 2 ^ 32)
    (woken : Woken ((coTask.addTack task).1.cancelTimer coTask.coPool.nextCoId)
      coTask.coPool.nextCoId wake segment outcome) : outcome.coTask.Orderly := by
  have inactive := orderly.counted.nextCoId_inactive bound
  have added := (orderly.tidy.addTack task inactive).1
  refine Orderly.wakeUp added (orderly.counted.newCoroutine task bound) (fun other different =>
    (orderly.settled other).addTack orderly.tidy task different) orderly.noLoop woken

theorem Orderly.addTack_wake (orderly : coTask.Orderly) (task : Body) {msg : Msg}
    (bound : coTask.coPool.freeList = [] → coTask.coPool.created + 1 < 2 ^ 32)
    (resumed : (coTask.addTack task).1.resumeOneWithMsg (coTask.addTack task).2 msg segment =
      some outcome) : outcome.coTask.Orderly := by
  have inactive := orderly.counted.nextCoId_inactive bound
  have named : (coTask.addTack task).2 = coTask.coPool.nextCoId := CoPool.newCoroutine_id
  rw [named] at resumed
  exact orderly.started task bound
    ((orderly.tidy.addTack task inactive).1.resumeOneWithMsg_cases resumed)

theorem Orderly.doTack (orderly : coTask.Orderly) (task : Body)
    (bound : coTask.coPool.freeList = [] → coTask.coPool.created + 1 < 2 ^ 32)
    (resumed : coTask.doTack task segment = some outcome) : outcome.coTask.Orderly := by
  have inactive := orderly.counted.nextCoId_inactive bound
  have named : (coTask.addTack task).2 = coTask.coPool.nextCoId := CoPool.newCoroutine_id
  rw [CoTask.doTack, named] at resumed
  exact orderly.started task bound
    ((orderly.tidy.addTack task inactive).1.resumeOne_cases rfl (by rintro ⟨⟩) resumed)

theorem Orderly.resumeOneWithMsg (orderly : coTask.Orderly) {msg : Msg}
    (resumed : coTask.resumeOneWithMsg coId msg segment = some outcome) :
    outcome.coTask.Orderly :=
  Orderly.wakeUp orderly.tidy orderly.counted (fun other _ => orderly.settled other)
    orderly.noLoop (orderly.tidy.resumeOneWithMsg_cases resumed)

theorem Orderly.doTimeOutTask (orderly : coTask.Orderly) (idle : coTask.mainCall = .idle)
    (now : Time) : (coTask.doTimeOutTask now).Orderly :=
  ⟨orderly.tidy.doTimeOutTask idle now, orderly.counted, orderly.settled, by
    rintro coIdList rest ⟨⟩⟩

theorem Orderly.proceed (orderly : coTask.Orderly)
    (proceeded : coTask.proceed segment = some outcome) : outcome.coTask.Orderly := by
  have turned := orderly.tidy.proceed_cases proceeded
  have tidy := orderly.tidy.proceed
    (fun coIdList coId rest running => absurd running (orderly.noLoop coIdList (coId :: rest)))
    turned
  cases turned with
  | ended exhausted => exact ⟨tidy, orderly.counted, orderly.settled, by rintro coIdList rest ⟨⟩⟩
  | skipped running taken =>
      exact ⟨tidy, orderly.counted, orderly.settled, by rintro coIdList rest ⟨⟩⟩
  | fired running armed woken =>
      exact Orderly.wakeUp (orderly.tidy.turn running) orderly.counted
        (fun other _ => orderly.settled other) (by rintro coIdList rest ⟨⟩) woken
  | resumed running woken => exact absurd running (orderly.noLoop _ _)

/-- The allocator can give the address of the segment. -/
def Fits (coTask : CoTask Body Msg) : Segment → Prop
  | .finish => True
  | .yield _ _ ptr => ptr ∉ coTask.held

theorem runBody_isSome {ptr : CoPtr} {segment : Segment}
    (active : coTask.coPool.findCoId coId = some ptr) (fits : coTask.Fits segment) :
    (coTask.runBody coId segment).isSome := by
  cases segment with
  | finish => rfl
  | yield now timeOut address =>
      have outside : address ∉ coTask.held := fits
      simp [runBody, CoTask.yield, outside, CoPool.yield, active]

/-- A message can always wake a coroutine that waits or is new. -/
theorem resumeOneWithMsg_isSome {ptr : CoPtr} {msg : Msg}
    (keyed : coTask.coPool.Keyed) (active : coTask.coPool.findCoId coId = some ptr)
    (ready : (coTask.coPool.object ptr).context ≠ .unset) (fits : coTask.Fits segment) :
    (coTask.resumeOneWithMsg coId msg segment).isSome := by
  have named := (keyed.active coId ptr active).2
  have entered : ∀ pool : CoPool Body Msg, (pool.object ptr).context ≠ .unset →
      ∃ entered, pool.enter ptr = some entered ∧ entered.1.findCoId = pool.findCoId := by
    intro pool saved
    unfold CoPool.enter
    split
    · contradiction
    · exact ⟨_, rfl, rfl⟩
    · exact ⟨_, rfl, rfl⟩
  let marked := coTask.coPool.modify ptr fun co => { co with coMsg := some msg }
  obtain ⟨inside, entering, same⟩ := entered marked (by simpa [marked] using ready)
  have runs : ({ coTask.cancelTimer coId with coPool := inside.1 } : CoTask Body Msg).runBody coId
      segment |>.isSome := by
    have stays : inside.1.findCoId coId = some ptr := by
      rw [same]
      exact active
    refine runBody_isSome stays ?_
    · cases segment with
      | finish => trivial
      | yield now timeOut address => simpa [Fits, held] using fits
  have target : (coTask.cancelTimer coId).coPool.resumeWithMsg coId msg = some (marked, ptr) := by
    simp [CoPool.resumeWithMsg, active, marked]
  have sameId : (marked.object ptr).coId = coId := by simp [marked, named]
  rw [resumeOneWithMsg, target, resumed, Option.isSome_map, switchTo]
  dsimp only
  rw [entering, Option.bind_some, Option.isSome_map, sameId]
  exact runs

/-- A new task can always run. -/
theorem doTack_isSome (orderly : coTask.Orderly) (task : Body) (fits : coTask.Fits segment) :
    (coTask.doTack task segment).isSome := by
  have keyed := orderly.tidy.keyed
  obtain ⟨msg, found⟩ := CoPool.found_newCoroutine keyed orderly.tidy.unmarked task
    coTask.coPool.nextCoId
  rw [if_pos rfl] at found
  obtain ⟨ptr, active, entry⟩ := CoPool.found_eq_some.mp found
  let made := (coTask.addTack task).1.cancelTimer coTask.coPool.nextCoId
  have pool : made.coPool = (coTask.coPool.newCoroutine task).1 := cancelTimer_coPool
  let marked := made.coPool.modify ptr fun co => { co with resumeByTimeOut := false }
  have ready : (marked.object ptr).context = .entry := by simp [marked, pool, entry]
  have named : (marked.object ptr).coId = coTask.coPool.nextCoId := by simp [marked, pool, entry]
  have stays : (marked.modify ptr fun co => { co with context := .unset }).findCoId
      coTask.coPool.nextCoId = some ptr := by simpa [marked, pool] using active
  have target : made.coPool.resume coTask.coPool.nextCoId false = some (marked, ptr) := by
    rw [CoPool.resume, pool, active, Option.map_some]
    rw [← pool]
  have runs : ({ made with coPool := marked.modify ptr fun co => { co with context := .unset } } :
      CoTask Body Msg).runBody coTask.coPool.nextCoId segment |>.isSome := by
    refine runBody_isSome stays ?_
    cases segment with
    | finish => trivial
    | yield now timeOut address => simpa [Fits, held, made, addTack] using fits
  rw [doTack, resumeOne, addTack, CoPool.newCoroutine_id]
  change (made.resumed .resumeOne segment (made.coPool.resume _ false)).isSome
  rw [target, resumed, Option.isSome_map, switchTo]
  dsimp only
  rw [CoPool.enter, ready, Option.bind_some, Option.isSome_map, named]
  exact runs

end CoTask

end QServer
