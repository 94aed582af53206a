import QServer.Trans.Ownership

/-
This file proves that the manager neither loses nor shares its `Trans` objects.
-/

namespace QServer
open Container Transition CoTask

/-- The manager with the record of its successful registrations. -/
structure TransRun (Data : Type) where
  mgr : TransMgr Data
  registered : UnorderedMap Cmd (Int × List TransPtr)

namespace TransRun

variable {Data : Type} (run : TransRun Data)

/-- A `RegisterCmd` that returns true is recorded with its count and its objects. -/
def record (outcome : MgrOutcome Data) : TransAct Data → TransRun Data
  | .registerCmd cmd count =>
      ⟨outcome.mgr,
        if outcome.code = 1 then
          Finmap.insert cmd (count, List.range' run.mgr.made count.toNat) run.registered
        else run.registered⟩
  | _ => ⟨outcome.mgr, run.registered⟩

/-- The objects that were created at the registration of the `cmd`. -/
def owned (cmd : Cmd) : List TransPtr := ((run.registered.lookup cmd).map Prod.snd).getD []

end TransRun

/-- The manager with every order of registrations, messages and ticks. -/
def registryMachine (Data : Type) : Machine (TransRun Data) (TransAct Data) :=
  ⟨⟨TransMgr.empty, ∅⟩, fun run act => (run.mgr.step act).map fun outcome => run.record outcome act⟩

/-- The active coroutines that were started for the `cmd`. -/
def TransMgr.activeFor {Data : Type} (mgr : TransMgr Data) (cmd : Cmd) : Finset CoId :=
  mgr.coTask.coPool.actionCoroutine.keys.filter fun coId =>
    (mgr.coTask.holder coId).any fun shared => shared.cmd = cmd

/-- Each registered object is pooled or held once, and free objects start transactions. -/
structure Conserved {Data : Type} (run : TransRun Data) : Prop where
  created : ∀ cmd count objects, run.registered.lookup cmd = some (count, objects) →
    objects.Nodup ∧ objects.length = count.toNat
  whole : ∀ cmd count objects, run.registered.lookup cmd = some (count, objects) →
    ∀ trans, trans ∈ objects ↔ trans ∈ run.mgr.pool cmd ∨
      ∃ coId, run.mgr.coTask.holder coId = some ⟨cmd, trans⟩
  once : ∀ cmd, (run.mgr.pool cmd).Nodup
  apart : ∀ cmd, ∀ trans ∈ run.mgr.pool cmd, ∀ coId shared,
    run.mgr.coTask.holder coId = some shared → shared.trans ≠ trans
  alone : ∀ coId other first second, run.mgr.coTask.holder coId = some first →
    run.mgr.coTask.holder other = some second → first.trans = second.trans → coId = other
  starts : ∀ cmd count objects, run.registered.lookup cmd = some (count, objects) →
    (run.mgr.activeFor cmd).card < objects.length → ∀ msg : TransMsg Data, msg.cmd = cmd →
      msg.coId = 0 → (run.mgr.onMsg msg .finish).isSome ∧
        ∀ segment outcome, run.mgr.onMsg msg segment = some outcome → outcome.code = 0 ∧
          ∃ coId trans, .started coId (some ⟨cmd, trans⟩) ∈ outcome.events

namespace TransMgr

variable {Data : Type} {mgr : TransMgr Data}

/-- A message can always start a transaction when the pool has an object. -/
theorem onMsg_isSome (keyed : mgr.coTask.coPool.Keyed)
    (unmarked : mgr.coTask.coPool.Unmarked) {msg : TransMsg Data} {segment : Segment}
    (fresh : msg.coId = 0) (stocked : mgr.pool msg.cmd ≠ [])
    (fits : mgr.coTask.Fits segment) : (mgr.onMsg msg segment).isSome := by
  obtain ⟨trans, last⟩ := Option.ne_none_iff_exists'.mp
    (fun none => stocked (List.getLast?_eq_none_iff.mp none))
  have got : ∃ taken, (mgr.touch msg.cmd).getShared msg.cmd = some (taken, ⟨msg.cmd, trans⟩) ∧
      taken.coTask = mgr.coTask := by
    simp [getShared, touch_pool, last]
  obtain ⟨taken, got, same⟩ := got
  obtain ⟨stored, found⟩ := CoPool.found_newCoroutine keyed unmarked ⟨msg.cmd, trans⟩
    mgr.coTask.coPool.nextCoId
  rw [if_pos rfl] at found
  obtain ⟨ptr, active, entry⟩ := CoPool.found_eq_some.mp found
  have named : (mgr.coTask.addTack ⟨msg.cmd, trans⟩).2 = mgr.coTask.coPool.nextCoId :=
    CoPool.newCoroutine_id
  have woken : ((mgr.coTask.addTack ⟨msg.cmd, trans⟩).1.resumeOneWithMsg
      (mgr.coTask.addTack ⟨msg.cmd, trans⟩).2 msg.data segment).isSome := by
    rw [named]
    refine resumeOneWithMsg_isSome keyed.newCoroutine active ?_ ?_
    · rw [addTack, entry]
      simp
    · cases segment with
      | finish => trivial
      | yield now timeOut address => exact fits
  rw [onMsg, if_pos fresh, got]
  simp only [startTrans, share_coTask, same, Option.isSome_map]
  exact woken

/-- A message that starts a transaction returns 0 and runs the task of an object of the pool. -/
theorem onMsg_starts (keyed : mgr.coTask.coPool.Keyed)
    (unmarked : mgr.coTask.coPool.Unmarked) {msg : TransMsg Data} {segment : Segment}
    {outcome : MgrOutcome Data} (fresh : msg.coId = 0) (stocked : mgr.pool msg.cmd ≠ [])
    (stepped : mgr.onMsg msg segment = some outcome) : outcome.code = 0 ∧
      ∃ coId trans, .started coId (some ⟨msg.cmd, trans⟩) ∈ outcome.events := by
  rcases onMsg_cases stepped with ⟨_, full, _⟩ | ⟨_, taken, shared, got, started⟩ |
    ⟨named, _⟩ | ⟨named, _⟩
  · rw [getShared, touch_pool, Option.map_eq_none_iff, List.getLast?_eq_none_iff] at full
    exact absurd full stocked
  · obtain ⟨trans, last, rfl, rfl⟩ := getShared_cases got
    obtain ⟨woken, resumed, rfl⟩ := Option.map_eq_some_iff.mp started
    obtain ⟨_, code, starts⟩ := startTrans_started keyed unmarked resumed
    exact ⟨code, _, trans, starts⟩
  · exact absurd fresh named
  · exact absurd fresh named

/-- A coroutine was started for the `cmd` exactly when it holds one of its objects. -/
theorem mem_activeFor (coId : CoId) (cmd : Cmd) :
    coId ∈ mgr.activeFor cmd ↔ ∃ trans, mgr.ledger.held coId = some (cmd, trans) := by
  simp only [activeFor, Finset.mem_filter, ledger, Option.any_eq_true, decide_eq_true_eq,
    Option.map_eq_some_iff, Prod.mk.injEq]
  constructor
  · rintro ⟨_, shared, holds, same⟩
    exact ⟨shared.trans, shared, holds, same, rfl⟩
  · rintro ⟨trans, shared, holds, same, _⟩
    refine ⟨?_, shared, holds, same⟩
    rw [holder, Option.bind_eq_some_iff] at holds
    obtain ⟨co, found, _⟩ := holds
    obtain ⟨ptr, active, _⟩ := CoPool.found_eq_some.mp found
    rw [Finmap.mem_keys, ← Finmap.lookup_isSome]
    exact Option.isSome_of_eq_some active

end TransMgr

namespace TransRun

variable {Data : Type} {run next : TransRun Data}

/-- Each registration is recorded with as many objects as it asked for. -/
def Listed (run : TransRun Data) : Prop :=
  ∀ cmd count objects, run.registered.lookup cmd = some (count, objects) →
    objects.Nodup ∧ objects.length = count.toNat

theorem owned_eq {cmd : Cmd} {count : Int} {objects : List TransPtr}
    (known : run.registered.lookup cmd = some (count, objects)) : run.owned cmd = objects := by
  rw [owned, known]
  rfl

/-- The invariant of the runs whose identifiers do not wrap. -/
structure Sound (run : TransRun Data) : Prop where
  orderly : run.mgr.coTask.Orderly
  kept : run.mgr.Kept run.owned
  listed : run.Listed

/-- While fewer coroutines than objects are active for the `cmd`, its pool has an object. -/
theorem Sound.stocked (sound : run.Sound) {cmd : Cmd} {count : Int} {objects : List TransPtr}
    (known : run.registered.lookup cmd = some (count, objects))
    (few : (run.mgr.activeFor cmd).card < objects.length) : run.mgr.pool cmd ≠ [] := by
  have distinct : (run.owned cmd).Nodup := by
    rw [owned_eq known]
    exact (sound.listed _ _ _ known).1
  have counted := sound.kept.balanced.count distinct (run.mgr.activeFor cmd)
    fun coId => TransMgr.mem_activeFor coId cmd
  rw [owned_eq known] at counted
  intro empty
  have none : (run.mgr.ledger.stock cmd).length = 0 := List.length_eq_zero_iff.mpr empty
  omega

theorem Sound.conserved (sound : run.Sound) : Conserved run := by
  have kept := sound.kept
  have holds : ∀ {coId cmd trans}, run.mgr.ledger.held coId = some (cmd, trans) ↔
      run.mgr.coTask.holder coId = some ⟨cmd, trans⟩ := by
    intro coId cmd trans
    cases carried : run.mgr.coTask.holder coId with
    | none => simp [TransMgr.ledger, carried]
    | some shared =>
        obtain ⟨otherCmd, otherTrans⟩ := shared
        simp [TransMgr.ledger, carried]
  constructor
  · exact sound.listed
  · intro cmd count objects known trans
    have whole := kept.balanced.whole cmd trans
    rw [owned_eq known] at whole
    exact whole.trans (or_congr_right (exists_congr fun coId => holds))
  · exact kept.balanced.once
  · rintro cmd trans inside coId shared carried rfl
    exact kept.balanced.held_ne inside coId shared.cmd (TransMgr.held_eq carried)
  · intro coId other first second firstHeld secondHeld same
    have mine := TransMgr.held_eq firstHeld
    rw [same] at mine
    exact kept.balanced.holder_eq mine (TransMgr.held_eq secondHeld)
  · rintro cmd count objects known few msg rfl fresh
    have stocked := sound.stocked known few
    have keyed := sound.orderly.tidy.keyed
    have unmarked := sound.orderly.tidy.unmarked
    exact ⟨TransMgr.onMsg_isSome keyed unmarked fresh stocked trivial,
      fun segment outcome stepped => TransMgr.onMsg_starts keyed unmarked fresh stocked stepped⟩

theorem Sound.start : (registryMachine Data).start.Sound := by
  refine ⟨Orderly.empty, ?_, ?_⟩
  · refine ⟨?_, ?_, ?_, ?_, ?_⟩
    · exact Ledger.Balanced.empty
    · intro coId shared holds
      cases holds
    · intro coId co found
      cases found
    · exact fun cmd missing => rfl
    · intro cmd trans member
      cases member
  · intro cmd count objects known
    cases known

/-- A registration of a new `cmd` records the objects that it makes. -/
theorem Sound.registerCmd (sound : run.Sound) {cmd : Cmd} {count : Int}
    (missing : run.mgr.transMap.lookup cmd = none)
    (orderly : (run.mgr.addAll cmd count.toNat).coTask.Orderly) :
    (run.record ⟨run.mgr.addAll cmd count.toNat, 1, []⟩ (.registerCmd cmd count)).Sound := by
  refine ⟨orderly, ?_, fun other otherCount objects found => ?_⟩
  · have owns : (run.record ⟨run.mgr.addAll cmd count.toNat, 1, []⟩
        (.registerCmd cmd count)).owned =
        Function.update run.owned cmd (List.range' run.mgr.made count.toNat) := by
      funext other
      simp only [owned, record, if_true, UnorderedMap.lookup_insert, Function.update_apply]
      split_ifs <;> rfl
    rw [owns]
    exact sound.kept.registerCmd count.toNat missing
  · simp only [record, if_true, UnorderedMap.lookup_insert] at found
    split_ifs at found
    · cases found
      exact ⟨List.nodup_range', List.length_range'⟩
    · exact sound.listed other otherCount objects found

/-- A step keeps the invariant while the identifiers do not wrap. -/
theorem Sound.step (sound : run.Sound) {act : TransAct Data}
    (bound : next.mgr.coTask.coPool.created < 2 ^ 32)
    (stepped : (registryMachine Data).step run act = some next) : next.Sound := by
  obtain ⟨outcome, operated, rfl⟩ := Option.map_eq_some_iff.mp stepped
  have scheduled := TransMgr.step_scheduled operated
  by_cases registers : ∃ cmd count, act = .registerCmd cmd count
  · obtain ⟨cmd, count, rfl⟩ := registers
    obtain ⟨_, registered⟩ := Option.ite_none_right_eq_some.mp operated
    cases known : (run.mgr.transMap.lookup cmd).isSome with
    | true =>
        have refused : run.mgr.registerCmd cmd count = (run.mgr, false) := by
          rw [TransMgr.registerCmd, if_pos known]
        simp only [TransMgr.operate, refused] at registered
        cases registered
        exact sound
    | false =>
        have accepted : run.mgr.registerCmd cmd count =
            (run.mgr.addAll cmd count.toNat, true) := by
          rw [TransMgr.registerCmd, known]
          rfl
        simp only [TransMgr.operate, accepted] at registered
        cases registered
        exact sound.registerCmd (by simpa using known) (scheduled.orderly sound.orderly bound)
  · have other : ∀ cmd count, act ≠ .registerCmd cmd count :=
      fun cmd count same => registers ⟨cmd, count, same⟩
    have same : run.record outcome act = ⟨outcome.mgr, run.registered⟩ := by
      cases act with
      | registerCmd cmd count => exact absurd rfl (other cmd count)
      | _ => rfl
    rw [same] at bound ⊢
    exact ⟨scheduled.orderly sound.orderly bound,
      sound.kept.step sound.orderly other bound operated, sound.listed⟩

end TransRun

/-- The objects are conserved in every run whose identifiers do not wrap. -/
theorem trans_conserved {Data : Type} {acts : List (TransAct Data)} {run : TransRun Data}
    (reached : (registryMachine Data).run (registryMachine Data).start acts = some run)
    (few : run.mgr.coTask.coPool.created < 2 ^ 32) : Conserved run := by
  have kept : ∀ state act later, (state.mgr.coTask.coPool.created < 2 ^ 32 → state.Sound) →
      (registryMachine Data).step state act = some later →
      later.mgr.coTask.coPool.created < 2 ^ 32 → later.Sound := by
    intro state act later held stepped small
    refine (held (lt_of_le_of_lt ?_ small)).step small stepped
    obtain ⟨outcome, operated, rfl⟩ := Option.map_eq_some_iff.mp stepped
    have same : (state.record outcome act).mgr = outcome.mgr := by cases act <;> rfl
    rw [same]
    exact (TransMgr.step_scheduled operated).created
  have sound := (registryMachine Data).run_invariant kept (fun _ => TransRun.Sound.start) reached
  exact (sound few).conserved

/-- Two transactions share a pool, one ends at once and one by its timer. -/
theorem trans_conserved_timeout : ∃ run : TransRun Unit,
    (registryMachine Unit).run (registryMachine Unit).start
      [.registerCmd 5 2, .onMsg ⟨5, 0, ()⟩ (.yield 0 1000 1), .onMsg ⟨5, 0, ()⟩ .finish,
        .tickTimeOutCo 1000, .proceed .finish, .proceed .finish] = some run ∧ Conserved run := by
  have reached : (((registryMachine Unit).run (registryMachine Unit).start
      [.registerCmd 5 2, .onMsg ⟨5, 0, ()⟩ (.yield 0 1000 1), .onMsg ⟨5, 0, ()⟩ .finish,
        .tickTimeOutCo 1000, .proceed .finish, .proceed .finish]).any
      fun run => run.mgr.coTask.coPool.created < 2 ^ 32) = true := by decide +kernel
  obtain ⟨run, reached, few⟩ := Machine.exists_of_check _ reached
  exact ⟨run, reached, trans_conserved reached (of_decide_eq_true few)⟩

end QServer
