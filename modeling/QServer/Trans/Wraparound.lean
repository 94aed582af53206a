import QServer.Trans.Conservation
import Mathlib.Data.Finset.Max
import Mathlib.Order.Interval.Finset.Nat
import Mathlib.Tactic.NormNum

/-
This file lets all identifiers be active at once, and then starts one more transaction.
-/

namespace QServer
open Container Transition CoTask

namespace CoPool

variable {Body Msg : Type} (pool : CoPool Body Msg)

/-- An identifier is a positive `uint32_t`. -/
def IsCoId (coId : CoId) : Prop := coId ∈ Finset.Ico 1 (2 ^ 32)

theorem getCoId_isCoId : IsCoId pool.getCoId := by
  have small : (pool.incCoId + 1) % 2 ^ 32 < 2 ^ 32 := Nat.mod_lt _ (by decide)
  rw [IsCoId, Finset.mem_Ico, getCoId]
  split_ifs with zero
  · exact ⟨le_refl 1, by decide⟩
  · exact ⟨Nat.one_le_iff_ne_zero.mpr zero, small⟩

end CoPool

/-- Every coroutine is active, and every key is an identifier. -/
structure Busy (mgr : TransMgr Unit) : Prop where
  keyed : mgr.coTask.coPool.Keyed
  unmarked : mgr.coTask.coPool.Unmarked
  noneFree : mgr.coTask.coPool.freeList = []
  keys : ∀ coId, (mgr.coTask.coPool.findCoId coId).isSome → CoPool.IsCoId coId
  idle : mgr.coTask.mainCall = .idle

namespace Busy

variable {mgr : TransMgr Unit}

theorem newCoroutine_findCoId (busy : Busy mgr) (shared : SharedTrans) (coId : CoId) :
    ((mgr.coTask.addTack shared).1.coPool.findCoId coId).isSome → CoPool.IsCoId coId := by
  rw [addTack, CoPool.newCoroutine, busy.noneFree]
  dsimp only
  rw [CoPool.activate_findCoId]
  split_ifs with same
  · intro _
    rw [same, CoPool.grow]
    simp only [Function.update_self]
    exact mgr.coTask.coPool.getCoId_isCoId
  · exact busy.keys coId

theorem newCoroutine_freeList (busy : Busy mgr) (shared : SharedTrans) :
    (mgr.coTask.addTack shared).1.coPool.freeList = [] := by
  rw [addTack, CoPool.newCoroutine, busy.noneFree]
  rfl

/-- A transaction that yields at its start keeps its object and every coroutine busy. -/
theorem startTrans (busy : Busy mgr) {msg : TransMsg Unit} {taken : TransMgr Unit}
    {shared : SharedTrans} {cmd : Cmd} {now timeOut : Time} {address : Addr}
    {outcome : MgrOutcome Unit} (got : mgr.getShared cmd = some (taken, shared))
    (stepped : taken.startTrans msg (.yield now timeOut address) shared = some outcome) :
    Busy outcome.mgr ∧ outcome.mgr.pool = taken.pool := by
  obtain ⟨trans, last, rfl, rfl⟩ := TransMgr.getShared_cases got
  obtain ⟨woken, resumed, rfl⟩ := Option.map_eq_some_iff.mp stepped
  obtain ⟨switched, code, starts⟩ :=
    TransMgr.startTrans_started busy.keyed busy.unmarked resumed
  have same := TransMgr.handed_settle busy.keyed busy.unmarked switched
  have begunPool : (mgr.begun ⟨cmd, trans⟩).coPool =
      (mgr.coTask.addTack ⟨cmd, trans⟩).1.coPool := by
    rw [TransMgr.begun, cancelTimer_coPool]
  have begunCall : (mgr.begun ⟨cmd, trans⟩).mainCall = .idle := by
    rw [TransMgr.begun, cancelTimer_mainCall]
    exact busy.idle
  obtain ⟨keyed, unmarked, _⟩ := switched.pool (by
    rw [begunPool]
    exact busy.keyed.newCoroutine) (by
    rw [begunPool]
    exact busy.unmarked.newCoroutine)
  have idle := switched.mainCall.trans begunCall
  cases switched with
  | missed absent => cases starts
  | yielded active entered fresh =>
      rename_i ptr first
      refine ⟨⟨?_, ?_, ?_, ?_, ?_⟩, ?_⟩
      · rw [TransMgr.release_coTask, TransMgr.settle_coTask]
        exact keyed
      · rw [TransMgr.release_coTask, TransMgr.settle_coTask]
        exact unmarked
      · rw [TransMgr.release_coTask, TransMgr.settle_coTask, afterYield, CoPool.modify_freeList,
          begunPool]
        exact busy.newCoroutine_freeList _
      · rw [TransMgr.release_coTask, TransMgr.settle_coTask, afterYield, CoPool.modify_findCoId,
          begunPool]
        exact busy.newCoroutine_findCoId _
      · rw [TransMgr.release_coTask, TransMgr.settle_coTask]
        exact idle
      · change (TransMgr.release _ _).pool = _
        have pools := congrArg TransMgr.pool same
        refine Eq.trans pools ?_
        simp only [TransMgr.settle, List.foldl_cons, List.foldl_nil,
          TransMgr.Entered.collect entered]
        rfl

/-- A message starts one more transaction while the pool has an object. -/
theorem step (busy : Busy mgr) {cmd : Cmd} (stocked : mgr.pool cmd ≠ []) :
    ∃ address outcome, mgr.step (.onMsg ⟨cmd, 0, ()⟩ (.yield 0 0 address)) = some outcome ∧
      Busy outcome.mgr ∧ (outcome.mgr.pool cmd).length + 1 = (mgr.pool cmd).length ∧
      ∀ other, other ≠ cmd → outcome.mgr.pool other = mgr.pool other := by
  obtain ⟨address, fresh⟩ := Infinite.exists_notMem_finset mgr.coTask.held.toFinset
  have fits : mgr.coTask.Fits (.yield 0 0 address) := by simpa [Fits] using fresh
  have starts : (mgr.onMsg ⟨cmd, 0, ()⟩ (.yield 0 0 address)).isSome :=
    TransMgr.onMsg_isSome busy.keyed busy.unmarked rfl stocked fits
  obtain ⟨outcome, stepped⟩ := Option.isSome_iff_exists.mp starts
  refine ⟨address, outcome, ?_, ?_⟩
  · change (if mgr.coTask.mainCall.isIdle then _ else _) = _
    rw [busy.idle]
    exact stepped
  · rcases TransMgr.onMsg_cases stepped with ⟨_, full, _⟩ | ⟨_, taken, shared, got, started⟩ |
      ⟨named, _⟩ | ⟨named, _⟩
    · rw [TransMgr.getShared, TransMgr.touch_pool, Option.map_eq_none_iff,
        List.getLast?_eq_none_iff] at full
      exact absurd full stocked
    · have touched : Busy (mgr.touch cmd) := ⟨busy.keyed, busy.unmarked, busy.noneFree, busy.keys,
        busy.idle⟩
      obtain ⟨next, pools⟩ := touched.startTrans got started
      have left := TransMgr.getShared_pool got
      rw [← pools] at left
      refine ⟨next, ?_, fun other different => ?_⟩
      · rw [left, if_pos rfl, TransMgr.touch_pool, List.length_dropLast]
        exact Nat.sub_add_cancel (List.length_pos_iff.mpr stocked)
      · rw [left, if_neg different, TransMgr.touch_pool]
    · exact absurd rfl named
    · exact absurd rfl named

theorem holder_isCoId (busy : Busy mgr) {coId : CoId} {shared : SharedTrans}
    (holds : mgr.coTask.holder coId = some shared) : CoPool.IsCoId coId := by
  rw [holder, Option.bind_eq_some_iff] at holds
  obtain ⟨co, found, _⟩ := holds
  obtain ⟨ptr, active, _⟩ := CoPool.found_eq_some.mp found
  exact busy.keys coId (Option.isSome_of_eq_some active)

/-- There are too few identifiers for `2 ^ 32` objects that are all held. -/
theorem not_all_held (busy : Busy mgr) : ¬∀ trans < 2 ^ 32, ∃ coId shared,
    mgr.coTask.holder coId = some shared ∧ shared.trans = trans := by
  intro held
  choose! coIds shares holds same using held
  have fewer : (Finset.Ico 1 (2 ^ 32)).card < (Finset.range (2 ^ 32)).card := by
    rw [Nat.card_Ico, Finset.card_range]
    omega
  have named : ∀ trans ∈ Finset.range (2 ^ 32), coIds trans ∈ Finset.Ico 1 (2 ^ 32) :=
    fun trans small => busy.holder_isCoId (holds trans (Finset.mem_range.mp small))
  obtain ⟨first, firstSmall, second, secondSmall, different, shared⟩ :=
    Finset.exists_ne_map_eq_of_card_lt_of_maps_to fewer named
  rw [Finset.mem_range] at firstSmall secondSmall
  have firstHeld := holds first firstSmall
  rw [shared, holds second secondSmall, Option.some.injEq] at firstHeld
  exact different (by rw [← same first firstSmall, ← firstHeld, same second secondSmall])

end Busy

/-- Messages can start a transaction for every object of the pool. -/
theorem drain (cmd : Cmd) (run : TransRun Unit) (busy : Busy run.mgr) :
    ∃ acts last, (registryMachine Unit).run run acts = some last ∧ Busy last.mgr ∧
      last.registered = run.registered ∧ last.mgr.pool cmd = [] ∧
      (∀ other, other ≠ cmd → last.mgr.pool other = run.mgr.pool other) ∧
      ∀ other count, .registerCmd other count ∉ acts := by
  induction size : (run.mgr.pool cmd).length generalizing run with
  | zero =>
      exact ⟨[], run, rfl, busy, rfl, List.length_eq_zero_iff.mp size, fun _ _ => rfl, by simp⟩
  | succ left ih =>
      have stocked : run.mgr.pool cmd ≠ [] := by
        intro empty
        rw [empty] at size
        cases size
      obtain ⟨address, outcome, stepped, next, shorter, others⟩ := busy.step stocked
      obtain ⟨acts, last, reached, after, registered, empty, kept, none⟩ :=
        @ih ⟨outcome.mgr, run.registered⟩ next (by
          change (outcome.mgr.pool cmd).length = left
          omega)
      refine ⟨.onMsg ⟨cmd, 0, ()⟩ (.yield 0 0 address) :: acts, last, ?_, after, registered, empty,
        fun other different => (kept other different).trans (others other different), ?_⟩
      · refine (Machine.run_cons _).mpr ⟨⟨outcome.mgr, run.registered⟩, ?_, reached⟩
        exact Option.map_eq_some_iff.mpr ⟨outcome, stepped, rfl⟩
      · intro other count member
        rcases List.mem_cons.mp member with same | later
        · cases same
        · exact none other count later

/-- Messages can start a transaction for every object of the listed pools. -/
theorem drainAll (cmds : List Cmd) (run : TransRun Unit) (busy : Busy run.mgr) :
    ∃ acts last, (registryMachine Unit).run run acts = some last ∧ Busy last.mgr ∧
      last.registered = run.registered ∧ (∀ cmd ∈ cmds, last.mgr.pool cmd = []) ∧
      (∀ other, run.mgr.pool other = [] → last.mgr.pool other = []) ∧
      ∀ other count, .registerCmd other count ∉ acts := by
  induction cmds generalizing run with
  | nil => exact ⟨[], run, rfl, busy, rfl, by simp, fun _ empty => empty, by simp⟩
  | cons cmd rest ih =>
      obtain ⟨first, middle, reached, busyMiddle, known, empty, others, none⟩ := drain cmd run busy
      obtain ⟨second, last, continued, busyLast, same, drained, stays, noneLater⟩ :=
        ih middle busyMiddle
      refine ⟨first ++ second, last, (Machine.run_append _).mpr ⟨middle, reached, continued⟩,
        busyLast, same.trans known, ?_, ?_, ?_⟩
      · intro other member
        rcases List.mem_cons.mp member with rfl | later
        · exact stays _ empty
        · exact drained other later
      · intro other emptied
        by_cases here : other = cmd
        · exact stays _ (here ▸ empty)
        · exact stays _ ((others other here).trans emptied)
      · intro other count member
        rcases List.mem_append.mp member with early | late
        · exact none other count early
        · exact noneLater other count late

/-- All objects were made for the listed commands. -/
structure Stocked (run : TransRun Unit) (cmds : List Cmd) : Prop where
  busy : Busy run.mgr
  absent : ∀ cmd, cmd ∉ cmds → run.mgr.transMap.lookup cmd = none
  covered : ∀ trans < run.mgr.made, ∃ cmd ∈ cmds, ∃ count objects,
    run.registered.lookup cmd = some (count, objects) ∧ trans ∈ objects

theorem Stocked.start : Stocked (registryMachine Unit).start [] := by
  refine ⟨⟨Tidy.empty.keyed, Tidy.empty.unmarked, rfl, fun coId active => ?_, rfl⟩,
    fun _ _ => rfl, fun trans none => absurd none (Nat.not_lt_zero trans)⟩
  cases active

theorem Busy.addAll {mgr : TransMgr Unit} (busy : Busy mgr) (cmd : Cmd) (count : Nat) :
    Busy (mgr.addAll cmd count) := by
  constructor <;> rw [TransMgr.addAll_coTask]
  · exact busy.keyed
  · exact busy.unmarked
  · exact busy.noneFree
  · exact busy.keys
  · exact busy.idle

/-- A registration of a new `cmd` makes objects for it. -/
theorem Stocked.register {run : TransRun Unit} {cmds : List Cmd} (stocked : Stocked run cmds)
    (cmd : Cmd) (count : Nat) (new : cmd ∉ cmds) : ∃ next,
    (registryMachine Unit).step run (.registerCmd cmd count) = some next ∧
      next.mgr.made = run.mgr.made + count ∧ Stocked next (cmd :: cmds) := by
  have accepted : run.mgr.registerCmd cmd count = (run.mgr.addAll cmd count, true) := by
    rw [TransMgr.registerCmd, stocked.absent cmd new, Int.toNat_natCast]
    rfl
  have stepped : run.mgr.step (.registerCmd cmd count) =
      some ⟨run.mgr.addAll cmd count, 1, []⟩ := by
    change (if run.mgr.coTask.mainCall.isIdle then _ else _) = _
    rw [stocked.busy.idle, TransMgr.operate, accepted]
    rfl
  obtain ⟨_, made, _, lookups⟩ := run.mgr.addAll_spec cmd count
  refine ⟨⟨run.mgr.addAll cmd count,
    Finmap.insert cmd ((count : Int), List.range' run.mgr.made count) run.registered⟩, ?_, made,
    stocked.busy.addAll cmd count, fun other absent => ?_, fun trans small => ?_⟩
  · change (run.mgr.step _).map _ = _
    rw [stepped, Option.map_some, TransRun.record, if_pos rfl, Int.toNat_natCast]
  · rw [List.mem_cons, not_or] at absent
    exact (lookups other).mpr ⟨stocked.absent other absent.2, fun same => absurd same absent.1⟩
  · by_cases old : trans < run.mgr.made
    · obtain ⟨other, member, otherCount, objects, known, inside⟩ := stocked.covered trans old
      have different : other ≠ cmd := by
        rintro rfl
        exact new member
      refine ⟨other, List.mem_cons_of_mem _ member, otherCount, objects, ?_, inside⟩
      rw [UnorderedMap.lookup_insert, if_neg different, known]
    · refine ⟨cmd, List.mem_cons_self, count, List.range' run.mgr.made count, ?_, ?_⟩
      · rw [UnorderedMap.lookup_insert, if_pos rfl]
      · rw [made] at small
        exact List.mem_range'_1.mpr ⟨not_lt.mp old, small⟩

/-- A manager whose registered objects all left the pools has a holder for each of them. -/
theorem Conserved.held {run : TransRun Unit} (conserved : Conserved run) {cmd : Cmd} {count : Int}
    {objects : List TransPtr} (known : run.registered.lookup cmd = some (count, objects))
    (empty : run.mgr.pool cmd = []) {trans : TransPtr} (member : trans ∈ objects) :
    ∃ coId shared, run.mgr.coTask.holder coId = some shared ∧ shared.trans = trans := by
  have place := (conserved.whole cmd count objects known trans).mp member
  rw [empty] at place
  rcases place with inside | ⟨coId, holds⟩
  · cases inside
  · exact ⟨coId, _, holds, rfl⟩

/-- More objects than identifiers are not conserved. -/
theorem overfull_not_conserved (first second third : Nat)
    (many : first + second + third = 2 ^ 32) : ∃ acts run,
      (∀ (cmd : Cmd) (count : Int), .registerCmd cmd count ∈ acts →
        count = first ∨ count = second ∨ count = third) ∧
      (registryMachine Unit).run (registryMachine Unit).start acts = some run ∧
      ¬Conserved run := by
  obtain ⟨run1, stepped1, made1, stocked1⟩ := Stocked.start.register 1 first (by decide)
  obtain ⟨run2, stepped2, made2, stocked2⟩ := stocked1.register 2 second (by decide)
  obtain ⟨run3, stepped3, made3, stocked3⟩ := stocked2.register 3 third (by decide)
  obtain ⟨acts, last, reached, busy, same, drained, _, none⟩ :=
    drainAll [3, 2, 1] run3 stocked3.busy
  refine ⟨.registerCmd 1 first :: .registerCmd 2 second :: .registerCmd 3 third :: acts, last,
    ?_, ?_, ?_⟩
  · intro cmd count member
    simp only [List.mem_cons, TransAct.registerCmd.injEq, none, or_false] at member
    rcases member with ⟨_, same⟩ | ⟨_, same⟩ | ⟨_, same⟩ <;> simp [same]
  · refine (Machine.run_cons _).mpr ⟨run1, stepped1, ?_⟩
    refine (Machine.run_cons _).mpr ⟨run2, stepped2, ?_⟩
    exact (Machine.run_cons _).mpr ⟨run3, stepped3, reached⟩
  · intro conserved
    have all : run3.mgr.made = 2 ^ 32 := by
      have none : (registryMachine Unit).start.mgr.made = 0 := rfl
      rw [made3, made2, made1, none, Nat.zero_add, many]
    apply busy.not_all_held
    intro trans small
    obtain ⟨cmd, member, count, objects, known, inside⟩ :=
      stocked3.covered trans (by rw [all]; exact small)
    rw [← same] at known
    exact conserved.held known (drained cmd member) inside

/-- Three registrations with counts that are `int` values lose an object. -/
theorem trans_not_conserved : ∃ acts run,
    (∀ (cmd : Cmd) (count : Int), .registerCmd cmd count ∈ acts → 0 < count ∧ count < 2 ^ 31) ∧
    (registryMachine Unit).run (registryMachine Unit).start acts = some run ∧
    ¬Conserved run := by
  obtain ⟨acts, run, counts, reached, lost⟩ := overfull_not_conserved
    (2 ^ 31 - 1) (2 ^ 31 - 1) 2 (by norm_num)
  refine ⟨acts, run, fun cmd count member => ?_, reached, lost⟩
  rcases counts cmd count member with same | same | same <;> rw [same] <;> norm_num

end QServer
