import QServer.Discovery.Convergence
import QServer.Lib.Settling
import Mathlib.Algebra.GroupWithZero.Nat
import Mathlib.Data.Fintype.EquivFin
import Mathlib.Tactic.Ring

/-
This file proves that discovery comes to rest when nobody else changes the children.
-/

namespace QServer
open Transition CoTask

/-- The steps that follow from what has happened already. -/
inductive AppAct.Own : AppAct → Prop
  | process (order : List Wire.Bytes) : Own (.process order)
  | complete (now : Time) (ptr : Addr) : Own (.complete now ptr)
  | watcher (now : Time) (ptr : Addr) : Own (.watcher now ptr)

/-- Nobody else joins with the `self_id` of the process. -/
def Foreign (selfId : Wire.Bytes) (_ : AppRun) : AppAct → Prop
  | .join name => name ≠ selfId
  | _ => True

instance (selfId : Wire.Bytes) (run : AppRun) : DecidablePred (Foreign selfId run)
  | .report _ _ => isTrue trivial
  | .join name => inferInstanceAs (Decidable (name ≠ selfId))
  | .leave _ => isTrue trivial
  | .process _ => isTrue trivial
  | .complete _ _ => isTrue trivial
  | .watcher _ _ => isTrue trivial
  | .doTimeOutTask _ => isTrue trivial
  | .proceed => isTrue trivial

namespace ZooCall

/-- The registration makes this call. -/
def registers : ZooCall → Bool
  | .registerWatch | .create => true
  | _ => false

/-- The steps that can follow from an answer, with those of the next call of the task. -/
def answered : ZooCall → Nat
  | .registerWatch => 8
  | .create => 1
  | .getChildren => 3
  | .wGetChildRen => 1

/-- The steps that can follow from a request. A creation can fire the watch. -/
def asked : ZooCall → Nat
  | .registerWatch => 9
  | .create => 7
  | .getChildren => 4
  | .wGetChildRen => 2

theorem answered_lt_asked (call : ZooCall) : call.answered < call.asked := by
  cases call <;> decide

/-- Only the first call of the registration leads to another one of its calls. -/
theorem eq_registerWatch {call following : ZooCall} (follows : call.next = some following)
    (registers : following.registers = true) : call = .registerWatch := by
  cases call <;> cases follows
  · rfl
  · cases registers

end ZooCall

namespace ZooKeeper

variable {zoo next : ZooKeeper} {svrList : SvrList} {reported : Bool} {request : ZooRequest}
  {rest : List ZooRequest} {completion : ZooCompletion} {completions : List ZooCompletion}

/-- The number of own steps that can follow. -/
def work (zoo : ZooKeeper) : Nat :=
  (zoo.completions.map fun completion => completion.request.call.answered).sum +
    (zoo.requests.map fun request => request.call.asked).sum + 5 * zoo.childEvents

section Work

theorem work_change_le (children : Finset Wire.Bytes) :
    (zoo.change children).work ≤ zoo.work + 5 := by
  unfold change work
  cases zoo.childWatch
  · exact Nat.le_add_right _ _
  · simp only [if_true]
    omega

theorem work_answer (taken : zoo.requests = request :: rest) (msg : ZooMsg) :
    (zoo.answer request rest msg).work + request.call.asked =
      zoo.work + request.call.answered := by
  simp only [work, answer, taken, List.map_append, List.map_cons, List.map_nil, List.sum_append,
    List.sum_cons, List.sum_nil]
  omega

/-- ZooKeeper makes the work less when it takes a request. -/
theorem work_process {selfId : Wire.Bytes} {order : List Wire.Bytes}
    (processed : zoo.process selfId order = some next) : next.work < zoo.work := by
  obtain ⟨request, rest, taken, done⟩ := process_cases processed
  have less := request.call.answered_lt_asked
  cases done with
  | created creates absent =>
      have answered := work_answer taken .value
      have changed := (zoo.answer request rest .value).work_change_le (insert selfId zoo.children)
      rw [creates, ZooCall.asked, ZooCall.answered] at answered
      omega
  | listed lists whole =>
      have answered := work_answer taken (.strings order)
      change (zoo.answer request rest (.strings order)).work < _
      omega
  | watched creates lists whole =>
      have answered := work_answer taken (.strings order)
      change (zoo.answer request rest (.strings order)).work < _
      omega

theorem work_got (got : zoo.completions = completion :: completions) :
    zoo.work = ({ zoo with completions } : ZooKeeper).work + completion.request.call.answered := by
  simp only [work, got, List.map_cons, List.sum_cons]
  omega

/-- The task that goes on has paid for its next request. -/
theorem work_follow (coId : CoId) (call : ZooCall) :
    (zoo.follow coId call.next).work + 1 = zoo.work + call.answered := by
  rw [work, follow_completions, follow_requests, follow_childEvents, work, List.map_append,
    List.sum_append]
  cases call
  all_goals
    simp only [ZooCall.next, ZooCall.answered, ZooCall.asked, Option.map_some, Option.map_none,
      Option.toList_some, Option.toList_none, List.map_cons, List.map_nil, List.sum_cons,
      List.sum_nil]
    omega

theorem work_watcher {childEvents : Nat} (fired : zoo.childEvents = childEvents + 1)
    (coId : CoId) :
    (({ zoo with childEvents } : ZooKeeper).submit ⟨coId, .getChildren⟩).work + 1 = zoo.work := by
  simp only [work, submit, fired, List.map_append, List.map_cons, List.map_nil, List.sum_append,
    List.sum_cons, List.sum_nil, ZooCall.asked]
  omega

/-- All that an own step can do to ZooKeeper and to the client's queues. -/
inductive OwnStep (selfId : Wire.Bytes) (zoo : ZooKeeper) : ZooKeeper → Prop
  | process {order : List Wire.Bytes} {next : ZooKeeper}
      (processed : zoo.process selfId order = some next) : OwnStep selfId zoo next
  | complete {completion : ZooCompletion} {completions : List ZooCompletion}
      (got : zoo.completions = completion :: completions) :
      OwnStep selfId zoo (({ zoo with completions } : ZooKeeper).follow completion.request.coId
        completion.request.call.next)
  | watcher {childEvents : Nat} (fired : zoo.childEvents = childEvents + 1) (coId : CoId) :
      OwnStep selfId zoo (({ zoo with childEvents } : ZooKeeper).submit ⟨coId, .getChildren⟩)

/-- An own step leaves less to do. -/
theorem OwnStep.work_lt {selfId : Wire.Bytes} (moved : zoo.OwnStep selfId next) :
    next.work < zoo.work := by
  cases moved with
  | process processed => exact work_process processed
  | @complete completion _ got =>
      rw [work_got got]
      exact Nat.lt_of_succ_le (work_follow completion.request.coId _).le
  | watcher fired coId => exact Nat.lt_of_succ_le (work_watcher fired coId).le

end Work

/-- The number of requests of the registration that are not completed. -/
def registrations (zoo : ZooKeeper) : Nat :=
  zoo.pending.countP fun request => request.call.registers

/-- The registration has not created its node. -/
def Enrolling (zoo : ZooKeeper) : Prop :=
  (∃ completion ∈ zoo.completions, completion.request.call = .registerWatch) ∨
    ∃ request ∈ zoo.requests, request.call.registers = true

section Registrations

theorem registrations_pending (same : next.pending = zoo.pending) :
    next.registrations = zoo.registrations := by
  rw [registrations, registrations, same]

/-- The task that goes on makes no more requests of the registration. -/
theorem registrations_follow_le (got : zoo.completions = completion :: completions) :
    (({ zoo with completions } : ZooKeeper).follow completion.request.coId
      completion.request.call.next).registrations ≤ zoo.registrations := by
  rw [registrations, registrations, follow_pending, pending_of_completions got,
    List.countP_append, List.countP_cons]
  cases completion.request.call <;> simp [ZooCall.next, ZooCall.registers]

theorem registrations_submit (coId : CoId) (call : ZooCall) :
    (zoo.submit ⟨coId, call⟩).registrations = zoo.registrations + call.registers.toNat := by
  have submitted : (zoo.submit ⟨coId, call⟩).pending = zoo.pending ++ [⟨coId, call⟩] := by
    simp [pending, submit]
  rw [registrations, submitted, List.countP_append, ← registrations]
  cases call <;> rfl

theorem enrolling_follow (got : zoo.completions = completion :: completions)
    (enrolling : (({ zoo with completions } : ZooKeeper).follow completion.request.coId
      completion.request.call.next).Enrolling) : zoo.Enrolling := by
  rcases enrolling with ⟨other, member, registers⟩ | ⟨request, member, registers⟩
  · rw [follow_completions] at member
    refine Or.inl ⟨other, ?_, registers⟩
    rw [got]
    exact List.mem_cons_of_mem _ member
  · rw [follow_requests, List.mem_append] at member
    rcases member with old | new
    · exact Or.inr ⟨request, old, registers⟩
    · obtain ⟨following, follows, rfl⟩ := Option.map_eq_some_iff.mp (Option.mem_toList.mp new)
      exact Or.inl ⟨completion, by simp [got], ZooCall.eq_registerWatch follows registers⟩

/-- A request is answered, and the registration goes on only if it did before. -/
theorem enrolling_answer (taken : zoo.requests = request :: rest) {msg : ZooMsg}
    (enrolling : (zoo.answer request rest msg).Enrolling) : zoo.Enrolling := by
  rcases enrolling with ⟨completion, member, registers⟩ | ⟨other, member, registers⟩
  · rcases List.mem_append.mp member with old | new
    · exact Or.inl ⟨completion, old, registers⟩
    · rw [List.mem_singleton.mp new] at registers
      exact Or.inr ⟨request, by simp [taken], by rw [registers]; rfl⟩
  · refine Or.inr ⟨other, ?_, registers⟩
    rw [taken]
    exact List.mem_cons_of_mem _ member

/-- With its creation the only registration ends. -/
theorem not_enrolling_created (one : zoo.registrations ≤ 1) (taken : zoo.requests = request :: rest)
    (creates : request.call = .create) (msg : ZooMsg) :
    ¬(zoo.answer request rest msg).Enrolling := by
  have counted : zoo.registrations =
      zoo.completions.countP (fun completion => completion.request.call.registers) +
        (rest.countP (fun request => request.call.registers) + 1) := by
    rw [registrations, pending, taken, List.countP_append, List.countP_map, List.countP_cons,
      creates]
    rfl
  rintro (⟨completion, member, registers⟩ | ⟨other, member, registers⟩)
  · rcases List.mem_append.mp member with old | new
    · have found : 0 < zoo.completions.countP fun completion =>
          completion.request.call.registers :=
        List.countP_pos_iff.mpr ⟨completion, old, by rw [registers]; rfl⟩
      omega
    · rw [List.mem_singleton.mp new, creates] at registers
      cases registers
  · have found : 0 < rest.countP fun request => request.call.registers :=
      List.countP_pos_iff.mpr ⟨other, member, registers⟩
    omega

end Registrations

/-- A watch that misses a change leads on as well, with another list. -/
theorem Sound.rewatched (sound : zoo.Sound svrList reported)
    (taken : zoo.requests = request :: rest) (rearms : request.call = .wGetChildRen)
    {order : List Wire.Bytes} (whole : order.toFinset = zoo.children) :
    { zoo.answer request rest (.strings order) with childWatch := true }.Sound
      (getServers svrList order) reported := by
  have samePending := answer_pending taken (.strings order)
  have one := sound.pulses_le
  rw [ZooKeeper.pulses, taken, leads_cons, rearms, if_neg (by decide)] at one
  refine ⟨samePending ▸ sound.apart, samePending ▸ sound.unreported, ?_, ?_, ?_, fun _ => ?_⟩
  · rw [← sound.pulses]
    simp only [ZooKeeper.pulses, answer, taken, fetches_append, fetches_cons, fetches_nil,
      leads_cons, rearms, Bool.toNat_true, reduceCtorEq, if_false]
    omega
  · intro completion member fetched
    rcases List.mem_append.mp member with old | new
    · have fetching := fetches_pos old fetched
      omega
    · rw [List.mem_singleton.mp new, rearms] at fetched
      cases fetched
  · intro other member again
    have leading : 0 < leads rest := leads_pos member (by simp [again])
    omega
  · refine Or.inr ?_
    change (getServers svrList order).Holds zoo.children
    rw [← whole]
    exact getServers_holds svrList order

/-- Whatever is missed, the requests lead to the next watch. -/
theorem Sound.process_flows (sound : zoo.Sound svrList reported) {selfId : Wire.Bytes}
    {order : List Wire.Bytes} (processed : zoo.process selfId order = some next) :
    ∃ svrList, next.Sound svrList reported := by
  obtain ⟨request, rest, taken, done⟩ := process_cases processed
  cases done with
  | created creates absent => exact ⟨svrList, sound.created taken creates _⟩
  | listed lists whole => exact ⟨svrList, sound.listing taken lists whole⟩
  | watched creates lists whole =>
      by_cases rearms : request.call = .wGetChildRen
      · exact ⟨_, sound.rewatched taken rearms whole⟩
      · exact ⟨svrList, sound.watching taken creates lists
          (fun same => absurd same rearms) order⟩

section Bound

variable (calls : List ZooCall)

/-- The steps of the calls, with the calls counted. -/
theorem sum_counts (steps : ZooCall → Nat) : (calls.map steps).sum =
    steps .registerWatch * calls.count .registerWatch + steps .create * calls.count .create +
      steps .getChildren * calls.count .getChildren +
      steps .wGetChildRen * calls.count .wGetChildRen := by
  induction calls with
  | nil => rfl
  | cons call calls ih =>
      rw [List.map_cons, List.sum_cons, ih]
      cases call <;> simp <;> ring

theorem countP_registers : calls.countP ZooCall.registers =
    calls.count .registerWatch + calls.count .create := by
  induction calls with
  | nil => rfl
  | cons call calls ih =>
      rw [List.countP_cons, ih]
      cases call <;> simp [ZooCall.registers] <;> omega

theorem fetches_count (completions : List ZooCompletion) : fetches completions =
    (completions.map fun completion => completion.request.call).count .getChildren := by
  induction completions with
  | nil => rfl
  | cons completion completions ih =>
      rw [fetches_cons, ih, List.map_cons, List.count_cons]
      simp

theorem leads_count (requests : List ZooRequest) :
    leads requests + (requests.map ZooRequest.call).count .create =
      (requests.map ZooRequest.call).count .registerWatch +
        (requests.map ZooRequest.call).count .create +
        (requests.map ZooRequest.call).count .getChildren +
        (requests.map ZooRequest.call).count .wGetChildRen := by
  induction requests with
  | nil => rfl
  | cons request requests ih =>
      rw [leads_cons, List.map_cons]
      cases request.call <;> simp <;> omega

/-- Few steps can follow, because one pulse goes round beside one registration. -/
theorem Sound.work_le (sound : zoo.Sound svrList reported) (single : zoo.registrations ≤ 1) :
    zoo.work ≤ 14 := by
  let answered := zoo.completions.map fun completion => completion.request.call
  let asked := zoo.requests.map ZooRequest.call
  have calls : zoo.pending.map ZooRequest.call = answered ++ asked := by
    simp [pending, answered, asked, Function.comp_def]
  have distinct : (answered ++ asked).Nodup := by
    rw [← calls]
    exact sound.apart.imp fun apart => apart.1
  have once := List.nodup_iff_count_le_one.mp distinct .wGetChildRen
  rw [List.count_append] at once
  have registering : zoo.registrations = (answered ++ asked).countP ZooCall.registers := by
    rw [← calls, List.countP_map]
    rfl
  rw [registering, countP_registers, List.count_append, List.count_append] at single
  have one := sound.pulses_le
  rw [ZooKeeper.pulses] at one
  have fetching : fetches zoo.completions = answered.count .getChildren :=
    fetches_count zoo.completions
  have leading : leads zoo.requests + asked.count .create =
      asked.count .registerWatch + asked.count .create + asked.count .getChildren +
        asked.count .wGetChildRen := leads_count zoo.requests
  have steps : zoo.work = (answered.map ZooCall.answered).sum + (asked.map ZooCall.asked).sum +
      5 * zoo.childEvents := by
    simp only [work, answered, asked, List.map_map, Function.comp_def]
  rw [steps, sum_counts, sum_counts]
  simp only [ZooCall.answered, ZooCall.asked]
  omega

end Bound

end ZooKeeper

namespace AppRun

variable {run next : AppRun} {selfId : Wire.Bytes} {garbage : List Wire.Bytes} {now : Time}
  {ptr : Addr} {act : AppAct}

/-- The requests lead to the next watch, and the registration finds its name free. -/
structure Flowing (selfId : Wire.Bytes) (run : AppRun) : Prop where
  served : run.Served
  sound : ∃ svrList, run.zoo.Sound svrList run.reported
  single : run.zoo.registrations ≤ 1
  absent : selfId ∈ run.zoo.children → run.reported = true ∧ ¬run.zoo.Enrolling

theorem Flowing.start : AppRun.start.Flowing selfId := by
  refine ⟨Served.start, ⟨_, ZooKeeper.Sound.empty⟩, Nat.zero_le 1, ?_⟩
  intro member
  cases member

theorem Flowing.few (flowing : run.Flowing selfId) : run.zoo.pending.length ≤ 4 := by
  obtain ⟨svrList, sound⟩ := flowing.sound
  simpa using ZooCall.length_le sound.apart

theorem Flowing.work_le (flowing : run.Flowing selfId) : run.zoo.work ≤ 14 := by
  obtain ⟨svrList, sound⟩ := flowing.sound
  exact sound.work_le flowing.single

/-- Others change the children. -/
theorem Flowing.change (flowing : run.Flowing selfId) {children : Finset Wire.Bytes}
    (kept : selfId ∈ children → selfId ∈ run.zoo.children) :
    ({ run with zoo := run.zoo.change children } : AppRun).Flowing selfId := by
  obtain ⟨svrList, sound⟩ := flowing.sound
  exact ⟨flowing.served.setZoo rfl, ⟨svrList, sound.change children⟩, flowing.single,
    fun member => flowing.absent (kept member)⟩

theorem Flowing.process (flowing : run.Flowing selfId) {order : List Wire.Bytes} {zoo : ZooKeeper}
    (processed : run.zoo.process selfId order = some zoo) :
    ({ run with zoo } : AppRun).Flowing selfId := by
  obtain ⟨svrList, sound⟩ := flowing.sound
  have pending := ZooKeeper.process_pending processed
  refine ⟨flowing.served.setZoo pending, sound.process_flows processed, ?_, fun member => ?_⟩
  · rw [ZooKeeper.registrations_pending pending]
    exact flowing.single
  · obtain ⟨request, rest, taken, done⟩ := ZooKeeper.process_cases processed
    cases done with
    | created creates absent =>
        have ended := ZooKeeper.not_enrolling_created flowing.single taken creates .value
        refine ⟨?_, ended⟩
        by_contra unreported
        have none := sound.unreported (Bool.eq_false_of_not_eq_true unreported)
        rw [ZooKeeper.pending, taken] at none
        cases (List.append_eq_nil_iff.mp none).2
    | listed lists whole =>
        obtain ⟨reported, ended⟩ := flowing.absent member
        exact ⟨reported, fun enrolling => ended (ZooKeeper.enrolling_answer taken enrolling)⟩
    | watched creates lists whole =>
        obtain ⟨reported, ended⟩ := flowing.absent member
        exact ⟨reported, fun enrolling => ended (ZooKeeper.enrolling_answer taken enrolling)⟩

theorem Flowing.report (flowing : run.Flowing selfId) (first : run.reported = false)
    (stepped : AppRun.doTack garbage { run with reported := true } .registration now ptr =
      some next) : next.Flowing selfId := by
  obtain ⟨served, _, sameReported, coId, sameZoo⟩ :=
    (flowing.served.setReported true).doTack flowing.few stepped
  obtain ⟨svrList, sound⟩ := flowing.sound
  rw [first] at sound
  have nothing : run.zoo.registrations = 0 := by
    rw [ZooKeeper.registrations, sound.unreported rfl]
    rfl
  refine ⟨served, ⟨svrList, ?_⟩, ?_, fun member => ?_⟩
  · rw [sameReported, sameZoo]
    exact sound.report coId
  · rw [sameZoo]
    change (run.zoo.submit ⟨coId, .registerWatch⟩).registrations ≤ 1
    rw [ZooKeeper.registrations_submit, nothing]
    exact le_rfl
  · rw [sameZoo] at member
    obtain ⟨reported, _⟩ := flowing.absent member
    rw [first] at reported
    cases reported

theorem Flowing.complete (flowing : run.Flowing selfId) {completion : ZooCompletion}
    {completions : List ZooCompletion} (got : run.zoo.completions = completion :: completions)
    (woken : run.complete garbage now ptr = some next) : next.Flowing selfId := by
  obtain ⟨served, _, sameReported, sameZoo⟩ := flowing.served.complete got woken
  obtain ⟨svrList, sound⟩ := flowing.sound
  refine ⟨served, ⟨completion.store garbage svrList, ?_⟩, ?_, fun member => ?_⟩
  · rw [sameReported, sameZoo]
    exact sound.complete got garbage
  · rw [sameZoo]
    exact (ZooKeeper.registrations_follow_le got).trans flowing.single
  · rw [sameZoo, ZooKeeper.follow_children] at member
    obtain ⟨reported, ended⟩ := flowing.absent member
    rw [sameReported, sameZoo]
    exact ⟨reported, fun enrolling => ended (ZooKeeper.enrolling_follow got enrolling)⟩

theorem Flowing.watcher (flowing : run.Flowing selfId) {childEvents : Nat}
    (fired : run.zoo.childEvents = childEvents + 1)
    (made : AppRun.doTack garbage { run with zoo := { run.zoo with childEvents } } .getServers now
      ptr = some next) : next.Flowing selfId := by
  have ready : ({ run with zoo := { run.zoo with childEvents } } : AppRun).Served :=
    flowing.served.setZoo rfl
  obtain ⟨served, _, sameReported, coId, sameZoo⟩ := ready.doTack flowing.few made
  obtain ⟨svrList, sound⟩ := flowing.sound
  refine ⟨served, ⟨svrList, ?_⟩, ?_, fun member => ?_⟩
  · rw [sameReported, sameZoo]
    exact sound.watcher fired coId
  · rw [sameZoo]
    change (({ run.zoo with childEvents } : ZooKeeper).submit ⟨coId, .getChildren⟩).registrations ≤ 1
    rw [ZooKeeper.registrations_submit]
    exact flowing.single
  · rw [sameZoo] at member
    obtain ⟨reported, ended⟩ := flowing.absent member
    rw [sameReported, sameZoo]
    refine ⟨reported, fun enrolling => ended ?_⟩
    rcases enrolling with completed | ⟨request, inside, registers⟩
    · exact Or.inl completed
    · rcases List.mem_append.mp inside with old | new
      · exact Or.inr ⟨request, old, registers⟩
      · rw [List.mem_singleton.mp new] at registers
        cases registers

/-- Every step keeps the requests flowing while nobody else takes the name. -/
theorem Flowing.step (flowing : run.Flowing selfId) (foreign : Foreign selfId run act)
    (stepped : run.step selfId garbage act = some next) : next.Flowing selfId := by
  cases step_cases stepped with
  | report first made => exact flowing.report first made
  | join absent =>
      exact flowing.change fun member => Finset.mem_of_mem_insert_of_ne member foreign.symm
  | leave member => exact flowing.change Finset.mem_of_mem_erase
  | process processed => exact flowing.process processed
  | complete got woken => exact flowing.complete got woken
  | watcher fired made => exact flowing.watcher fired made
  | doTimeOutTask idle =>
      exact ⟨flowing.served.doTimeOutTask idle _, flowing.sound, flowing.single, flowing.absent⟩
  | proceed proceeded silent =>
      exact ⟨flowing.served.proceed proceeded silent, flowing.sound, flowing.single,
        flowing.absent⟩

section Progress

theorem observe_coTask (after : Option ZooCall) (event : CoEvent AppTask ZooMsg) :
    (run.observe garbage after event).coTask = run.coTask := by
  cases event with
  | started coId task => rfl
  | returned coId call ret wake msg =>
      rw [observe]
      split
      · rfl
      · rfl
  | yielded coId call => cases after <;> rfl
  | finished coId task => rfl

theorem record_coTask (after : Option ZooCall) (outcome : Outcome AppTask ZooMsg) :
    (run.record garbage after outcome).coTask = outcome.coTask := by
  have folded : ∀ (events : List (CoEvent AppTask ZooMsg)) (run : AppRun),
      (events.foldl (observe garbage after) run).coTask = run.coTask := by
    intro events
    induction events with
    | nil => exact fun _ => rfl
    | cons event events ih => exact fun run => (ih _).trans (observe_coTask after event)
  exact folded outcome.events _

theorem Served.doTack_mainCall (served : run.Served) (few : run.zoo.pending.length ≤ 4)
    {task : AppTask} (made : AppRun.doTack garbage run task now ptr = some next) :
    next.coTask.mainCall = run.coTask.mainCall := by
  obtain ⟨_, made⟩ := Option.ite_none_right_eq_some.mp made
  obtain ⟨outcome, resumed, rfl⟩ := Option.map_eq_some_iff.mp made
  have inactive := served.orderly.counted.nextCoId_inactive (served.bound few)
  have woken := (served.orderly.tidy.addTack task inactive).1.resumeOne_cases rfl
    (by rintro ⟨⟩) resumed
  rw [record_coTask, woken.mainCall, cancelTimer_mainCall]
  rfl

theorem Served.complete_mainCall (served : run.Served)
    (woken : run.complete garbage now ptr = some next) :
    next.coTask.mainCall = run.coTask.mainCall := by
  unfold AppRun.complete at woken
  split at woken
  · cases woken
  · obtain ⟨_, woken⟩ := Option.ite_none_right_eq_some.mp woken
    obtain ⟨outcome, resumed, rfl⟩ := Option.map_eq_some_iff.mp woken
    rw [record_coTask, (served.orderly.tidy.resumeOneWithMsg_cases resumed).mainCall,
      cancelTimer_mainCall]

/-- An own step is a step of ZooKeeper or of its client, and stays out of `DoTimeOutTask`. -/
theorem Served.ownStep (served : run.Served) (few : run.zoo.pending.length ≤ 4) (own : act.Own)
    (stepped : run.step selfId garbage act = some next) :
    run.zoo.OwnStep selfId next.zoo ∧ next.coTask.mainCall = run.coTask.mainCall ∧
      next.reported = run.reported := by
  cases step_cases stepped with
  | process processed => exact ⟨.process processed, rfl, rfl⟩
  | complete got woken =>
      obtain ⟨_, _, sameReported, sameZoo⟩ := served.complete got woken
      refine ⟨?_, served.complete_mainCall woken, sameReported⟩
      rw [sameZoo]
      exact .complete got
  | @watcher _ _ _ childEvents fired made =>
      have ready : ({ run with zoo := { run.zoo with childEvents } } : AppRun).Served :=
        served.setZoo rfl
      obtain ⟨_, _, sameReported, coId, sameZoo⟩ := ready.doTack few made
      refine ⟨?_, ready.doTack_mainCall few made, sameReported⟩
      rw [sameZoo]
      exact .watcher fired coId
  | report first made => cases own
  | join absent => cases own
  | leave member => cases own
  | doTimeOutTask idle => cases own
  | proceed proceeded silent => cases own

theorem process_isSome {zoo : ZooKeeper} {request : ZooRequest} {rest : List ZooRequest}
    (taken : zoo.requests = request :: rest)
    (free : request.call = .create → selfId ∉ zoo.children) :
    (zoo.process selfId zoo.children.toList).isSome := by
  unfold ZooKeeper.process
  rw [taken]
  dsimp only
  split_ifs with creates known whole lists
  · exact absurd known (free creates)
  · rfl
  · rfl
  · rfl
  · exact absurd ⟨zoo.children.nodup_toList, zoo.children.toList_toFinset⟩ whole

theorem segment_fits (fresh : ptr ∉ run.coTask.held) (after : Option ZooCall) :
    run.coTask.Fits (segment now ptr after) := by
  cases after with
  | none => trivial
  | some call => exact fresh

/-- The client can always deliver the first completion. -/
theorem Served.complete_isSome (served : run.Served) {completion : ZooCompletion}
    {completions : List ZooCompletion} (got : run.zoo.completions = completion :: completions)
    (idle : run.coTask.mainCall.isIdle = true) (fresh : ptr ∉ run.coTask.held) :
    (run.complete garbage now ptr).isSome := by
  obtain ⟨call, waiting, _⟩ := served.nextCall got
  obtain ⟨co, found, context⟩ := Option.bind_eq_some_iff.mp waiting
  obtain ⟨place, active, rfl⟩ := CoPool.found_eq_some.mp found
  have ready : (run.coTask.coPool.object place).context ≠ .unset := by
    intro unset
    rw [unset] at context
    cases context
  rw [AppRun.complete, got]
  dsimp only
  rw [if_pos idle, Option.isSome_map]
  exact resumeOneWithMsg_isSome served.orderly.tidy.keyed active ready (segment_fits fresh _)

theorem Served.watcher_isSome (served : run.Served) {childEvents : Nat}
    (fired : run.zoo.childEvents = childEvents + 1) (idle : run.coTask.mainCall.isIdle = true)
    (fresh : ptr ∉ run.coTask.held) : (run.watcher garbage now ptr).isSome := by
  rw [AppRun.watcher, fired]
  dsimp only
  rw [AppRun.doTack, if_pos idle, Option.isSome_map]
  exact doTack_isSome served.orderly _ (segment_fits fresh _)

/-- While something is in flight, an own step is possible. -/
theorem Served.goesOn (served : run.Served) (idle : run.coTask.mainCall.isIdle = true)
    (free : ∀ request ∈ run.zoo.requests, request.call = .create → selfId ∉ run.zoo.children)
    (garbage : List Wire.Bytes) :
    run.zoo.requests = [] ∧ run.zoo.completions = [] ∧ run.zoo.childEvents = 0 ∨
      ∃ act next, AppAct.Own act ∧ run.step selfId garbage act = some next := by
  obtain ⟨ptr, fresh⟩ := Infinite.exists_notMem_finset run.coTask.held.toFinset
  rw [List.mem_toFinset] at fresh
  cases taken : run.zoo.requests with
  | cons request rest =>
      obtain ⟨zoo, processed⟩ := Option.isSome_iff_exists.mp
        (process_isSome taken (free request (by simp [taken])))
      refine Or.inr ⟨.process run.zoo.children.toList, { run with zoo }, .process _, ?_⟩
      rw [step, processed]
      rfl
  | nil =>
      cases got : run.zoo.completions with
      | cons completion completions =>
          obtain ⟨next, woken⟩ := Option.isSome_iff_exists.mp
            (served.complete_isSome got idle fresh)
          exact Or.inr ⟨.complete 0 ptr, next, .complete 0 ptr, woken⟩
      | nil =>
          cases fired : run.zoo.childEvents with
          | zero => exact Or.inl ⟨rfl, rfl, rfl⟩
          | succ childEvents =>
              obtain ⟨next, made⟩ := Option.isSome_iff_exists.mp
                (served.watcher_isSome fired idle fresh)
              exact Or.inr ⟨.watcher 0 ptr, next, .watcher 0 ptr, made⟩

/-- Without requests nobody waits. -/
theorem Served.quiescent (served : run.Served) (reported : run.reported = true)
    (silent : run.zoo.requests = [] ∧ run.zoo.completions = [] ∧ run.zoo.childEvents = 0) :
    run.Quiescent := by
  obtain ⟨requests, completions, childEvents⟩ := silent
  refine ⟨reported, requests, completions, childEvents, fun coId => ?_⟩
  by_contra waits
  have owned := served.linked.owner coId waits
  rw [ZooKeeper.pending, requests, completions] at owned
  cases owned

end Progress

end AppRun

/-- Discovery comes to rest within 14 own steps, and it does not stop before. -/
theorem discovery_settles (selfId : Wire.Bytes) (garbage : List Wire.Bytes) :
    (appMachine selfId garbage).Always (Foreign selfId) fun run =>
      run.reported = true → run.coTask.mainCall.isIdle = true →
        (appMachine selfId garbage).Settles AppAct.Own AppRun.Quiescent 14 run := by
  have kept : ∀ run act next, run.Flowing selfId → Foreign selfId run act →
      (appMachine selfId garbage).step run act = some next → next.Flowing selfId :=
    fun run act next flowing foreign stepped => flowing.step foreign stepped
  refine Machine.always_of_invariant _ AppRun.Flowing.start kept fun run flowing reported idle => ?_
  have falls : ∀ run act next,
      (AppRun.Flowing selfId run ∧ run.reported = true ∧ run.coTask.mainCall.isIdle = true) →
      AppAct.Own act → (appMachine selfId garbage).step run act = some next →
      (next.Flowing selfId ∧ next.reported = true ∧ next.coTask.mainCall.isIdle = true) ∧
        next.zoo.work < run.zoo.work := by
    rintro run act next ⟨flowing, reported, idle⟩ own stepped
    have foreign : Foreign selfId run act := by cases own <;> trivial
    obtain ⟨moved, sameCall, sameReported⟩ := flowing.served.ownStep flowing.few own stepped
    exact ⟨⟨flowing.step foreign stepped, sameReported.trans reported, sameCall ▸ idle⟩,
      moved.work_lt⟩
  refine Machine.settles_of_measure falls ?_ ⟨flowing, reported, idle⟩ flowing.work_le
  rintro run ⟨flowing, reported, idle⟩
  have free : ∀ request ∈ run.zoo.requests, request.call = .create →
      selfId ∉ run.zoo.children := by
    intro request member creates known
    exact (flowing.absent known).2 (Or.inr ⟨request, member, by rw [creates]; rfl⟩)
  exact (flowing.served.goesOn idle free garbage).imp_left (flowing.served.quiescent reported)

/-- The server "a-1" registers, and "b-1" joins meanwhile. -/
def meanwhileRun : List AppAct := [.report 0 1, .process [], .join [98, 45, 49], .complete 0 2]

theorem discovery_settles_meanwhile : ∃ last, (appMachine [97, 45, 49] []).run
    (appMachine [97, 45, 49] []).start meanwhileRun = some last ∧ last.zoo.requests.length = 1 ∧
      (appMachine [97, 45, 49] []).Settles AppAct.Own AppRun.Quiescent 14 last := by
  have reached : ((appMachine [97, 45, 49] []).run (appMachine [97, 45, 49] []).start
      meanwhileRun).any (fun last => last.reported ∧ last.coTask.mainCall.isIdle ∧
        last.zoo.requests.length = 1) = true := by decide +kernel
  have met : (appMachine [97, 45, 49] []).Meets (Foreign [97, 45, 49])
      (appMachine [97, 45, 49] []).start meanwhileRun := by decide +kernel
  obtain ⟨last, reached, checked⟩ := Machine.exists_of_check _ reached
  obtain ⟨reported, idle, one⟩ := of_decide_eq_true checked
  exact ⟨last, reached, one,
    discovery_settles [97, 45, 49] [] meanwhileRun last reached met reported idle⟩

end QServer
