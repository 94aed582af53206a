import QServer.Discovery.Requests

/-
This file proves when the server list follows the children of "/online_servers".
-/

namespace QServer
open Transition CoTask

/-- No request, completion or child event is in flight, and no coroutine waits. -/
def AppRun.Quiescent (run : AppRun) : Prop :=
  run.reported = true ∧ run.zoo.requests = [] ∧ run.zoo.completions = [] ∧
    run.zoo.childEvents = 0 ∧ ∀ coId, run.coTask.waits coId = none

/-- When ZooKeeper takes the `WGetChildRen` of `GetServers`, the children with a type are those
that it listed for `GetChildren`. -/
def Unmissed (run : AppRun) : AppAct → Prop
  | .process _ => ∀ request, run.zoo.requests.head? = some request →
      request.call = .wGetChildRen →
        SvrList.typedNames run.zoo.listed = SvrList.typedNames run.zoo.children
  | _ => True

instance (run : AppRun) : DecidablePred (Unmissed run)
  | .report _ _ => isTrue trivial
  | .join _ => isTrue trivial
  | .leave _ => isTrue trivial
  | .process _ => inferInstanceAs (Decidable (∀ request ∈ run.zoo.requests.head?,
      request.call = .wGetChildRen →
        SvrList.typedNames run.zoo.listed = SvrList.typedNames run.zoo.children))
  | .complete _ _ => isTrue trivial
  | .watcher _ _ => isTrue trivial
  | .doTimeOutTask _ => isTrue trivial
  | .proceed => isTrue trivial

namespace AppRun

variable {run next : AppRun} {garbage : List Wire.Bytes} {now : Time} {ptr : Addr}

/-- The coroutines are served, and ZooKeeper and the server list fit together. -/
structure Synced (run : AppRun) : Prop where
  served : run.Served
  sound : run.zoo.Sound run.svrList run.reported

theorem Synced.start : AppRun.start.Synced := ⟨Served.start, ZooKeeper.Sound.empty⟩

theorem Synced.few (synced : run.Synced) : run.zoo.pending.length ≤ 4 := by
  simpa using ZooCall.length_le synced.sound.apart

/-- ZooKeeper alone changes no request of a coroutine. -/
theorem Synced.setZoo (synced : run.Synced) {zoo : ZooKeeper}
    (pending : zoo.pending = run.zoo.pending) (sound : zoo.Sound run.svrList run.reported) :
    ({ run with zoo } : AppRun).Synced :=
  ⟨synced.served.setZoo pending, sound⟩

theorem Synced.report (synced : run.Synced) (first : run.reported = false)
    (stepped : AppRun.doTack garbage { run with reported := true } .registration now ptr =
      some next) : next.Synced := by
  obtain ⟨served, sameList, sameReported, coId, sameZoo⟩ :=
    (synced.served.setReported true).doTack synced.few stepped
  have sound := synced.sound
  rw [first] at sound
  refine ⟨served, ?_⟩
  rw [sameList, sameReported, sameZoo]
  exact sound.report coId

theorem Synced.complete (synced : run.Synced) {completion : ZooCompletion}
    {completions : List ZooCompletion} (got : run.zoo.completions = completion :: completions)
    (woken : run.complete garbage now ptr = some next) : next.Synced := by
  obtain ⟨served, sameList, sameReported, sameZoo⟩ := synced.served.complete got woken
  refine ⟨served, ?_⟩
  rw [sameList, sameReported, sameZoo]
  exact synced.sound.complete got garbage

theorem Synced.watcher (synced : run.Synced) {childEvents : Nat}
    (fired : run.zoo.childEvents = childEvents + 1)
    (made : AppRun.doTack garbage { run with zoo := { run.zoo with childEvents } } .getServers now
      ptr = some next) : next.Synced := by
  have ready : ({ run with zoo := { run.zoo with childEvents } } : AppRun).Served :=
    synced.served.setZoo rfl
  obtain ⟨served, sameList, sameReported, coId, sameZoo⟩ := ready.doTack synced.few made
  refine ⟨served, ?_⟩
  rw [sameList, sameReported, sameZoo]
  exact synced.sound.watcher fired coId

/-- A step that misses no change keeps the list in step with ZooKeeper. -/
theorem Synced.step (synced : run.Synced) {selfId : Wire.Bytes} {act : AppAct}
    (unmissed : Unmissed run act) (stepped : run.step selfId garbage act = some next) :
    next.Synced := by
  cases step_cases stepped with
  | report first made => exact synced.report first made
  | join absent => exact synced.setZoo rfl (synced.sound.change _)
  | leave member => exact synced.setZoo rfl (synced.sound.change _)
  | process processed =>
      exact synced.setZoo (ZooKeeper.process_pending processed)
        (synced.sound.process unmissed processed)
  | complete got woken => exact synced.complete got woken
  | watcher fired made => exact synced.watcher fired made
  | doTimeOutTask idle => exact ⟨synced.served.doTimeOutTask idle _, synced.sound⟩
  | proceed proceeded silent => exact ⟨synced.served.proceed proceeded silent, synced.sound⟩

/-- When all is quiet there is a watch, and a watched list is right. -/
theorem Synced.quiescent (synced : run.Synced) (quiescent : run.Quiescent) :
    run.svrList.Holds run.zoo.children := by
  obtain ⟨reported, requests, completions, childEvents, _⟩ := quiescent
  have one := synced.sound.pulses
  rw [ZooKeeper.pulses, requests, completions, childEvents, reported] at one
  have armed : run.zoo.childWatch = true := by
    cases watch : run.zoo.childWatch with
    | true => rfl
    | false =>
        rw [watch] at one
        cases one
  rcases synced.sound.armed armed with registering | holds
  · exact absurd registering (ZooKeeper.not_registering completions requests)
  · exact holds

end AppRun

/-- The server list converges while no change falls between the two requests of `GetServers`. -/
theorem discovery_converges (selfId : Wire.Bytes) (garbage : List Wire.Bytes) :
    (appMachine selfId garbage).Always Unmissed
      fun run => run.Quiescent → run.svrList.Holds run.zoo.children := by
  have kept : ∀ run act next, run.Synced → Unmissed run act →
      (appMachine selfId garbage).step run act = some next → next.Synced :=
    fun run act next synced unmissed stepped => synced.step unmissed stepped
  exact Machine.always_of_invariant _ AppRun.Synced.start kept fun run synced quiescent =>
    synced.quiescent quiescent

/-- Nothing is in flight, and no coroutine is active. -/
def AppRun.quiet (run : AppRun) : Bool :=
  run.reported ∧ run.zoo.requests.isEmpty ∧ run.zoo.completions.isEmpty ∧
    run.zoo.childEvents = 0 ∧ run.coTask.coPool.actionCoroutine = ∅

theorem AppRun.quiescent_of_quiet {run : AppRun} (quiet : run.quiet = true) :
    run.Quiescent := by
  obtain ⟨reported, requests, completions, childEvents, inactive⟩ := of_decide_eq_true quiet
  exact ⟨reported, List.isEmpty_iff.mp requests, List.isEmpty_iff.mp completions, childEvents,
    CoTask.waits_of_inactive inactive⟩

/-- The server "a-1" registers, and "b-1" joins when all is quiet. -/
def quietJoinRun : List AppAct :=
  [.report 0 1, .process [], .complete 0 2, .process [], .complete 0 3, .watcher 0 4,
    .process [[97, 45, 49]], .complete 0 5, .process [[97, 45, 49]], .complete 0 6,
    .join [98, 45, 49], .watcher 0 7, .process [[97, 45, 49], [98, 45, 49]], .complete 0 8,
    .process [[97, 45, 49], [98, 45, 49]], .complete 0 9]

theorem discovery_converges_quiet : ∃ last, (appMachine [97, 45, 49] []).run
    (appMachine [97, 45, 49] []).start quietJoinRun = some last ∧ last.zoo.children.card = 2 ∧
      last.svrList.Holds last.zoo.children := by
  have reached : ((appMachine [97, 45, 49] []).run (appMachine [97, 45, 49] []).start
      quietJoinRun).any (fun last => last.quiet && decide (last.zoo.children.card = 2)) =
        true := by decide +kernel
  have met : (appMachine [97, 45, 49] []).Meets Unmissed (appMachine [97, 45, 49] []).start
      quietJoinRun := by decide +kernel
  obtain ⟨last, reached, checked⟩ := Machine.exists_of_check _ reached
  obtain ⟨quiet, two⟩ := (Bool.and_eq_true _ _).mp checked
  exact ⟨last, reached, of_decide_eq_true two, discovery_converges [97, 45, 49] [] quietJoinRun last
    reached met (AppRun.quiescent_of_quiet quiet)⟩

/-- The server "a-1" registers, and "b-1" joins after `GetChildren` and before `WGetChildRen`. -/
def missedJoinRun : List AppAct :=
  [.report 0 1, .process [], .complete 0 2, .process [], .complete 0 3, .watcher 0 4,
    .process [[97, 45, 49]], .complete 0 5, .join [98, 45, 49],
    .process [[97, 45, 49], [98, 45, 49]], .complete 0 6]

/-- All is quiet, and the server list differs from the children. -/
def AppRun.missed (run : AppRun) : Bool :=
  run.quiet && decide (run.svrList.svrSet ≠ SvrList.typedNames run.zoo.children)

theorem AppRun.not_converged {run : AppRun} (missed : run.missed = true) :
    run.Quiescent ∧ ¬run.svrList.Holds run.zoo.children := by
  obtain ⟨quiet, differs⟩ := (Bool.and_eq_true _ _).mp missed
  exact ⟨quiescent_of_quiet quiet, fun holds => of_decide_eq_true differs holds.2⟩

theorem missedJoin_stays :
    ¬(appMachine [97, 45, 49] []).Always Machine.anyStep
      fun run => run.Quiescent → run.svrList.Holds run.zoo.children := by
  intro always
  have reached : (((appMachine [97, 45, 49] []).run (appMachine [97, 45, 49] []).start
      missedJoinRun).any AppRun.missed) = true := by decide +kernel
  obtain ⟨last, reached, missed⟩ := Machine.exists_of_check _ reached
  obtain ⟨quiescent, differs⟩ := AppRun.not_converged missed
  exact differs (always missedJoinRun last reached (Machine.meets_anyStep _ _ _) quiescent)

end QServer
