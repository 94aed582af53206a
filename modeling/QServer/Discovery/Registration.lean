import QServer.Client.Reconnect
import QServer.Discovery.Session

/-
This file proves when a server stays registered in the current session.
-/

namespace QServer
open Transition CoTask Wire

namespace ZooKeeper

variable {zoo next : ZooKeeper} {taken : List ZooCall} {completion : ZooCompletion}
  {completions : List ZooCompletion}

/-- The registration has asked for its watch, or it has the watch and goes on to its node. -/
def Enrolled (zoo : ZooKeeper) (taken : List ZooCall) : Prop :=
  (∃ request ∈ zoo.requests, request.call = .registerWatch) ∨
    ZooCall.registerWatch ∈ taken ∧ (zoo.Registering ∨ ZooCall.create ∈ taken)

/-- More requests and completions keep the registration going. -/
theorem Enrolled.mono (enrolled : zoo.Enrolled taken)
    (requests : zoo.requests ⊆ next.requests) (completions : zoo.completions ⊆ next.completions) :
    next.Enrolled taken := by
  rcases enrolled with ⟨request, member, registers⟩ | ⟨watched, registering | created⟩
  · exact Or.inl ⟨request, requests member, registers⟩
  · refine Or.inr ⟨watched, Or.inl ?_⟩
    rcases registering with ⟨completion, member, registers⟩ | ⟨request, member, creates⟩
    · exact Or.inl ⟨completion, completions member, registers⟩
    · exact Or.inr ⟨request, requests member, creates⟩
  · exact Or.inr ⟨watched, Or.inr created⟩

theorem enrolled_submit (coId : CoId) : (zoo.submit ⟨coId, .registerWatch⟩).Enrolled taken :=
  Or.inl ⟨_, List.mem_append_right _ (List.mem_singleton_self _), rfl⟩

/-- ZooKeeper takes the first request and answers it. -/
theorem process_answers {selfId : Bytes} {order : List Bytes}
    (processed : zoo.process selfId order = some next) :
    ∃ request msg, zoo.requests = request :: next.requests ∧
      next.completions = zoo.completions ++ [⟨request, msg⟩] := by
  obtain ⟨request, rest, taken, done⟩ := process_cases processed
  cases done with
  | created creates absent => exact ⟨request, .value, taken, rfl⟩
  | listed lists whole => exact ⟨request, .strings order, taken, rfl⟩
  | watched creates lists whole => exact ⟨request, .strings order, taken, rfl⟩

/-- The call that ZooKeeper takes brings the registration one step on. -/
theorem Enrolled.process (enrolled : zoo.Enrolled taken) {selfId : Bytes} {order : List Bytes}
    (processed : zoo.process selfId order = some next) :
    next.Enrolled (taken ++ (zoo.requests.head?.map ZooRequest.call).toList) := by
  obtain ⟨request, msg, first, answered⟩ := process_answers processed
  rw [first, List.head?_cons, Option.map_some, Option.toList_some]
  have answer : (⟨request, msg⟩ : ZooCompletion) ∈ next.completions := by simp [answered]
  rcases enrolled with ⟨other, member, registers⟩ | ⟨watched, registering | created⟩
  · rw [first] at member
    rcases List.mem_cons.mp member with rfl | later
    · refine Or.inr ⟨by simp [registers], Or.inl (Or.inl ⟨_, answer, registers⟩)⟩
    · exact Or.inl ⟨other, later, registers⟩
  · refine Or.inr ⟨List.mem_append_left _ watched, ?_⟩
    rcases registering with ⟨earlier, member, registers⟩ | ⟨other, member, creates⟩
    · refine Or.inl (Or.inl ⟨earlier, ?_, registers⟩)
      rw [answered]
      exact List.mem_append_left _ member
    · rw [first] at member
      rcases List.mem_cons.mp member with rfl | later
      · exact Or.inr (by simp [creates])
      · exact Or.inl (Or.inr ⟨other, later, creates⟩)
  · exact Or.inr ⟨List.mem_append_left _ watched, Or.inr (List.mem_append_left _ created)⟩

/-- The task that got the first completion of the registration asks for the node. -/
theorem Enrolled.complete (enrolled : zoo.Enrolled taken)
    (got : zoo.completions = completion :: completions) :
    (({ zoo with completions } : ZooKeeper).follow completion.request.coId
      completion.request.call.next).Enrolled taken := by
  rcases enrolled with ⟨request, member, registers⟩ | ⟨watched, registering | created⟩
  · refine Or.inl ⟨request, ?_, registers⟩
    rw [follow_requests]
    exact List.mem_append_left _ member
  · exact Or.inr ⟨watched, Or.inl (registering.follow got)⟩
  · exact Or.inr ⟨watched, Or.inr created⟩

/-- A completion without a connection ends no registration but one that waits for its watch. -/
theorem Enrolled.completeCut (enrolled : zoo.Enrolled taken)
    (got : zoo.completions = completion :: completions)
    (other : completion.request.call ≠ .registerWatch) :
    ({ zoo with completions } : ZooKeeper).Enrolled taken := by
  rcases enrolled with requested | ⟨watched, registering | created⟩
  · exact Or.inl requested
  · refine Or.inr ⟨watched, Or.inl ?_⟩
    rcases registering with ⟨earlier, member, registers⟩ | requested
    · rw [got] at member
      rcases List.mem_cons.mp member with rfl | later
      · exact absurd registers other
      · exact Or.inl ⟨earlier, later, registers⟩
    · exact Or.inr requested
  · exact Or.inr ⟨watched, Or.inr created⟩

end ZooKeeper

namespace AppRun

variable {run next : AppRun} {selfId : Bytes} {garbage : List Bytes} {taken : List ZooCall}

/-- The coroutines are served, and few requests wait. -/
structure Steady (run : AppRun) : Prop where
  served : run.Served
  sparse : run.zoo.Sparse run.reported

/-- The registration of a process that has reported itself goes on. -/
def Enrolled (run : AppRun) (taken : List ZooCall) : Prop :=
  run.reported = true → run.zoo.Enrolled taken

theorem Enrolled.grow (enrolled : run.Enrolled taken) (reported : next.reported = run.reported)
    (requests : run.zoo.requests ⊆ next.zoo.requests)
    (completions : run.zoo.completions ⊆ next.zoo.completions) : next.Enrolled (taken ++ []) := by
  intro known
  rw [List.append_nil]
  rw [reported] at known
  exact (enrolled known).mono requests completions

theorem Steady.setZoo (steady : run.Steady) {zoo : ZooKeeper}
    (pending : zoo.pending = run.zoo.pending) (sparse : zoo.Sparse run.reported) :
    ({ run with zoo } : AppRun).Steady :=
  ⟨steady.served.setZoo pending, sparse⟩

theorem Steady.change (steady : run.Steady) (children : Finset Bytes) :
    ({ run with zoo := run.zoo.change children } : AppRun).Steady :=
  steady.setZoo rfl (steady.sparse.of_pending rfl (ZooKeeper.change_pulses children).le)

theorem Steady.report (steady : run.Steady) {now : Time} {ptr : Addr}
    (first : run.reported = false)
    (made : AppRun.doTack garbage { run with reported := true } .registration now ptr = some next) :
    next.Steady ∧ next.Enrolled taken := by
  obtain ⟨served, _, sameReported, coId, sameZoo⟩ :=
    (steady.served.setReported true).doTack steady.sparse.few made
  have sparse := steady.sparse
  rw [first] at sparse
  refine ⟨⟨served, ?_⟩, fun _ => ?_⟩
  · rw [sameReported, sameZoo]
    exact sparse.report coId
  · rw [sameZoo]
    exact ZooKeeper.enrolled_submit coId

theorem Steady.complete (steady : run.Steady) {completion : ZooCompletion}
    {completions : List ZooCompletion} (got : run.zoo.completions = completion :: completions)
    {now : Time} {ptr : Addr} (woken : run.complete garbage now ptr = some next) :
    next.Steady ∧ (run.Enrolled taken → next.Enrolled (taken ++ [])) := by
  obtain ⟨served, _, sameReported, sameZoo⟩ := steady.served.complete got woken
  refine ⟨⟨served, ?_⟩, fun enrolled reported => ?_⟩
  · rw [sameReported, sameZoo]
    exact steady.sparse.complete got
  · rw [sameReported] at reported
    rw [sameZoo, List.append_nil]
    exact (enrolled reported).complete got

theorem Steady.watcher (steady : run.Steady) {childEvents : Nat}
    (fired : run.zoo.childEvents = childEvents + 1) {now : Time} {ptr : Addr}
    (made : AppRun.doTack garbage { run with zoo := { run.zoo with childEvents } } .getServers now
      ptr = some next) :
    next.Steady ∧ (run.Enrolled taken → next.Enrolled (taken ++ [])) := by
  have ready : ({ run with zoo := { run.zoo with childEvents } } : AppRun).Served :=
    steady.served.setZoo rfl
  obtain ⟨served, _, sameReported, coId, sameZoo⟩ := ready.doTack steady.sparse.few made
  refine ⟨⟨served, ?_⟩, fun enrolled => enrolled.grow sameReported ?_ ?_⟩
  · rw [sameReported, sameZoo]
    exact steady.sparse.watcher fired coId
  · rw [sameZoo]
    exact List.subset_append_left _ _
  · rw [sameZoo]
    exact List.Subset.refl _

/-- A step with a connection keeps the registration going. -/
theorem Steady.step (steady : run.Steady) {act : AppAct}
    (stepped : run.step selfId garbage act = some next) :
    next.Steady ∧ (run.Enrolled taken → next.Enrolled (taken ++ (run.takes act).toList)) := by
  -- These steps leave the requests and the completions as they are.
  have quiet : next.reported = run.reported → next.zoo.requests = run.zoo.requests →
      next.zoo.completions = run.zoo.completions → run.Enrolled taken →
      next.Enrolled (taken ++ []) := by
    intro sameReported sameRequests sameCompletions enrolled
    apply enrolled.grow sameReported
    · rw [sameRequests]
      exact List.Subset.refl _
    · rw [sameCompletions]
      exact List.Subset.refl _
  cases step_cases stepped with
  | report first made =>
      have reported : next.Steady ∧ next.Enrolled (taken ++ []) := steady.report first made
      exact ⟨reported.1, fun _ => reported.2⟩
  | join absent => exact ⟨steady.change _, quiet rfl rfl rfl⟩
  | leave member => exact ⟨steady.change _, quiet rfl rfl rfl⟩
  | process processed =>
      refine ⟨steady.setZoo (ZooKeeper.process_pending processed) (steady.sparse.process processed),
        fun enrolled reported => ?_⟩
      exact (enrolled reported).process processed
  | complete got woken => exact steady.complete got woken
  | watcher fired made => exact steady.watcher fired made
  | doTimeOutTask idle =>
      exact ⟨⟨steady.served.doTimeOutTask idle _, steady.sparse⟩, quiet rfl rfl rfl⟩
  | proceed proceeded silent =>
      exact ⟨⟨steady.served.proceed proceeded silent, steady.sparse⟩, quiet rfl rfl rfl⟩

/-- The registration does not get the completion of its watch without a connection. -/
def Unbroken (run : AppRun) : AppAct → Prop
  | .complete _ _ => ∀ completion ∈ run.zoo.completions.head?,
      completion.request.call ≠ .registerWatch
  | _ => True

theorem Steady.completeCut (steady : run.Steady)
    (stepped : run.completeCut garbage = some next) :
    next.Steady ∧ ((∀ completion ∈ run.zoo.completions.head?,
        completion.request.call ≠ .registerWatch) →
      run.Enrolled taken → next.Enrolled (taken ++ [])) := by
  cases got : run.zoo.completions with
  | nil =>
      rw [AppRun.completeCut, got] at stepped
      cases stepped
  | cons completion completions =>
      obtain ⟨served, sameReported, sameZoo⟩ := steady.served.completeCut got stepped
      refine ⟨⟨served, ?_⟩, fun unbroken enrolled reported => ?_⟩
      · rw [sameReported, sameZoo]
        exact steady.sparse.completeCut got
      · rw [sameReported] at reported
        rw [sameZoo, List.append_nil]
        exact (enrolled reported).completeCut got (unbroken completion rfl)

theorem Steady.watcherCut (steady : run.Steady) (stepped : run.watcherCut garbage = some next) :
    next.Steady ∧ (run.Enrolled taken → next.Enrolled (taken ++ [])) := by
  cases fired : run.zoo.childEvents with
  | zero =>
      rw [AppRun.watcherCut, fired] at stepped
      cases stepped
  | succ childEvents =>
      obtain ⟨served, sameReported, sameZoo⟩ :=
        steady.served.watcherCut steady.sparse.few fired stepped
      refine ⟨⟨served, ?_⟩, fun enrolled => enrolled.grow sameReported ?_ ?_⟩
      · rw [sameReported, sameZoo]
        exact steady.sparse.watcherCut fired
      · rw [sameZoo]
        exact List.Subset.refl _
      · rw [sameZoo]
        exact List.Subset.refl _

/-- A step without a connection keeps an unbroken registration going. -/
theorem Steady.cutStep (steady : run.Steady) {act : AppAct}
    (stepped : run.cutStep garbage selfId act = some next) :
    next.Steady ∧ (run.Unbroken act → run.Enrolled taken →
      next.Enrolled (taken ++ (run.takes act).toList)) := by
  have same : run.step selfId garbage act = some next →
      next.Steady ∧ (run.Unbroken act → run.Enrolled taken →
        next.Enrolled (taken ++ (run.takes act).toList)) := by
    intro stepped
    obtain ⟨kept, enrolled⟩ := steady.step stepped
    exact ⟨kept, fun _ => enrolled⟩
  cases act with
  | complete now ptr => exact steady.completeCut stepped
  | watcher now ptr =>
      obtain ⟨kept, enrolled⟩ := steady.watcherCut stepped
      exact ⟨kept, fun _ => enrolled⟩
  | _ => exact same stepped

end AppRun

namespace SessionRun

variable {run next : SessionRun} {selfId : Bytes} {garbage : List Bytes}

/-- In the first session the registration goes on, and no later session is connected. -/
structure Kept (run : SessionRun) : Prop where
  steady : run.app.Steady
  first : run.client.state = .kConnected → run.ended = false
  enrolled : run.ended = false → run.app.Enrolled run.taken

theorem Kept.start : start.Kept := by
  refine ⟨⟨AppRun.Served.start, ZooKeeper.Sparse.empty⟩, fun _ => rfl, fun _ reported => ?_⟩
  cases reported

theorem Kept.app (kept : run.Kept) {act : AppAct} (inside : InFirstSession run (.app act))
    (stepped : run.appStep selfId garbage act = some next) : next.Kept := by
  obtain ⟨app, ran, rfl⟩ := Option.map_eq_some_iff.mp stepped
  cases connected : run.connected with
  | true =>
      rw [connected, if_pos rfl] at ran
      obtain ⟨steady, enrolled⟩ := kept.steady.step ran
      exact ⟨steady, kept.first, fun first => enrolled (kept.enrolled first)⟩
  | false =>
      rw [connected, if_neg Bool.false_ne_true] at ran
      obtain ⟨steady, enrolled⟩ := kept.steady.cutStep ran
      refine ⟨steady, kept.first, fun first => enrolled ?_ (kept.enrolled first)⟩
      cases act with
      | complete now ptr =>
          intro completion member registers
          have still := inside first completion member registers
          rw [SessionRun.connected, still] at connected
          cases connected
      | _ => trivial

theorem Kept.deliver (kept : run.Kept) {event : ZooKeeperClient.SessionEvent}
    (inside : InFirstSession run (.event event))
    (stepped : run.deliver selfId event = some next) : next.Kept := by
  cases event with
  | connected =>
      cases stepped
      exact ⟨kept.steady, fun _ => inside, kept.enrolled⟩
  | connecting =>
      cases stepped
      refine ⟨kept.steady, fun connected => ?_, kept.enrolled⟩
      cases connected
  | expired =>
      obtain ⟨_, same⟩ := Option.ite_none_right_eq_some.mp stepped
      cases same
      refine ⟨kept.steady.setZoo rfl (kept.steady.sparse.expire _ _), fun connected => ?_,
        fun first => ?_⟩
      · cases connected
      · cases first

/-- A new session starts without a connection. -/
theorem Kept.check (kept : run.Kept) (stepped : run.check = some next) : next.Kept := by
  unfold SessionRun.check at stepped
  rcases run.client.reconnect_cases () with ⟨_, same⟩ | ⟨asks, opened⟩
  · rw [same] at stepped
    cases stepped
    exact kept
  · rw [opened] at stepped
    obtain ⟨_, renewed⟩ := Option.ite_none_right_eq_some.mp stepped
    cases renewed
    refine ⟨kept.steady.setZoo rfl kept.steady.sparse.close, fun connected => ?_, fun first => ?_⟩
    · have still : run.client.state = .kConnected := connected
      rw [still] at asks
      cases asks
    · cases first

theorem Kept.step (kept : run.Kept) {act : SessionAct} (inside : InFirstSession run act)
    (stepped : run.step selfId garbage act = some next) : next.Kept := by
  cases act with
  | app act => exact kept.app inside stepped
  | event event =>
      obtain ⟨_, stepped⟩ := Option.ite_none_right_eq_some.mp stepped
      exact kept.deliver inside stepped
  | check =>
      obtain ⟨_, stepped⟩ := Option.ite_none_right_eq_some.mp stepped
      exact kept.check stepped

/-- When no coroutine waits, the registration is at its end. -/
theorem Kept.registered (kept : run.Kept) : run.Registered := by
  intro reported connected idle
  have nothing : run.app.zoo.pending = [] := by
    apply List.eq_nil_iff_forall_not_mem.mpr
    intro request member
    obtain ⟨call, waiting, _⟩ := kept.steady.served.linked.waiting request member
    rw [idle request.coId] at waiting
    cases waiting
  obtain ⟨completions, requests⟩ := List.append_eq_nil_iff.mp nothing
  have completions := List.map_eq_nil_iff.mp completions
  rcases kept.enrolled (kept.first connected) reported with
    ⟨_, member, _⟩ | ⟨watched, registering | created⟩
  · rw [requests] at member
    cases member
  · exact absurd registering (ZooKeeper.not_registering completions requests)
  · exact ⟨created, Or.inl watched⟩

end SessionRun

/-- The server stays registered in its first session if its registration stays connected. -/
theorem registered_in_first_session (selfId : Bytes) (garbage : List Bytes) :
    (sessionMachine selfId garbage).Always InFirstSession SessionRun.Registered := by
  have kept : ∀ run act next, run.Kept → InFirstSession run act →
      (sessionMachine selfId garbage).step run act = some next → next.Kept :=
    fun run act next held inside stepped => held.step inside stepped
  exact Machine.always_of_invariant _ SessionRun.Kept.start kept fun run held => held.registered

/-- The server registers, and then its connection breaks and comes back. -/
def reconnectedRun : List SessionAct :=
  [.app (.report 0 1), .app (.process []), .app (.complete 0 2), .app (.process []),
    .app (.complete 0 3), .event .connecting, .check, .event .connected]

theorem registered_in_first_session_again : ∃ last, (sessionMachine [97, 45, 49] []).run
    (sessionMachine [97, 45, 49] []).start reconnectedRun = some last ∧
      ZooCall.create ∈ last.taken ∧
        (ZooCall.registerWatch ∈ last.taken ∨ ZooCall.wGetChildRen ∈ last.taken) := by
  have reached : ((sessionMachine [97, 45, 49] []).run (sessionMachine [97, 45, 49] []).start
      reconnectedRun).any (fun last => last.app.reported ∧ last.client.state = .kConnected ∧
        last.app.coTask.coPool.actionCoroutine = ∅) = true := by decide +kernel
  have met : (sessionMachine [97, 45, 49] []).Meets InFirstSession
      (sessionMachine [97, 45, 49] []).start reconnectedRun := by decide +kernel
  obtain ⟨last, reached, checked⟩ := Machine.exists_of_check _ reached
  obtain ⟨reported, connected, inactive⟩ := of_decide_eq_true checked
  exact ⟨last, reached, registered_in_first_session [97, 45, 49] [] reconnectedRun last reached met
    reported connected (CoTask.waits_of_inactive inactive)⟩

/-- The server registers, and then its session expires and a `Check` tick opens a new one. -/
def expiredRun : List SessionAct :=
  [.app (.report 0 1), .app (.process []), .app (.complete 0 2), .app (.process []),
    .app (.complete 0 3), .event .expired, .check, .event .connected]

/-- The client is connected and nobody waits, and no call was taken in the session. -/
def SessionRun.forgotten (run : SessionRun) : Bool :=
  run.app.reported ∧ run.client.state = .kConnected ∧
    run.app.coTask.coPool.actionCoroutine = ∅ ∧ run.taken = []

theorem SessionRun.not_registered {run : SessionRun} (forgotten : run.forgotten = true) :
    ¬run.Registered := by
  obtain ⟨reported, connected, inactive, nothing⟩ := of_decide_eq_true forgotten
  intro registered
  have created := (registered reported connected (CoTask.waits_of_inactive inactive)).1
  rw [nothing] at created
  cases created

theorem expiredRun_forgets :
    ¬(sessionMachine [97, 45, 49] []).Always Machine.anyStep SessionRun.Registered := by
  intro always
  have reached : ((sessionMachine [97, 45, 49] []).run (sessionMachine [97, 45, 49] []).start
      expiredRun).any SessionRun.forgotten = true := by decide +kernel
  obtain ⟨last, reached, forgotten⟩ := Machine.exists_of_check _ reached
  exact SessionRun.not_registered forgotten
    (always expiredRun last reached (Machine.meets_anyStep _ _ _))

end QServer
