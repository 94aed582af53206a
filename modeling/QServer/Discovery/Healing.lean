import QServer.Discovery.Settling

/-
This file proves that the next change repairs a server list that has missed one.
-/

namespace QServer
open Transition CoTask

/-- The children change. -/
inductive AppAct.Changes : AppAct → Prop
  | join (name : Wire.Bytes) : Changes (.join name)
  | leave (name : Wire.Bytes) : Changes (.leave name)

namespace ZooKeeper

variable {zoo next : ZooKeeper} {svrList : SvrList} {reported : Bool}
  {completion : ZooCompletion} {completions : List ZooCompletion}

/-- The registration has ended, and what is listed for a `GetServers` on its way are the children. -/
structure Repairing (zoo : ZooKeeper) : Prop where
  registered : ∀ request ∈ zoo.pending, request.call.registers = false
  fresh : zoo.listed = zoo.children ∨ fetches zoo.completions = 0 ∧
    ∀ request ∈ zoo.requests, request.call ≠ .wGetChildRen

/-- When nothing is in flight, a change that is watched starts the repair. -/
theorem Sound.changed (sound : zoo.Sound svrList reported) (completions : zoo.completions = [])
    (requests : zoo.requests = []) (children : Finset Wire.Bytes) (other : SvrList) :
    (zoo.change children).Sound other reported ∧ (zoo.change children).Repairing := by
  have changed := sound.change children
  have answered : (zoo.change children).completions = [] := completions
  have asked : (zoo.change children).requests = [] := requests
  refine ⟨⟨changed.apart, changed.unreported, changed.pulses, ?_, ?_, ?_⟩, ?_, Or.inr ⟨?_, ?_⟩⟩
  · simp [answered]
  · simp [asked]
  · rintro ⟨⟩
  · simp [ZooKeeper.pending, answered, asked]
  · rw [answered]
    rfl
  · simp [asked]

/-- While the repair goes on, a new watch misses nothing. -/
theorem Repairing.unmissed (repairing : zoo.Repairing) {request : ZooRequest}
    (first : zoo.requests.head? = some request) (rearms : request.call = .wGetChildRen) :
    zoo.listed = zoo.children := by
  rcases repairing.fresh with same | ⟨_, others⟩
  · exact same
  · exact absurd rearms (others request (List.mem_of_head? first))

theorem Repairing.process (repairing : zoo.Repairing) {selfId : Wire.Bytes}
    {order : List Wire.Bytes} (processed : zoo.process selfId order = some next) :
    next.Repairing := by
  have registered : ∀ request ∈ next.pending, request.call.registers = false := by
    rw [process_pending processed]
    exact repairing.registered
  obtain ⟨request, rest, taken, done⟩ := process_cases processed
  refine ⟨registered, ?_⟩
  cases done with
  | created creates absent =>
      have ended := repairing.registered request (by simp [pending, taken])
      rw [creates] at ended
      cases ended
  | listed lists whole => exact Or.inl rfl
  | watched creates lists whole =>
      rcases repairing.fresh with same | ⟨unfetched, others⟩
      · exact Or.inl same
      · refine Or.inr ⟨?_, fun other member => ?_⟩
        · change fetches (zoo.completions ++ [_]) = 0
          rw [fetches_append, unfetched, fetches_cons, if_neg lists]
          rfl
        · exact others other (by rw [taken]; exact List.mem_cons_of_mem _ member)

theorem Repairing.complete (repairing : zoo.Repairing)
    (got : zoo.completions = completion :: completions) :
    (({ zoo with completions } : ZooKeeper).follow completion.request.coId
      completion.request.call.next).Repairing := by
  have ended := repairing.registered completion.request (by simp [pending, got])
  refine ⟨fun request member => ?_, ?_⟩
  · rw [follow_pending, List.mem_append] at member
    rcases member with old | new
    · refine repairing.registered request ?_
      rw [pending_of_completions got]
      exact List.mem_cons_of_mem _ old
    · obtain ⟨call, follows, rfl⟩ := Option.map_eq_some_iff.mp (Option.mem_toList.mp new)
      refine Bool.eq_false_of_not_eq_true fun registers => ?_
      rw [ZooCall.eq_registerWatch follows registers] at ended
      cases ended
  · rw [follow_listed, follow_children, follow_completions, follow_requests]
    rcases repairing.fresh with same | ⟨unfetched, others⟩
    · exact Or.inl same
    · rw [got, fetches_cons] at unfetched
      have unlisted : completion.request.call ≠ .getChildren := by
        intro lists
        rw [if_pos lists] at unfetched
        cases unfetched
      rw [if_neg unlisted] at unfetched
      refine Or.inr ⟨unfetched, fun request member => ?_⟩
      rcases List.mem_append.mp member with old | new
      · exact others request old
      · obtain ⟨call, follows, rfl⟩ := Option.map_eq_some_iff.mp (Option.mem_toList.mp new)
        intro rearms
        change call = .wGetChildRen at rearms
        subst rearms
        exact unlisted (ZooCall.next_eq_wGetChildRen follows)

theorem Repairing.watcher (repairing : zoo.Repairing) (childEvents : Nat) (coId : CoId) :
    (({ zoo with childEvents } : ZooKeeper).submit ⟨coId, .getChildren⟩).Repairing := by
  refine ⟨fun request member => ?_, ?_⟩
  · change request ∈ zoo.completions.map ZooCompletion.request ++
      (zoo.requests ++ [⟨coId, .getChildren⟩]) at member
    rw [← List.append_assoc] at member
    rcases List.mem_append.mp member with old | new
    · exact repairing.registered request old
    · rw [List.mem_singleton.mp new]
      rfl
  · rcases repairing.fresh with same | ⟨unfetched, others⟩
    · exact Or.inl same
    · refine Or.inr ⟨unfetched, fun request member => ?_⟩
      rcases List.mem_append.mp member with old | new
      · exact others request old
      · rw [List.mem_singleton.mp new]
        rintro ⟨⟩

theorem Repairing.ownStep (repairing : zoo.Repairing) {selfId : Wire.Bytes}
    (moved : zoo.OwnStep selfId next) : next.Repairing := by
  cases moved with
  | process processed => exact repairing.process processed
  | complete got => exact repairing.complete got
  | watcher fired coId => exact repairing.watcher _ coId

end ZooKeeper

namespace AppRun

variable {run next : AppRun} {selfId : Wire.Bytes} {garbage : List Wire.Bytes} {act : AppAct}

/-- The list is in step with ZooKeeper, and the repair goes on. -/
structure Healing (run : AppRun) : Prop where
  synced : run.Synced
  repairing : run.zoo.Repairing
  reported : run.reported = true
  idle : run.coTask.mainCall.isIdle = true

theorem Healing.step (healing : run.Healing) (own : act.Own)
    (stepped : run.step selfId garbage act = some next) :
    next.Healing ∧ next.zoo.work < run.zoo.work := by
  have served := healing.synced.served
  have few := healing.synced.few
  obtain ⟨moved, sameCall, sameReported⟩ := served.ownStep few own stepped
  have unmissed : Unmissed run act := by
    cases own with
    | process order =>
        intro request first rearms
        rw [healing.repairing.unmissed first rearms]
    | complete now ptr => trivial
    | watcher now ptr => trivial
  exact ⟨⟨healing.synced.step unmissed stepped, healing.repairing.ownStep moved,
    sameReported.trans healing.reported, sameCall ▸ healing.idle⟩, moved.work_lt⟩

/-- The repair goes on until the list is right. -/
theorem Healing.goesOn (healing : run.Healing) (selfId : Wire.Bytes) (garbage : List Wire.Bytes) :
    (run.Quiescent ∧ run.svrList.Holds run.zoo.children) ∨
      ∃ act next, AppAct.Own act ∧ run.step selfId garbage act = some next := by
  have free : ∀ request ∈ run.zoo.requests, request.call = .create →
      selfId ∉ run.zoo.children := by
    intro request member creates
    have ended := healing.repairing.registered request (List.mem_append_right _ member)
    rw [creates] at ended
    cases ended
  refine (healing.synced.served.goesOn healing.idle free garbage).imp_left fun silent => ?_
  have quiescent := healing.synced.served.quiescent healing.reported silent
  exact ⟨quiescent, healing.synced.quiescent quiescent⟩

/-- Whatever was missed before, the change that comes when all is quiet starts a repair. -/
theorem Flowing.heals (flowing : run.Flowing selfId) (quiescent : run.Quiescent)
    (idle : run.coTask.mainCall.isIdle = true) (changes : act.Changes)
    (stepped : run.step selfId garbage act = some next) :
    next.Healing ∧ next.zoo.work = 5 := by
  obtain ⟨svrList, sound⟩ := flowing.sound
  obtain ⟨reported, requests, completions, childEvents, _⟩ := quiescent
  have armed : run.zoo.childWatch = true := by
    have one := sound.pulses
    rw [ZooKeeper.pulses, requests, completions, childEvents, reported] at one
    cases watch : run.zoo.childWatch with
    | true => rfl
    | false =>
        rw [watch] at one
        cases one
  have started : ∀ children,
      ({ run with zoo := run.zoo.change children } : AppRun).Healing ∧
        (run.zoo.change children).work = 5 := by
    intro children
    obtain ⟨changed, repairing⟩ := sound.changed completions requests children run.svrList
    refine ⟨⟨⟨flowing.served.setZoo rfl, changed⟩, repairing, reported, idle⟩, ?_⟩
    simp [ZooKeeper.work, ZooKeeper.change, requests, completions, childEvents, armed]
  cases step_cases stepped with
  | join absent => exact started _
  | leave member => exact started _
  | process processed => cases changes
  | complete got woken => cases changes
  | watcher fired made => cases changes
  | report first made => cases changes
  | doTimeOutTask idle => cases changes
  | proceed proceeded silent => cases changes

end AppRun

/-- A change that comes when all is quiet makes the list right in 5 own steps. -/
theorem discovery_heals (selfId : Wire.Bytes) (garbage : List Wire.Bytes) :
    (appMachine selfId garbage).Always (Foreign selfId) fun run =>
      run.Quiescent → run.coTask.mainCall.isIdle = true →
        ∀ act next, AppAct.Changes act → (appMachine selfId garbage).step run act = some next →
          (appMachine selfId garbage).Settles AppAct.Own
            (fun last => last.Quiescent ∧ last.svrList.Holds last.zoo.children) 5 next := by
  have kept : ∀ run act next, run.Flowing selfId → Foreign selfId run act →
      (appMachine selfId garbage).step run act = some next → next.Flowing selfId :=
    fun run act next flowing foreign stepped => flowing.step foreign stepped
  refine Machine.always_of_invariant _ AppRun.Flowing.start kept
    fun run flowing quiescent idle act next changes stepped => ?_
  obtain ⟨healing, work⟩ := flowing.heals quiescent idle changes stepped
  have falls : ∀ run act next, AppRun.Healing run → AppAct.Own act →
      (appMachine selfId garbage).step run act = some next →
      next.Healing ∧ next.zoo.work < run.zoo.work :=
    fun run act next healing own stepped => healing.step own stepped
  exact Machine.settles_of_measure falls (fun run healing => healing.goesOn selfId garbage) healing
    work.le

theorem discovery_heals_missed : ∃ last next, (appMachine [97, 45, 49] []).run
    (appMachine [97, 45, 49] []).start missedJoinRun = some last ∧
      ¬last.svrList.Holds last.zoo.children ∧
      (appMachine [97, 45, 49] []).step last (.join [99, 45, 49]) = some next ∧
      (appMachine [97, 45, 49] []).Settles AppAct.Own
        (fun last => last.Quiescent ∧ last.svrList.Holds last.zoo.children) 5 next := by
  have reached : ((appMachine [97, 45, 49] []).run (appMachine [97, 45, 49] []).start
      missedJoinRun).any (fun last => last.missed && last.coTask.mainCall.isIdle &&
        ((appMachine [97, 45, 49] []).step last (.join [99, 45, 49])).isSome) = true := by
    decide +kernel
  have met : (appMachine [97, 45, 49] []).Meets (Foreign [97, 45, 49])
      (appMachine [97, 45, 49] []).start missedJoinRun := by decide +kernel
  obtain ⟨last, reached, checked⟩ := Machine.exists_of_check _ reached
  obtain ⟨checked, joins⟩ := (Bool.and_eq_true _ _).mp checked
  obtain ⟨missed, idle⟩ := (Bool.and_eq_true _ _).mp checked
  obtain ⟨next, stepped⟩ := Option.isSome_iff_exists.mp joins
  obtain ⟨quiescent, differs⟩ := AppRun.not_converged missed
  exact ⟨last, next, reached, differs, stepped, discovery_heals [97, 45, 49] [] missedJoinRun last
    reached met quiescent idle _ next (.join _) stepped⟩

/-- The run that misses "b-1" goes on when "c-1" joins. -/
def healedRun : List AppAct :=
  missedJoinRun ++ [.join [99, 45, 49], .watcher 0 7,
    .process [[97, 45, 49], [98, 45, 49], [99, 45, 49]], .complete 0 8,
    .process [[97, 45, 49], [98, 45, 49], [99, 45, 49]], .complete 0 9]

example : ((appMachine [97, 45, 49] []).run (appMachine [97, 45, 49] []).start healedRun).map
    (fun run => (run.zoo.work, decide (run.svrList.svrSet = SvrList.typedNames run.zoo.children))) =
      some (0, true) := by
  decide +kernel

end QServer
