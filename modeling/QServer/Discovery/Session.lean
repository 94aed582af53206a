import QServer.Discovery.Requests
import QServer.Client.ClientBase

/-
This file models `AppBase` across the sessions of its ZooKeeper client.
-/

namespace QServer
open Transition CoTask Wire

namespace AppRun

variable (garbage : List Bytes) (run : AppRun)

/-- Without a connection, `ZooCmd` makes no request, and the task that gets a completion ends. -/
def completeCut : Option AppRun :=
  match run.zoo.completions with
  | [] => none
  | completion :: completions =>
      let taken := { run with zoo := { run.zoo with completions } }
      if run.coTask.mainCall.isIdle then
        (run.coTask.resumeOneWithMsg completion.request.coId completion.msg .finish).map
          (taken.record garbage none)
      else none

/-- Without a connection, `GetServers` gets no children. -/
def watcherCut : Option AppRun :=
  match run.zoo.childEvents with
  | 0 => none
  | childEvents + 1 =>
      let cleared :=
        { run with zoo := { run.zoo with childEvents }, svrList := getServers run.svrList [] }
      if run.coTask.mainCall.isIdle then
        (run.coTask.doTack .getServers .finish).map (cleared.record garbage none)
      else none

def cutStep (selfId : Bytes) : AppAct → Option AppRun
  | .complete _ _ => run.completeCut garbage
  | .watcher _ _ => run.watcherCut garbage
  | act => run.step selfId garbage act

/-- The call that ZooKeeper takes in the step. -/
def takes : AppAct → Option ZooCall
  | .process _ => run.zoo.requests.head?.map ZooRequest.call
  | _ => none

end AppRun

namespace ZooKeeper

/-- ZooKeeper removes the ephemeral node and the watch of an expired session. -/
def expire (zoo : ZooKeeper) (selfId : Bytes) (created : Bool) : ZooKeeper :=
  { zoo with
    children := if created then zoo.children.erase selfId else zoo.children
    childWatch := false }

/-- The child events of a closed handle are lost. -/
def close (zoo : ZooKeeper) : ZooKeeper := { zoo with childWatch := false, childEvents := 0 }

end ZooKeeper

/-- The process with its client, and a record of its sessions. -/
structure SessionRun where
  app : AppRun
  client : ZooKeeperClient
  -- The calls that ZooKeeper took in the current session, and the end of the one of `Init`.
  taken : List ZooCall
  ended : Bool

inductive SessionAct
  | app (act : AppAct)
  | event (event : ZooKeeperClient.SessionEvent)
  | check

namespace SessionRun

variable (selfId : Bytes) (garbage : List Bytes) (run : SessionRun)

/-- `ZooKeeperClient::Init` has returned true. -/
def start : SessionRun := ⟨AppRun.start, ⟨.kConnected, some 1⟩, [], false⟩

def connected : Bool := run.client.state = .kConnected

/-- A step of the process and of ZooKeeper in the current session. -/
def appStep (act : AppAct) : Option SessionRun :=
  (if run.connected then run.app.step selfId garbage act
    else run.app.cutStep garbage selfId act).map fun app =>
      { run with app, taken := run.taken ++ (run.app.takes act).toList }

/-- All requests succeed, so a session does not expire with one that is not taken. -/
def deliver (event : ZooKeeperClient.SessionEvent) : Option SessionRun :=
  let client := run.client.defaultWatcher event
  match event with
  | .expired =>
      if run.app.zoo.requests.isEmpty then some
        { app := { run.app with
            zoo := run.app.zoo.expire selfId (ZooCall.create ∈ run.taken) }
          client
          taken := []
          ended := true }
      else none
  | _ => some { run with client }

/-- A new handle begins a new session. `zookeeper_close` would fail the requests that are
pending. -/
def check : Option SessionRun :=
  let next := run.client.reconnect ()
  if next.2 then
    if run.app.zoo.pending.isEmpty then some
      { app := { run.app with zoo := run.app.zoo.close }
        client := next.1
        taken := []
        ended := true }
    else none
  else some { run with client := next.1 }

/-- The loop handles events and calls `Check` after `Init`, and not within a timer task. -/
def step : SessionAct → Option SessionRun
  | .app act => run.appStep selfId garbage act
  | .event event =>
      if run.app.reported && run.app.coTask.mainCall.isIdle then run.deliver selfId event else none
  | .check => if run.app.reported && run.app.coTask.mainCall.isIdle then run.check else none

/-- A connected client at rest has its node and a child watch in the session. -/
def Registered : Prop :=
  run.app.reported = true → run.client.state = .kConnected →
    (∀ coId, run.app.coTask.waits coId = none) →
      ZooCall.create ∈ run.taken ∧
        (ZooCall.registerWatch ∈ run.taken ∨ ZooCall.wGetChildRen ∈ run.taken)

end SessionRun

/-- The process with every order of its steps, session events and `Check` ticks. -/
def sessionMachine (selfId : Bytes) (garbage : List Bytes) : Machine SessionRun SessionAct :=
  ⟨SessionRun.start, fun run act => run.step selfId garbage act⟩

/-- No later session connects, and the client is connected when the first completion of the
registration comes. -/
def InFirstSession (run : SessionRun) : SessionAct → Prop
  | .app (.complete _ _) => run.ended = false →
      ∀ completion ∈ run.app.zoo.completions.head?,
        completion.request.call = .registerWatch → run.client.state = .kConnected
  | .event .connected => run.ended = false
  | _ => True

instance (run : SessionRun) : DecidablePred (InFirstSession run)
  | .app (.complete _ _) => inferInstanceAs (Decidable (run.ended = false →
      ∀ completion ∈ run.app.zoo.completions.head?,
        completion.request.call = .registerWatch → run.client.state = .kConnected))
  | .app (.report _ _) => isTrue trivial
  | .app (.join _) => isTrue trivial
  | .app (.leave _) => isTrue trivial
  | .app (.process _) => isTrue trivial
  | .app (.watcher _ _) => isTrue trivial
  | .app (.doTimeOutTask _) => isTrue trivial
  | .app .proceed => isTrue trivial
  | .event .connected => inferInstanceAs (Decidable (run.ended = false))
  | .event .connecting => isTrue trivial
  | .event .expired => isTrue trivial
  | .check => isTrue trivial

namespace ZooKeeperClient

variable {run next : LinkRun ZooKeeperClient}

/-- Session events leave the handle. -/
theorem deliverAll_zkhandle {events : List SessionEvent}
    (handled : events.foldlM zooKeeperClient.deliver run = some next) :
    next.client.zkhandle = run.client.zkhandle := by
  induction events generalizing run with
  | nil =>
      cases handled
      rfl
  | cons event rest ih =>
      obtain ⟨middle, delivered, handled⟩ := Option.bind_eq_some_iff.mp handled
      obtain ⟨link, _, rfl⟩ := Option.map_eq_some_iff.mp delivered
      rw [ih handled]
      cases event <;> rfl

theorem initLoop_connected {count : Nat} {batches : List (List SessionEvent)}
    (looped : initLoop count batches run = some (next, true)) :
    next.client = ⟨.kConnected, run.client.zkhandle⟩ := by
  induction count generalizing run batches with
  | zero => cases looped
  | succ count ih =>
      obtain ⟨middle, handled, looped⟩ := Option.bind_eq_some_iff.mp looped
      have same := deliverAll_zkhandle handled
      split_ifs at looped with connected
      · cases looped
        rw [← connected, ← same]
      · cases looped
      · rw [ih looped, same]

/-- A successful `Init` leaves the client as the process starts with it. -/
theorem init_start {value : ClientBase.State} {batches : List (List SessionEvent)}
    (connected : init value batches = some (next, true)) : next.client = SessionRun.start.client :=
  initLoop_connected connected

end ZooKeeperClient

namespace ZooKeeper

variable {zoo next : ZooKeeper} {reported : Bool} {request : ZooRequest}
  {completion : ZooCompletion} {completions : List ZooCompletion}

/-- At most one watch, event or request leads to the next watch. -/
structure Sparse (zoo : ZooKeeper) (reported : Bool) : Prop where
  apart : (zoo.pending.map ZooRequest.call).Pairwise ZooCall.Apart
  unreported : reported = false → zoo.pending = []
  pulses : zoo.pulses ≤ reported.toNat

theorem Sparse.empty : ZooKeeper.empty.Sparse false := by
  constructor
  · exact List.Pairwise.nil
  · intro _
    rfl
  · exact le_refl _

theorem Sparse.few (sparse : zoo.Sparse reported) : zoo.pending.length ≤ 4 := by
  simpa using ZooCall.length_le sparse.apart

/-- A step that changes no request keeps the chain if it adds no watch or event. -/
theorem Sparse.of_pending (sparse : zoo.Sparse reported) (same : next.pending = zoo.pending)
    (fewer : next.pulses ≤ zoo.pulses) : next.Sparse reported := by
  refine ⟨?_, ?_, fewer.trans sparse.pulses⟩
  · rw [same]
    exact sparse.apart
  · rw [same]
    exact sparse.unreported

theorem process_pulses {selfId : Bytes} {order : List Bytes}
    (processed : zoo.process selfId order = some next) : next.pulses ≤ zoo.pulses := by
  obtain ⟨request, rest, taken, done⟩ := process_cases processed
  have before : zoo.pulses = zoo.childWatch.toNat + zoo.childEvents + fetches zoo.completions +
      (leads rest + if request.call = .create then 0 else 1) := by
    rw [ZooKeeper.pulses, taken, leads_cons]
  cases done with
  | created creates absent =>
      rw [change_pulses, before]
      simp [ZooKeeper.pulses, answer, creates]
  | listed lists whole =>
      rw [before]
      simp [ZooKeeper.pulses, answer, lists]
      omega
  | watched creates lists whole =>
      rw [before]
      simp [ZooKeeper.pulses, answer, lists, creates]
      omega

theorem Sparse.process (sparse : zoo.Sparse reported) {selfId : Bytes} {order : List Bytes}
    (processed : zoo.process selfId order = some next) : next.Sparse reported :=
  sparse.of_pending (process_pending processed) (process_pulses processed)

/-- The registration makes the first request. -/
theorem Sparse.report (sparse : zoo.Sparse false) (coId : CoId) :
    (zoo.submit ⟨coId, .registerWatch⟩).Sparse true := by
  obtain ⟨completions, requests⟩ := List.append_eq_nil_iff.mp (sparse.unreported rfl)
  have quiet := sparse.pulses
  rw [ZooKeeper.pulses, requests, leads_nil] at quiet
  refine ⟨?_, ?_, ?_⟩
  · rw [pending, submit, requests, completions]
    exact List.pairwise_singleton _ _
  · rintro ⟨⟩
  · rw [ZooKeeper.pulses, submit, requests]
    simp at quiet ⊢
    omega

theorem Sparse.watcher (sparse : zoo.Sparse reported) {childEvents : Nat}
    (fired : zoo.childEvents = childEvents + 1) (coId : CoId) :
    (({ zoo with childEvents } : ZooKeeper).submit ⟨coId, .getChildren⟩).Sparse reported := by
  have one := sparse.pulses.trans (Bool.toNat_le reported)
  have other := unlisted one fired
  have chain := sparse.pulses
  rw [ZooKeeper.pulses, fired] at chain
  refine ⟨?_, ?_, ?_⟩
  · exact @apart_submit { zoo with childEvents } sparse.apart coId .getChildren
      fun call member => ZooCall.apart_getChildren (other call member)
  · rintro rfl
    rw [Bool.toNat_false] at chain
    omega
  · rw [ZooKeeper.pulses, submit]
    simp
    omega

/-- A child event without a connection is lost. -/
theorem Sparse.watcherCut (sparse : zoo.Sparse reported) {childEvents : Nat}
    (fired : zoo.childEvents = childEvents + 1) :
    ({ zoo with childEvents } : ZooKeeper).Sparse reported := by
  apply sparse.of_pending
  · rfl
  · rw [ZooKeeper.pulses, ZooKeeper.pulses, fired]
    dsimp only
    omega

theorem Sparse.complete (sparse : zoo.Sparse reported)
    (got : zoo.completions = completion :: completions) :
    (({ zoo with completions } : ZooKeeper).follow completion.request.coId
      completion.request.call.next).Sparse reported := by
  refine ⟨apart_follow sparse.apart got, ?_, ?_⟩
  · intro unreported
    have none := sparse.unreported unreported
    rw [pending_of_completions got] at none
    cases none
  · apply le_trans _ sparse.pulses
    rw [follow_pulses, ZooKeeper.pulses, ZooKeeper.pulses, got, fetches_cons]
    dsimp only
    omega

/-- A completion without a connection makes no further request. -/
theorem Sparse.completeCut (sparse : zoo.Sparse reported)
    (got : zoo.completions = completion :: completions) :
    ({ zoo with completions } : ZooKeeper).Sparse reported := by
  have apart := sparse.apart
  rw [pending_of_completions got, List.map_cons, List.pairwise_cons] at apart
  refine ⟨apart.2, ?_, ?_⟩
  · intro unreported
    have none := sparse.unreported unreported
    rw [pending_of_completions got] at none
    cases none
  · apply le_trans _ sparse.pulses
    rw [ZooKeeper.pulses, ZooKeeper.pulses, got, fetches_cons]
    dsimp only
    omega

theorem Sparse.expire (sparse : zoo.Sparse reported) (selfId : Bytes) (created : Bool) :
    (zoo.expire selfId created).Sparse reported := by
  apply sparse.of_pending
  · rfl
  · simp only [ZooKeeper.pulses, ZooKeeper.expire, Bool.toNat_false]
    omega

theorem Sparse.close (sparse : zoo.Sparse reported) : zoo.close.Sparse reported := by
  apply sparse.of_pending
  · rfl
  · simp only [ZooKeeper.pulses, ZooKeeper.close, Bool.toNat_false]
    omega

end ZooKeeper

namespace AppRun

variable {run next : AppRun} {garbage : List Bytes} {completion : ZooCompletion}
  {completions : List ZooCompletion}

/-- A task without a connection ends when it gets its completion. -/
theorem Served.completeCut (served : run.Served)
    (got : run.zoo.completions = completion :: completions)
    (stepped : run.completeCut garbage = some next) :
    next.Served ∧ next.reported = run.reported ∧ next.zoo = { run.zoo with completions } := by
  rw [AppRun.completeCut, got] at stepped
  dsimp only at stepped
  obtain ⟨_, stepped⟩ := Option.ite_none_right_eq_some.mp stepped
  obtain ⟨outcome, resumed, rfl⟩ := Option.map_eq_some_iff.mp stepped
  obtain ⟨last, recorded, left⟩ := served.returned got garbage none resumed
  have dropped := served.dropped got
  rw [recorded]
  cases left with
  | finished waits yields =>
      rw [← waits] at dropped
      exact ⟨⟨served.orderly.resumeOneWithMsg resumed, served.counted.trans yields.symm, dropped⟩,
        rfl, rfl⟩

/-- A `GetServers` without a connection ends at once. -/
theorem Served.watcherCut (served : run.Served) (few : run.zoo.pending.length ≤ 4)
    {childEvents : Nat} (fired : run.zoo.childEvents = childEvents + 1)
    (stepped : run.watcherCut garbage = some next) :
    next.Served ∧ next.reported = run.reported ∧ next.zoo = { run.zoo with childEvents } := by
  rw [AppRun.watcherCut, fired] at stepped
  dsimp only at stepped
  obtain ⟨_, stepped⟩ := Option.ite_none_right_eq_some.mp stepped
  obtain ⟨outcome, resumed, rfl⟩ := Option.map_eq_some_iff.mp stepped
  have free := served.free few
  obtain ⟨_, last, events, left⟩ := served.orderly.resting.doTack .getServers resumed
  rw [record, events]
  cases left with
  | finished waits yields =>
      rw [← free, Function.update_eq_self] at waits
      refine ⟨⟨served.orderly.doTack .getServers (served.bound few) resumed, ?_, ?_⟩, rfl, rfl⟩
      · exact served.counted.trans yields.symm
      · have linked := served.linked
        rw [← waits] at linked
        exact linked

end AppRun

end QServer
