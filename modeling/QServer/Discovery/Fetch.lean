import QServer.Discovery.WatchChain
import QServer.Client.ClientBase

/-
This file proves what `GetServers` leaves in the server list after each outcome of its first
request.
-/

namespace QServer
open Transition CoTask Wire

/-- The pointer of `ResumeOneWithMsg`, which can be `nullptr`. -/
abbrev ZooPtr := Option ZooMsg

/-- `ZOK` is 0. -/
def ZooKeeperClient.svDataCompletion (rc : Int) (strings : List Bytes) : ZooPtr :=
  if rc = 0 then some (.strings strings) else none

def ZooKeeperClient.sDataCompletion (rc : Int) : ZooPtr := if rc = 0 then some .value else none

/-- The calls of `ZooCmd` in the task, in their order. -/
def AppTask.calls : AppTask → List ZooCall
  | .registration => [.registerWatch, .create]
  | .getServers => [.getChildren, .wGetChildRen]

/-- What `ZooCmd` gets from `State` and from the functions of the library while a task runs. -/
structure ZooEnv where
  state : ClientBase.State
  zRet : ZooCall → Int

/-- The call gets to its `Yield`. -/
def ZooEnv.sends (env : ZooEnv) (call : ZooCall) : Bool :=
  env.state = .kConnected && env.zRet call = 0

/-- The task goes on to the first of its calls that gets to its `Yield`, or to its end. -/
def ZooEnv.next (env : ZooEnv) (calls : List ZooCall) : Option ZooCall := calls.find? env.sends

/-- The outcomes of the first request of `GetServers`. -/
inductive FirstRequest
  | notConnected
  | refused (zRet : Int)
  | timedOut
  | completed (rc : Int) (strings : List Bytes)

/-- The children of a completion with `ZOK`. -/
def FirstRequest.received : FirstRequest → Option (List Bytes)
  | .completed rc strings => if rc = 0 then some strings else none
  | _ => none

/-- The outcome of a request that is not sent. -/
def ZooEnv.unsent (env : ZooEnv) : FirstRequest :=
  if env.state = .kConnected then .refused (env.zRet .getChildren) else .notConnected

/-- The passage of one `GetServers` between its two requests. It is not part of the source. -/
structure Fetch where
  first : FirstRequest
  before : SvrList
  after : SvrList

/-- The list is unchanged without a completion with `ZOK`, and holds its children with one. -/
def Fetch.Kept (fetch : Fetch) : Prop :=
  match fetch.first.received with
  | none => fetch.after = fetch.before
  | some children => fetch.after.Holds children.toFinset

/-- The coroutines of `AppBase` beside the server list. The calls are listed in the order of their
`Yield`. -/
structure FetchRun where
  coTask : CoTask AppTask ZooPtr
  svrList : SvrList
  calls : List ZooCall
  fetches : List Fetch

namespace FetchRun

variable (garbage : List Bytes) (env : ZooEnv) (run : FetchRun)

/-- `GetServers` clears the list and adds what `GetChildren` returned. -/
def pass (first : FirstRequest) (root : List Bytes) : FetchRun :=
  let after := getServers run.svrList root
  { run with svrList := after, fetches := run.fetches ++ [⟨first, run.svrList, after⟩] }

/-- What the running task does at a switch, with the outcome of the call that ends in it. -/
def observe (first : FirstRequest) (next : Option ZooCall) (run : FetchRun) :
    CoEvent AppTask ZooPtr → FetchRun
  | .started _ task =>
      match task with
      | some .getServers => if env.sends .getChildren then run else run.pass env.unsent []
      | _ => run
  | .returned _ call ret _ msg =>
      if run.calls[call.number]? = some .getChildren then
        run.pass first (ZooCmd.getChildren garbage ret msg.join)
      else run
  | .yielded _ _ => { run with calls := run.calls ++ next.toList }
  | .finished _ _ => run

def record (first : FirstRequest) (next : Option ZooCall) (outcome : Outcome AppTask ZooPtr) :
    FetchRun :=
  outcome.events.foldl (observe garbage env first next) { run with coTask := outcome.coTask }

/-- `Yield` waits 5000 ms by default. -/
def segment (now : Time) (ptr : Addr) : Option ZooCall → Segment
  | some _ => .yield now 5000 ptr
  | none => .finish

/-- The call in which the coroutine waits. -/
def waitsIn (coId : CoId) : Option ZooCall :=
  (run.coTask.waits coId).bind fun call => run.calls[call.number]?

/-- The call that the task under the `co_id` makes after it is woken. -/
def nextCall (coId : CoId) : Option ZooCall :=
  env.next ((run.waitsIn coId).bind ZooCall.next).toList

def doTack (task : AppTask) (now : Time) (ptr : Addr) : Option FetchRun :=
  if run.coTask.mainCall.isIdle then
    (run.coTask.doTack task (segment now ptr (env.next task.calls))).map
      (run.record garbage env env.unsent (env.next task.calls))
  else none

/-- A string completion ends a `Create`, and a string vector completion the other calls. -/
def completion (coId : CoId) (rc : Int) (strings : List Bytes) : ZooPtr :=
  if run.waitsIn coId = some .create then ZooKeeperClient.sDataCompletion rc
  else ZooKeeperClient.svDataCompletion rc strings

/-- The completion of the request in whose `Yield` the coroutine waits. -/
def complete (coId : CoId) (rc : Int) (strings : List Bytes) (now : Time) (ptr : Addr) :
    Option FetchRun :=
  if run.coTask.mainCall.isIdle then
    (run.coTask.resumeOneWithMsg coId (run.completion coId rc strings)
      (segment now ptr (run.nextCall env coId))).map
        (run.record garbage env (.completed rc strings) (run.nextCall env coId))
  else none

/-- The next turn of `DoTimeOutTask`, which can end a `Yield`. -/
def proceed (now : Time) (ptr : Addr) : Option FetchRun :=
  let next := (run.coTask.mainCall.rest.head?.map fun node => node.info.task.coId).bind
    (run.nextCall env)
  (run.coTask.proceed (segment now ptr next)).map (run.record garbage env .timedOut next)

end FetchRun

/-- The events of the process: a task of `Init` or `Watcher`, a completion and the timer. -/
inductive FetchAct
  | doTack (task : AppTask) (env : ZooEnv) (now : Time) (ptr : Addr)
  | complete (coId : CoId) (rc : Int) (strings : List Bytes) (env : ZooEnv) (now : Time)
      (ptr : Addr)
  | doTimeOutTask (now : Time)
  | proceed (env : ZooEnv) (now : Time) (ptr : Addr)

def FetchRun.step (garbage : List Bytes) (run : FetchRun) : FetchAct → Option FetchRun
  | .doTack task env now ptr => run.doTack garbage env task now ptr
  | .complete coId rc strings env now ptr => run.complete garbage env coId rc strings now ptr
  | .doTimeOutTask now =>
      if run.coTask.mainCall.isIdle then
        some { run with coTask := run.coTask.doTimeOutTask now }
      else none
  | .proceed env now ptr => run.proceed garbage env now ptr

/-- The process that starts with any server list. -/
def fetchMachine (svrList : SvrList) (garbage : List Bytes) : Machine FetchRun FetchAct :=
  ⟨⟨CoTask.empty, svrList, [], []⟩, fun run act => run.step garbage act⟩

/-- The list after a fetch depends on the children of a completion with `ZOK` only. -/
def Fetch.Stores (fetch : Fetch) : Prop :=
  fetch.after = getServers fetch.before (fetch.first.received.getD [])

theorem getServers_nil (svrList : SvrList) : getServers svrList [] = SvrList.empty := rfl

/-- A fetch is right if it received children or had nothing to lose. -/
theorem Fetch.Stores.kept_iff {fetch : Fetch} (stores : fetch.Stores) :
    fetch.Kept ↔ fetch.first.received.isSome ∨ fetch.before = SvrList.empty := by
  unfold Fetch.Stores at stores
  unfold Fetch.Kept
  cases received : fetch.first.received with
  | none =>
      rw [received, Option.getD_none, getServers_nil] at stores
      dsimp only
      rw [stores, Option.isSome_none, eq_comm]
      simp
  | some children =>
      rw [received, Option.getD_some] at stores
      have holds := getServers_holds fetch.before children
      rw [← stores] at holds
      simp [holds]

theorem ZooEnv.unsent_received (env : ZooEnv) : env.unsent.received = none := by
  unfold ZooEnv.unsent
  split_ifs <;> rfl

/-- A string vector completion gives the children to `GetChildren`. -/
theorem getChildren_completion (garbage : List Bytes) (rc : Int) (strings : List Bytes) :
    ZooCmd.getChildren garbage 0 (ZooKeeperClient.svDataCompletion rc strings) =
      ((FirstRequest.completed rc strings).received.getD []) := by
  rw [ZooCmd.getChildren, if_pos rfl, ZooKeeperClient.svDataCompletion, FirstRequest.received]
  split_ifs with ok
  · rfl
  · rfl

namespace FetchRun

variable {run next : FetchRun} {garbage : List Bytes} {env : ZooEnv} {now : Time} {ptr : Addr}
  {first : FirstRequest} {after : Option ZooCall}

/-- Every fetch so far stored what it received. -/
def Stored (run : FetchRun) : Prop := ∀ fetch ∈ run.fetches, fetch.Stores

theorem Stored.pass (stored : run.Stored) {root : List Bytes}
    (whole : root = first.received.getD []) : (run.pass first root).Stored := by
  intro fetch member
  rcases List.mem_append.mp member with old | new
  · exact stored fetch old
  · rw [List.mem_singleton.mp new, Fetch.Stores, whole]

/-- The last event of a switch is no fetch. -/
theorem Stored.left (stored : run.Stored) {base later : CoTask AppTask ZooPtr} {coId : CoId}
    {segment : Segment} {last : CoEvent AppTask ZooPtr} (left : Left base coId segment later last) :
    (run.observe garbage env first after last).Stored := by
  cases left with
  | yielded waits yields => exact stored
  | finished waits yields => exact stored

/-- A new `GetServers` passes its first request at once if it is not sent. -/
theorem Stored.started (stored : run.Stored) (coId : CoId) (task : Option AppTask) :
    (run.observe garbage env env.unsent after (.started coId task)).Stored := by
  unfold observe
  dsimp only
  split
  · split_ifs
    · exact stored
    · apply stored.pass
      rw [env.unsent_received, Option.getD_none]
  · exact stored

/-- A call of `GetChildren` returns what its outcome received. -/
theorem Stored.returned (stored : run.Stored) {coId : CoId} {call : YieldCall} {ret : Int}
    {wake : Wake ZooPtr} {msg : Option ZooPtr}
    (whole : run.calls[call.number]? = some .getChildren →
      ZooCmd.getChildren garbage ret msg.join = first.received.getD []) :
    (run.observe garbage env first after (.returned coId call ret wake msg)).Stored := by
  unfold observe
  dsimp only
  split_ifs with lists
  · exact stored.pass (whole lists)
  · exact stored

theorem observe_coTask (event : CoEvent AppTask ZooPtr) :
    (run.observe garbage env first after event).coTask = run.coTask := by
  unfold observe
  split
  · split
    · split_ifs <;> rfl
    · rfl
  · split_ifs <;> rfl
  · rfl
  · rfl

/-- The coroutines wait, and every fetch so far stored what it received. -/
structure Faithful (run : FetchRun) : Prop where
  resting : run.coTask.Resting
  stored : run.Stored

/-- A switch keeps the fetches right if its first event does. -/
theorem Faithful.record {outcome : Outcome AppTask ZooPtr} {base : CoTask AppTask ZooPtr}
    {coId : CoId} {segment : Segment} {one last : CoEvent AppTask ZooPtr}
    (resting : outcome.coTask.Resting) (events : outcome.events = [one, last])
    (left : Left base coId segment outcome.coTask last)
    (entered : (({ run with coTask := outcome.coTask } : FetchRun).observe garbage env first after
      one).Stored) : (run.record garbage env first after outcome).Faithful := by
  rw [FetchRun.record, events, List.foldl_cons, List.foldl_cons, List.foldl_nil]
  refine ⟨?_, entered.left left⟩
  rw [observe_coTask, observe_coTask]
  exact resting

/-- Without an event the coroutines alone change. -/
theorem Faithful.silent (faithful : run.Faithful) {outcome : Outcome AppTask ZooPtr}
    (resting : outcome.coTask.Resting) (silent : outcome.events = []) :
    (run.record garbage env first after outcome).Faithful := by
  rw [FetchRun.record, silent, List.foldl_nil]
  exact ⟨resting, faithful.stored⟩

theorem Faithful.doTack (faithful : run.Faithful) {task : AppTask}
    (stepped : run.doTack garbage env task now ptr = some next) : next.Faithful := by
  obtain ⟨_, stepped⟩ := Option.ite_none_right_eq_some.mp stepped
  obtain ⟨outcome, resumed, rfl⟩ := Option.map_eq_some_iff.mp stepped
  obtain ⟨resting, last, events, left⟩ := faithful.resting.doTack task resumed
  apply Faithful.record resting events left
  apply Stored.started
  exact faithful.stored

theorem Faithful.complete (faithful : run.Faithful) {coId : CoId} {rc : Int}
    {strings : List Bytes}
    (stepped : run.complete garbage env coId rc strings now ptr = some next) : next.Faithful := by
  obtain ⟨_, stepped⟩ := Option.ite_none_right_eq_some.mp stepped
  obtain ⟨outcome, resumed, rfl⟩ := Option.map_eq_some_iff.mp stepped
  obtain ⟨resting, ⟨_, silent, _⟩ | ⟨call, last, waiting, events, left⟩⟩ :=
    faithful.resting.resumeOneWithMsg resumed
  · exact faithful.silent resting silent
  · apply Faithful.record resting events left
    apply Stored.returned
    · exact faithful.stored
    · -- The coroutine waits in `GetChildren`, so its completion is one of a string vector.
      intro lists
      have inside : run.waitsIn coId = some .getChildren := by
        rw [waitsIn, waiting, Option.bind_some]
        exact lists
      rw [Option.join_some, completion, inside, if_neg (by decide)]
      exact getChildren_completion garbage rc strings

theorem Faithful.proceed (faithful : run.Faithful)
    (stepped : run.proceed garbage env now ptr = some next) : next.Faithful := by
  obtain ⟨outcome, proceeded, rfl⟩ := Option.map_eq_some_iff.mp stepped
  obtain ⟨resting, ⟨silent, _⟩ | ⟨_, _, _, _, _, last, _, events, left⟩⟩ :=
    faithful.resting.proceed proceeded
  · exact faithful.silent resting silent
  · apply Faithful.record resting events left
    apply Stored.returned
    · exact faithful.stored
    · intro _
      rfl

theorem Faithful.step (faithful : run.Faithful) {act : FetchAct}
    (stepped : run.step garbage act = some next) : next.Faithful := by
  cases act with
  | doTack task env now ptr => exact faithful.doTack stepped
  | complete coId rc strings env now ptr => exact faithful.complete stepped
  | doTimeOutTask now =>
      obtain ⟨_, turned⟩ := Option.ite_none_right_eq_some.mp stepped
      cases turned
      exact ⟨faithful.resting.doTimeOutTask now, faithful.stored⟩
  | proceed env now ptr => exact faithful.proceed stepped

theorem Faithful.of_run {svrList : SvrList} {acts : List FetchAct} {last : FetchRun}
    (reached : (fetchMachine svrList garbage).run (fetchMachine svrList garbage).start acts =
      some last) : last.Faithful := by
  have initial : (fetchMachine svrList garbage).start.Faithful := by
    refine ⟨Resting.empty, fun fetch member => ?_⟩
    cases member
  have kept : ∀ run act next, run.Faithful →
      (fetchMachine svrList garbage).step run act = some next → next.Faithful :=
    fun run act next faithful stepped => faithful.step stepped
  exact Machine.run_invariant _ kept initial reached

end FetchRun

/-- A fetch keeps its promise if and only if it received children or found an empty list. -/
theorem fetch_kept_iff (svrList : SvrList) (garbage : List Bytes) (acts : List FetchAct)
    (last : FetchRun)
    (reached : (fetchMachine svrList garbage).run (fetchMachine svrList garbage).start acts =
      some last) :
    ∀ fetch ∈ last.fetches,
      (fetch.Kept ↔ fetch.first.received.isSome ∨ fetch.before = SvrList.empty) := by
  intro fetch member
  have faithful := FetchRun.Faithful.of_run reached
  exact (faithful.stored fetch member).kept_iff

/-- ZooKeeper takes every request. -/
def ZooEnv.connected : ZooEnv := ⟨.kConnected, fun _ => 0⟩

/-- The server list holds "a-1" only. -/
def oneServer : SvrList := SvrList.empty.addSvr [97, 45, 49]

/-- A `GetServers` gets "b-1" and a name without a type, and a second one times out. -/
def lateFetchRun : List FetchAct :=
  [.doTack .getServers .connected 0 1, .complete 1 0 [[98, 45, 49], [99]] .connected 0 2,
    .complete 1 0 [] .connected 0 3, .doTack .getServers .connected 0 4, .doTimeOutTask 5000,
    .proceed .connected 5000 5, .proceed .connected 5000 5, .proceed .connected 5000 5]

/-- A fetch received no children, and a server is gone. -/
def Fetch.wiped (fetch : Fetch) : Bool :=
  fetch.first.received.isNone && fetch.after.svrSet ≠ fetch.before.svrSet

theorem Fetch.not_kept {fetch : Fetch} (wiped : fetch.wiped = true) : ¬fetch.Kept := by
  obtain ⟨none, differs⟩ := (Bool.and_eq_true _ _).mp wiped
  intro kept
  rw [Fetch.Kept, Option.isNone_iff_eq_none.mp none] at kept
  exact of_decide_eq_true differs (congrArg SvrList.svrSet kept)

theorem fetch_kept_iff_late :
    ∃ last, (fetchMachine oneServer []).run (fetchMachine oneServer []).start lateFetchRun =
        some last ∧ last.fetches.length = 2 ∧
      ∀ fetch ∈ last.fetches,
        (fetch.Kept ↔ fetch.first.received.isSome ∨ fetch.before = SvrList.empty) := by
  have reached : ((fetchMachine oneServer []).run (fetchMachine oneServer []).start
      lateFetchRun).any (fun run => run.fetches.length = 2) = true := by decide +kernel
  obtain ⟨last, reached, two⟩ := Machine.exists_of_check _ reached
  exact ⟨last, reached, of_decide_eq_true two,
    fetch_kept_iff oneServer [] lateFetchRun last reached⟩

theorem late_fetch_wipes :
    ¬∀ svrList garbage acts last,
      (fetchMachine svrList garbage).run (fetchMachine svrList garbage).start acts = some last →
        ∀ fetch ∈ last.fetches, fetch.Kept := by
  intro always
  have reached : ((fetchMachine oneServer []).run (fetchMachine oneServer []).start
      lateFetchRun).any (fun run => run.fetches.any Fetch.wiped) = true := by decide +kernel
  obtain ⟨last, reached, wiped⟩ := Machine.exists_of_check _ reached
  obtain ⟨fetch, member, wiped⟩ := List.any_eq_true.mp wiped
  exact Fetch.not_kept wiped (always oneServer [] lateFetchRun last reached fetch member)

end QServer
