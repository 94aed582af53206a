import QServer.Co.Waits
import QServer.Discovery.SvrList
import QServer.Lib.Machine

/-
This file models the discovery of `app/common/app_base.h`: the coroutines of `AppBase`, their
requests through `ZooCmd` and ZooKeeper with the node "/online_servers".
-/

namespace QServer
open Transition Wire

/-- The tasks that `Init` and `Watcher` give to `DoTack`. -/
inductive AppTask
  | registration
  | getServers

/-- The calls of `ZooCmd` in these tasks. The first one is the `WGetChildRen` of `Init`. -/
inductive ZooCall
  | registerWatch
  | create
  | getChildren
  | wGetChildRen
  deriving DecidableEq

def AppTask.first : AppTask → ZooCall
  | .registration => .registerWatch
  | .getServers => .getChildren

/-- The call that follows in the same task. -/
def ZooCall.next : ZooCall → Option ZooCall
  | .registerWatch => some .create
  | .create => none
  | .getChildren => some .wGetChildRen
  | .wGetChildRen => none

/-- What `SVDataCompletion` and `SDataCompletion` pass to `ResumeOneWithMsg`. -/
inductive ZooMsg
  | strings (names : List Bytes)
  | value

/-- `*(std::vector<std::string> *)`. The value of a string completion reads as garbage. -/
def ZooMsg.vector (garbage : List Bytes) : ZooMsg → List Bytes
  | .strings names => names
  | .value => garbage

/-- `GetChildren` from its `Yield` on. -/
def ZooCmd.getChildren (garbage : List Bytes) (ret : Int) (msg : Option ZooMsg) : List Bytes :=
  if ret = 0 then (msg.map (ZooMsg.vector garbage)).getD [] else []

/-- `GetServers` between its two requests. -/
def getServers (svrList : SvrList) (root : List Bytes) : SvrList :=
  root.foldl SvrList.addSvr svrList.clear

/-- The data of a request is the address of its `CoYield`, which keeps the `co_id`. -/
structure ZooRequest where
  coId : CoId
  call : ZooCall

structure ZooCompletion where
  request : ZooRequest
  msg : ZooMsg

/-- ZooKeeper with the session of one client, and what the client has still to get. -/
structure ZooKeeper where
  children : Finset Bytes
  childWatch : Bool
  requests : List ZooRequest
  completions : List ZooCompletion
  childEvents : Nat
  -- A record: the children in the last answer to `GetChildren`.
  listed : Finset Bytes

namespace ZooKeeper

def empty : ZooKeeper := ⟨∅, false, [], [], 0, ∅⟩

variable (zoo : ZooKeeper)

def submit (request : ZooRequest) : ZooKeeper := { zoo with requests := zoo.requests ++ [request] }

/-- The watch fires once, on the first change of the children. -/
def change (children : Finset Bytes) : ZooKeeper :=
  { zoo with
    children
    childWatch := false
    childEvents := if zoo.childWatch then zoo.childEvents + 1 else zoo.childEvents }

def answer (request : ZooRequest) (rest : List ZooRequest) (msg : ZooMsg) : ZooKeeper :=
  { zoo with requests := rest, completions := zoo.completions ++ [⟨request, msg⟩] }

/-- ZooKeeper takes the next request, which does not fail. The children come in any order. -/
def process (selfId : Bytes) (order : List Bytes) : Option ZooKeeper :=
  match zoo.requests with
  | [] => none
  | request :: rest =>
      if request.call = .create then
        if selfId ∈ zoo.children then none
        else some ((zoo.answer request rest .value).change (insert selfId zoo.children))
      else if order.Nodup ∧ order.toFinset = zoo.children then
        let answered := zoo.answer request rest (.strings order)
        if request.call = .getChildren then some { answered with listed := zoo.children }
        else some { answered with childWatch := true }
      else none

/-- All that ZooKeeper can do with the request that it takes. -/
inductive Processed (selfId : Bytes) (order : List Bytes) (request : ZooRequest)
    (rest : List ZooRequest) : ZooKeeper → Prop
  | created (creates : request.call = .create) (absent : selfId ∉ zoo.children) :
      Processed selfId order request rest
        ((zoo.answer request rest .value).change (insert selfId zoo.children))
  | listed (lists : request.call = .getChildren) (whole : order.toFinset = zoo.children) :
      Processed selfId order request rest
        { zoo.answer request rest (.strings order) with listed := zoo.children }
  | watched (creates : request.call ≠ .create) (lists : request.call ≠ .getChildren)
      (whole : order.toFinset = zoo.children) :
      Processed selfId order request rest
        { zoo.answer request rest (.strings order) with childWatch := true }

theorem process_cases {zoo next : ZooKeeper} {selfId : Bytes} {order : List Bytes}
    (processed : zoo.process selfId order = some next) :
    ∃ request rest, zoo.requests = request :: rest ∧
      zoo.Processed selfId order request rest next := by
  unfold process at processed
  split at processed
  · cases processed
  · rename_i request rest taken
    refine ⟨request, rest, taken, ?_⟩
    split_ifs at processed with creates known whole lists
    · cases processed
      exact .created creates known
    · cases processed
      exact .listed lists whole.2
    · cases processed
      exact .watched creates lists whole.2

end ZooKeeper

/-- A process that runs `AppBase` beside ZooKeeper. The calls are listed in the order of their
`Yield`. -/
structure AppRun where
  coTask : CoTask AppTask ZooMsg
  svrList : SvrList
  reported : Bool
  calls : List ZooCall
  zoo : ZooKeeper

namespace AppRun

def start : AppRun := ⟨CoTask.empty, SvrList.empty, false, [], ZooKeeper.empty⟩

variable (garbage : List Bytes) (run : AppRun)

/-- What the running task does at a switch. -/
def observe (next : Option ZooCall) (run : AppRun) : CoEvent AppTask ZooMsg → AppRun
  | .returned _ call ret _ msg =>
      if run.calls[call.number]? = some .getChildren then
        { run with svrList := getServers run.svrList (ZooCmd.getChildren garbage ret msg) }
      else run
  | .yielded coId _ =>
      match next with
      | some call =>
          { run with calls := run.calls ++ [call], zoo := run.zoo.submit ⟨coId, call⟩ }
      | none => run
  | _ => run

def record (next : Option ZooCall) (outcome : Outcome AppTask ZooMsg) : AppRun :=
  outcome.events.foldl (observe garbage next) { run with coTask := outcome.coTask }

/-- `Yield` waits 5000 ms by default. -/
def segment (now : Time) (ptr : Addr) : Option ZooCall → Segment
  | some _ => .yield now 5000 ptr
  | none => .finish

def doTack (task : AppTask) (now : Time) (ptr : Addr) : Option AppRun :=
  if run.coTask.mainCall.isIdle then
    (run.coTask.doTack task (segment now ptr (some task.first))).map
      (run.record garbage (some task.first))
  else none

/-- The next call of the task that waits under the `co_id`. -/
def nextCall (coId : CoId) : Option ZooCall :=
  ((run.coTask.waits coId).bind fun call => run.calls[call.number]?).bind ZooCall.next

/-- The client gets the completions in the order of its requests. -/
def complete (now : Time) (ptr : Addr) : Option AppRun :=
  match run.zoo.completions with
  | [] => none
  | completion :: completions =>
      let coId := completion.request.coId
      let taken := { run with zoo := { run.zoo with completions } }
      if run.coTask.mainCall.isIdle then
        (run.coTask.resumeOneWithMsg coId completion.msg
          (segment now ptr (run.nextCall coId))).map (taken.record garbage (run.nextCall coId))
      else none

/-- `DefaultWatcher` calls `Watcher` for a child event. -/
def watcher (now : Time) (ptr : Addr) : Option AppRun :=
  match run.zoo.childEvents with
  | 0 => none
  | childEvents + 1 =>
      doTack garbage { run with zoo := { run.zoo with childEvents } } .getServers now ptr

end AppRun

/-- The events of the process and of ZooKeeper. -/
inductive AppAct
  | report (now : Time) (ptr : Addr)
  | join (name : Bytes)
  | leave (name : Bytes)
  | process (order : List Bytes)
  | complete (now : Time) (ptr : Addr)
  | watcher (now : Time) (ptr : Addr)
  | doTimeOutTask (now : Time)
  | proceed

/-- A turn of `DoTimeOutTask` that ends a `Yield` is no step, because nothing times out. -/
def AppRun.step (selfId : Bytes) (garbage : List Bytes) (run : AppRun) : AppAct → Option AppRun
  | .report now ptr =>
      if run.reported then none
      else AppRun.doTack garbage { run with reported := true } .registration now ptr
  | .join name =>
      if name ∈ run.zoo.children then none
      else some { run with zoo := run.zoo.change (insert name run.zoo.children) }
  | .leave name =>
      if name ∈ run.zoo.children then
        some { run with zoo := run.zoo.change (run.zoo.children.erase name) }
      else none
  | .process order => (run.zoo.process selfId order).map fun zoo => { run with zoo }
  | .complete now ptr => run.complete garbage now ptr
  | .watcher now ptr => run.watcher garbage now ptr
  | .doTimeOutTask now =>
      if run.coTask.mainCall.isIdle then
        some { run with coTask := run.coTask.doTimeOutTask now }
      else none
  | .proceed => (run.coTask.proceed .finish).bind fun outcome =>
      if outcome.events.isEmpty then some { run with coTask := outcome.coTask } else none

namespace AppRun

/-- All that a step can do. -/
inductive Performed (selfId : Bytes) (garbage : List Bytes) (run : AppRun) :
    AppAct → AppRun → Prop
  | report {now : Time} {ptr : Addr} {next : AppRun} (first : run.reported = false)
      (made : doTack garbage { run with reported := true } .registration now ptr = some next) :
      Performed selfId garbage run (.report now ptr) next
  | join {name : Bytes} (absent : name ∉ run.zoo.children) :
      Performed selfId garbage run (.join name)
        { run with zoo := run.zoo.change (insert name run.zoo.children) }
  | leave {name : Bytes} (member : name ∈ run.zoo.children) :
      Performed selfId garbage run (.leave name)
        { run with zoo := run.zoo.change (run.zoo.children.erase name) }
  | process {order : List Bytes} {zoo : ZooKeeper}
      (processed : run.zoo.process selfId order = some zoo) :
      Performed selfId garbage run (.process order) { run with zoo }
  | complete {now : Time} {ptr : Addr} {next : AppRun} {completion : ZooCompletion}
      {completions : List ZooCompletion} (got : run.zoo.completions = completion :: completions)
      (woken : run.complete garbage now ptr = some next) :
      Performed selfId garbage run (.complete now ptr) next
  | watcher {now : Time} {ptr : Addr} {next : AppRun} {childEvents : Nat}
      (fired : run.zoo.childEvents = childEvents + 1)
      (made : doTack garbage { run with zoo := { run.zoo with childEvents } } .getServers now ptr =
        some next) :
      Performed selfId garbage run (.watcher now ptr) next
  | doTimeOutTask {now : Time} (idle : run.coTask.mainCall.isIdle = true) :
      Performed selfId garbage run (.doTimeOutTask now)
        { run with coTask := run.coTask.doTimeOutTask now }
  | proceed {outcome : Outcome AppTask ZooMsg}
      (proceeded : run.coTask.proceed .finish = some outcome) (silent : outcome.events = []) :
      Performed selfId garbage run .proceed { run with coTask := outcome.coTask }

theorem step_cases {selfId : Bytes} {garbage : List Bytes} {run next : AppRun} {act : AppAct}
    (stepped : run.step selfId garbage act = some next) :
    Performed selfId garbage run act next := by
  cases act with
  | report now ptr =>
      obtain ⟨first, made⟩ := Option.ite_none_left_eq_some.mp stepped
      exact .report (Bool.not_eq_true _ ▸ first) made
  | join name =>
      obtain ⟨absent, joined⟩ := Option.ite_none_left_eq_some.mp stepped
      cases joined
      exact .join absent
  | leave name =>
      obtain ⟨member, left⟩ := Option.ite_none_right_eq_some.mp stepped
      cases left
      exact .leave member
  | process order =>
      obtain ⟨zoo, processed, rfl⟩ := Option.map_eq_some_iff.mp stepped
      exact .process processed
  | complete now ptr =>
      cases got : run.zoo.completions with
      | nil =>
          rw [step, complete, got] at stepped
          cases stepped
      | cons completion completions => exact .complete got stepped
  | watcher now ptr =>
      cases fired : run.zoo.childEvents with
      | zero =>
          rw [step, watcher, fired] at stepped
          cases stepped
      | succ childEvents =>
          rw [step, watcher, fired] at stepped
          exact .watcher fired stepped
  | doTimeOutTask now =>
      obtain ⟨idle, turned⟩ := Option.ite_none_right_eq_some.mp stepped
      cases turned
      exact .doTimeOutTask idle
  | proceed =>
      obtain ⟨outcome, proceeded, turned⟩ := Option.bind_eq_some_iff.mp stepped
      obtain ⟨silent, same⟩ := Option.ite_none_right_eq_some.mp turned
      cases same
      exact .proceed proceeded (List.isEmpty_iff.mp silent)

end AppRun

/-- The process with every order of changes, requests, completions and child events. -/
def appMachine (selfId : Bytes) (garbage : List Bytes) : Machine AppRun AppAct :=
  ⟨AppRun.start, fun run act => run.step selfId garbage act⟩

end QServer
