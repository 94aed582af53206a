import QServer.Redis.RedisCmd

/-
This file models `redissvr`: its transactions, its redis connection and the callbacks that hiredis
keeps for it.
-/

namespace QServer
open Transition SvrCommTrans

/-- What a message pointer points to. The number of the callback is a record. -/
inductive RedisMsg
  | msgHead (head : MsgHead RedisCmdReq)
  | redisReply (reply : RedisReply) (callback : Nat)

/-- `static_cast<const redisReply *>`. A `MsgHead` that is read as a reply gives garbage. -/
def RedisMsg.cast (garbage : MsgHead RedisCmdReq → RedisReply) : RedisMsg → RedisReply
  | .msgHead head => garbage head
  | .redisReply reply _ => reply

/-- The states of `ClientBase`. -/
inductive ClientState
  | connecting
  | connected
  | disConnecting
  | disConnected
  | expired
  deriving DecidableEq

/-- A command that was submitted for the coroutine, with the request that asks for it. -/
structure Submission where
  head : MsgHead RedisCmdReq
  coId : CoId

/-- A registered `GetCallback`. Its data is the address of the `CoYield`, which keeps its slot and
its `co_id`. -/
structure Callback where
  number : Nat
  coId : CoId

/-- A response to the request of the submission with the number, or to one without submission. -/
structure Response where
  number : Option Nat
  head : MsgHead RedisCmdRsp

/-- The server, with the numbers of the commands that redis has and has not answered. -/
structure RedisRun where
  mgr : TransMgr RedisMsg
  state : ClientState
  submissions : List Submission
  callbacks : List Callback
  unanswered : List Nat
  produced : List (Nat × RedisReply)
  trace : List (CoEvent SharedTrans RedisMsg)
  responses : List Response

/-- A `TransRedisCmd` that starts with a message, and whether hiredis takes its command. -/
structure Job where
  head : MsgHead RedisCmdReq
  submits : Bool

namespace RedisRun

variable (garbage : MsgHead RedisCmdReq → RedisReply) (run : RedisRun)

def start : RedisRun :=
  ⟨(TransMgr.empty.registerCmd redisCmdReq 10000).1, .connecting, [], [], [], [], [], []⟩

/-- Redis answers every command but the empty one. -/
def submit (head : MsgHead RedisCmdReq) (coId : CoId) : RedisRun :=
  let number := run.submissions.length
  { run with
    submissions := run.submissions ++ [⟨head, coId⟩]
    callbacks := run.callbacks ++ [⟨number, coId⟩]
    unanswered := run.unanswered ++ if head.msg.command = .argv [] then [] else [number] }

/-- `Task` sends its response to the client of its own request. -/
def respond (number : Option Nat) (head : MsgHead RedisCmdReq)
    (result : Except CmdError (Option RedisReply)) : RedisRun :=
  { run with responses := run.responses ++ [⟨number, reply head (TransRedisCmd.respond result)⟩] }

/-- What `Task` does at a switch. The request of a suspended task is a local of its coroutine. -/
def observe (job : Option Job) (run : RedisRun) : CoEvent SharedTrans RedisMsg → RedisRun
  | .started _ _ =>
      match job with
      | some ⟨head, false⟩ => run.respond none head (.ok none)
      | _ => run
  | .yielded coId _ =>
      match job with
      | some ⟨head, true⟩ => run.submit head coId
      | _ => run
  | .returned _ call ret _ msg =>
      match run.submissions[call.number]? with
      | some submission => run.respond (some call.number) submission.head
          (RedisCmd.cmd ret (msg.map (RedisMsg.cast garbage)))
      | none => run
  | .finished _ _ => run

def record (job : Option Job) (outcome : MgrOutcome RedisMsg) : RedisRun :=
  let recorded := { run with mgr := outcome.mgr, trace := run.trace ++ outcome.events }
  outcome.events.foldl (observe garbage job) recorded

/-- The body of a started task yields once, after its command is submitted. -/
def Job.segment (now : Time) (ptr : Addr) : Option Job → Segment
  | some ⟨_, true⟩ => .yield now 5000 ptr
  | _ => .finish

/-- A command is submitted on a connected client when hiredis accepts it. -/
def job (head : MsgHead RedisCmdReq) (accepted : Bool) : Option Job :=
  if head.dstCoId = 0 then some ⟨head, run.state = .connected && accepted⟩ else none

def onMsg (head : MsgHead RedisCmdReq) (accepted : Bool) (now : Time) (ptr : Addr) :
    Option RedisRun :=
  let job := run.job head accepted
  (run.mgr.step (.onMsg ⟨head.cmd, head.dstCoId, .msgHead head⟩ (Job.segment now ptr job))).map
    (run.record garbage job)

/-- `GetCallback` resumes the coroutine of the `CoYield` outside of any other call. -/
def resume (coId : CoId) (msg : RedisMsg) : Option RedisRun :=
  if run.mgr.coTask.mainCall.isIdle then
    ((run.mgr.coTask.resumeOneWithMsg coId msg .finish).map run.mgr.settle).map
      (run.record garbage none)
  else none

/-- The next reply goes to the next callback. -/
def getCallback (reply : RedisReply) : Option RedisRun :=
  match run.callbacks, run.unanswered with
  | callback :: callbacks, number :: unanswered =>
      resume garbage { run with
        callbacks, unanswered, produced := run.produced ++ [(number, reply)] }
        callback.coId (.redisReply reply callback.number)
  | _, _ => none

end RedisRun

/-- The events of the loop of `redissvr`. -/
inductive RedisAct
  | setState (state : ClientState)
  | onMsg (head : MsgHead RedisCmdReq) (accepted : Bool) (now : Time) (ptr : Addr)
  | getCallback (reply : RedisReply)
  | tickTimeOutCo (now : Time)
  | proceed

def RedisRun.step (garbage : MsgHead RedisCmdReq → RedisReply) (run : RedisRun) :
    RedisAct → Option RedisRun
  | .setState state => some { run with state }
  | .onMsg head accepted now ptr => run.onMsg garbage head accepted now ptr
  | .getCallback reply => run.getCallback garbage reply
  | .tickTimeOutCo now => (run.mgr.step (.tickTimeOutCo now)).map (run.record garbage none)
  | .proceed => (run.mgr.step (.proceed .finish)).map (run.record garbage none)

/-- The server starts with all its `TransRedisCmd` objects in the pool. -/
theorem RedisRun.start_eq : RedisRun.start =
    ⟨⟨Finmap.insert redisCmdReq (List.range' 0 10000) ∅, CoTask.empty, fun _ => 0, 10000⟩,
      .connecting, [], [], [], [], [], []⟩ :=
  congrArg (fun mgr => RedisRun.mk mgr .connecting [] [] [] [] [] [])
    (TransMgr.registerCmd_empty redisCmdReq 9999)

end QServer
