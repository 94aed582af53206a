import QServer.Client.ClientBase
import QServer.Redis.RedisCmd

/-
This file models every path through a `TransRedisCmd` of `app/redissvr/main.cpp`, from its message
to its `SendMsg`.
-/

namespace QServer
open Transition Wire SvrCommTrans

/-- What a message pointer of a coroutine of `redissvr` points to. -/
inductive TaskMsg (Payload : Type)
  | msgHead (head : MsgHead Payload)
  | redisReply (reply : RedisReply)

/-- What `redissvr` uses of protobuf, and how a `MsgHead` looks when it is read as a reply. -/
structure RedisWire (Payload : Type) where
  req : ProtoCodec RedisCmdReq Payload
  rsp : ProtoCodec RedisCmdRsp Payload
  garbage : MsgHead Payload → RedisReply

/-- `static_cast<const redisReply *>`. -/
def RedisWire.cast {Payload : Type} (wire : RedisWire Payload) : TaskMsg Payload → RedisReply
  | .msgHead head => wire.garbage head
  | .redisReply reply => reply

/-- The message on the stack of the coroutine, with the number of its request. -/
structure TaskLocals (Payload : Type) where
  number : Nat
  msgHead : MsgHead Payload

/-- A message that went to `NetHandler::SendMsg`, with the number of the request of its task. -/
structure SentReply (Payload : Type) where
  number : Nat
  head : MsgHead Payload

/-- A message that may start a task, and whether the command in it gets to redis. -/
structure TaskStart (Payload : Type) where
  msgHead : MsgHead Payload
  submits : Bool

/-- The process with its coroutine stacks, its callbacks, its requests and its replies. -/
structure ServiceRun (Payload : Type) where
  -- A null message pointer is none.
  mgr : TransMgr (Option (TaskMsg Payload))
  state : ClientBase.State
  locals : CoId → Option (TaskLocals Payload)
  callbacks : List CoId
  accepted : List (MsgHead Payload)
  sent : List (SentReply Payload)

namespace ServiceRun

variable {Payload : Type} (wire : RedisWire Payload) (run : ServiceRun Payload)

def start (state : ClientBase.State) : ServiceRun Payload :=
  ⟨(TransMgr.empty.registerCmd redisCmdReq 10000).1, state, fun _ => none, [], [], []⟩

/-- The transactions that have not ended. -/
def active : Finset CoId := run.mgr.coTask.coPool.actionCoroutine.keys

/-- `SendMsg(msg_head, rsp)` stands after the last `catch`. -/
def sendMsg (locals : TaskLocals Payload) (result : Except CmdError (Option RedisReply)) :
    ServiceRun Payload :=
  let rsp := wire.rsp.serialize (TransRedisCmd.respond result)
  { run with sent := run.sent ++ [⟨locals.number, reply locals.msgHead rsp⟩] }

/-- `GetMsg` at the start of `Task`. -/
def getMsg (coId : CoId) (msgHead : MsgHead Payload) : ServiceRun Payload :=
  let locals : TaskLocals Payload := ⟨run.accepted.length, msgHead⟩
  { run with
    locals := Function.update run.locals coId (some locals)
    accepted := run.accepted ++ [msgHead] }

/-- `Task` goes on to its `Yield` only when the command is submitted. -/
def beginTask (coId : CoId) (task : TaskStart Payload) : ServiceRun Payload :=
  let moved := run.getMsg coId task.msgHead
  if task.submits then moved
  else moved.sendMsg wire ⟨run.accepted.length, task.msgHead⟩ (.ok none)

/-- The stack of a task ends with it. -/
def endTask (coId : CoId) : ServiceRun Payload :=
  { run with locals := Function.update run.locals coId none }

/-- The result of `ParseFromString` is not tested, so the command is what it came to. -/
def submits (head : MsgHead Payload) (hiredis : RedisCommand → Int) : Bool :=
  run.state = .kConnected && hiredis (wire.req.parse head.msg).1.command = 0

/-- What a task does at a switch. -/
def observe (task : Option (TaskStart Payload)) (run : ServiceRun Payload) :
    CoEvent SharedTrans (Option (TaskMsg Payload)) → ServiceRun Payload
  | .started coId _ =>
      match task with
      | some task => run.beginTask wire coId task
      | none => run
  | .yielded coId _ => { run with callbacks := run.callbacks ++ [coId] }
  | .returned coId _ ret _ msg =>
      match run.locals coId with
      | some locals => run.sendMsg wire locals (RedisCmd.cmd ret (msg.join.map wire.cast))
      | none => run
  | .finished coId _ => run.endTask coId

def record (task : Option (TaskStart Payload))
    (outcome : MgrOutcome (Option (TaskMsg Payload))) : ServiceRun Payload :=
  outcome.events.foldl (observe wire task) { run with mgr := outcome.mgr }

/-- A message without a coroutine may start a task. -/
def incoming (head : MsgHead Payload) (hiredis : RedisCommand → Int) :
    Option (TaskStart Payload) :=
  if head.dstCoId = 0 then some ⟨head, run.submits wire head hiredis⟩ else none

/-- The body of a task yields once, after its command is submitted. -/
def taskSegment (now : Time) (ptr : Addr) : Option (TaskStart Payload) → Segment
  | some ⟨_, true⟩ => .yield now 5000 ptr
  | _ => .finish

def onMsg (head : MsgHead Payload) (hiredis : RedisCommand → Int) (now : Time) (ptr : Addr) :
    Option (ServiceRun Payload) :=
  let task := run.incoming wire head hiredis
  (run.mgr.step (.onMsg ⟨head.cmd, head.dstCoId, some (.msgHead head)⟩
    (taskSegment now ptr task))).map (run.record wire task)

/-- `GetCallback` resumes the coroutine of its `CoYield`, outside of any other call. -/
def getCallback (coId : CoId) (reply : Option RedisReply) : Option (ServiceRun Payload) :=
  if run.mgr.coTask.mainCall.isIdle then
    ((run.mgr.coTask.resumeOneWithMsg coId (reply.map .redisReply) .finish).map
      run.mgr.settle).map (run.record wire none)
  else none

end ServiceRun

/-- The events of the loop of `redissvr`. -/
inductive ServiceAct (Payload : Type)
  | setState (state : ClientBase.State)
  -- The function gives the return value of hiredis for a command.
  | onMsg (head : MsgHead Payload) (hiredis : RedisCommand → Int) (now : Time) (ptr : Addr)
  -- A null reply tells a callback that the connection is lost.
  | getCallback (place : Nat) (reply : Option RedisReply)
  | tickTimeOutCo (now : Time)
  | proceed

def ServiceRun.step {Payload : Type} (wire : RedisWire Payload) (run : ServiceRun Payload) :
    ServiceAct Payload → Option (ServiceRun Payload)
  | .setState state => some { run with state }
  | .onMsg head hiredis now ptr => run.onMsg wire head hiredis now ptr
  | .getCallback place reply =>
      run.callbacks[place]?.bind fun coId =>
        ({ run with callbacks := run.callbacks.eraseIdx place } : ServiceRun Payload).getCallback
          wire coId reply
  | .tickTimeOutCo now => (run.mgr.step (.tickTimeOutCo now)).map (run.record wire none)
  | .proceed => (run.mgr.step (.proceed .finish)).map (run.record wire none)

/-- The server with every order of requests, callbacks and time-outs. -/
def serviceMachine {Payload : Type} (wire : RedisWire Payload) (state : ClientBase.State) :
    Machine (ServiceRun Payload) (ServiceAct Payload) :=
  ⟨ServiceRun.start state, fun run act => run.step wire act⟩

theorem ServiceRun.start_eq {Payload : Type} (state : ClientBase.State) :
    (ServiceRun.start state : ServiceRun Payload) =
      ⟨⟨Finmap.insert redisCmdReq (List.range' 0 10000) ∅, CoTask.empty, fun _ => 0, 10000⟩,
        state, fun _ => none, [], [], []⟩ :=
  congrArg (fun mgr => ServiceRun.mk mgr state (fun _ => none) [] [] [])
    (TransMgr.registerCmd_empty redisCmdReq 9999)

end QServer
